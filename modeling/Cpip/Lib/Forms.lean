import Cpip.Lib.Proc
import Mathlib.Data.List.Basic

/-!
# Forms that are filled in place

A form asks for fields of a record one after another and assigns each answer as it comes, so what it
assigned before it broke off stays.  A record whose fields are asked for at most once is left as it
was exactly if every answer that was assigned repeats its field.
-/

/-- The fields of a record, which are read and assigned one by one. -/
structure Fields (ι ν ρ : Type) where
  get : ι → ρ → ν
  set : ι → ν → ρ → ρ
  get_set_self : ∀ i v r, get i (set i v r) = v
  get_set_of_ne : ∀ {i j}, i ≠ j → ∀ v r, get i (set j v r) = get i r
  set_get : ∀ i r, set i (get i r) r = r

namespace Fields

variable {ι ν ρ : Type} (F : Fields ι ν ρ)

/-- Assigns the answers in their order. -/
def setAll (answers : List (ι × ν)) (r : ρ) : ρ := answers.foldl (fun r a => F.set a.1 a.2 r) r

/-- Each answer is what its field holds. -/
def Repeats (answers : List (ι × ν)) (r : ρ) : Prop := ∀ a ∈ answers, F.get a.1 r = a.2

variable {F} {answers : List (ι × ν)} {r : ρ}

theorem get_setAll_of_notMem {i : ι} (h : i ∉ answers.map Prod.fst) :
    F.get i (F.setAll answers r) = F.get i r := by
  induction answers generalizing r with
  | nil => rfl
  | cons a rest ih =>
    rw [List.map_cons, List.mem_cons, not_or] at h
    exact (ih h.2).trans (F.get_set_of_ne h.1 a.2 r)

theorem get_setAll (once : (answers.map Prod.fst).Nodup) {a : ι × ν} (ha : a ∈ answers) :
    F.get a.1 (F.setAll answers r) = a.2 := by
  induction answers generalizing r with
  | nil => cases ha
  | cons b rest ih =>
    obtain ⟨fresh, once⟩ := List.nodup_cons.1 once
    obtain rfl | ha := List.mem_cons.1 ha
    · exact (get_setAll_of_notMem fresh).trans (F.get_set_self a.1 a.2 r)
    · exact ih once ha

theorem Repeats.setAll_eq (h : F.Repeats answers r) : F.setAll answers r = r := by
  induction answers with
  | nil => rfl
  | cons a rest ih =>
    obtain ⟨first, others⟩ := List.forall_mem_cons.1 h
    have unchanged : F.set a.1 a.2 r = r := by rw [← first, F.set_get]
    exact (congrArg (F.setAll rest) unchanged).trans (ih others)

theorem setAll_eq_self_iff (once : (answers.map Prod.fst).Nodup) :
    F.setAll answers r = r ↔ F.Repeats answers r := by
  refine ⟨fun same a ha => ?_, Repeats.setAll_eq⟩
  have assigned : F.get a.1 (F.setAll answers r) = a.2 := get_setAll once ha
  rwa [same] at assigned

end Fields

/-- A question of a form: the field it is for, how a reply is converted, and whether the form goes
on after a value. -/
structure Question (ι ν ε : Type) where
  field : ι
  convert : ν → Except ε ν
  goesOn : ν → Bool

/-- The replies that are still to come, and the record. -/
structure Interview (ν ε ρ : Type) where
  replies : List (Except ε ν)
  record : ρ

namespace Interview

variable {ι ν ε ρ : Type}

/-- Takes the next reply, which may raise; `closed` is raised where there is none. -/
def ask (closed : ε) : Proc (Interview ν ε ρ) ε ν := fun s =>
  match s.replies with
  | [] => (.error closed, s)
  | reply :: rest => (reply, { s with replies := rest })

def assign (f : ρ → ρ) : Proc (Interview ν ε ρ) ε Unit :=
  Proc.modify fun s => { s with record := f s.record }

/-- Fills a form in place. -/
def fill (F : Fields ι ν ρ) (closed : ε) : List (Question ι ν ε) → Proc (Interview ν ε ρ) ε Unit
  | [] => pure ()
  | q :: qs => do
    let v ← Proc.ofExcept (q.convert (← ask closed))
    assign (F.set q.field v)
    if q.goesOn v then fill F closed qs

end Interview

namespace Question

variable {ι ν ε ρ : Type} (closed : ε)

/-- The answers that are assigned when replies meet questions, and how that ends. -/
def answers : List (Question ι ν ε) → List (Except ε ν) → List (ι × ν) × Except ε Unit
  | [], _ => ([], .ok ())
  | _ :: _, [] => ([], .error closed)
  | _ :: _, .error e :: _ => ([], .error e)
  | q :: qs, .ok reply :: rest =>
    match q.convert reply with
    | .error e => ([], .error e)
    | .ok v =>
      if q.goesOn v then ((q.field, v) :: (answers qs rest).1, (answers qs rest).2)
      else ([(q.field, v)], .ok ())

theorem sublist_answers (qs : List (Question ι ν ε)) (replies : List (Except ε ν)) :
    ((answers closed qs replies).1.map Prod.fst).Sublist (qs.map Question.field) := by
  fun_induction answers closed qs replies with
  | case1 => exact List.nil_sublist _
  | case2 => exact List.nil_sublist _
  | case3 => exact List.nil_sublist _
  | case4 => exact List.nil_sublist _
  | case5 q qs reply rest v _ _ ih => exact ih.cons_cons q.field
  | case6 q qs reply rest v => exact (List.nil_sublist _).cons_cons q.field

/-- Filling a form in place assigns the answers and ends as they do. -/
theorem fill_eq (F : Fields ι ν ρ) (qs : List (Question ι ν ε)) (replies : List (Except ε ν))
    (r : ρ) : ∃ rest, Interview.fill F closed qs ⟨replies, r⟩ =
      ((answers closed qs replies).2, ⟨rest, F.setAll (answers closed qs replies).1 r⟩) := by
  induction qs generalizing replies r with
  | nil => exact ⟨replies, rfl⟩
  | cons q qs ih =>
    match replies with
    | [] => exact ⟨[], rfl⟩
    | .error e :: rest => exact ⟨rest, rfl⟩
    | .ok reply :: rest =>
      cases converted : q.convert reply with
      | error e =>
        refine ⟨rest, ?_⟩
        simp only [Interview.fill, Proc.bind_apply, Interview.ask, Proc.ofExcept, answers,
          converted]
        rfl
      | ok v =>
        simp only [Interview.fill, Proc.bind_apply, Interview.ask, Proc.ofExcept, Interview.assign,
          Proc.modify, answers, converted]
        cases q.goesOn v with
        | false => exact ⟨rest, rfl⟩
        | true => exact ih rest (F.set q.field v r)

end Question
