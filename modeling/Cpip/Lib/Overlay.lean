import Mathlib.Data.List.Induction
import Mathlib.Logic.Function.Basic

/-!
# Overlays of partial functions

Partial functions are laid over one another from left to right, and where several are defined the
last one wins.  Assigning the entries of each, one after the other and in any order within one,
gives the overlay.
-/

namespace Overlay

variable {α β : Type*}

/-- The partial functions from left to right, where a later one wins. -/
def overlay (fs : List (α → Option β)) (a : α) : Option β :=
  fs.foldl (fun found f => (f a).or found) none

@[simp]
theorem overlay_nil (a : α) : overlay ([] : List (α → Option β)) a = none := rfl

theorem overlay_concat (fs : List (α → Option β)) (f : α → Option β) (a : α) :
    overlay (fs ++ [f]) a = (f a).or (overlay fs a) := by
  rw [overlay, List.foldl_append]
  rfl

theorem exists_of_isSome_overlay {fs : List (α → Option β)} {a : α}
    (h : (overlay fs a).isSome) : ∃ f ∈ fs, (f a).isSome := by
  induction fs using List.reverseRecOn with
  | nil => cases h
  | append_singleton fs f ih =>
    rw [overlay_concat, Option.isSome_or, Bool.or_eq_true] at h
    rcases h with h | h
    · exact ⟨f, by simp, h⟩
    · obtain ⟨f', mem, h'⟩ := ih h
      exact ⟨f', List.mem_append_left [f] mem, h'⟩

section Assign

variable [DecidableEq α]

/-- The partial function after the entries were assigned. -/
def assignAll (g : α → Option β) (es : List (α × β)) : α → Option β :=
  es.foldl (fun g e => Function.update g e.1 (some e.2)) g

theorem assignAll_cons (g : α → Option β) (e : α × β) (es : List (α × β)) :
    assignAll g (e :: es) = assignAll (Function.update g e.1 (some e.2)) es := rfl

theorem assignAll_append (g : α → Option β) (es es' : List (α × β)) :
    assignAll g (es ++ es') = assignAll (assignAll g es) es' := List.foldl_append

/-- What is defined stays defined. -/
theorem isSome_assignAll {g : α → Option β} {a : α} (h : (g a).isSome) (es : List (α × β)) :
    (assignAll g es a).isSome := by
  induction es generalizing g with
  | nil => exact h
  | cons e es ih =>
    rw [assignAll_cons]
    apply ih
    by_cases same : a = e.1
    · rw [same, Function.update_self]
      rfl
    · rw [Function.update_of_ne same]
      exact h

theorem isSome_assignAll_of_mem (g : α → Option β) {e : α × β} {es : List (α × β)} (h : e ∈ es) :
    (assignAll g es e.1).isSome := by
  obtain ⟨before, after, rfl⟩ := List.append_of_mem h
  rw [assignAll_append, assignAll_cons]
  apply isSome_assignAll
  rw [Function.update_self]
  rfl

theorem assignAll_of_not_mem (g : α → Option β) {a : α} {es : List (α × β)}
    (h : a ∉ es.map Prod.fst) : assignAll g es a = g a := by
  induction es generalizing g with
  | nil => rfl
  | cons e es ih =>
    rw [List.map_cons, List.mem_cons, not_or] at h
    rw [assignAll_cons, ih _ h.2, Function.update_of_ne h.1]

/-- Assigning the entries of a partial function, in any order, lays it over what there was. -/
theorem assignAll_eq_or (g : α → Option β) {f : α → Option β} {es : List (α × β)}
    (nodup : (es.map Prod.fst).Nodup) (entries : ∀ a b, (a, b) ∈ es ↔ f a = some b) (a : α) :
    assignAll g es a = (f a).or (g a) := by
  cases value : f a with
  | none =>
    have absent : a ∉ es.map Prod.fst := by
      intro mem
      obtain ⟨⟨a', b⟩, entry, rfl⟩ := List.mem_map.1 mem
      cases ((entries a' b).1 entry).symm.trans value
    exact assignAll_of_not_mem g absent
  | some b =>
    obtain ⟨before, after, rfl⟩ := List.append_of_mem ((entries a b).2 value)
    rw [List.map_append, List.map_cons] at nodup
    have last : a ∉ after.map Prod.fst := (List.nodup_cons.1 (List.nodup_append.1 nodup).2.1).1
    rw [assignAll_append, assignAll_cons, assignAll_of_not_mem _ last, Function.update_self]
    rfl

/-- Assigning the entries of partial functions one after the other gives their overlay. -/
theorem assignAll_flatMap {ι : Type*} (is : List ι) {entries : ι → List (α × β)}
    {f : ι → α → Option β} (nodup : ∀ i ∈ is, ((entries i).map Prod.fst).Nodup)
    (lists : ∀ i ∈ is, ∀ a b, (a, b) ∈ entries i ↔ f i a = some b) (a : α) :
    assignAll (fun _ => none) (is.flatMap entries) a = overlay (is.map f) a := by
  induction is using List.reverseRecOn with
  | nil => rfl
  | append_singleton is i ih =>
    have here : i ∈ is ++ [i] := by simp
    rw [List.flatMap_append, List.flatMap_singleton, assignAll_append,
      assignAll_eq_or _ (nodup i here) (lists i here), List.map_append, List.map_singleton,
      overlay_concat]
    rw [ih (fun j mem => nodup j (List.mem_append_left [i] mem))
      fun j mem => lists j (List.mem_append_left [i] mem)]

end Assign

end Overlay
