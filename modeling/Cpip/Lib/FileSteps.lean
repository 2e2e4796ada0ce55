import Cpip.Lib.FileTree
import Cpip.Lib.Overlay

/-!
# Sequences of file steps

A program that works on files step by step may be broken off before any step, and leaves what it has
done by then.  Steps within a part of a tree leave the rest alone and see nothing of it.  Copying
files into an empty directory gives a directory with these files, when none of them lies where
another one needs a directory.
-/

/-- A single step on a file tree. -/
inductive FileStep (β : Type*) where
  /-- `mkdir(exist_ok=True)` in a directory. -/
  | ensureDir (l : Loc)
  | mkdir (l : Loc)
  | write (l : Loc) (b : β)
  /-- Writes a file to a path, or into the directory there under the name. -/
  | copyTo (l : Loc) (name : String) (b : β)
  /-- Removes a node, after what lies below it. -/
  | remove (l : Loc)

/-- Why a sequence of steps ends early: a step fails, or it is broken off. -/
inductive StepExc where
  | file (e : FileError)
  | fault
  deriving DecidableEq, Repr

namespace FileStep

open FileTree

variable {β : Type*}

def step : FileStep β → FileTree β → Except FileError (FileTree β)
  | .ensureDir l, t => if t.IsDir l then .ok t else t.mkdir l
  | .mkdir l, t => t.mkdir l
  | .write l b, t => t.write l b
  | .copyTo l name b, t => t.write (if t.IsDir l then l ++ [name] else l) b
  | .remove l, t => .ok (t.prune l)

theorem step_ensureDir (l : Loc) (t : FileTree β) :
    (ensureDir l).step t = if t.IsDir l then .ok t else t.mkdir l := rfl

theorem step_copyTo (l : Loc) (name : String) (b : β) (t : FileTree β) :
    (copyTo l name b).step t = t.write (if t.IsDir l then l ++ [name] else l) b := rfl

def run : List (FileStep β) → FileTree β → Except FileError Unit × FileTree β
  | [], t => (.ok (), t)
  | s :: rest, t =>
    match s.step t with
    | .ok t' => run rest t'
    | .error e => (.error e, t)

/-- The steps, unless they are broken off after so many of them. -/
def perform (fault : Option ℕ) (steps : List (FileStep β)) (t : FileTree β) :
    Except StepExc Unit × FileTree β :=
  match fault with
  | none => ((run steps t).1.mapError .file, (run steps t).2)
  | some k =>
    if k < steps.length then
      match run (steps.take k) t with
      | (.error e, t') => (.error (.file e), t')
      | (.ok _, t') => (.error .fault, t')
    else ((run steps t).1.mapError .file, (run steps t).2)

/-- The steps are not broken off before their end. -/
def Unbroken (fault : Option ℕ) (steps : List (FileStep β)) : Prop :=
  ∀ k, fault = some k → steps.length ≤ k

instance (fault : Option ℕ) (steps : List (FileStep β)) : Decidable (Unbroken fault steps) :=
  match fault with
  | none => isTrue nofun
  | some k => decidable_of_iff (steps.length ≤ k) (by simp [Unbroken])

theorem run_cons_of_ok {s : FileStep β} {t t' : FileTree β} (h : s.step t = .ok t')
    (rest : List (FileStep β)) : run (s :: rest) t = run rest t' := by
  rw [run, h]

theorem run_append_of_ok {steps : List (FileStep β)} {t t' : FileTree β}
    (h : run steps t = (.ok (), t')) (rest : List (FileStep β)) :
    run (steps ++ rest) t = run rest t' := by
  induction steps generalizing t with
  | nil =>
    obtain rfl := (Prod.mk.inj h).2
    rfl
  | cons s steps ih =>
    rw [run] at h
    rw [List.cons_append, run]
    split at h
    · exact ih h
    · cases h

theorem perform_of_unbroken {fault : Option ℕ} {steps : List (FileStep β)}
    (h : Unbroken fault steps) (t : FileTree β) :
    perform fault steps t = ((run steps t).1.mapError .file, (run steps t).2) := by
  unfold perform
  split
  · rfl
  · next k => rw [if_neg (Nat.not_lt.2 (h k rfl))]

/-- What is left by steps that are broken off. -/
theorem snd_perform_some (k : ℕ) (steps : List (FileStep β)) (t : FileTree β) :
    (perform (some k) steps t).2 = (run (steps.take k) t).2 := by
  rw [perform]
  split_ifs with early
  · split
    · next same => rw [same]
    · next same => rw [same]
  · rw [List.take_of_length_le (Nat.le_of_not_lt early)]

/-- What is left by the steps that were taken. -/
theorem exists_take_of_perform (fault : Option ℕ) (steps : List (FileStep β)) (t : FileTree β) :
    ∃ k, (perform fault steps t).2 = (run (steps.take k) t).2 := by
  cases fault with
  | none => exact ⟨steps.length, by rw [List.take_length]; rfl⟩
  | some k => exact ⟨k, snd_perform_some k steps t⟩

/-- Removals do not fail. -/
theorem run_map_remove (ls : List Loc) (t : FileTree β) :
    run (ls.map remove) t = (.ok (), ls.foldl prune t) := by
  induction ls generalizing t with
  | nil => rfl
  | cons l ls ih => exact ih (t.prune l)

theorem sub_foldl_prune (ls : List Loc) (t : FileTree β) : Sub (ls.foldl prune t) t := by
  induction ls generalizing t with
  | nil => exact .refl t
  | cons l ls ih => exact (ih (t.prune l)).trans (sub_prune t l)

/-! ## Steps within a part of the tree -/

/-- The step is on a place of the part. -/
def Within (part : Loc → Prop) : FileStep β → Prop
  | .ensureDir l => part l
  | .mkdir l => part l
  | .write l _ => part l
  | .copyTo l _ _ => part l
  | .remove l => part l

theorem Within.mono {part part' : Loc → Prop} {s : FileStep β} (h : s.Within part)
    (wider : ∀ l, part l → part' l) : s.Within part' := by
  cases s with
  | ensureDir l => exact wider l h
  | mkdir l => exact wider l h
  | write l b => exact wider l h
  | copyTo l name b => exact wider l h
  | remove l => exact wider l h

theorem agreeOff_step {part : Loc → Prop} (closed : DownClosed part) {s : FileStep β}
    (within : s.Within part) {t t' : FileTree β} (h : s.step t = .ok t') : AgreeOff part t t' := by
  cases s with
  | ensureDir l =>
    rw [step_ensureDir] at h
    split_ifs at h
    · obtain rfl := Except.ok.inj h
      exact .refl part t
    · exact agreeOff_mkdir within h
  | mkdir l => exact agreeOff_mkdir within h
  | write l b => exact agreeOff_write within h
  | copyTo l name b =>
    refine agreeOff_write ?_ h
    split_ifs
    · exact closed l _ within (List.prefix_append l [name])
    · exact within
  | remove l =>
    obtain rfl := Except.ok.inj h
    exact agreeOff_prune closed within

theorem agreeOff_run {part : Loc → Prop} (closed : DownClosed part) {steps : List (FileStep β)}
    (within : ∀ s ∈ steps, s.Within part) (t : FileTree β) : AgreeOff part t (run steps t).2 := by
  induction steps generalizing t with
  | nil => exact .refl part t
  | cons s steps ih =>
    rw [List.forall_mem_cons] at within
    rw [run]
    split
    · next t' h => exact (agreeOff_step closed within.1 h).trans (ih within.2 t')
    · exact .refl part t

theorem agreeOff_perform {part : Loc → Prop} (closed : DownClosed part) {steps : List (FileStep β)}
    (within : ∀ s ∈ steps, s.Within part) (fault : Option ℕ) (t : FileTree β) :
    AgreeOff part t (perform fault steps t).2 := by
  obtain ⟨k, left⟩ := exists_take_of_perform fault steps t
  rw [left]
  exact agreeOff_run closed (fun s mem => within s (List.mem_of_mem_take mem)) t

/-- The trees have the same nodes at a place and below it. -/
def SameBelow (d : Loc) (t t' : FileTree β) : Prop := ∀ l, Below d l → t.node? l = t'.node? l

theorem SameBelow.symm {d : Loc} {t t' : FileTree β} (h : SameBelow d t t') : SameBelow d t' t :=
  fun l below => (h l below).symm

theorem SameBelow.isDir {d l : Loc} {t t' : FileTree β} (h : SameBelow d t t') (below : Below d l) :
    t.IsDir l ↔ t'.IsDir l := by
  rw [IsDir, IsDir, h l below]

theorem below_dropLast_of_inner {d l : Loc} (h : Inner d l) : Below d l.dropLast := by
  obtain ⟨rest, nonempty, rfl⟩ := h
  rw [List.dropLast_append_of_ne_nil nonempty]
  exact List.prefix_append d _

theorem below_of_inner {d l : Loc} (h : Inner d l) : Below d l := by
  obtain ⟨rest, -, rfl⟩ := h
  exact List.prefix_append d rest

section SameBelow

variable {d : Loc} {t t' t₁ : FileTree β}

theorem SameBelow.mkdir (same : SameBelow d t t') {l : Loc} (inner : Inner d l)
    (h : t.mkdir l = .ok t₁) : ∃ t₂, t'.mkdir l = .ok t₂ ∧ SameBelow d t₁ t₂ := by
  obtain ⟨free, after⟩ := mkdir_eq_ok h
  have parent : t.IsDir l.dropLast := by
    unfold FileTree.mkdir at h
    split_ifs at h with parent
    exact parent
  obtain ⟨t₂, made⟩ := exists_mkdir ((same l (below_of_inner inner)).symm.trans free)
    ((same.isDir (below_dropLast_of_inner inner)).1 parent)
  refine ⟨t₂, made, fun l' below => ?_⟩
  rw [after, (mkdir_eq_ok made).2, same l' below]

theorem SameBelow.write (same : SameBelow d t t') {l : Loc} {b : β} (inner : Inner d l)
    (h : t.write l b = .ok t₁) : ∃ t₂, t'.write l b = .ok t₂ ∧ SameBelow d t₁ t₂ := by
  obtain ⟨directory, parent, after⟩ := write_eq_ok h
  obtain ⟨t₂, written⟩ := exists_write b
    (fun dir => directory ((same.isDir (below_of_inner inner)).2 dir))
    ((same.isDir (below_dropLast_of_inner inner)).1 parent)
  refine ⟨t₂, written, fun l' below => ?_⟩
  rw [after, (write_eq_ok written).2.2, same l' below]

/-- A step below a place does not depend on what is elsewhere. -/
theorem SameBelow.step (same : SameBelow d t t') {s : FileStep β} (within : s.Within (Inner d))
    (h : s.step t = .ok t₁) : ∃ t₂, s.step t' = .ok t₂ ∧ SameBelow d t₁ t₂ := by
  cases s with
  | ensureDir l =>
    have there := same.isDir (below_of_inner within)
    rw [step_ensureDir] at h ⊢
    by_cases dir : t.IsDir l
    · rw [if_pos dir] at h
      obtain rfl := Except.ok.inj h
      exact ⟨t', if_pos (there.1 dir), same⟩
    · rw [if_neg dir] at h
      rw [if_neg fun dir' => dir (there.2 dir')]
      exact same.mkdir within h
  | mkdir l => exact same.mkdir within h
  | write l b => exact same.write within h
  | copyTo l name b =>
    have there := same.isDir (below_of_inner within)
    rw [step_copyTo] at h ⊢
    by_cases dir : t.IsDir l
    · rw [if_pos dir] at h
      rw [if_pos (there.1 dir)]
      exact same.write (downClosed_inner d l _ within (List.prefix_append l [name])) h
    · rw [if_neg dir] at h
      rw [if_neg fun dir' => dir (there.2 dir')]
      exact same.write within h
  | remove l =>
    obtain rfl := Except.ok.inj h
    refine ⟨t'.prune l, rfl, fun l' below => ?_⟩
    rw [node?_prune, node?_prune, same l' below]

theorem SameBelow.run (same : SameBelow d t t') {steps : List (FileStep β)}
    (within : ∀ s ∈ steps, s.Within (Inner d)) :
    SameBelow d (run steps t).2 (run steps t').2 := by
  induction steps generalizing t t' with
  | nil => exact same
  | cons s steps ih =>
    rw [List.forall_mem_cons] at within
    rw [FileStep.run, FileStep.run]
    cases first : s.step t with
    | ok t₁ =>
      obtain ⟨t₂, second, same'⟩ := same.step within.1 first
      rw [second]
      exact ih same' within.2
    | error e =>
      cases second : s.step t' with
      | ok t₂ =>
        obtain ⟨t₁, ok, -⟩ := same.symm.step within.1 second
        cases first.symm.trans ok
      | error e' => exact same

end SameBelow

/-! ## The files below a directory -/

/-- The content of the file at a path below a directory. -/
def fileAt (t : FileTree β) (d p : Loc) : Option β :=
  match t.node? (d ++ p) with
  | some (.file b) => some b
  | _ => none

/-- The files below a directory, with their paths from there. -/
def filesIn (t : FileTree β) (d : Loc) : List (Loc × β) :=
  (t.copies d []).filterMap fun e =>
    match e.2 with
    | .file b => some (e.1, b)
    | .dir => none

theorem fileAt_eq_some_iff {t : FileTree β} {d p : Loc} {b : β} :
    fileAt t d p = some b ↔ t.node? (d ++ p) = some (.file b) := by
  unfold fileAt
  split
  · next b' h => rw [h]; simp
  · next h => exact iff_of_false (by rintro ⟨⟩) fun file => h b file

theorem fileAt_congr {t t' : FileTree β} {d : Loc}
    (same : ∀ p, t'.node? (d ++ p) = t.node? (d ++ p)) : fileAt t' d = fileAt t d := by
  funext p
  rw [fileAt, same, fileAt]

theorem mem_filesIn {t : FileTree β} {d p : Loc} {b : β} :
    (p, b) ∈ filesIn t d ↔ p ≠ [] ∧ t.node? (d ++ p) = some (.file b) := by
  simp only [filesIn, List.mem_filterMap]
  constructor
  · rintro ⟨⟨l, n⟩, mem, same⟩
    obtain ⟨rest, nonempty, rfl, node⟩ := mem_copies.1 mem
    cases n with
    | dir => cases same
    | file b' =>
      cases same
      exact ⟨nonempty, node⟩
  · rintro ⟨nonempty, node⟩
    exact ⟨(p, .file b), mem_copies.2 ⟨p, nonempty, rfl, node⟩, rfl⟩

theorem nodup_filesIn (t : FileTree β) (d : Loc) : ((filesIn t d).map Prod.fst).Nodup := by
  have sublist : ∀ es : List (Loc × Node β),
      List.Sublist ((es.filterMap fun e =>
        match e.2 with
        | .file b => some (e.1, b)
        | .dir => none).map Prod.fst) (es.map Prod.fst) := by
    intro es
    induction es with
    | nil => exact List.Sublist.slnil
    | cons e es ih =>
      obtain ⟨l, n⟩ := e
      cases n with
      | file b => exact ih.cons_cons l
      | dir => exact ih.cons l
  exact (t.nodup_copies d []).sublist (sublist _)

/-! ## Copying files into a directory -/

/-- The directories of a path below a place are created where they are missing. -/
def ensureDirs : Loc → List String → List (FileStep β)
  | _, [] => []
  | cur, name :: rest => .ensureDir (cur ++ [name]) :: ensureDirs (cur ++ [name]) rest

/-- A file is copied to a path below a directory: its directories are created, the file is opened,
and then it has its content. -/
def copySteps (dst : Loc) (blank : β) (e : Loc × β) : List (FileStep β) :=
  ensureDirs dst e.1.dropLast ++
    [.copyTo (dst ++ e.1) (e.1.getLast?.getD "") blank,
      .copyTo (dst ++ e.1) (e.1.getLast?.getD "") e.2]

theorem within_ensureDirs (cur : Loc) (parts : List String) :
    ∀ s ∈ (ensureDirs cur parts : List (FileStep β)), s.Within (Inner cur) := by
  induction parts generalizing cur with
  | nil => exact fun s mem => absurd mem List.not_mem_nil
  | cons name parts ih =>
    rw [ensureDirs, List.forall_mem_cons]
    refine ⟨⟨[name], by simp, rfl⟩, fun s mem => (ih (cur ++ [name]) s mem).mono ?_⟩
    rintro _ ⟨rest, -, rfl⟩
    exact ⟨name :: rest, by simp, by simp⟩

theorem within_copySteps (dst : Loc) (blank : β) {e : Loc × β} (proper : e.1 ≠ []) :
    ∀ s ∈ copySteps dst blank e, s.Within (Inner dst) := by
  intro s mem
  rcases List.mem_append.1 mem with mem | mem
  · exact within_ensureDirs dst _ s mem
  · have here : Inner dst (dst ++ e.1) := ⟨e.1, proper, rfl⟩
    rcases List.mem_cons.1 mem with rfl | mem
    · exact here
    · rw [List.mem_singleton.1 mem]
      exact here

/-- The directories are there afterwards, and nothing else has changed. -/
theorem run_ensureDirs {t : FileTree β} {cur : Loc} {parts : List String} (dir : t.IsDir cur)
    (noFile : ∀ q, q ≠ [] → q <+: parts → ∀ b, t.node? (cur ++ q) ≠ some (.file b)) :
    ∃ t', run (ensureDirs cur parts) t = (.ok (), t') ∧
      (∀ q, q <+: parts → t'.IsDir (cur ++ q)) ∧
      ∀ l, (∀ q, q ≠ [] → q <+: parts → l ≠ cur ++ q) → t'.node? l = t.node? l := by
  induction parts generalizing cur t with
  | nil =>
    refine ⟨t, rfl, fun q sub => ?_, fun l _ => rfl⟩
    rw [List.prefix_nil.1 sub, List.append_nil]
    exact dir
  | cons name parts ih =>
    obtain ⟨t₁, made, here, others⟩ : ∃ t₁, (ensureDir (cur ++ [name])).step t = .ok t₁ ∧
        t₁.IsDir (cur ++ [name]) ∧ ∀ l, l ≠ cur ++ [name] → t₁.node? l = t.node? l := by
      rw [step_ensureDir]
      by_cases there : t.IsDir (cur ++ [name])
      · exact ⟨t, if_pos there, there, fun l _ => rfl⟩
      · have free : t.node? (cur ++ [name]) = none := by
          cases node : t.node? (cur ++ [name]) with
          | none => rfl
          | some n =>
            cases n with
            | dir => exact absurd node there
            | file b => exact absurd node (noFile [name] (by simp) (by simp) b)
        obtain ⟨t₁, made⟩ := exists_mkdir free (by rw [List.dropLast_concat]; exact dir)
        have after := (mkdir_eq_ok made).2
        refine ⟨t₁, by rw [if_neg there, made], ?_, fun l hl => ?_⟩
        · rw [IsDir, after, if_pos rfl]
        · rw [after, if_neg (Ne.symm hl)]
    have deeper (q : Loc) : cur ++ [name] ++ q = cur ++ name :: q := by simp
    obtain ⟨t', ran, dirs, same⟩ := ih here (by
      intro q nonempty sub b
      rw [others _ (by simpa using nonempty), deeper]
      exact noFile (name :: q) (by simp) (List.cons_prefix_cons.2 ⟨rfl, sub⟩) b)
    refine ⟨t', ?_, fun q sub => ?_, fun l apart => ?_⟩
    · rw [ensureDirs, run_cons_of_ok made, ran]
    · cases q with
      | nil =>
        rw [List.append_nil]
        exact isDir_of_below (dirs [] List.nil_prefix) (by simp [Below]) (by simp)
      | cons part q =>
        obtain ⟨rfl, sub'⟩ := List.cons_prefix_cons.1 sub
        exact deeper q ▸ dirs q sub'
    · rw [same l fun q _ sub => by
        rw [deeper]
        exact apart (name :: q) (by simp) (List.cons_prefix_cons.2 ⟨rfl, sub⟩)]
      exact others l (apart [name] (by simp) (by simp))

/-- Below the directory are the files of `g`, and no other directories than these need. -/
structure Reflects (dst : Loc) (g : Loc → Option β) (t : FileTree β) : Prop where
  isDir : t.IsDir dst
  file : ∀ p b, t.node? (dst ++ p) = some (.file b) ↔ g p = some b
  dir : ∀ p, p ≠ [] → t.IsDir (dst ++ p) → ∃ q, q ≠ [] ∧ (g (p ++ q)).isSome

/-- No file lies where another one needs a directory. -/
def Unnested (g : Loc → Option β) : Prop :=
  ∀ p q, (g p).isSome → q ≠ [] → g (p ++ q) = none

theorem Reflects.copy {dst : Loc} {g : Loc → Option β} {t : FileTree β} (h : Reflects dst g t)
    (blank : β) {p : Loc} (b : β) (proper : p ≠ [])
    (above : ∀ q, q ≠ [] → q <+: p → q ≠ p → g q = none)
    (below : ∀ q, q ≠ [] → g (p ++ q) = none) :
    ∃ t', run (copySteps dst blank (p, b)) t = (.ok (), t') ∧
      Reflects dst (Function.update g p (some b)) t' := by
  have apart (q : Loc) (sub : q <+: p.dropLast) : q ≠ p := by
    rintro rfl
    have short := sub.length_le
    have := List.length_pos_iff.2 proper
    rw [List.length_dropLast] at short
    omega
  have noFile : ∀ q, q ≠ [] → q <+: p.dropLast → ∀ b, t.node? (dst ++ q) ≠ some (.file b) := by
    intro q nonempty sub b file
    rw [h.file, above q nonempty (sub.trans (List.dropLast_prefix p)) (apart q sub)] at file
    cases file
  obtain ⟨t₁, made, dirs, others⟩ := run_ensureDirs h.isDir noFile
  have same (l : Loc) (hl : ∀ q, q <+: p.dropLast → l ≠ dst ++ q) : t₁.node? l = t.node? l :=
    others l fun q _ sub => hl q sub
  have parent : t₁.IsDir (dst ++ p).dropLast := by
    rw [List.dropLast_append_of_ne_nil proper]
    exact dirs _ (List.prefix_refl _)
  have free : ¬ t₁.IsDir (dst ++ p) := by
    intro directory
    rw [IsDir, same _ fun q sub eq => apart q sub (List.append_cancel_left eq).symm] at directory
    obtain ⟨q, nonempty, found⟩ := h.dir p proper directory
    rw [below q nonempty] at found
    cases found
  obtain ⟨t₂, opened⟩ := exists_write blank free parent
  have free' : ¬ t₂.IsDir (dst ++ p) := fun dir => free ((isDir_of_write opened _).1 dir)
  obtain ⟨t₃, filled⟩ := exists_write b free' ((isDir_of_write opened _).2 parent)
  have after (l : Loc) : t₃.node? l = if dst ++ p = l then some (.file b) else t₁.node? l := by
    rw [(write_eq_ok filled).2.2, (write_eq_ok opened).2.2]
    split_ifs <;> rfl
  have ran : run (copySteps dst blank (p, b)) t = (.ok (), t₃) := by
    have first : (copyTo (dst ++ p) (p.getLast?.getD "") blank).step t₁ = .ok t₂ := by
      rw [step_copyTo, if_neg free]
      exact opened
    have second : (copyTo (dst ++ p) (p.getLast?.getD "") b).step t₂ = .ok t₃ := by
      rw [step_copyTo, if_neg free']
      exact filled
    rw [copySteps, run_append_of_ok made, run_cons_of_ok first, run_cons_of_ok second]
    rfl
  refine ⟨t₃, ran, ?_, fun q b' => ?_, fun q nonempty directory => ?_⟩
  · rw [IsDir, after, if_neg (by simpa using proper)]
    exact List.append_nil dst ▸ dirs [] List.nil_prefix
  · rw [after]
    by_cases here : q = p
    · subst here
      rw [if_pos rfl, Function.update_self]
      simp
    · rw [if_neg fun eq => here (List.append_cancel_left eq).symm, Function.update_of_ne here]
      by_cases onPath : q <+: p.dropLast
      · -- A directory on the way to the file, which was no file before.
        rw [show t₁.node? (dst ++ q) = some .dir from dirs q onPath]
        refine iff_of_false nofun fun file => ?_
        by_cases top : q = []
        · subst top
          have node := (h.file [] b').2 file
          rw [List.append_nil, h.isDir] at node
          cases node
        · rw [above q top (onPath.trans (List.dropLast_prefix p)) (apart q onPath)] at file
          cases file
      · rw [same _ fun q' sub eq => onPath (by rwa [List.append_cancel_left eq])]
        exact h.file q b'
  · rw [IsDir, after] at directory
    have ne : q ≠ p := by
      rintro rfl
      rw [if_pos rfl] at directory
      cases directory
    rw [if_neg fun eq => ne (List.append_cancel_left eq).symm] at directory
    by_cases onPath : q <+: p.dropLast
    · obtain ⟨rest, split⟩ := onPath.trans (List.dropLast_prefix p)
      refine ⟨rest, ?_, ?_⟩
      · rintro rfl
        exact ne (by simpa using split)
      · rw [split, Function.update_self]
        rfl
    · rw [same _ fun q' sub eq => onPath (by rwa [List.append_cancel_left eq])] at directory
      obtain ⟨rest, nonempty', found⟩ := h.dir q nonempty directory
      refine ⟨rest, nonempty', ?_⟩
      by_cases last : q ++ rest = p
      · rw [last, Function.update_self]
        rfl
      · rw [Function.update_of_ne last]
        exact found

/-- Files none of which is in the way of another are all copied. -/
theorem Reflects.copyAll {dst : Loc} {g : Loc → Option β} {t : FileTree β} (h : Reflects dst g t)
    (blank : β) {es : List (Loc × β)} (proper : ∀ e ∈ es, e.1 ≠ [])
    (unnested : Unnested (Overlay.assignAll g es)) :
    ∃ t', run (es.flatMap (copySteps dst blank)) t = (.ok (), t') ∧
      Reflects dst (Overlay.assignAll g es) t' := by
  induction es generalizing g t with
  | nil => exact ⟨t, rfl, h⟩
  | cons e es ih =>
    rw [List.forall_mem_cons] at proper
    have last : (Overlay.assignAll g (e :: es) e.1).isSome :=
      Overlay.isSome_assignAll_of_mem g List.mem_cons_self
    have none_of (p : Loc) (absent : Overlay.assignAll g (e :: es) p = none) : g p = none := by
      by_contra present
      have kept := Overlay.isSome_assignAll (Option.ne_none_iff_isSome.1 present) (e :: es)
      rw [absent] at kept
      cases kept
    obtain ⟨t₁, first, reflects⟩ := h.copy blank e.2 proper.1
      (fun q _ sub ne => none_of q (by
        obtain ⟨rest, split⟩ := sub
        have nonempty : rest ≠ [] := by
          rintro rfl
          exact ne (by simpa using split)
        by_contra present
        rw [← split, unnested q rest (Option.ne_none_iff_isSome.1 present) nonempty] at last
        cases last))
      (fun q nonempty => none_of (e.1 ++ q) (unnested e.1 q last nonempty))
    obtain ⟨t', rest, done⟩ := ih reflects proper.2 unnested
    refine ⟨t', ?_, done⟩
    rw [List.flatMap_cons, run_append_of_ok first, rest]

end FileStep
