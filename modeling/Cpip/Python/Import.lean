import Cpip.Lib.Dict
import Mathlib.Data.List.Induction

/-!
# Imports

The import system as an interpreter of module code.  A module is an object with attributes, its
code is any tree of operations on the interpreter, and a tree of modules gives the code that is
found for a path.  The fuel bounds how deep imports nest.
-/

namespace Cpip

/-- `["a", "b"]` for `a.b`. -/
abbrev ModPath := List String

abbrev Obj := ℕ

inductive Raised where
  | moduleNotFound (path : ModPath)
  | attributeError (name : String)
  | nameError (name : String)
  | valueError (message : String)
  | other (text : String)
  deriving DecidableEq, Repr

/-- The objects, their attributes and `sys.modules`. -/
structure Interp where
  objects : ℕ
  attrs : Dict (Obj × String) Obj
  modules : Dict ModPath Obj
  deriving DecidableEq

namespace Interp

/-- An interpreter that has not run anything. -/
def fresh : Interp := ⟨0, ∅, ∅⟩

/-- `path in sys.modules`. -/
def Loaded (s : Interp) (path : ModPath) : Prop := (s.modules.get? path).isSome

instance (s : Interp) : DecidablePred s.Loaded := fun path =>
  inferInstanceAs (Decidable ((s.modules.get? path).isSome = true))

def setattr (s : Interp) (o : Obj) (name : String) (value : Obj) : Interp :=
  { s with attrs := s.attrs.set (o, name) value }

def setModule (s : Interp) (path : ModPath) (o : Obj) : Interp :=
  { s with modules := s.modules.set path o }

def popModule (s : Interp) (path : ModPath) : Interp := { s with modules := s.modules.pop path }

/-- A new object, which is the number of objects that exist. -/
def alloc (s : Interp) : Interp := { s with objects := s.objects + 1 }

/-- `getattr` along the names. -/
def getattrs (s : Interp) (o : Obj) : List String → Except Raised Obj
  | [] => .ok o
  | name :: names =>
    match s.attrs.get? (o, name) with
    | none => .error (.attributeError name)
    | some o' => s.getattrs o' names

/-- The module is set as an attribute of its parent. -/
def bindChild (s : Interp) (parent : Option Obj) (path : ModPath) : Interp :=
  match parent, s.modules.get? path with
  | some o, some child => s.setattr o (path.getLast?.getD "") child
  | _, _ => s

/-- Modules and attributes are as they were; there may be new ones. -/
structure Extends (s s' : Interp) : Prop where
  modules : ∀ path o, s.modules.get? path = some o → s'.modules.get? path = some o
  attrs : ∀ o name o', s.attrs.get? (o, name) = some o' → s'.attrs.get? (o, name) = some o'

/-- Nothing that is loaded is missing afterwards. -/
def Keeps (s s' : Interp) : Prop := ∀ path, s.Loaded path → s'.Loaded path

/-- The packages that a loaded module is in are loaded. -/
def Coherent (s : Interp) : Prop :=
  ∀ path name, path ≠ [] → s.Loaded (path ++ [name]) → s.Loaded path

theorem Keeps.trans {s s' s'' : Interp} (h : s.Keeps s') (h' : s'.Keeps s'') : s.Keeps s'' :=
  fun path loaded => h' path (h path loaded)

theorem keeps_setModule (s : Interp) (path : ModPath) (o : Obj) : s.Keeps (s.setModule path o) := by
  intro path' loaded
  show ((s.modules.set path o).get? path').isSome
  rw [Dict.get?_set]
  split_ifs
  · rfl
  · exact loaded

theorem loaded_setModule (s : Interp) (path : ModPath) (o : Obj) :
    (s.setModule path o).Loaded path := by
  show ((s.modules.set path o).get? path).isSome
  rw [Dict.get?_set_self]
  rfl

theorem keeps_bindChild (s : Interp) (parent : Option Obj) (path : ModPath) :
    s.Keeps (s.bindChild parent path) := by
  intro path' loaded
  unfold bindChild
  split
  · exact loaded
  · exact loaded

theorem coherent_fresh : fresh.Coherent := fun _ _ _ loaded => by cases loaded

/-- A loaded module's packages, all the way up. -/
theorem Coherent.loaded_of_prefix {s : Interp} (h : s.Coherent) {path : ModPath}
    (loaded : s.Loaded path) {part : ModPath} (nonempty : part ≠ []) (sub : part <+: path) :
    s.Loaded part := by
  induction path using List.reverseRecOn with
  | nil => exact absurd (List.prefix_nil.1 sub) nonempty
  | append_singleton path name ih =>
    rcases List.prefix_concat_iff.1 sub with same | sub
    · rw [same]
      simpa using loaded
    · have parent : path ≠ [] := by
        rintro rfl
        exact nonempty (List.prefix_nil.1 sub)
      exact ih (h path name parent loaded) sub

theorem getattrs_append (s : Interp) (o : Obj) (names names' : List String) :
    s.getattrs o (names ++ names') =
      (s.getattrs o names).bind fun o' => s.getattrs o' names' := by
  induction names generalizing o with
  | nil => rfl
  | cons name names ih =>
    rw [List.cons_append, getattrs, getattrs]
    split
    · rfl
    · exact ih _

/-- Attributes that were found are found among more attributes. -/
theorem Extends.getattrs {s s' : Interp} (h : s.Extends s') {o o' : Obj} {names : List String}
    (found : s.getattrs o names = .ok o') : s'.getattrs o names = .ok o' := by
  induction names generalizing o with
  | nil => exact found
  | cons name names ih =>
    rw [Interp.getattrs] at found ⊢
    cases bound : s.attrs.get? (o, name) with
    | none =>
      rw [bound] at found
      cases found
    | some next =>
      rw [bound] at found
      rw [h.attrs o name next bound]
      exact ih found

end Interp

open Interp

/-- What the code of a module does. -/
inductive Code where
  | done
  | raise (e : Raised)
  /-- `importlib.import_module`, whose exception may be caught. -/
  | load (path : ModPath) (next : Option Raised → Code)
  | getModule (path : ModPath) (next : Option Obj → Code)
  | setModule (path : ModPath) (o : Obj) (next : Code)
  | getattr (o : Obj) (name : String) (next : Option Obj → Code)
  | setattr (o : Obj) (name : String) (value : Obj) (next : Code)
  | new (next : Obj → Code)

/-- How an import ended (`none` when nothing was raised), or `none` without enough fuel. -/
abbrev Loads := ModPath → Interp → Option (Option Raised × Interp)

def Code.exec (load : Loads) : Code → Interp → Option (Option Raised × Interp)
  | .done, s => some (none, s)
  | .raise e, s => some (some e, s)
  | .load path next, s => (load path s).bind fun r => (next r.1).exec load r.2
  | .getModule path next, s => (next (s.modules.get? path)).exec load s
  | .setModule path o next, s => next.exec load (s.setModule path o)
  | .getattr o name next, s => (next (s.attrs.get? (o, name))).exec load s
  | .setattr o name value next, s => next.exec load (s.setattr o name value)
  | .new next, s => (next s.objects).exec load s.alloc

/-- The code found for a path, which is given the module's object. -/
abbrev ModuleTree := ModPath → Option (Obj → Code)

/-- `_load_unlocked`: a module is in `sys.modules` while its code runs, and stays there unless the
code raises. -/
def loadBody (tree : ModuleTree) (load : Loads) : Loads := fun path s =>
  match tree path with
  | none => some (some (.moduleNotFound path), s)
  | some body =>
    match (body s.objects).exec load (s.alloc.setModule path s.objects) with
    | none => none
    | some (some e, s') => some (some e, s'.popModule path)
    | some (none, s') => some (none, s'.bindChild (s.modules.get? path.dropLast) path)

/-- `_find_and_load`: the packages that a module is in are loaded before it. -/
def load (tree : ModuleTree) : ℕ → Loads
  | 0, _, _ => none
  | fuel + 1, path, s =>
    if s.Loaded path then some (none, s)
    else if path.length ≤ 1 then loadBody tree (load tree fuel) path s
    else
      match load tree fuel path.dropLast s with
      | none => none
      | some (some e, s') => some (some e, s')
      | some (none, s') =>
        if s'.Loaded path then some (none, s') else loadBody tree (load tree fuel) path s'

/-- `import path`: the module is loaded, and the name of its top package is bound. -/
def importName (tree : ModuleTree) (fuel : ℕ) (path : ModPath) (s : Interp) :
    Option (Except Raised Obj × Interp) :=
  match load tree fuel path s with
  | none => none
  | some (some e, s') => some (.error e, s')
  | some (none, s') =>
    match load tree fuel (path.take 1) s' with
    | none => none
    | some (some e, s'') => some (.error e, s'')
    | some (none, s'') =>
      match s''.modules.get? (path.take 1) with
      | none => some (.error (.moduleNotFound (path.take 1)), s'')
      | some top => some (.ok top, s'')

/-- A program that imports modules and then evaluates a dotted name. -/
structure Program where
  imports : List ModPath
  name : ModPath

/-- The names that the imports bind. -/
def importAll (tree : ModuleTree) (fuel : ℕ) :
    List ModPath → Dict String Obj → Interp → Option (Except Raised (Dict String Obj) × Interp)
  | [], names, s => some (.ok names, s)
  | path :: paths, names, s =>
    match importName tree fuel path s with
    | none => none
    | some (.error e, s') => some (.error e, s')
    | some (.ok top, s') => importAll tree fuel paths (names.set (path.headD "") top) s'

def Program.eval (p : Program) (tree : ModuleTree) (fuel : ℕ) (s : Interp) :
    Option (Except Raised Obj) :=
  match importAll tree fuel p.imports ∅ s with
  | none => none
  | some (.error e, _) => some (.error e)
  | some (.ok names, s') =>
    match names.get? (p.name.headD "") with
    | none => some (.error (.nameError (p.name.headD "")))
    | some o => some (s'.getattrs o p.name.tail)

section Load

variable {tree : ModuleTree}

/-- More fuel does not change how an import ends. -/
theorem Code.exec_mono {load load' : Loads} (h : ∀ path s r, load path s = some r →
    load' path s = some r) (code : Code) {s : Interp} {r : Option Raised × Interp}
    (ran : code.exec load s = some r) : code.exec load' s = some r := by
  induction code generalizing s with
  | done => exact ran
  | raise e => exact ran
  | load path next ih =>
    obtain ⟨r', loaded, ran⟩ := Option.bind_eq_some_iff.1 ran
    exact Option.bind_eq_some_iff.2 ⟨r', h path s r' loaded, ih r'.1 ran⟩
  | getModule path next ih => exact ih _ ran
  | setModule path o next ih => exact ih ran
  | getattr o name next ih => exact ih _ ran
  | setattr o name value next ih => exact ih ran
  | new next ih => exact ih _ ran

theorem loadBody_mono {load load' : Loads} (h : ∀ path s r, load path s = some r →
    load' path s = some r) {path : ModPath} {s : Interp} {r : Option Raised × Interp}
    (ran : loadBody tree load path s = some r) : loadBody tree load' path s = some r := by
  unfold loadBody at ran ⊢
  cases found : tree path with
  | none =>
    rw [found] at ran
    exact ran
  | some body =>
    rw [found] at ran
    dsimp only at ran ⊢
    cases executed : (body s.objects).exec load (s.alloc.setModule path s.objects) with
    | none =>
      rw [executed] at ran
      cases ran
    | some result =>
      rw [executed] at ran
      rw [Code.exec_mono h _ executed]
      exact ran

theorem load_succ {fuel : ℕ} {path : ModPath} {s : Interp} {r : Option Raised × Interp}
    (ran : load tree fuel path s = some r) : load tree (fuel + 1) path s = some r := by
  induction fuel generalizing path s r with
  | zero => cases ran
  | succ fuel ih =>
    rw [load] at ran ⊢
    by_cases loaded : s.Loaded path
    · rw [if_pos loaded] at ran ⊢
      exact ran
    · rw [if_neg loaded] at ran ⊢
      by_cases top : path.length ≤ 1
      · rw [if_pos top] at ran ⊢
        exact loadBody_mono (fun _ _ _ => ih) ran
      · rw [if_neg top] at ran ⊢
        cases parent : load tree fuel path.dropLast s with
        | none =>
          rw [parent] at ran
          cases ran
        | some result =>
          rw [parent] at ran
          rw [ih parent]
          obtain ⟨e | e, s'⟩ := result
          · dsimp only at ran ⊢
            split_ifs at ran ⊢
            · exact ran
            · exact loadBody_mono (fun _ _ _ => ih) ran
          · exact ran

theorem load_mono {fuel fuel' : ℕ} (le : fuel ≤ fuel') {path : ModPath} {s : Interp}
    {r : Option Raised × Interp} (ran : load tree fuel path s = some r) :
    load tree fuel' path s = some r := by
  induction le with
  | refl => exact ran
  | step _ ih => exact load_succ ih

/-- An import ends in one way. -/
theorem load_unique {fuel fuel' : ℕ} {path : ModPath} {s : Interp}
    {r r' : Option Raised × Interp} (ran : load tree fuel path s = some r)
    (ran' : load tree fuel' path s = some r') : r = r' :=
  Option.some.inj
    ((load_mono (Nat.le_max_left fuel fuel') ran).symm.trans
      (load_mono (Nat.le_max_right fuel fuel') ran'))

theorem Code.exec_keeps {load : Loads} (h : ∀ path s r, load path s = some r → s.Keeps r.2)
    (code : Code) {s : Interp} {r : Option Raised × Interp} (ran : code.exec load s = some r) :
    s.Keeps r.2 := by
  induction code generalizing s with
  | done =>
    obtain rfl := Option.some.inj ran
    exact fun _ loaded => loaded
  | raise e =>
    obtain rfl := Option.some.inj ran
    exact fun _ loaded => loaded
  | load path next ih =>
    obtain ⟨r', loaded, ran⟩ := Option.bind_eq_some_iff.1 ran
    exact (h path s r' loaded).trans (ih r'.1 ran)
  | getModule path next ih => exact ih _ ran
  | setModule path o next ih => exact (keeps_setModule s path o).trans (ih ran)
  | getattr o name next ih => exact ih _ ran
  | setattr o name value next ih =>
    have kept : (s.setattr o name value).Keeps r.2 := ih ran
    exact kept
  | new next ih =>
    have kept : s.alloc.Keeps r.2 := ih _ ran
    exact kept

/-- A module whose import fails was not loaded before. -/
theorem loadBody_keeps {load : Loads} (h : ∀ path s r, load path s = some r → s.Keeps r.2)
    {path : ModPath} {s : Interp} (new : ¬ s.Loaded path) {r : Option Raised × Interp}
    (ran : loadBody tree load path s = some r) :
    s.Keeps r.2 ∧ (r.1 = none → r.2.Loaded path) := by
  unfold loadBody at ran
  cases found : tree path with
  | none =>
    rw [found] at ran
    obtain rfl := Option.some.inj ran
    exact ⟨fun _ loaded => loaded, nofun⟩
  | some body =>
    rw [found] at ran
    dsimp only at ran
    cases executed : (body s.objects).exec load (s.alloc.setModule path s.objects) with
    | none =>
      rw [executed] at ran
      cases ran
    | some result =>
      rw [executed] at ran
      have kept := Code.exec_keeps h _ executed
      have start : s.Keeps (s.alloc.setModule path s.objects) :=
        keeps_setModule s.alloc path s.objects
      obtain ⟨e | e, s'⟩ := result
      · obtain rfl := Option.some.inj ran
        have child := keeps_bindChild s' (s.modules.get? path.dropLast) path
        exact ⟨(start.trans kept).trans child,
          fun _ => child path (kept path (loaded_setModule s.alloc path s.objects))⟩
      · obtain rfl := Option.some.inj ran
        refine ⟨fun path' loaded => ?_, nofun⟩
        have other : path ≠ path' := by
          rintro rfl
          exact new loaded
        show ((s'.modules.pop path).get? path').isSome
        rw [Dict.get?_pop, if_neg other]
        exact start.trans kept path' loaded

theorem load_keeps {fuel : ℕ} {path : ModPath} {s : Interp} {r : Option Raised × Interp}
    (ran : load tree fuel path s = some r) : s.Keeps r.2 := by
  induction fuel generalizing path s r with
  | zero => cases ran
  | succ fuel ih =>
    rw [load] at ran
    split_ifs at ran with loaded top
    · obtain rfl := Option.some.inj ran
      exact fun _ loaded => loaded
    · exact (loadBody_keeps (fun _ _ _ => ih) loaded ran).1
    · cases parent : load tree fuel path.dropLast s with
      | none =>
        rw [parent] at ran
        cases ran
      | some result =>
        rw [parent] at ran
        have kept := ih parent
        obtain ⟨e | e, s'⟩ := result
        · dsimp only at ran
          split_ifs at ran with side
          · obtain rfl := Option.some.inj ran
            exact kept
          · exact kept.trans (loadBody_keeps (fun _ _ _ => ih) side ran).1
        · obtain rfl := Option.some.inj ran
          exact kept

theorem load_of_loaded (fuel : ℕ) {path : ModPath} {s : Interp} (h : s.Loaded path) :
    load tree (fuel + 1) path s = some (none, s) := by
  rw [load, if_pos h]

theorem loaded_self_of_load {fuel : ℕ} {path : ModPath} {s s' : Interp}
    (ran : load tree fuel path s = some (none, s')) : s'.Loaded path := by
  cases fuel with
  | zero => cases ran
  | succ fuel =>
    have keeps : ∀ path s r, load tree fuel path s = some r → s.Keeps r.2 :=
      fun _ _ _ => load_keeps
    rw [load] at ran
    split_ifs at ran with loaded top
    · obtain rfl : s = s' := congrArg Prod.snd (Option.some.inj ran)
      exact loaded
    · exact (loadBody_keeps keeps loaded ran).2 rfl
    · cases parent : load tree fuel path.dropLast s with
      | none =>
        rw [parent] at ran
        cases ran
      | some result =>
        rw [parent] at ran
        obtain ⟨e | e, s₁⟩ := result
        · dsimp only at ran
          split_ifs at ran with side
          · obtain rfl : s₁ = s' := congrArg Prod.snd (Option.some.inj ran)
            exact side
          · exact (loadBody_keeps keeps side ran).2 rfl
        · cases ran

/-- A module that was loaded is there with the packages that it is in. -/
theorem loaded_of_load {fuel : ℕ} {path : ModPath} {s s' : Interp} (coherent : s.Coherent)
    (ran : load tree fuel path s = some (none, s')) {part : ModPath} (nonempty : part ≠ [])
    (sub : part <+: path) : s'.Loaded part := by
  induction fuel generalizing path s' with
  | zero => cases ran
  | succ fuel ih =>
    have itself : part = path → s'.Loaded part := by
      rintro rfl
      exact loaded_self_of_load ran
    have inner : path ≠ [] := by
      rintro rfl
      exact nonempty (List.prefix_nil.1 sub)
    have split := List.dropLast_append_getLast inner
    rw [← split, List.prefix_concat_iff, split] at sub
    rcases sub with whole | sub
    · exact itself whole
    · rw [load] at ran
      split_ifs at ran with loaded top
      · obtain rfl : s = s' := congrArg Prod.snd (Option.some.inj ran)
        exact coherent.loaded_of_prefix loaded nonempty
          (sub.trans (List.dropLast_prefix path))
      · have short := sub.length_le
        have := List.length_pos_iff.2 nonempty
        rw [List.length_dropLast] at short
        omega
      · cases parent : load tree fuel path.dropLast s with
        | none =>
          rw [parent] at ran
          cases ran
        | some result =>
          rw [parent] at ran
          obtain ⟨e | e, s₁⟩ := result
          · have above := ih parent sub
            dsimp only at ran
            split_ifs at ran with side
            · obtain rfl : s₁ = s' := congrArg Prod.snd (Option.some.inj ran)
              exact above
            · exact (loadBody_keeps (fun _ _ _ => load_keeps) side ran).1 part above
          · cases ran

/-- When the packages between a module and one that it is in are loaded with that one, importing
the module does what importing that one does. -/
theorem load_of_loaded_below {fuel : ℕ} {base rest : ModPath} {s s' : Interp}
    (coherent : s.Coherent) (nonempty : base ≠ [])
    (ran : load tree fuel base s = some (none, s'))
    (loaded : ∀ part, part <+: rest → s'.Loaded (base ++ part)) :
    load tree (fuel + rest.length) (base ++ rest) s = some (none, s') := by
  induction rest using List.reverseRecOn with
  | nil => simpa using ran
  | append_singleton rest name ih =>
    have above := ih fun part sub => loaded part (sub.trans (List.prefix_append rest [name]))
    have side := loaded (rest ++ [name]) (List.prefix_refl _)
    have steps : fuel + (rest ++ [name]).length = fuel + rest.length + 1 := by
      simp [Nat.add_assoc]
    have parent : (base ++ (rest ++ [name])).dropLast = base ++ rest := by
      rw [← List.append_assoc, List.dropLast_concat]
    have deep : ¬ (base ++ (rest ++ [name])).length ≤ 1 := by
      have := List.length_pos_iff.2 nonempty
      simp only [List.length_append, List.length_cons, List.length_nil]
      omega
    rw [steps, load]
    by_cases present : s.Loaded (base ++ (rest ++ [name]))
    · -- The module was loaded before, so the import of the other one did nothing.
      have start : s.Loaded base :=
        coherent.loaded_of_prefix present nonempty (List.prefix_append base _)
      have same : s = s' := congrArg Prod.snd
        (load_unique (load_of_loaded fuel start) ran)
      rw [if_pos present, same]
    · rw [if_neg present, if_neg deep, parent, above]
      exact if_pos side

/-- A module that was loaded had the packages that it is in loaded before it. -/
theorem exists_load_of_prefix {fuel : ℕ} {path : ModPath} {s s' : Interp}
    (coherent : s.Coherent) (ran : load tree fuel path s = some (none, s')) {part : ModPath}
    (nonempty : part ≠ []) (sub : part <+: path) :
    ∃ s₁, load tree fuel part s = some (none, s₁) := by
  induction fuel generalizing path s' with
  | zero => cases ran
  | succ fuel ih =>
    have whole : part = path → ∃ s₁, load tree (fuel + 1) part s = some (none, s₁) := by
      rintro rfl
      exact ⟨s', ran⟩
    rw [load] at ran
    split_ifs at ran with loaded top
    · exact ⟨s, load_of_loaded fuel (coherent.loaded_of_prefix loaded nonempty sub)⟩
    · apply whole
      apply sub.eq_of_length_le
      have := List.length_pos_iff.2 nonempty
      omega
    · cases parent : load tree fuel path.dropLast s with
      | none =>
        rw [parent] at ran
        cases ran
      | some result =>
        rw [parent] at ran
        obtain ⟨e | e, s₁⟩ := result
        · have inner : path ≠ [] := by
            rintro rfl
            exact top (Nat.zero_le 1)
          have split := List.dropLast_append_getLast inner
          rw [← split, List.prefix_concat_iff, split] at sub
          rcases sub with same | sub
          · exact whole same
          · obtain ⟨s₂, above⟩ := ih parent sub
            exact ⟨s₂, load_succ above⟩
        · cases ran

/-- An import that succeeds finds what is left to load in the tree. -/
theorem loaded_below_of_load {fuel : ℕ} {base rest : ModPath} {s s' s'' : Interp}
    (coherent : s.Coherent) (nonempty : base ≠ [])
    (ran : load tree fuel base s = some (none, s'))
    (missing : ∀ part, part <+: rest → ¬ s'.Loaded (base ++ part) → tree (base ++ part) = none)
    {fuel' : ℕ} (ran' : load tree fuel' (base ++ rest) s = some (none, s'')) :
    ∀ part, part <+: rest → s'.Loaded (base ++ part) := by
  induction rest using List.reverseRecOn generalizing s'' with
  | nil =>
    intro part sub
    obtain rfl := List.prefix_nil.1 sub
    rw [List.append_nil]
    exact loaded_of_load coherent ran nonempty (List.prefix_refl _)
  | append_singleton rest name ih =>
    have nonempty' : base ++ rest ≠ [] := by simp [nonempty]
    obtain ⟨s₁, above⟩ := exists_load_of_prefix coherent ran' nonempty'
      (by simp)
    have loaded := ih (fun part sub => missing part (sub.trans (List.prefix_append rest [name])))
      above
    intro part sub
    rcases List.prefix_concat_iff.1 sub with rfl | sub
    · -- The last module is looked up when everything above it is there.
      by_contra absent
      have notFound := missing _ sub absent
      have start : ¬ s.Loaded (base ++ (rest ++ [name])) := fun present =>
        absent (load_keeps ran _ present)
      have parent : (base ++ (rest ++ [name])).dropLast = base ++ rest := by
        rw [← List.append_assoc, List.dropLast_concat]
      have deep : ¬ (base ++ (rest ++ [name])).length ≤ 1 := by
        have := List.length_pos_iff.2 nonempty
        simp only [List.length_append, List.length_cons, List.length_nil]
        omega
      have fails : load tree (fuel + rest.length + 1) (base ++ (rest ++ [name])) s =
          some (some (.moduleNotFound (base ++ (rest ++ [name]))), s') := by
        rw [load, if_neg start, if_neg deep, parent,
          load_of_loaded_below coherent nonempty ran loaded]
        dsimp only
        rw [if_neg absent, loadBody, notFound]
      cases load_unique fails ran'
    · exact loaded part sub

/-- `import path` binds the top package. -/
theorem importName_of_load {fuel : ℕ} {path : ModPath} {s s' : Interp}
    (ran : load tree fuel path s = some (none, s')) (present : s'.Loaded (path.take 1)) :
    ∃ top, s'.modules.get? (path.take 1) = some top ∧
      importName tree fuel path s = some (.ok top, s') := by
  obtain ⟨top, bound⟩ := Option.isSome_iff_exists.1 present
  refine ⟨top, bound, ?_⟩
  cases fuel with
  | zero => cases ran
  | succ fuel =>
    rw [importName, ran]
    dsimp only
    rw [load_of_loaded fuel present]
    dsimp only
    rw [bound]

/-- An import statement that succeeded loaded its module, and nothing more. -/
theorem load_of_importName {fuel : ℕ} {path : ModPath} {s s' : Interp} {top : Obj}
    (nonempty : path ≠ []) (coherent : s.Coherent)
    (ran : importName tree fuel path s = some (.ok top, s')) :
    load tree fuel path s = some (none, s') ∧ s'.modules.get? (path.take 1) = some top := by
  cases loaded : load tree fuel path s with
  | none =>
    rw [importName, loaded] at ran
    cases ran
  | some result =>
    obtain ⟨e | e, s₁⟩ := result
    · have present : s₁.Loaded (path.take 1) := by
        apply loaded_of_load coherent loaded
        · simpa using nonempty
        · exact List.take_prefix 1 path
      obtain ⟨top', bound, ran'⟩ := importName_of_load loaded present
      obtain ⟨rfl, rfl⟩ : top' = top ∧ s₁ = s' := by
        simpa using ran'.symm.trans ran
      exact ⟨rfl, bound⟩
    · rw [importName, loaded] at ran
      cases ran

end Load

end Cpip
