import Cpip.Python.Pathlib
import Mathlib.Data.List.Basic

/-!
# `fnmatch` and `Path.glob`

The patterns are those without a hyphen, so the ranges of character classes are left out.  A pattern
of several components is matched component by component, and `**` stands for the directories below.
What is found in one directory comes in the order in which the directory lists it.
-/

namespace Glob

/-! ## One component -/

/-- A piece of a pattern: any text, or one character that passes a test. -/
inductive Piece where
  | any
  | one (test : Char → Bool)

def accepts : List Piece → List Char → Bool
  | [], s => s.isEmpty
  | .any :: pieces, s => s.tails.any (accepts pieces)
  | .one _ :: _, [] => false
  | .one test :: pieces, c :: s => test c && accepts pieces s

/-- What stands between the brackets of `[...]` at the start of the text, if they are closed; a
bracket that closes does not come first. -/
def classOf (s : List Char) : Option (List Char) :=
  let front := if s.head? = some '!' then 1 else 0
  let front := if (s.drop front).head? = some ']' then front + 1 else front
  let rest := s.drop front
  if ']' ∈ rest then some (s.take front ++ rest.takeWhile (· ≠ ']')) else none

/-- The test of a character class. -/
def inClass : List Char → Char → Bool
  | '!' :: stuff, c => c ∉ stuff
  | stuff, c => c ∈ stuff

/-- `fnmatch.translate`, where `skip` characters belong to a class already. -/
def translate : ℕ → List Char → List Piece
  | _, [] => []
  | skip + 1, _ :: s => translate skip s
  | 0, c :: s =>
    if c = '*' then .any :: translate 0 s
    else if c = '?' then .one (fun _ => true) :: translate 0 s
    else if c = '[' then
      match classOf s with
      | some stuff => .one (inClass stuff) :: translate (stuff.length + 1) s
      | none => .one (· = '[') :: translate 0 s
    else .one (· = c) :: translate 0 s

/-- `fnmatch.fnmatchcase`. -/
def fnmatch (pattern name : String) : Bool := accepts (translate 0 pattern.toList) name.toList

/-- The characters that mean something in a pattern. -/
def IsMagic (c : Char) : Prop := c = '*' ∨ c = '?' ∨ c = '['

instance (c : Char) : Decidable (IsMagic c) := inferInstanceAs (Decidable (_ ∨ _ ∨ _))

theorem translate_append {s : List Char} (plain : ∀ c ∈ s, ¬ IsMagic c) (rest : List Char) :
    translate 0 (s ++ rest) = s.map (fun c => .one (· = c)) ++ translate 0 rest := by
  induction s with
  | nil => rfl
  | cons c s ih =>
    have noMagic := plain c List.mem_cons_self
    simp only [IsMagic, not_or] at noMagic
    rw [List.cons_append, translate, if_neg noMagic.1, if_neg noMagic.2.1, if_neg noMagic.2.2,
      ih fun c' h => plain c' (List.mem_cons_of_mem _ h)]
    rfl

theorem accepts_map_append (s : List Char) (pieces : List Piece) (name : List Char) :
    accepts (s.map (fun c => .one (· = c)) ++ pieces) name = true ↔
      ∃ rest, name = s ++ rest ∧ accepts pieces rest = true := by
  induction s generalizing name with
  | nil => simp
  | cons c s ih =>
    cases name with
    | nil => simp [accepts]
    | cons d name =>
      simp only [List.map_cons, List.cons_append, accepts, Bool.and_eq_true, decide_eq_true_eq, ih,
        List.cons.injEq]
      constructor
      · rintro ⟨rfl, rest, rfl, h⟩
        exact ⟨rest, ⟨rfl, rfl⟩, h⟩
      · rintro ⟨rest, ⟨rfl, rfl⟩, h⟩
        exact ⟨rfl, rest, rfl, h⟩

/-- A plain text with a star and a plain text after it. -/
theorem fnmatch_iff {start ending : String} (plain : ∀ c ∈ start.toList, ¬ IsMagic c)
    (plain' : ∀ c ∈ ending.toList, ¬ IsMagic c) (name : String) :
    fnmatch (start ++ "*" ++ ending) name = true ↔ ∃ middle, name = start ++ middle ++ ending := by
  have pieces : translate 0 (start ++ "*" ++ ending).toList =
      start.toList.map (fun c => .one (· = c)) ++
        .any :: (ending.toList.map (fun c => .one (· = c)) ++ translate 0 []) := by
    rw [String.toList_append, String.toList_append, List.append_assoc, translate_append plain,
      ← translate_append plain', List.append_nil]
    rfl
  rw [fnmatch, pieces, accepts_map_append]
  constructor
  · rintro ⟨rest, split, h⟩
    obtain ⟨tail, isTail, h⟩ := List.any_eq_true.1 h
    obtain ⟨last, rfl, done⟩ := (accepts_map_append ..).1 h
    obtain rfl : last = [] := List.isEmpty_iff.1 done
    obtain ⟨middle, rfl⟩ := (List.mem_tails ..).1 isTail
    refine ⟨String.ofList middle, ?_⟩
    rw [← String.toList_inj, split]
    simp
  · rintro ⟨middle, rfl⟩
    refine ⟨middle.toList ++ ending.toList, by simp, List.any_eq_true.2 ⟨ending.toList, ?_, ?_⟩⟩
    · exact (List.mem_tails ..).2 (List.suffix_append ..)
    · exact (accepts_map_append ..).2 ⟨[], by simp, rfl⟩

/-! ## Paths -/

/-- How one component of a pattern selects. -/
inductive Selector where
  | precise (name : String)
  | parent
  | wildcard (pattern : String)
  | recursive
  deriving DecidableEq

instance (s : String) : Decidable (∃ c ∈ s.toList, IsMagic c) := List.decidableBEx _ _

/-- `_make_selector`, for one component. -/
def makeSelector (pat : String) : Except String Selector :=
  if pat = "**" then .ok .recursive
  else if pat = ".." then .ok .parent
  else if ['*', '*'] <:+: pat.toList then
    .error "Invalid pattern: '**' can only be an entire path component"
  else if ∃ c ∈ pat.toList, IsMagic c then .ok (.wildcard pat)
  else .ok (.precise pat)

variable {β : Type*} (t : FileTree β)

/-- The names in a directory. -/
def entries (l : Loc) : List String :=
  t.nodes.keys.filterMap fun l' => if l' ≠ [] ∧ l'.dropLast = l then l'.getLast? else none

/-- What an absolute path leads to. -/
def nodeAt (parts : List String) : Option (FileTree.Node β) :=
  match t.resolve [] parts with
  | .ok l => t.node? l
  | .error _ => none

def isDirAt (parts : List String) : Bool :=
  match nodeAt t parts with
  | some .dir => true
  | _ => false

/-- `os.scandir`, for a directory. -/
def scandir (parts : List String) : List String :=
  match t.resolve [] parts with
  | .ok l => entries t l
  | .error _ => []

/-- `_iterate_directories`; the depth of the tree bounds it. -/
def directories : ℕ → List String → List (List String)
  | 0, parts => [parts]
  | depth + 1, parts => parts :: (scandir t parts).flatMap fun name =>
      if isDirAt t (parts ++ [name]) then directories depth (parts ++ [name]) else []

/-- `_select_from`; all components but the last one lead through directories. -/
def select : List Selector → List String → List (List String)
  | [], parts => [parts]
  | .precise name :: rest, parts =>
    if (if rest = [] then (nodeAt t (parts ++ [name])).isSome else isDirAt t (parts ++ [name])) then
      select rest (parts ++ [name])
    else []
  | .parent :: rest, parts => select rest (parts ++ [".."])
  | .wildcard pattern :: rest, parts =>
    (scandir t parts).flatMap fun name =>
      if (rest = [] ∨ isDirAt t (parts ++ [name])) ∧ fnmatch pattern name then
        select rest (parts ++ [name])
      else []
  | .recursive :: rest, parts =>
    ((directories t t.nodes.keys.length parts).flatMap (select rest)).eraseDups

/-- `list(dir.glob(pattern))` for an absolute path and a pattern that is not empty, or the text of
what it raises. -/
def glob (dir : PyPath) (pattern : String) : Except String (List (List String)) :=
  let path := PyPath.ofString pattern
  if path.absolute then .error "Non-relative patterns are unsupported"
  else do
    let selectors ← path.parts.mapM makeSelector
    return if isDirAt t dir.parts then select t selectors dir.parts else []

variable {t}

/-- A plain text with a star and a plain text after it is one component with one wildcard. -/
theorem makeSelector_eq {start ending : String}
    (plain : ∀ c ∈ start.toList, ¬ IsMagic c) (plain' : ∀ c ∈ ending.toList, ¬ IsMagic c) :
    makeSelector (start ++ "*" ++ ending) = .ok (.wildcard (start ++ "*" ++ ending)) := by
  have none (s : String) (h : ∀ c ∈ s.toList, ¬ IsMagic c) : s.toList.count '*' = 0 :=
    List.count_eq_zero.2 fun star => h '*' star (Or.inl rfl)
  have one : (start ++ "*" ++ ending).toList.count '*' = 1 := by
    simp [none start plain, none ending plain']
  have notDouble : start ++ "*" ++ ending ≠ "**" := by
    intro h
    rw [h] at one
    exact absurd one (by decide)
  have notParent : start ++ "*" ++ ending ≠ ".." := by
    intro h
    rw [h] at one
    exact absurd one (by decide)
  have noDouble : ¬ ['*', '*'] <:+: (start ++ "*" ++ ending).toList := by
    intro h
    have := h.sublist.count_le '*'
    rw [one] at this
    exact absurd this (by decide)
  have magic : ∃ c ∈ (start ++ "*" ++ ending).toList, IsMagic c :=
    ⟨'*', by simp, Or.inl rfl⟩
  rw [makeSelector, if_neg notDouble, if_neg notParent, if_neg noDouble, if_pos magic]

theorem flatMap_ite_singleton {α γ : Type*} (l : List α) (p : α → Bool) (f : α → γ) :
    (l.flatMap fun x => if p x then [f x] else []) = (l.filter p).map f := by
  induction l with
  | nil => rfl
  | cons x l ih =>
    rw [List.flatMap_cons, ih, List.filter_cons]
    split_ifs <;> rfl

/-- What it finds in a directory. -/
theorem glob_eq {dir : PyPath} {start ending : String}
    (plain : ∀ c ∈ start.toList, ¬ IsMagic c ∧ c ≠ '/')
    (plain' : ∀ c ∈ ending.toList, ¬ IsMagic c ∧ c ≠ '/') :
    glob t dir (start ++ "*" ++ ending) = .ok (if isDirAt t dir.parts then
      ((scandir t dir.parts).filter (fnmatch (start ++ "*" ++ ending))).map
        fun name => dir.parts ++ [name] else []) := by
  have noSlash : '/' ∉ (start ++ "*" ++ ending).toList := by
    intro h
    simp only [String.toList_append, List.mem_append] at h
    rcases h with (h | h) | h
    · exact (plain _ h).2 rfl
    · exact absurd h (by decide)
    · exact (plain' _ h).2 rfl
  have star : '*' ∈ (start ++ "*" ++ ending).toList := by simp
  have part : IsPart (start ++ "*" ++ ending) := by
    refine ⟨?_, ?_, noSlash⟩
    · intro h
      rw [h] at star
      exact absurd star (by decide)
    · intro h
      rw [h] at star
      exact absurd star (by decide)
  have relative : (PyPath.ofString (start ++ "*" ++ ending)).absolute = false :=
    decide_eq_false fun h => noSlash (List.mem_of_head? h)
  have parts : (PyPath.ofString (start ++ "*" ++ ending)).parts = [start ++ "*" ++ ending] :=
    PyPath.split_of_isPart part
  have selector := makeSelector_eq (fun c h => (plain c h).1) fun c h => (plain' c h).1
  have selected : select t [.wildcard (start ++ "*" ++ ending)] dir.parts =
      ((scandir t dir.parts).filter (fnmatch (start ++ "*" ++ ending))).map
        fun name => dir.parts ++ [name] := by
    simp only [select, true_or, true_and]
    exact flatMap_ite_singleton ..
  simp only [glob, relative, Bool.false_eq_true, if_false, parts, List.mapM_cons, List.mapM_nil,
    selector]
  rw [← selected]
  rfl

end Glob
