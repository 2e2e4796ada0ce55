import Cpip.Python.Text

/-!
# Lines and words

`str.splitlines` and `str.split` without a separator.  A text has no words exactly when stripping
leaves nothing of it.
-/

/-- Where `str.splitlines` ends a line. -/
def isPyLineBreak (c : Char) : Bool :=
  let n := c.toNat
  (10 ≤ n ∧ n ≤ 13) ∨ (28 ≤ n ∧ n ≤ 30) ∨ n = 0x85 ∨ n = 0x2028 ∨ n = 0x2029

/-- The lines of a text, after the characters of the line that is read. -/
def splitLines (line : List Char) : List Char → List String
  | [] => if line = [] then [] else [String.ofList line]
  | '\r' :: '\n' :: cs => String.ofList line :: splitLines [] cs
  | c :: cs =>
    if isPyLineBreak c then String.ofList line :: splitLines [] cs else splitLines (line ++ [c]) cs

/-- `s.splitlines()`. -/
def pySplitlines (s : String) : List String := splitLines [] s.toList

/-- `s.split()`. -/
def pySplit (s : String) : List String :=
  ((s.toList.splitOnP isPySpace).filter (· ≠ [])).map String.ofList

/-- All characters are white space. -/
def IsBlank (s : String) : Prop := ∀ c ∈ s.toList, isPySpace c = true

instance : DecidablePred IsBlank := fun s =>
  inferInstanceAs (Decidable (∀ c ∈ s.toList, isPySpace c = true))

theorem filter_splitOnP_eq_nil_iff {p : Char → Bool} (cs : List Char) :
    (cs.splitOnP p).filter (· ≠ []) = [] ↔ ∀ c ∈ cs, p c = true := by
  induction cs with
  | nil => simp [List.splitOnP_nil]
  | cons c cs ih =>
    rw [List.splitOnP_cons_eq_if_modifyHead, List.forall_mem_cons]
    split_ifs with space
    · rw [List.filter_cons_of_neg (by simp), ih]
      exact (and_iff_right space).symm
    · obtain ⟨word, rest, split⟩ := List.exists_cons_of_ne_nil (List.splitOnP_ne_nil p cs)
      rw [split, List.modifyHead_cons, List.filter_cons_of_pos (by simp)]
      exact iff_of_false (List.cons_ne_nil _ _) fun h => space h.1

theorem pySplit_eq_nil_iff (s : String) : pySplit s = [] ↔ IsBlank s := by
  unfold pySplit
  rw [List.map_eq_nil_iff]
  exact filter_splitOnP_eq_nil_iff s.toList

theorem mem_dropWhile_of_neg {p : Char → Bool} {c : Char} {cs : List Char} (mem : c ∈ cs)
    (keep : p c = false) : c ∈ cs.dropWhile p := by
  induction cs with
  | nil => exact mem
  | cons d cs ih =>
    rw [List.dropWhile_cons]
    split_ifs with drops
    · rcases List.mem_cons.1 mem with rfl | mem
      · rw [keep] at drops
        cases drops
      · exact ih mem
    · exact mem

/-- Stripping changes nothing of whether a text is blank. -/
theorem isBlank_pyStrip_iff (s : String) : IsBlank (pyStrip s) ↔ IsBlank s := by
  unfold IsBlank pyStrip
  rw [String.toList_ofList]
  constructor
  · intro blank c mem
    by_contra keep
    rw [Bool.not_eq_true] at keep
    have kept := mem_dropWhile_of_neg (List.mem_reverse.2 (mem_dropWhile_of_neg mem keep)) keep
    rw [blank c (List.mem_reverse.2 kept)] at keep
    cases keep
  · intro blank c mem
    have inner := (List.dropWhile_sublist _).subset (List.mem_reverse.1 mem)
    exact blank c ((List.dropWhile_sublist _).subset (List.mem_reverse.1 inner))
