import Mathlib.Data.List.Basic

/-!
# `re.match`

Patterns that are a sequence of anchors and repeated character classes.  `$` stands for the end of
the text and also for the place before a final newline.
-/

namespace Regex

/-- `^`, `$` or `[...]+`. -/
inductive Item where
  | start
  | ending
  | repeated (test : Char → Bool)

/-- What may remain after one or more characters of the class. -/
def restsOf (test : Char → Bool) : List Char → List (List Char)
  | [] => []
  | c :: s => if test c then s :: restsOf test s else []

/-- The items match at this place of the text; `first` says whether it is the start. -/
def matchesAt : List Item → Bool → List Char → Bool
  | [], _, _ => true
  | .start :: items, first, s => first && matchesAt items first s
  | .ending :: items, first, s => (s = [] ∨ s = ['\n']) && matchesAt items first s
  | .repeated test :: items, _, s => (restsOf test s).any (matchesAt items false)

/-- `re.match(pattern, text) is not None`. -/
def reMatch (pattern : List Item) (text : String) : Bool := matchesAt pattern true text.toList

/-- The texts of one or more characters that pass the test. -/
def IsWord (test : Char → Bool) (s : List Char) : Prop := s ≠ [] ∧ ∀ c ∈ s, test c

theorem isWord_cons {test : Char → Bool} {c : Char} {s : List Char} :
    IsWord test (c :: s) ↔ test c ∧ (s = [] ∨ IsWord test s) := by
  unfold IsWord
  rw [List.forall_mem_cons]
  constructor
  · rintro ⟨-, first, rest⟩
    exact ⟨first, (eq_or_ne s []).imp_right fun nonempty => ⟨nonempty, rest⟩⟩
  · rintro ⟨first, rfl | ⟨-, rest⟩⟩
    · exact ⟨List.cons_ne_nil _ _, first, by simp⟩
    · exact ⟨List.cons_ne_nil _ _, first, rest⟩

theorem mem_restsOf {test : Char → Bool} {s rest : List Char} :
    rest ∈ restsOf test s ↔ ∃ word, IsWord test word ∧ s = word ++ rest := by
  induction s with
  | nil =>
    refine iff_of_false (by simp [restsOf]) ?_
    rintro ⟨word, ⟨nonempty, -⟩, split⟩
    exact nonempty (List.append_eq_nil_iff.1 split.symm).1
  | cons c s ih =>
    constructor
    · intro mem
      unfold restsOf at mem
      split at mem
      · next pass =>
        rcases List.mem_cons.1 mem with rfl | mem
        · exact ⟨[c], isWord_cons.2 ⟨pass, .inl rfl⟩, rfl⟩
        · obtain ⟨word, isWord, rfl⟩ := ih.1 mem
          exact ⟨c :: word, isWord_cons.2 ⟨pass, .inr isWord⟩, rfl⟩
      · cases mem
    · rintro ⟨word, isWord, split⟩
      cases word with
      | nil => exact absurd rfl isWord.1
      | cons d word =>
        obtain ⟨rfl, rfl⟩ := List.cons.inj split
        obtain ⟨pass, isWord⟩ := isWord_cons.1 isWord
        rw [restsOf, if_pos pass, List.mem_cons]
        exact isWord.imp (fun empty => by rw [empty]; rfl) fun isWord => ih.2 ⟨word, isWord, rfl⟩

/-- The pattern `^[...]+$` matches the words and the words with a newline after them. -/
theorem reMatch_word_iff (test : Char → Bool) (text : String) :
    reMatch [.start, .repeated test, .ending] text = true ↔
      ∃ word, IsWord test word ∧ (text.toList = word ∨ text.toList = word ++ ['\n']) := by
  have ending (rest : List Char) :
      matchesAt [.ending] false rest = true ↔ rest = [] ∨ rest = ['\n'] := by
    simp [matchesAt]
  rw [reMatch, matchesAt, Bool.true_and, matchesAt, List.any_eq_true]
  constructor
  · rintro ⟨rest, mem, done⟩
    obtain ⟨word, isWord, split⟩ := mem_restsOf.1 mem
    refine ⟨word, isWord, ((ending rest).1 done).imp ?_ ?_⟩
    · rintro rfl
      rw [split, List.append_nil]
    · rintro rfl
      exact split
  · rintro ⟨word, isWord, split | split⟩
    · exact ⟨[], mem_restsOf.2 ⟨word, isWord, by rw [split, List.append_nil]⟩,
        (ending _).2 (.inl rfl)⟩
    · exact ⟨['\n'], mem_restsOf.2 ⟨word, isWord, split⟩, (ending _).2 (.inr rfl)⟩

end Regex
