import Mathlib.Data.List.Sort

/-!
# Stable sorting

`List.insertionSort` for a total preorder keeps the order of what compares equal.  Two consequences:
sorting what was sorted before, with more elements behind it, is sorting all of them at once; and
what comes first in the sorted list is smaller than everything before it in the list and no larger
than everything behind it.
-/

namespace StableSort

open List

variable {α : Type*} {r : α → α → Prop}

theorem rel_of_not_rel [Std.Total r] {a b : α} (h : ¬ r a b) : r b a :=
  (Std.Total.total a b).resolve_left h

variable [DecidableRel r]

/-- What compares equal keeps its order. -/
theorem filter_insertionSort {p : α → Bool} (equal : ∀ a b, p a → p b → r a b) (l : List α) :
    (insertionSort r l).filter p = l.filter p := by
  have sorted : (l.filter p).Pairwise r :=
    List.pairwise_of_forall_mem_list fun a ha b hb =>
      equal a b (List.of_mem_filter ha) (List.of_mem_filter hb)
  have sub := (sublist_insertionSort sorted filter_sublist).filter p
  simp only [filter_filter, Bool.and_self] at sub
  exact (sub.eq_of_length ((perm_insertionSort r l).filter p).length_eq.symm).symm

variable [Std.Total r] [IsTrans α r]

/-- Where `b` is smaller than `a`, it does not matter which of them is inserted first. -/
theorem orderedInsert_comm {a b : α} (h : ¬ r a b) (l : List α) :
    orderedInsert r b (orderedInsert r a l) = orderedInsert r a (orderedInsert r b l) := by
  have hba := rel_of_not_rel h
  induction l with
  | nil => simp [hba, h]
  | cons x l ih =>
    by_cases hax : r a x
    · have hbx : r b x := IsTrans.trans _ _ _ hba hax
      simp [hax, hbx, hba, h]
    · by_cases hbx : r b x
      · simp [hax, hbx, h]
      · simp [hax, hbx, ih]

/-- Inserting the elements of `orderedInsert r a l` inserts those of `l`, and then `a`. -/
theorem foldr_orderedInsert (a : α) (l base : List α) :
    foldr (orderedInsert r) base (orderedInsert r a l)
      = orderedInsert r a (foldr (orderedInsert r) base l) := by
  induction l with
  | nil => rfl
  | cons b l ih =>
    by_cases hab : r a b
    · rw [orderedInsert_cons_of_le r l hab]
      rfl
    · rw [orderedInsert_of_not_le r l hab, foldr_cons, ih, orderedInsert_comm hab, foldr_cons]

/-- A part that was sorted before. -/
theorem insertionSort_insertionSort_append (l l' : List α) :
    insertionSort r (insertionSort r l ++ l') = insertionSort r (l ++ l') := by
  induction l with
  | nil => rfl
  | cons a l ih =>
    rw [cons_append, insertionSort_cons, insertionSort_cons, ← ih]
    unfold insertionSort
    rw [foldr_append, foldr_append]
    exact foldr_orderedInsert a _ _

/-- What comes first in the sorted list, and the rest of it. -/
theorem split_of_insertionSort_eq_cons {l rest : List α} {e : α}
    (h : insertionSort r l = e :: rest) : ∃ before after, l = before ++ e :: after ∧
      (∀ x ∈ before, ¬ r x e) ∧ (∀ y ∈ after, r e y) ∧
        rest = insertionSort r (before ++ after) := by
  induction l generalizing e rest with
  | nil => cases h
  | cons a l ih =>
    rw [insertionSort_cons] at h
    cases hl : insertionSort r l with
    | nil =>
      obtain rfl : l = [] := by simpa [hl] using (perm_insertionSort r l).length_eq.symm
      rw [hl] at h
      cases h
      exact ⟨[], [], rfl, by simp, by simp, rfl⟩
    | cons b rest' =>
      rw [hl] at h
      obtain ⟨before, after, split, hbefore, hafter, hrest⟩ := ih hl
      by_cases hab : r a b
      · rw [orderedInsert_cons_of_le r rest' hab] at h
        cases h
        refine ⟨[], l, rfl, by simp, fun y hy => ?_, hl.symm⟩
        -- `b` is the least of `l`
        rw [split, mem_append, mem_cons] at hy
        rcases hy with hy | rfl | hy
        · exact IsTrans.trans _ _ _ hab (rel_of_not_rel (hbefore y hy))
        · exact hab
        · exact IsTrans.trans _ _ _ hab (hafter y hy)
      · rw [orderedInsert_of_not_le r rest' hab] at h
        cases h
        refine ⟨a :: before, after, by rw [split, cons_append], ?_, hafter, ?_⟩
        · exact forall_mem_cons.2 ⟨hab, hbefore⟩
        · rw [hrest, cons_append, insertionSort_cons]

end StableSort
