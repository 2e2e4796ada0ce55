import Mathlib.Data.List.Basic
import Mathlib.Data.Int.Order.Basic

/-!
# Lists with a limit

The last elements of a list by a slice from behind, `xs[-n:]`, the first elements that satisfy a
condition by a loop that stops when it has enough, and the elements of a list in the order in which
they came first.  The slice gives the last `n` elements unless `n` is zero, for there is no zero
from behind, and the loop gives the first `n` unless `n` is zero, for it has taken an element before
it looks.
-/

namespace Limits

variable {α β : Type*}

/-! ## The last elements -/

/-- `xs[i:]`. -/
def suffix (i : ℤ) (xs : List α) : List α :=
  xs.drop (if i < 0 then (xs.length + i).toNat else i.toNat)

/-- The last `n` elements. -/
def last (n : ℕ) (xs : List α) : List α := xs.drop (xs.length - n)

theorem suffix_neg {n : ℕ} (pos : 0 < n) (xs : List α) : suffix (-n) xs = last n xs := by
  rw [suffix, if_pos (by omega), last]
  congr 1
  omega

/-- A slice from behind has the last `n` elements, unless `n` is zero and the list is not empty. -/
theorem suffix_neg_iff (n : ℕ) (xs : List α) :
    suffix (-n) xs = last n xs ↔ 0 < n ∨ xs = [] := by
  constructor
  · intro h
    cases n with
    | zero =>
      have none : last 0 xs = [] := by simp [last]
      rw [none] at h
      exact .inr h
    | succ n => exact .inl n.succ_pos
  · rintro (pos | rfl)
    · exact suffix_neg pos xs
    · simp [suffix, last]

theorem last_map (f : α → β) (n : ℕ) (xs : List α) : last n (xs.map f) = (last n xs).map f := by
  rw [last, last, List.length_map, List.map_drop]

/-! ## The first elements that satisfy a condition -/

/-- The loop over `xs` that adds `f x` to the results for every `x` with `p x`, and stops when there
are `limit` of them. -/
def collect (p : α → Bool) (f : α → β) (limit : ℤ) (results : List β) : List α → List β
  | [] => results
  | x :: xs =>
    if p x then
      let results := results ++ [f x]
      if limit ≤ results.length then results else collect p f limit results xs
    else collect p f limit results xs

/-- What the loop adds to the results it has, as long as they are fewer than the limit. -/
theorem collect_eq (p : α → Bool) (f : α → β) {n : ℕ} (results : List β)
    (fewer : results.length < n) (xs : List α) :
    collect p f n results xs =
      results ++ ((xs.filter p).take (n - results.length)).map f := by
  induction xs generalizing results with
  | nil => simp [collect]
  | cons x xs ih =>
    rw [collect]
    dsimp only
    split_ifs with hit full
    · rw [List.filter_cons_of_pos hit]
      have enough : n - results.length = 1 := by
        rw [List.length_append, List.length_singleton] at full
        omega
      rw [enough, List.take_succ_cons, List.take_zero, List.map_singleton]
    · rw [List.length_append, List.length_singleton, not_le] at full
      have more : (results ++ [f x]).length < n := by
        rw [List.length_append, List.length_singleton]
        omega
      have left : n - results.length = n - (results ++ [f x]).length + 1 := by
        rw [List.length_append, List.length_singleton]
        omega
      rw [ih _ more, List.filter_cons_of_pos hit, left, List.take_succ_cons, List.map_cons,
        List.append_assoc, List.singleton_append]
    · rw [ih results fewer, List.filter_cons_of_neg hit]

/-- With a limit of zero the loop still takes the first element that satisfies the condition. -/
theorem collect_zero (p : α → Bool) (f : α → β) (xs : List α) :
    collect p f 0 [] xs = ((xs.filter p).take 1).map f := by
  induction xs with
  | nil => rfl
  | cons x xs ih =>
    rw [collect]
    dsimp only
    split_ifs with hit full
    · rw [List.filter_cons_of_pos hit]
      rfl
    · exact absurd (Int.natCast_nonneg _) full
    · rw [ih, List.filter_cons_of_neg hit]

/-- The loop finds the first `n` elements that satisfy the condition, unless `n` is zero and there
is one. -/
theorem collect_iff (p : α → Bool) (f : α → β) (n : ℕ) (xs : List α) :
    collect p f n [] xs = ((xs.filter p).take n).map f ↔ 0 < n ∨ xs.filter p = [] := by
  cases n with
  | zero =>
    rw [Int.natCast_zero, collect_zero]
    cases xs.filter p with
    | nil => simp
    | cons x found => simp
  | succ n =>
    have found := collect_eq p f (n := n + 1) [] n.succ_pos xs
    rw [List.nil_append] at found
    exact iff_of_true found (.inl n.succ_pos)

/-! ## The order of first occurrences -/

variable [DecidableEq α]

/-- The elements in the order in which they came first. -/
def firsts (xs : List α) : List α := xs.eraseDups

theorem firsts_snoc (xs : List α) (x : α) :
    firsts (xs ++ [x]) = if x ∈ xs then firsts xs else firsts xs ++ [x] := by
  rw [firsts, firsts, List.eraseDups_append]
  split_ifs with mem
  · simp [List.removeAll, mem]
  · simp [List.removeAll, mem, List.eraseDups_cons]

theorem mem_firsts (xs : List α) (x : α) : x ∈ firsts xs ↔ x ∈ xs := List.mem_eraseDups

theorem firsts_eq_nil_iff (xs : List α) : firsts xs = [] ↔ xs = [] := by
  rw [List.eq_nil_iff_forall_not_mem, List.eq_nil_iff_forall_not_mem]
  simp only [mem_firsts]

end Limits
