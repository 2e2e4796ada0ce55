import Mathlib.Data.List.Basic
import Mathlib.Data.List.Count
import Mathlib.Data.List.Find
import Mathlib.Data.List.Induction

/-!
# Most recent first

A list in which whatever is touched moves to the front.  A search from the front finds what it would
find in the record of all that was touched, latest first, followed by the list at the beginning; but
nothing that was touched is there twice.
-/

namespace Recency

variable {α : Type*} [DecidableEq α]

def touch (l : List α) (x : α) : List α := x :: l.filter (· ≠ x)

theorem find?_touch (p : α → Bool) (l : List α) (x : α) :
    (touch l x).find? p = (x :: l).find? p := by
  rw [touch, List.find?_cons, List.find?_cons]
  cases px : p x with
  | true => rfl
  | false =>
    dsimp only
    rw [List.find?_filter]
    apply List.find?_congr
    intro y _
    by_cases same : y = x
    · simp [same, px]
    · simp [same]

theorem count_touch (l : List α) (x y : α) :
    (touch l x).count y = if y = x then 1 else l.count y := by
  rw [touch]
  split_ifs with same
  · subst same
    rw [List.count_cons_self, List.count_eq_zero.2 (by simp)]
  · rw [List.count_cons_of_ne (Ne.symm same), List.count_filter (by simpa using same)]

theorem find?_foldl_touch (p : α → Bool) (l xs : List α) :
    (xs.foldl touch l).find? p = (xs.reverse ++ l).find? p := by
  induction xs using List.reverseRecOn with
  | nil => rfl
  | append_singleton xs x ih =>
    rw [List.foldl_concat, find?_touch, List.find?_cons, ih, List.reverse_concat, List.cons_append,
      List.find?_cons]

theorem count_foldl_touch (l xs : List α) (y : α) :
    (xs.foldl touch l).count y = if y ∈ xs then 1 else l.count y := by
  induction xs using List.reverseRecOn with
  | nil => simp
  | append_singleton xs x ih =>
    rw [List.foldl_concat, count_touch, ih]
    by_cases last : y = x
    · simp [last]
    · simp [last]

end Recency
