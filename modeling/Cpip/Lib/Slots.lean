import Mathlib.Data.List.Basic

/-!
# Lists filled by index

`place hole l i x` puts `x` at the index `i` of a list that grows with holes until it has that
index.  Placements at different indices commute, so a list can be filled in any order.
-/

namespace Slots

variable {α : Type*} (hole : α)

/-- The list with `x` at the index `i`, extended with holes when it is too short. -/
def place (l : List α) (i : ℕ) (x : α) : List α :=
  (l ++ List.replicate (i + 1 - l.length) hole).set i x

@[simp]
theorem length_place (l : List α) (i : ℕ) (x : α) :
    (place hole l i x).length = max l.length (i + 1) := by
  simp only [place, List.length_set, List.length_append, List.length_replicate]
  omega

theorem getElem?_place (l : List α) (i j : ℕ) (x : α) :
    (place hole l i x)[j]? =
      if j = i then some x
      else if j < l.length then l[j]?
      else if j < i then some hole else none := by
  unfold place
  rw [List.getElem?_set, List.length_append, List.length_replicate]
  by_cases hj : i = j
  · subst hj
    rw [if_pos rfl, if_pos rfl, if_pos (by omega)]
  · rw [if_neg hj, if_neg (Ne.symm hj)]
    by_cases hl : j < l.length
    · rw [if_pos hl, List.getElem?_append_left hl]
    · rw [if_neg hl, List.getElem?_append_right (by omega), List.getElem?_replicate]
      exact if_congr (by omega) rfl rfl

/-- Placing at the end appends. -/
theorem place_length (l : List α) (x : α) : place hole l l.length x = l ++ [x] := by
  simp [place]

/-- Placements at different indices commute. -/
theorem place_comm (l : List α) {i j : ℕ} (h : i ≠ j) (x y : α) :
    place hole (place hole l i x) j y = place hole (place hole l j y) i x := by
  apply List.ext_getElem?
  intro n
  simp only [getElem?_place, length_place]
  split_ifs <;> first | rfl | omega

end Slots
