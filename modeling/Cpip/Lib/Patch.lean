import Mathlib.Data.List.Basic
import Mathlib.Algebra.Order.BigOperators.Group.List
import Mathlib.Algebra.Ring.Nat
import Mathlib.Data.List.Chain

/-!
# Positional writes

`writeAt` overwrites a part of a file in place.  A file that is written part by part with the parts
of a content comes to agree with the content on what the parts cover (`Agrees`), in whatever order
they are written, and is the content once they cover it.

`Tiles lo hi` says of a list of inclusive intervals that they lie one after the other and make up
`[lo, hi)`.
-/

namespace Patch

variable {α : Type*}

/-! ## Writing at a position -/

/-- The file after writing the data at the position; a gap before it is filled with `hole`. -/
def writeAt (hole : α) (file : List α) (start : ℕ) (data : List α) : List α :=
  if data = [] then file
  else
    let file := file ++ List.replicate (start - file.length) hole
    file.take start ++ data ++ file.drop (start + data.length)

section WriteAt

variable {hole : α} {file data : List α} {start : ℕ}

theorem writeAt_of_le (h : start + data.length ≤ file.length) :
    writeAt hole file start data = file.take start ++ data ++ file.drop (start + data.length) := by
  unfold writeAt
  split_ifs with empty
  · subst empty
    simp
  · have room : start - file.length = 0 := by omega
    simp [room]

theorem length_writeAt (h : start + data.length ≤ file.length) :
    (writeAt hole file start data).length = file.length := by
  rw [writeAt_of_le h]
  simp only [List.length_append, List.length_take, List.length_drop]
  omega

theorem getElem?_writeAt (h : start + data.length ≤ file.length) (i : ℕ) :
    (writeAt hole file start data)[i]? =
      if start ≤ i ∧ i < start + data.length then data[i - start]? else file[i]? := by
  rw [writeAt_of_le h]
  have head : (file.take start).length = start := by
    rw [List.length_take]
    omega
  by_cases before : i < start
  · rw [if_neg (by omega), List.append_assoc, List.getElem?_append_left (by omega),
      List.getElem?_take_of_lt before]
  · rw [List.append_assoc, List.getElem?_append_right (by omega), head]
    by_cases inside : i - start < data.length
    · rw [if_pos (by omega), List.getElem?_append_left inside]
    · rw [if_neg (by omega), List.getElem?_append_right (by omega), List.getElem?_drop]
      congr 1
      omega

end WriteAt

/-! ## Writing the parts of a content -/

/-- The file has the length of the content and agrees with it on the covered indices. -/
def Agrees (content file : List α) (covered : ℕ → Prop) : Prop :=
  file.length = content.length ∧ ∀ i, covered i → file[i]? = content[i]?

theorem Agrees.eq {content file : List α} {covered : ℕ → Prop} (h : Agrees content file covered)
    (all : ∀ i < content.length, covered i) : file = content := by
  have length := h.1
  apply List.ext_getElem?
  intro i
  by_cases hi : i < content.length
  · exact h.2 i (all i hi)
  · rw [List.getElem?_eq_none (by omega), List.getElem?_eq_none (by omega)]

/-- The part of the content from `start` to `stop`, both included. -/
def part (content : List α) (start stop : ℕ) : List α :=
  (content.drop start).take (stop + 1 - start)

theorem length_part {content : List α} {start stop : ℕ} (h : stop < content.length) :
    (part content start stop).length = stop + 1 - start := by
  unfold part
  rw [List.length_take, List.length_drop]
  omega

theorem Agrees.writeAt {hole : α} {content file : List α} {covered : ℕ → Prop}
    (h : Agrees content file covered) {start stop : ℕ} (order : start ≤ stop)
    (bound : stop < content.length) :
    Agrees content (Patch.writeAt hole file start (part content start stop))
      fun i => covered i ∨ start ≤ i ∧ i ≤ stop := by
  have length : (part content start stop).length = stop + 1 - start := length_part bound
  have room : start + (part content start stop).length ≤ file.length := by
    have := h.1
    omega
  refine ⟨(length_writeAt room).trans h.1, fun i hi => ?_⟩
  rw [getElem?_writeAt room]
  split_ifs with inside
  · unfold part
    rw [List.getElem?_take_of_lt (by omega), List.getElem?_drop]
    congr 1
    omega
  · refine h.2 i (hi.resolve_right fun hi => inside ?_)
    omega

/-- The file after writing the parts of the content that the intervals name, from left to right. -/
def writeParts (hole : α) (content file : List α) (rs : List (ℕ × ℕ)) : List α :=
  rs.foldl (fun file r => writeAt hole file r.1 (part content r.1 r.2)) file

theorem Agrees.writeParts {hole : α} {content file : List α} {covered : ℕ → Prop}
    (h : Agrees content file covered) {rs : List (ℕ × ℕ)}
    (proper : ∀ r ∈ rs, r.1 ≤ r.2 ∧ r.2 < content.length) :
    Agrees content (Patch.writeParts hole content file rs)
      fun i => covered i ∨ ∃ r ∈ rs, r.1 ≤ i ∧ i ≤ r.2 := by
  induction rs generalizing file covered with
  | nil => exact ⟨h.1, fun i hi => h.2 i (by simpa using hi)⟩
  | cons r rs ih =>
    obtain ⟨order, bound⟩ := proper r (List.mem_cons_self ..)
    have first : Agrees content (Patch.writeAt hole file r.1 (part content r.1 r.2)) _ :=
      h.writeAt order bound
    have rest := ih first fun r hr => proper r (List.mem_cons_of_mem _ hr)
    refine ⟨rest.1, fun i hi => rest.2 i ?_⟩
    dsimp only at hi ⊢
    rw [List.exists_mem_cons_iff, ← or_assoc] at hi
    exact hi

/-! ## Tilings -/

/-- The inclusive intervals lie one after the other and make up `[lo, hi)`. -/
def Tiles (hi : ℕ) : ℕ → List (ℕ × ℕ) → Prop
  | lo, [] => lo = hi
  | lo, r :: rs => r.1 = lo ∧ r.1 ≤ r.2 ∧ r.2 < hi ∧ Tiles hi (r.2 + 1) rs

namespace Tiles

variable {lo hi : ℕ} {rs : List (ℕ × ℕ)}

theorem mem (h : Tiles hi lo rs) {r : ℕ × ℕ} (hr : r ∈ rs) : lo ≤ r.1 ∧ r.1 ≤ r.2 ∧ r.2 < hi := by
  induction rs generalizing lo with
  | nil => cases hr
  | cons s rs ih =>
    obtain ⟨hlo, order, bound, rest⟩ := h
    rcases List.mem_cons.1 hr with rfl | hr
    · omega
    · have := ih rest hr
      omega

/-- What the intervals cover is what they tile. -/
theorem covers_iff (h : Tiles hi lo rs) (i : ℕ) :
    (∃ r ∈ rs, r.1 ≤ i ∧ i ≤ r.2) ↔ lo ≤ i ∧ i < hi := by
  induction rs generalizing lo with
  | nil =>
    obtain rfl : lo = hi := h
    simp
  | cons s rs ih =>
    obtain ⟨hlo, order, bound, rest⟩ := h
    have hrest := ih rest
    rw [List.exists_mem_cons_iff, hrest]
    omega

theorem pairwise (h : Tiles hi lo rs) : rs.Pairwise fun a b => a.2 < b.1 := by
  induction rs generalizing lo with
  | nil => exact .nil
  | cons s rs ih =>
    obtain ⟨-, -, -, rest⟩ := h
    refine List.Pairwise.cons (fun r hr => ?_) (ih rest)
    have := rest.mem hr
    omega

theorem isChain (h : Tiles hi lo rs) : rs.IsChain fun a b => b.1 = a.2 + 1 := by
  induction rs generalizing lo with
  | nil => exact .nil
  | cons s rs ih =>
    obtain ⟨-, -, -, rest⟩ := h
    cases rs with
    | nil => exact .singleton s
    | cons r rs => exact .cons_cons rest.1 (ih rest)

/-- The intervals have as many indices as what they tile. -/
theorem sum_length (h : Tiles hi lo rs) :
    lo + (rs.map fun r => r.2 + 1 - r.1).sum = hi := by
  induction rs generalizing lo with
  | nil => simpa [Tiles] using h
  | cons s rs ih =>
    obtain ⟨hlo, order, bound, rest⟩ := h
    have := ih rest
    rw [List.map_cons, List.sum_cons]
    omega

end Tiles

/-- A file that is written with the parts of a tiling, in any order, is the content. -/
theorem writeParts_eq {α : Type*} (hole : α) {content file : List α}
    (length : file.length = content.length) {rs order : List (ℕ × ℕ)}
    (tiles : Tiles content.length 0 rs) (perm : order.Perm rs) :
    writeParts hole content file order = content := by
  have blank : Agrees content file fun _ => False := ⟨length, fun _ h => h.elim⟩
  have written : Agrees content (writeParts hole content file order)
      fun i => False ∨ ∃ r ∈ order, r.1 ≤ i ∧ i ≤ r.2 :=
    blank.writeParts fun r hr => (tiles.mem (perm.mem_iff.1 hr)).2
  apply written.eq
  intro i hi
  obtain ⟨r, hr, inside⟩ := (tiles.covers_iff i).2 ⟨Nat.zero_le i, hi⟩
  exact Or.inr ⟨r, perm.mem_iff.2 hr, inside⟩

end Patch
