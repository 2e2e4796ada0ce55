import Mathlib.Algebra.Order.Group.Defs
import Mathlib.Data.List.Induction
import Cpip.Lib.History

/-!
# Sliding windows

`count a b times` is how many of the times lie in `(a, b]`.  When each time of an ordered list had
fewer than `n` before it in the window of length `w` that ends with it, no window of length `w`
holds more than `n` of them, wherever it ends.
-/

namespace Windows

variable {τ : Type*} [LinearOrder τ]

/-- How many of the times lie after `a` and not after `b`. -/
def count (a b : τ) (times : List τ) : ℕ := times.countP fun t => a < t ∧ t ≤ b

@[simp]
theorem count_nil (a b : τ) : count a b [] = 0 := rfl

theorem count_append (a b : τ) (times times' : List τ) :
    count a b (times ++ times') = count a b times + count a b times' := List.countP_append

theorem count_singleton (a b t : τ) : count a b [t] = if a < t ∧ t ≤ b then 1 else 0 := by
  simp [count, List.countP_cons]

theorem count_replicate {a b t : τ} (h : a < t ∧ t ≤ b) (n : ℕ) :
    count a b (List.replicate n t) = n := by
  rw [count, List.countP_replicate, if_pos (by simpa using h)]

/-- Up to now, the end of the window does not matter. -/
theorem count_eq_of_le {a b : τ} {times : List τ} (h : ∀ t ∈ times, t ≤ b) :
    count a b times = times.countP fun t => a < t := by
  refine List.countP_congr fun t ht => ?_
  simp [h t ht]

theorem count_le_count {a b a' b' : τ} {times : List τ}
    (h : ∀ t ∈ times, a < t → t ≤ b → a' < t ∧ t ≤ b') :
    count a b times ≤ count a' b' times := by
  refine List.countP_mono_left fun t ht inside => ?_
  simp only [decide_eq_true_eq] at inside ⊢
  exact h t ht inside.1 inside.2

variable [AddCommGroup τ] [IsOrderedAddMonoid τ]

/-- Each time had fewer than `n` before it in the window of length `w` that ends with it. -/
def Limited (n : ℤ) (w : τ) (times : List τ) : Prop :=
  History.Each (fun past t => (count (t - w) t past : ℤ) < n) times

/-- No window of length `w` holds more than `n` times of a limited list. -/
theorem Limited.count_le {n : ℤ} {w : τ} {times : List τ} (limited : Limited n w times)
    (ordered : times.Pairwise (· ≤ ·)) (a : τ) : (count a (a + w) times : ℤ) ≤ max 0 n := by
  induction times using List.reverseRecOn with
  | nil => simp
  | append_singleton times t ih =>
    obtain ⟨earlier, last⟩ := History.Each.of_snoc limited
    rw [List.pairwise_append] at ordered
    rw [count_append, count_singleton]
    split_ifs with inside
    · -- what lies in the window before `t` lies in the window that ends with `t`
      have before : count a (a + w) times ≤ count (t - w) t times := by
        refine count_le_count fun t' ht' later _ => ⟨?_, ordered.2.2 t' ht' t (by simp)⟩
        exact lt_of_le_of_lt (sub_le_iff_le_add.2 inside.2) later
      have bound := le_max_right 0 n
      omega
    · simpa using ih earlier ordered.1

end Windows
