import Cpip.Lib.Proc
import Mathlib.Data.List.Basic

/-!
# Loops of bounded length

A loop runs a procedure until it gives a result, for at most so many rounds.  `starts` are the
states in which the rounds begin, so what holds between two rounds is said of all of them but the
last.
-/

namespace Proc

variable {σ ε α : Type} (m : Proc σ ε (Option α)) (otherwise : α)

/-- At most so many rounds, until one gives a result. -/
def rounds : ℕ → Proc σ ε α
  | 0 => pure otherwise
  | n + 1 => do
    match ← m with
    | some result => return result
    | none => rounds n

/-- The round that begins in this state gives no result and does not raise. -/
def GoesOn (s : σ) : Prop := ∃ s', m s = (.ok none, s')

/-- The states in which the rounds begin. -/
def starts : ℕ → σ → List σ
  | 0, _ => []
  | n + 1, s =>
    s :: match m s with
      | (.ok none, s') => starts n s'
      | _ => []

variable {m} {otherwise}

theorem starts_of_goesOn {s s' : σ} (h : m s = (.ok none, s')) (n : ℕ) :
    starts m (n + 1) s = s :: starts m n s' := by
  rw [starts, h]

theorem starts_of_not_goesOn {s : σ} (h : ¬ GoesOn m s) (n : ℕ) : starts m (n + 1) s = [s] := by
  rw [starts]
  split
  · next s' next => exact absurd ⟨s', next⟩ h
  · rfl

/-- A condition holds wherever another round follows exactly when it holds in every round but the
last possible one that goes on. -/
theorem forall_mem_dropLast_starts_iff {Q : σ → Prop} (n : ℕ) (s : σ) :
    (∀ t ∈ (starts m n s).dropLast, Q t) ↔ ∀ t ∈ (starts m n s).take (n - 1), GoesOn m t → Q t := by
  induction n generalizing s with
  | zero => simp [starts]
  | succ n ih =>
    by_cases goes : GoesOn m s
    · obtain ⟨s', next⟩ := goes
      rw [starts_of_goesOn next]
      cases n with
      | zero => simp [starts]
      | succ n =>
        have nonempty : starts m (n + 1) s' ≠ [] := by simp [starts]
        rw [List.dropLast_cons_of_ne_nil nonempty, Nat.add_sub_cancel, List.take_succ_cons,
          List.forall_mem_cons, List.forall_mem_cons, ih s']
        exact and_congr_left fun _ => ⟨fun h _ => h, fun h => h ⟨s', next⟩⟩
    · rw [starts_of_not_goesOn goes]
      refine iff_of_true (by simp) fun t mem goes' => ?_
      obtain rfl := List.mem_singleton.1 (List.mem_of_mem_take mem)
      exact absurd goes' goes

/-- A result that is not the one after the last round is that of some round. -/
theorem exists_of_rounds {n : ℕ} {s s' : σ} {result : α}
    (h : rounds m otherwise n s = (.ok result, s')) (other : result ≠ otherwise) :
    ∃ t ∈ starts m n s, m t = (.ok (some result), s') := by
  induction n generalizing s with
  | zero => exact absurd (eq_of_pure_eq_ok h).symm other
  | succ n ih =>
    obtain ⟨first, s₁, ran, h⟩ := exists_of_bind_eq_ok h
    cases first with
    | none =>
      obtain ⟨t, mem, gives⟩ := ih h
      exact ⟨t, starts_of_goesOn ran n ▸ List.mem_cons_of_mem s mem, gives⟩
    | some r =>
      obtain ⟨same, rfl⟩ := Prod.mk.inj h
      obtain rfl := Except.ok.inj same
      exact ⟨s, List.mem_cons_self, ran⟩

/-- What every round adds to a measure of the state, the loop adds once for every round. -/
theorem measure_rounds {f : σ → ℕ} (one : ∀ s, f (m s).2 = f s + 1) (n : ℕ) (s : σ) :
    f (rounds m otherwise n s).2 = f s + (starts m n s).length := by
  induction n generalizing s with
  | zero => rfl
  | succ n ih =>
    have first := one s
    rw [rounds, bind_apply]
    cases ran : m s with
    | mk result s' =>
      rw [ran] at first
      cases result with
      | error e =>
        rw [starts_of_not_goesOn (fun ⟨_, goes⟩ => by cases ran.symm.trans goes)]
        exact first
      | ok result =>
        cases result with
        | some r =>
          rw [starts_of_not_goesOn (fun ⟨_, goes⟩ => by cases ran.symm.trans goes)]
          exact first
        | none =>
          rw [starts_of_goesOn ran, List.length_cons]
          have rest := ih s'
          dsimp only at first ⊢
          rw [rest, first]
          omega

/-- What every round is related to, the loop is related to from every round on. -/
theorem rounds_of_mem_starts {r : σ → σ → Prop} (refl : ∀ s, r s s)
    (trans : ∀ s₁ s₂ s₃, r s₁ s₂ → r s₂ s₃ → r s₁ s₃) (one : ∀ s, r s (m s).2) (n : ℕ) (s : σ) :
    r s (rounds m otherwise n s).2 ∧
      ∀ t ∈ starts m n s, r (m t).2 (rounds m otherwise n s).2 := by
  induction n generalizing s with
  | zero => exact ⟨refl s, by simp [starts]⟩
  | succ n ih =>
    have first := one s
    rw [rounds, bind_apply]
    cases ran : m s with
    | mk result s' =>
      rw [ran] at first
      rcases result with e | _ | result
      · rw [starts_of_not_goesOn (fun ⟨_, goes⟩ => by cases ran.symm.trans goes)]
        exact ⟨first, by simpa [ran] using refl s'⟩
      · rw [starts_of_goesOn ran, List.forall_mem_cons, ran]
        exact ⟨trans _ _ _ first (ih s').1, (ih s').1, (ih s').2⟩
      · rw [starts_of_not_goesOn (fun ⟨_, goes⟩ => by cases ran.symm.trans goes)]
        exact ⟨first, by simpa [ran] using refl s'⟩

end Proc
