import Mathlib.Data.List.Basic

/-!
# Cooperative tasks and their cancellation

The tasks of an event loop.  A task runs from one point at which it waits to the next in a single
step.  To cancel a task only leaves a note on it: the task is done when it would have gone on, and
does nothing before that.  So a task acts only as long as it is live, that is neither done nor to be
cancelled.
-/

/-- A task: the point at which it waits, as long as it is not done, and whether it is to be
cancelled. -/
structure LoopTask (φ : Type*) where
  point : Option φ
  cancelling : Bool
  deriving DecidableEq, Repr

/-- The tasks that were created, in this order. -/
abbrev Tasks (φ : Type*) := List (LoopTask φ)

namespace Tasks

variable {φ : Type*} (tasks : Tasks φ)

/-- A new task, which has not gone on from its first point. -/
def spawn (p : φ) : Tasks φ := tasks ++ [⟨some p, false⟩]

/-- Leaves the note that the task is to be cancelled. -/
def cancel (i : ℕ) : Tasks φ := tasks.modify i fun t => { t with cancelling := true }

/-- The task waits at another point. -/
def waitAt (i : ℕ) (p : φ) : Tasks φ := tasks.modify i fun t => { t with point := some p }

/-- The task is done. -/
def finish (i : ℕ) : Tasks φ := tasks.modify i fun t => { t with point := none }

/-- The task waits at the point, and will go on from there. -/
def LiveAt (i : ℕ) (p : φ) : Prop := tasks[i]? = some ⟨some p, false⟩

instance [DecidableEq φ] (i : ℕ) (p : φ) : Decidable (tasks.LiveAt i p) :=
  inferInstanceAs (Decidable (_ = _))

def Live (i : ℕ) : Prop := ∃ p, tasks.LiveAt i p

variable {tasks} {i j : ℕ}

theorem Live.lt_length (h : tasks.Live i) : i < tasks.length := by
  obtain ⟨p, h⟩ := h
  exact (List.getElem?_eq_some_iff.1 h).1

theorem not_live_nil (i : ℕ) : ¬ Live ([] : Tasks φ) i := fun h => absurd h.lt_length (by simp)

theorem live_spawn_iff (p : φ) : (tasks.spawn p).Live i ↔ tasks.Live i ∨ i = tasks.length := by
  unfold Live LiveAt spawn
  rcases Nat.lt_trichotomy i tasks.length with old | rfl | beyond
  · rw [List.getElem?_append_left old]
    simp [Nat.ne_of_lt old]
  · simp
  · rw [List.getElem?_eq_none (by simp; omega), List.getElem?_eq_none (by omega)]
    simp [Nat.ne_of_gt beyond]

theorem live_cancel_iff : (tasks.cancel j).Live i ↔ tasks.Live i ∧ i ≠ j := by
  unfold Live LiveAt cancel
  rw [List.getElem?_modify]
  split_ifs with same
  · subst same
    simp
  · simp [Ne.symm same]

theorem live_finish_iff : (tasks.finish j).Live i ↔ tasks.Live i ∧ i ≠ j := by
  unfold Live LiveAt finish
  rw [List.getElem?_modify]
  split_ifs with same
  · subst same
    simp
  · simp [Ne.symm same]

/-- A live task that waits somewhere else is live. -/
theorem live_waitAt_iff (h : tasks.Live j) (p : φ) : (tasks.waitAt j p).Live i ↔ tasks.Live i := by
  obtain ⟨q, h⟩ := h
  unfold Live LiveAt waitAt
  rw [List.getElem?_modify]
  split_ifs with same
  · subst same
    rw [h]
    simp
  · simp

theorem liveAt_waitAt_self (h : tasks.Live j) (p : φ) : (tasks.waitAt j p).LiveAt j p := by
  obtain ⟨q, h⟩ := h
  unfold LiveAt waitAt
  rw [List.getElem?_modify, h]
  simp

/-- A task that is to be cancelled is not live, and no other task changes when it is done. -/
theorem live_finish_of_cancelling {t : LoopTask φ} (found : tasks[j]? = some t)
    (cancelling : t.cancelling = true) : (tasks.finish j).Live i ↔ tasks.Live i := by
  rw [live_finish_iff, and_iff_left_iff_imp]
  rintro ⟨p, live⟩ rfl
  obtain rfl := Option.some.inj (found.symm.trans live)
  cases cancelling

end Tasks
