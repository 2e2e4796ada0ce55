import Mathlib.Logic.Basic

/-!
# Procedures that raise

A procedure acts on a state and returns a value or raises an exception; what it did to the state
before it raised stays.  `Keeps I` says that a procedure preserves a condition on the state however
it ends, and its rules follow the structure of a procedure.
-/

/-- A procedure on states `σ` that returns an `α` or raises an `ε`. -/
def Proc (σ ε α : Type) : Type := σ → Except ε α × σ

namespace Proc

variable {σ ε α β : Type}

instance : Monad (Proc σ ε) where
  pure a := fun s => (.ok a, s)
  bind m f := fun s =>
    match m s with
    | (.ok a, s') => f a s'
    | (.error e, s') => (.error e, s')

/-- Raises an exception. -/
def raise (e : ε) : Proc σ ε α := fun s => (.error e, s)

/-- The value, or the exception, that was computed apart from the state. -/
def ofExcept (x : Except ε α) : Proc σ ε α := fun s => (x, s)

/-- Changes the state. -/
def modify (f : σ → σ) : Proc σ ε Unit := fun s => (.ok (), f s)

/-- `try: … except Exception: …`. -/
def recover (m : Proc σ ε α) (h : ε → Proc σ ε α) : Proc σ ε α := fun s =>
  match m s with
  | (.ok a, s') => (.ok a, s')
  | (.error e, s') => h e s'

@[simp]
theorem pure_apply (a : α) (s : σ) : (pure a : Proc σ ε α) s = (.ok a, s) := rfl

theorem eq_of_pure_eq_ok {a b : α} {s s' : σ} (h : (pure a : Proc σ ε α) s = (.ok b, s')) :
    a = b := Except.ok.inj (Prod.mk.inj h).1

theorem bind_apply (m : Proc σ ε α) (f : α → Proc σ ε β) (s : σ) : (m >>= f) s =
    match m s with
    | (.ok a, s') => f a s'
    | (.error e, s') => (.error e, s') := rfl

theorem bind_of_ok {m : Proc σ ε α} {f : α → Proc σ ε β} {s s' : σ} {a : α}
    (h : m s = (.ok a, s')) : (m >>= f) s = f a s' := by
  rw [bind_apply, h]

theorem bind_of_error {m : Proc σ ε α} {f : α → Proc σ ε β} {s s' : σ} {e : ε}
    (h : m s = (.error e, s')) : (m >>= f) s = (.error e, s') := by
  rw [bind_apply, h]

theorem ofExcept_map_bind {γ : Type} (x : Except ε α) (g : α → β) (f : β → Proc σ ε γ) :
    (ofExcept (x.map g) >>= f) = ofExcept x >>= fun a => f (g a) := by
  cases x <;> rfl

/-- What returns a value came past every step. -/
theorem exists_of_bind_eq_ok {m : Proc σ ε α} {f : α → Proc σ ε β} {s s' : σ} {b : β}
    (h : (m >>= f) s = (.ok b, s')) : ∃ a s₁, m s = (.ok a, s₁) ∧ f a s₁ = (.ok b, s') := by
  rw [bind_apply] at h
  split at h
  · next a s₁ hm => exact ⟨a, s₁, hm, h⟩
  · cases h

/-- What its second part never returns, a procedure does not return. -/
theorem fst_bind_ne_ok {m : Proc σ ε α} {f : α → Proc σ ε β} {s : σ} {b : β}
    (never : ∀ a s', (f a s').1 ≠ .ok b) : ((m >>= f) s).1 ≠ .ok b := by
  rw [bind_apply]
  split
  · exact never _ _
  · exact nofun

/-- What returns a value that the handler does not return came to its end. -/
theorem eq_ok_of_recover {m : Proc σ ε α} {h : ε → Proc σ ε α} {s s' : σ} {a : α}
    (ran : m.recover h s = (.ok a, s')) (other : ∀ e s₁, h e s₁ ≠ (.ok a, s')) :
    m s = (.ok a, s') := by
  unfold recover at ran
  split at ran
  · next a' s₁ body => exact body.trans ran
  · next e s₁ _ => exact absurd ran (other e s₁)

/-- However the procedure ends, it preserves the condition on the state. -/
def Keeps (I : σ → Prop) (m : Proc σ ε α) : Prop := ∀ s, I s → I (m s).2

section Keeps

variable {I : σ → Prop}

theorem keeps_pure (a : α) : Keeps I (pure a : Proc σ ε α) := fun _ h => h

theorem keeps_raise (e : ε) : Keeps I (raise e : Proc σ ε α) := fun _ h => h

theorem keeps_ofExcept (x : Except ε α) : Keeps I (ofExcept x : Proc σ ε α) := fun _ h => h

theorem Keeps.bind {m : Proc σ ε α} {f : α → Proc σ ε β} (first : Keeps I m)
    (next : ∀ a, Keeps I (f a)) : Keeps I (m >>= f) := by
  intro s hs
  have kept := first s hs
  rw [bind_apply]
  split
  · next a s' h =>
    rw [h] at kept
    exact next a s' kept
  · next e s' h =>
    rw [h] at kept
    exact kept

theorem Keeps.recover {m : Proc σ ε α} {h : ε → Proc σ ε α} (body : Keeps I m)
    (handler : ∀ e, Keeps I (h e)) : Keeps I (m.recover h) := by
  intro s hs
  have kept := body s hs
  unfold Proc.recover
  split
  · next a s' hm =>
    rw [hm] at kept
    exact kept
  · next e s' hm =>
    rw [hm] at kept
    exact handler e s' kept

theorem Keeps.ite {c : Prop} [Decidable c] {m m' : Proc σ ε α} (pos : Keeps I m)
    (neg : Keeps I m') : Keeps I (if c then m else m') := by
  split
  · exact pos
  · exact neg

end Keeps

end Proc
