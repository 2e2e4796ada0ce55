import Mathlib.Logic.Function.Basic

/-!
# Stores whose entries expire

Each key has at most one value, with the time at which it was put there.  A store may drop an entry
that has expired at any moment, for instance when it is asked for it: as long as the clock does not
go back, nobody can tell it from one that never drops anything.
-/

namespace Expiry

variable {κ ν τ : Type*}

/-- What happens to a store. -/
inductive Event (κ ν τ : Type*) where
  | put (k : κ) (v : ν) (t : τ)
  | drop (k : κ)
  | clear

/-- What was put last under each key, if neither dropped nor cleared since. -/
def recent [DecidableEq κ] : List (Event κ ν τ) → κ → Option (ν × τ)
  | [], _ => none
  | .put k v t :: earlier, j => if j = k then some (v, t) else recent earlier j
  | .drop k :: earlier, j => if j = k then none else recent earlier j
  | .clear :: _, _ => none

/-- What is there at a time: nothing that has expired by then. -/
def fresh (expired : τ → τ → Prop) [DecidableRel expired] (now : τ) (entry : Option (ν × τ)) :
    Option (ν × τ) :=
  entry.filter fun e => ¬ expired now e.2

/-- The store holds what is recent, but for some that has expired. -/
def Kept (expired : τ → τ → Prop) (now : τ) (held recent : κ → Option (ν × τ)) : Prop :=
  ∀ k, held k = recent k ∨ held k = none ∧ ∃ e, recent k = some e ∧ expired now e.2

namespace Kept

variable {expired : τ → τ → Prop} {now : τ} {held rec : κ → Option (ν × τ)}

theorem refl (expired : τ → τ → Prop) (now : τ) (held : κ → Option (ν × τ)) :
    Kept expired now held held := fun _ => .inl rfl

/-- What has expired stays expired. -/
theorem later (h : Kept expired now held rec) {now' : τ}
    (mono : ∀ t, expired now t → expired now' t) : Kept expired now' held rec := by
  intro k
  rcases h k with same | ⟨gone, e, known, old⟩
  · exact .inl same
  · exact .inr ⟨gone, e, known, mono e.2 old⟩

/-- A key gets the same entry, or loses it, on both sides. -/
theorem update [DecidableEq κ] (h : Kept expired now held rec) (k : κ) (entry : Option (ν × τ)) :
    Kept expired now (Function.update held k entry) (Function.update rec k entry) := by
  intro j
  by_cases here : j = k
  · subst here
    exact .inl (by rw [Function.update_self, Function.update_self])
  · rw [Function.update_of_ne here, Function.update_of_ne here]
    exact h j

/-- An entry that has expired is dropped. -/
theorem expire [DecidableEq κ] (h : Kept expired now held rec) {k : κ} {e : ν × τ}
    (there : held k = some e) (old : expired now e.2) :
    Kept expired now (Function.update held k none) rec := by
  intro j
  by_cases here : j = k
  · subst here
    rw [Function.update_self]
    refine .inr ⟨rfl, e, ?_, old⟩
    rcases h j with same | ⟨gone, -⟩
    · rw [← same, there]
    · rw [gone] at there
      cases there
  · rw [Function.update_of_ne here]
    exact h j

/-- Nobody can tell. -/
theorem fresh_eq (h : Kept expired now held rec) [DecidableRel expired] (k : κ) :
    fresh expired now (held k) = fresh expired now (rec k) := by
  rcases h k with same | ⟨gone, e, known, old⟩
  · rw [same]
  · rw [gone, known, fresh, fresh, Option.filter_none, Option.filter_some, if_neg (by simpa)]

end Kept

variable [DecidableEq κ]

theorem recent_put (k : κ) (v : ν) (t : τ) (earlier : List (Event κ ν τ)) :
    recent (.put k v t :: earlier) = Function.update (recent earlier) k (some (v, t)) := by
  funext j
  rw [recent, Function.update_apply]

theorem recent_drop (k : κ) (earlier : List (Event κ ν τ)) :
    recent (.drop k :: earlier) = Function.update (recent earlier) k none := by
  funext j
  rw [recent, Function.update_apply]

end Expiry
