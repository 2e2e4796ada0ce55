import Mathlib.Data.List.Basic

/-!
# Histories

A history is a list of events, oldest first.  `Each P h` says of every event of `h` that `P` relates
the events before it to it, so an event can be explained only by what happened earlier.
`First Q e h` says that `e` is the first event of `h` with `Q`.
-/

namespace History

variable {ε : Type*}

/-- `P` relates, for every event of the history, what happened before to the event. -/
def Each (P : List ε → ε → Prop) (h : List ε) : Prop :=
  ∀ past e rest, h = past ++ e :: rest → P past e

/-- `e` is the first event of the history that has `Q`. -/
def First (Q : ε → Prop) (e : ε) (h : List ε) : Prop :=
  ∃ before after, h = before ++ e :: after ∧ Q e ∧ ∀ e' ∈ before, ¬ Q e'

section Each

variable {P : List ε → ε → Prop} {h : List ε}

theorem each_nil : Each P [] := by
  intro past e rest hsplit
  simp at hsplit

theorem Each.snoc (each : Each P h) {e : ε} (he : P h e) : Each P (h ++ [e]) := by
  intro past e' rest hsplit
  rcases List.eq_nil_or_concat rest with rfl | ⟨rest', last, rfl⟩
  · obtain ⟨rfl, hlast⟩ := List.append_inj' hsplit rfl
    cases hlast
    exact he
  · have hlog : h ++ [e] = (past ++ e' :: rest') ++ [last] := by simpa using hsplit
    exact each past e' rest' (List.append_inj' hlog rfl).1

theorem Each.of_snoc {e : ε} (each : Each P (h ++ [e])) : Each P h ∧ P h e := by
  constructor
  · intro past e' rest hsplit
    exact each past e' (rest ++ [e]) (by rw [hsplit, List.append_assoc, List.cons_append])
  · exact each h e [] rfl

/-- Events that need no explanation. -/
theorem Each.append (each : Each P h) {events : List ε} (plain : ∀ e ∈ events, ∀ past, P past e) :
    Each P (h ++ events) := by
  induction events generalizing h with
  | nil => simpa using each
  | cons e rest ih =>
    have hrest := ih (each.snoc (plain e (List.mem_cons_self ..) h))
      fun e' he' => plain e' (List.mem_cons_of_mem _ he')
    simpa using hrest

end Each

section First

variable {Q : ε → Prop} {e : ε} {h : List ε}

theorem First.append (first : First Q e h) (later : List ε) : First Q e (h ++ later) := by
  obtain ⟨before, after, rfl, he, none⟩ := first
  exact ⟨before, after ++ later, by simp, he, none⟩

theorem first_snoc (none : ∀ e' ∈ h, ¬ Q e') (he : Q e) : First Q e (h ++ [e]) :=
  ⟨h, [], rfl, he, none⟩

end First

end History
