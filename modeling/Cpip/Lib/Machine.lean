import Mathlib.Logic.Basic

/-!
# Runs of a partial step function

A machine is a step function `step : σ → α → Option σ`: in state `s` the action `a` is either not
possible (`none`) or leads to one next state.  All nondeterminism (which party moves, what the
environment answers) sits in the action, so an interleaving is a list of actions, and quantifying
over all lists quantifies over all interleavings.

`run` follows a list of actions, `Along` says that every step of a run meets a condition on the
state it is taken in, and the rules below turn what one step preserves into what a run preserves.
-/

namespace Machine

variable {σ α : Type*} (step : σ → α → Option σ)

/-- The state after the actions, when each of them is possible. -/
def run : σ → List α → Option σ
  | s, [] => some s
  | s, a :: as => (step s a).bind fun s' => run s' as

/-- Every action of the run satisfies `P` in the state in which it is taken. -/
def Along (P : σ → α → Prop) : σ → List α → Prop
  | _, [] => True
  | s, a :: as => P s a ∧ ∀ s', step s a = some s' → Along P s' as

/-- `E` holds in the state that the run starts in and in every state that it reaches. -/
def Throughout (E : σ → Prop) : σ → List α → Prop
  | s, [] => E s
  | s, a :: as => E s ∧ ∀ s', step s a = some s' → Throughout E s' as

@[simp]
theorem run_nil (s : σ) : run step s [] = some s := rfl

theorem run_cons_eq_some {s t : σ} {a : α} {as : List α} :
    run step s (a :: as) = some t ↔ ∃ s', step s a = some s' ∧ run step s' as = some t :=
  Option.bind_eq_some_iff

theorem run_append (s : σ) (as bs : List α) :
    run step s (as ++ bs) = (run step s as).bind fun s' => run step s' bs := by
  induction as generalizing s with
  | nil => rfl
  | cons a as ih =>
    simp only [List.cons_append, run]
    cases step s a with
    | none => rfl
    | some s' => exact ih s'

variable {step}

/-- Where every action is possible, so is every list of them. -/
theorem exists_run (total : ∀ s a, ∃ s', step s a = some s') (s : σ) (as : List α) :
    ∃ t, run step s as = some t := by
  induction as generalizing s with
  | nil => exact ⟨s, rfl⟩
  | cons a as ih =>
    obtain ⟨s', hs⟩ := total s a
    obtain ⟨t, ht⟩ := ih s'
    exact ⟨t, (run_cons_eq_some step).2 ⟨s', hs, ht⟩⟩

/-- A run that meets `P`, from its first step and the rest. -/
theorem Along.cons {P : σ → α → Prop} {s s' : σ} {a : α} {as : List α} (first : P s a)
    (next : step s a = some s') (rest : Along step P s' as) : Along step P s (a :: as) := by
  refine ⟨first, fun t ht => ?_⟩
  obtain rfl := Option.some.inj (next.symm.trans ht)
  exact rest

/-- The last action of a run that meets `P` does. -/
theorem Along.last {P : σ → α → Prop} {s t : σ} {as : List α} {a : α}
    (along : Along step P s (as ++ [a])) (ran : run step s as = some t) : P t a := by
  induction as generalizing s with
  | nil =>
    obtain rfl := Option.some.inj ran
    exact along.1
  | cons b as ih =>
    obtain ⟨s', hs, ht⟩ := (run_cons_eq_some step).1 ran
    exact ih (along.2 s' hs) ht

/-- Where the steps that meet `P` keep `I`, and meet `Q` when `I` holds, so do runs of such steps.
-/
theorem Along.imp_of_invariant {I : σ → Prop} {P Q : σ → α → Prop}
    (preserved : ∀ s a s', P s a → I s → step s a = some s' → I s')
    (h : ∀ s a, P s a → I s → Q s a) {s : σ} {as : List α} (start : I s)
    (along : Along step P s as) : Along step Q s as := by
  induction as generalizing s with
  | nil => trivial
  | cons a as ih =>
    exact ⟨h s a along.1 start,
      fun s' hs => ih (preserved s a s' along.1 start hs) (along.2 s' hs)⟩

theorem Along.imp {P Q : σ → α → Prop} (h : ∀ s a, P s a → Q s a) {s : σ} {as : List α}
    (along : Along step P s as) : Along step Q s as :=
  along.imp_of_invariant (I := fun _ => True) (fun _ _ _ _ _ _ => trivial) (fun s a p _ => h s a p)
    trivial

/-- Whether every step meets a decidable condition is decided by taking the run. -/
instance decidableAlong (P : σ → α → Prop) [∀ s a, Decidable (P s a)] :
    ∀ (s : σ) (as : List α), Decidable (Along step P s as)
  | _, [] => .isTrue trivial
  | s, a :: as =>
    match next : step s a with
    | none =>
      decidable_of_iff (P s a)
        ⟨fun h => ⟨h, fun _ hs => nomatch next.symm.trans hs⟩, And.left⟩
    | some s' =>
      have : Decidable (Along step P s' as) := decidableAlong P s' as
      decidable_of_iff (P s a ∧ Along step P s' as)
        ⟨fun h => .cons h.1 next h.2, fun h => ⟨h.1, h.2 s' next⟩⟩

/-- What every step that meets `P` preserves holds after every run whose steps meet `P`. -/
theorem invariant_along {P : σ → α → Prop} {I : σ → Prop}
    (preserved : ∀ s a s', P s a → I s → step s a = some s' → I s') {s t : σ} {as : List α}
    (start : I s) (good : Along step P s as) (ran : run step s as = some t) : I t := by
  induction as generalizing s with
  | nil =>
    obtain rfl := Option.some.inj ran
    exact start
  | cons a as ih =>
    obtain ⟨s', hs, ht⟩ := (run_cons_eq_some step).1 ran
    exact ih (preserved s a s' good.1 start hs) (good.2 s' hs) ht

theorem along_true (s : σ) (as : List α) : Along step (fun _ _ => True) s as := by
  induction as generalizing s with
  | nil => trivial
  | cons a as ih => exact ⟨trivial, fun s' _ => ih s'⟩

/-- A run of actions that meet the condition in every state. -/
theorem along_of_forall {P : σ → α → Prop} {as : List α} (h : ∀ a ∈ as, ∀ s, P s a) (s : σ) :
    Along step P s as := by
  induction as generalizing s with
  | nil => trivial
  | cons a as ih =>
    rw [List.forall_mem_cons] at h
    exact ⟨h.1 s, fun s' _ => ih h.2 s'⟩

/-- A run of actions that all have a property. -/
theorem along_of_forall_mem {Q : α → Prop} {as : List α} (h : ∀ a ∈ as, Q a) (s : σ) :
    Along step (fun _ a => Q a) s as := along_of_forall (fun a ha _ => h a ha) s

/-- What every step preserves holds after every run. -/
theorem invariant_run {I : σ → Prop} (preserved : ∀ s a s', I s → step s a = some s' → I s')
    {s t : σ} {as : List α} (start : I s) (ran : run step s as = some t) : I t :=
  invariant_along (P := fun _ _ => True) (fun s a s' _ => preserved s a s') start
    (along_true s as) ran

theorem Throughout.head {E : σ → Prop} {s : σ} {as : List α} (h : Throughout step E s as) :
    E s := by
  cases as with
  | nil => exact h
  | cons a as => exact h.1

theorem Throughout.last {E : σ → Prop} {s t : σ} {as : List α} (h : Throughout step E s as)
    (ran : run step s as = some t) : E t := by
  induction as generalizing s with
  | nil =>
    obtain rfl := Option.some.inj ran
    exact h
  | cons a as ih =>
    obtain ⟨s', hs, ht⟩ := (run_cons_eq_some step).1 ran
    exact ih (h.2 s' hs) ht

/-- Where the steps that meet `P` keep `I`, runs whose steps meet `P` keep what `I` implies. -/
theorem throughout_of_along {I E : σ → Prop} {P : σ → α → Prop} (holds : ∀ s, I s → E s)
    (preserved : ∀ s a s', P s a → I s → step s a = some s' → I s') {s : σ} {as : List α}
    (start : I s) (good : Along step P s as) : Throughout step E s as := by
  induction as generalizing s with
  | nil => exact holds s start
  | cons a as ih =>
    exact ⟨holds s start, fun s' hs => ih (preserved s a s' good.1 start hs) (good.2 s' hs)⟩

/-- Where the steps that meet `P` are the ones that keep `I`, and `E` says no less of the state
after a step than that it met `P`, the runs whose steps meet `P` are the runs in which `E` holds. -/
theorem along_iff_throughout {I E : σ → Prop} {P : σ → α → Prop} (holds : ∀ s, I s → E s)
    (preserved : ∀ s a s', P s a → I s → step s a = some s' → I s')
    (only : ∀ s a s', I s → step s a = some s' → E s' → P s a) {s t : σ} {as : List α}
    (start : I s) (ran : run step s as = some t) :
    Along step P s as ↔ Throughout step E s as := by
  refine ⟨throughout_of_along holds preserved start, fun throughout => ?_⟩
  induction as generalizing s with
  | nil => trivial
  | cons a as ih =>
    obtain ⟨s', hs, ht⟩ := (run_cons_eq_some step).1 ran
    have rest := throughout.2 s' hs
    have good := only s a s' start hs rest.head
    exact .cons good hs (ih (preserved s a s' good start hs) ht rest)

/-- Where the steps that meet `P` are the ones that meet `Q` and keep `I`, so are the runs. -/
theorem along_iff_along_and_throughout {I : σ → Prop} {P Q : σ → α → Prop}
    (exact_step : ∀ s a s', I s → step s a = some s' → (P s a ↔ Q s a ∧ I s')) {s t : σ}
    {as : List α} (start : I s) (ran : run step s as = some t) :
    Along step P s as ↔ Along step Q s as ∧ Throughout step I s as := by
  induction as generalizing s with
  | nil => exact ⟨fun _ => ⟨trivial, start⟩, fun _ => trivial⟩
  | cons a as ih =>
    obtain ⟨s', hs, ht⟩ := (run_cons_eq_some step).1 ran
    have now := exact_step s a s' start hs
    constructor
    · rintro ⟨good, rest⟩
      obtain ⟨meets, keeps⟩ := now.1 good
      obtain ⟨meet, keep⟩ := (ih keeps ht).1 (rest s' hs)
      refine ⟨.cons meets hs meet, start, fun s'' hs'' => ?_⟩
      obtain rfl := Option.some.inj (hs.symm.trans hs'')
      exact keep
    · rintro ⟨⟨meets, meet⟩, -, keep⟩
      have keeps := (keep s' hs).head
      exact .cons (now.2 ⟨meets, keeps⟩) hs ((ih keeps ht).2 ⟨meet s' hs, keep s' hs⟩)

/-- When every step that meets `P` is, seen through `f`, a step of another machine that meets `Q` or
no step at all, then every run that meets `P` is a run of the other machine that meets `Q`. -/
theorem exists_run_of_simulates {τ β : Type*} {step' : τ → β → Option τ} {f : σ → τ}
    {P : σ → α → Prop} {Q : τ → β → Prop}
    (simulates : ∀ s a s', P s a → step s a = some s' →
      f s' = f s ∨ ∃ b, Q (f s) b ∧ step' (f s) b = some (f s'))
    {s t : σ} {as : List α} (good : Along step P s as) (ran : run step s as = some t) :
    ∃ bs, Along step' Q (f s) bs ∧ run step' (f s) bs = some (f t) := by
  induction as generalizing s with
  | nil =>
    obtain rfl := Option.some.inj ran
    exact ⟨[], trivial, rfl⟩
  | cons a as ih =>
    obtain ⟨s', hs, ht⟩ := (run_cons_eq_some step).1 ran
    obtain ⟨bs, hgood, hran⟩ := ih (good.2 s' hs) ht
    rcases simulates s a s' good.1 hs with same | ⟨b, hb, hstep⟩
    · exact ⟨bs, same ▸ hgood, same ▸ hran⟩
    · exact ⟨b :: bs, .cons hb hstep hgood, (run_cons_eq_some step').2 ⟨_, hstep, hran⟩⟩

end Machine
