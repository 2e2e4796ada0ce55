import Cpip.Runtime.Fallback

/-!
# Overlapping calls through a circuit breaker

The function of a call is awaited, so other calls start and finish between the moment a call is let
in and the moment its outcome is recorded.  A breaker that a failure has opened stays open for its
timeout as long as none of the calls in flight succeeds: `record_success` closes it whatever state
it has come to.
-/

namespace Cpip

namespace CircuitBreaker

namespace Overlap

/-- What happens to a breaker.  A call that is cancelled raises no `Exception`, and nothing is
recorded. -/
inductive Event (α : Type) where
  | read (now : ℚ)
  | start (call : ℕ) (now : ℚ)
  | finish (call : ℕ) (outcome : Except PyExc α) (now : ℚ)
  | cancel (call : ℕ) (now : ℚ)

def Event.now {α : Type} : Event α → ℚ
  | .read now | .start _ now | .finish _ _ now | .cancel _ now => now

/-- A breaker with the calls in flight, the times at which calls were let in, and the times of the
failures that left it open. -/
structure State where
  breaker : CircuitBreaker
  now : ℚ
  inFlight : List ℕ
  admissions : List ℚ
  openings : List ℚ

def State.init (failureThreshold : ℤ) (resetTimeout now : ℚ) : State :=
  ⟨.init failureThreshold resetTimeout, now, [], [], []⟩

/-- The start of `call`. -/
def State.start (s : State) (call : ℕ) (now : ℚ) : State :=
  let b := (s.breaker.isOpen now).2
  if (s.breaker.isOpen now).1 then { s with breaker := b, now := now }
  else
    { s with
      breaker := b, now := now, inFlight := call :: s.inFlight
      admissions := s.admissions ++ [now] }

/-- The end of `call`, after the function returned or raised. -/
def State.finish {α : Type} (s : State) (call : ℕ) (outcome : Except PyExc α) (now : ℚ) : State :=
  let b := s.breaker.settle outcome now
  { s with
    breaker := b, now := now, inFlight := s.inFlight.erase call
    openings := s.openings ++
      match outcome with
      | .ok _ => []
      | .error _ => if b.state = .opened then [now] else [] }

/-- One event, when the clock does not go back. -/
def step {α : Type} (s : State) (e : Event α) : Option State :=
  if s.now ≤ e.now then
    match e with
    | .read now => some { s with breaker := (s.breaker.isOpen now).2, now := now }
    | .start call now => if call ∈ s.inFlight then none else some (s.start call now)
    | .finish call outcome now =>
      if call ∈ s.inFlight then some (s.finish call outcome now) else none
    | .cancel call now =>
      if call ∈ s.inFlight then some { s with now := now, inFlight := s.inFlight.erase call }
      else none
  else none

/-- What one event can do. -/
inductive Moves {α : Type} (s : State) : Event α → State → Prop where
  | reads {now : ℚ} (clock : s.now ≤ now) :
      Moves s (.read now) { s with breaker := (s.breaker.isOpen now).2, now := now }
  | starts {call : ℕ} {now : ℚ} (clock : s.now ≤ now) :
      Moves s (.start call now) (s.start call now)
  | ends {call : ℕ} {outcome : Except PyExc α} {now : ℚ} (clock : s.now ≤ now) :
      Moves s (.finish call outcome now) (s.finish call outcome now)
  | cancels {call : ℕ} {now : ℚ} (clock : s.now ≤ now) :
      Moves s (.cancel call now) { s with now := now, inFlight := s.inFlight.erase call }

theorem moves_of_step {α : Type} {s s' : State} {e : Event α} (hs : step s e = some s') :
    Moves s e s' := by
  unfold step at hs
  split_ifs at hs with clock
  cases e with
  | read now => exact Option.some.inj hs ▸ .reads clock
  | start call now =>
    simp only [Option.ite_none_left_eq_some] at hs
    exact Option.some.inj hs.2 ▸ .starts clock
  | finish call outcome now =>
    simp only [Option.ite_none_right_eq_some] at hs
    exact Option.some.inj hs.2 ▸ .ends clock
  | cancel call now =>
    simp only [Option.ite_none_right_eq_some] at hs
    exact Option.some.inj hs.2 ▸ .cancels clock

/-- No call was let in, and none would be now or later, within the timeout after a failure that left
the breaker open. -/
def Guarded (resetTimeout : ℚ) (s : State) : Prop :=
  ∀ t ∈ s.openings,
    (∀ a ∈ s.admissions, ¬ (t < a ∧ a ≤ t + resetTimeout)) ∧
      ∀ now, s.now ≤ now → t < now → now ≤ t + resetTimeout → (s.breaker.isOpen now).1 = true

/-- A call does not succeed while the breaker is open and its timeout has not run out. -/
def Timely {α : Type} (resetTimeout : ℚ) (s : State) : Event α → Prop
  | .finish _ (.ok _) now => 0 < resetTimeout → s.breaker.state = .opened →
      resetTimeout < now - s.breaker.lastFailure
  | _ => True

/-- The timeout after an opening has run out, or the breaker is open since. -/
def Over (resetTimeout : ℚ) (s : State) (t : ℚ) : Prop :=
  t + resetTimeout < s.now ∨ s.breaker.state = .opened ∧ t ≤ s.breaker.lastFailure

structure Invariant (resetTimeout : ℚ) (s : State) : Prop where
  timeout : s.breaker.resetTimeout = resetTimeout
  past : ∀ t ∈ s.openings, t ≤ s.now
  admitted : ∀ a ∈ s.admissions, a ≤ s.now
  last : s.breaker.state = .opened → s.breaker.lastFailure ∈ s.openings
  timed : 0 < resetTimeout → ∀ t ∈ s.openings, Over resetTimeout s t
  spared : ∀ t ∈ s.openings, ∀ a ∈ s.admissions, ¬ (t < a ∧ a ≤ t + resetTimeout)

variable {α : Type} {resetTimeout : ℚ} {s s' : State} {now : ℚ}

theorem invariant_init (failureThreshold : ℤ) (resetTimeout now : ℚ) :
    Invariant resetTimeout (State.init failureThreshold resetTimeout now) where
  timeout := rfl
  past := nofun
  admitted := nofun
  last := nofun
  timed _ := nofun
  spared := nofun

/-- A breaker in the timeout of an opening is open. -/
theorem Invariant.isOpen (h : Invariant resetTimeout s) {t : ℚ} (ht : t ∈ s.openings)
    (clock : s.now ≤ now) (after : t < now) (recent : now ≤ t + resetTimeout) :
    (s.breaker.isOpen now).1 = true := by
  rcases h.timed (by linarith) t ht with expired | ⟨opened, last⟩
  · linarith
  · have recent' : ¬ now - s.breaker.lastFailure > s.breaker.resetTimeout := by
      rw [h.timeout]
      linarith
    unfold CircuitBreaker.isOpen
    rw [opened]
    simp [recent']

theorem Invariant.guarded (h : Invariant resetTimeout s) : Guarded resetTimeout s :=
  fun t ht => ⟨h.spared t ht, fun _ clock after recent => h.isOpen ht clock after recent⟩

/-- What reading `is_open` leaves. -/
theorem isOpen_snd (b : CircuitBreaker) (now : ℚ) :
    (b.isOpen now).2 = b ∨
      b.state = .opened ∧ b.resetTimeout < now - b.lastFailure ∧
        (b.isOpen now).2 = { b with state := .halfOpen } := by
  unfold CircuitBreaker.isOpen
  split
  · split_ifs with expired
    · exact .inr ⟨‹_›, expired, rfl⟩
    · exact .inl rfl
  · exact .inl rfl

/-- The clock goes on. -/
theorem Invariant.wait (h : Invariant resetTimeout s) (clock : s.now ≤ now) (calls : List ℕ) :
    Invariant resetTimeout { s with now := now, inFlight := calls } where
  timeout := h.timeout
  past t ht := (h.past t ht).trans clock
  admitted a ha := (h.admitted a ha).trans clock
  last := h.last
  timed positive t ht := (h.timed positive t ht).imp_left fun expired => expired.trans_le clock
  spared := h.spared

theorem Invariant.read (h : Invariant resetTimeout s) (clock : s.now ≤ now) :
    Invariant resetTimeout { s with breaker := (s.breaker.isOpen now).2, now := now } := by
  have waited := h.wait clock s.inFlight
  rcases isOpen_snd s.breaker now with same | ⟨opened, expired, half⟩
  · rw [same]
    exact waited
  · rw [half]
    refine ⟨h.timeout, waited.past, waited.admitted, nofun, fun positive t ht => .inl ?_, h.spared⟩
    -- every opening is as old as the last failure, or older
    rw [h.timeout] at expired
    rcases waited.timed positive t ht with expired | ⟨-, last⟩
    · exact expired
    · have : t ≤ s.breaker.lastFailure := last
      show t + resetTimeout < now
      linarith

theorem Invariant.start (h : Invariant resetTimeout s) (clock : s.now ≤ now) (call : ℕ) :
    Invariant resetTimeout (s.start call now) := by
  have read := h.read clock
  unfold State.start
  dsimp only
  split_ifs with hopen
  · exact read
  · refine ⟨read.timeout, read.past, ?_, read.last, read.timed, ?_⟩
    · intro a ha
      rcases List.mem_append.1 ha with ha | ha
      · exact read.admitted a ha
      · exact (List.mem_singleton.1 ha).le
    · intro t ht a ha
      rcases List.mem_append.1 ha with ha | ha
      · exact h.spared t ht a ha
      · obtain rfl := List.mem_singleton.1 ha
        rintro ⟨after, recent⟩
        exact hopen (h.isOpen ht clock after recent)

/-- A success, when the breaker is not open. -/
theorem Invariant.succeed (h : Invariant resetTimeout s) (clock : s.now ≤ now) (call : ℕ) (v : α)
    (late : 0 < resetTimeout → s.breaker.state = .opened →
      resetTimeout < now - s.breaker.lastFailure) :
    Invariant resetTimeout (s.finish call (.ok v) now) := by
  have waited := h.wait clock (s.inFlight.erase call)
  unfold State.finish settle recordSuccess
  simp only [List.append_nil]
  refine ⟨h.timeout, waited.past, waited.admitted, nofun, fun positive t ht => .inl ?_, h.spared⟩
  rcases waited.timed positive t ht with expired | ⟨opened, last⟩
  · exact expired
  · have past := late positive opened
    have : t ≤ s.breaker.lastFailure := last
    show t + resetTimeout < now
    linarith

theorem recordFailure_eq (b : CircuitBreaker) (now : ℚ) :
    (b.recordFailure now).resetTimeout = b.resetTimeout ∧
      (b.recordFailure now).lastFailure = now ∧
        (b.state = .opened → (b.recordFailure now).state = .opened) := by
  unfold recordFailure
  dsimp only
  split_ifs
  · exact ⟨rfl, rfl, fun _ => rfl⟩
  · exact ⟨rfl, rfl, id⟩

theorem Invariant.fail (h : Invariant resetTimeout s) (clock : s.now ≤ now) (call : ℕ)
    (e : PyExc) : Invariant resetTimeout (s.finish call (.error e : Except PyExc α) now) := by
  have waited := h.wait clock (s.inFlight.erase call)
  obtain ⟨timeout, lastFailure, stays⟩ := recordFailure_eq s.breaker now
  unfold State.finish settle
  dsimp only
  -- the openings: the old ones, and this failure where it leaves the breaker open
  have openings : ∀ t ∈ s.openings ++
      (if (s.breaker.recordFailure now).state = .opened then [now] else []),
        t ∈ s.openings ∨ t = now ∧ (s.breaker.recordFailure now).state = .opened := by
    intro t ht
    rcases List.mem_append.1 ht with ht | ht
    · exact .inl ht
    · split_ifs at ht with opened
      · exact .inr ⟨List.mem_singleton.1 ht, opened⟩
      · cases ht
  refine ⟨timeout.trans h.timeout, fun t ht => ?_, waited.admitted, fun opened => ?_,
    fun positive t ht => ?_, fun t ht a ha => ?_⟩
  · rcases openings t ht with ht | ⟨rfl, -⟩
    · exact waited.past t ht
    · exact le_rfl
  · rw [lastFailure, if_pos opened]
    simp
  · rcases openings t ht with old | ⟨rfl, opened⟩
    · refine (waited.timed positive t old).imp_right fun ⟨opened, last⟩ => ⟨stays opened, ?_⟩
      exact lastFailure.symm ▸ waited.past t old
    · exact .inr ⟨opened, lastFailure.ge⟩
  · rcases openings t ht with old | ⟨rfl, -⟩
    · exact h.spared t old a ha
    · rintro ⟨after, -⟩
      exact absurd (waited.admitted a ha) (not_le.2 after)

theorem Invariant.step {e : Event α} (h : Invariant resetTimeout s)
    (timely : Timely resetTimeout s e) (hs : step s e = some s') : Invariant resetTimeout s' := by
  cases moves_of_step hs with
  | reads clock => exact h.read clock
  | @starts call now clock => exact h.start clock call
  | @ends call outcome now clock =>
    cases outcome with
    | ok v => exact h.succeed clock call v timely
    | error e => exact h.fail clock call e
  | cancels clock => exact h.wait clock _

/-- A success while the breaker is open closes it before the timeout. -/
theorem Invariant.late_of_guarded (h : Invariant resetTimeout s) {call : ℕ} {v : α}
    (guarded : Guarded resetTimeout (s.finish call (.ok v) now))
    (positive : 0 < resetTimeout) (opened : s.breaker.state = .opened) :
    resetTimeout < now - s.breaker.lastFailure := by
  by_contra recent
  have ht := h.last opened
  have closed (later : ℚ) : ((s.finish call (.ok v) now).breaker.isOpen later).1 = false := rfl
  have waits := (guarded _ (List.mem_append_left _ ht)).2
  -- the end of the timeout lies ahead
  have ahead := waits (s.breaker.lastFailure + resetTimeout)
    (show now ≤ s.breaker.lastFailure + resetTimeout by linarith) (by linarith) le_rfl
  rw [closed] at ahead
  cases ahead

theorem Invariant.timely_of_guarded {e : Event α} (h : Invariant resetTimeout s)
    (hs : Overlap.step s e = some s') (guarded : Guarded resetTimeout s') :
    Timely resetTimeout s e := by
  cases moves_of_step hs with
  | reads | starts | cancels => trivial
  | @ends call outcome now _ =>
    cases outcome with
    | error e => trivial
    | ok v => exact h.late_of_guarded guarded

/-- A breaker that was opened lets no call in for its timeout, along exactly those runs in which no
call succeeds while the breaker is open. -/
theorem guarded_iff_timely (failureThreshold : ℤ) (resetTimeout now : ℚ) (events : List (Event α))
    (s : State)
    (ran : Machine.run step (State.init failureThreshold resetTimeout now) events = some s) :
    Machine.Along step (Timely resetTimeout) (State.init failureThreshold resetTimeout now) events ↔
      Machine.Throughout step (Guarded resetTimeout)
        (State.init failureThreshold resetTimeout now) events :=
  Machine.along_iff_throughout (I := Invariant resetTimeout) (fun _ h => h.guarded)
    (fun _ _ _ timely h hs => h.step timely hs)
    (fun _ _ _ h hs guarded => h.timely_of_guarded hs guarded)
    (invariant_init failureThreshold resetTimeout now) ran

/-- Two calls that start together: one fails and opens the breaker, and the other returns. -/
def together : List (Event ℕ) :=
  [.start 0 0, .start 1 0, .finish 0 (.error (.other "ConnectionError")) 1, .finish 1 (.ok 7) 2,
    .start 2 3]

theorem together_not_guarded :
    ∃ s, Machine.run step (State.init 1 10 0) together = some s ∧ ¬ Guarded 10 s := by
  refine ⟨_, rfl, fun guarded => ?_⟩
  exact (guarded 1 (by decide +kernel)).1 3 (by decide +kernel) (by decide +kernel)

/-- The other call fails too, and a call after the timeout is let in. -/
def apart : List (Event ℕ) :=
  [.start 0 0, .start 1 0, .finish 0 (.error (.other "ConnectionError")) 1,
    .finish 1 (.error (.other "ConnectionError")) 2, .start 2 12, .start 3 13]

theorem guarded_iff_timely_apart :
    ∃ s, Machine.run step (State.init 1 10 0) apart = some s ∧ s.admissions = [0, 0, 13] ∧
      Machine.Throughout step (Guarded 10) (State.init 1 10 0) apart := by
  have possible : (Machine.run step (State.init 1 10 0) apart).isSome := by decide +kernel
  obtain ⟨s, ran⟩ := Option.isSome_iff_exists.1 possible
  have admissions : (Machine.run step (State.init 1 10 0) apart).map State.admissions
      = some [0, 0, 13] := by decide +kernel
  rw [ran] at admissions
  refine ⟨s, ran, Option.some.inj admissions, (guarded_iff_timely 1 10 0 apart s ran).1 ?_⟩
  exact Machine.along_of_forall (by simp [apart, Timely]) _

end Overlap

end CircuitBreaker

end Cpip
