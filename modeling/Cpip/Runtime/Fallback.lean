import Mathlib.Data.List.DropRight
import Mathlib.Algebra.Order.Ring.Rat
import Mathlib.Tactic.Linarith
import Cpip.Lib.Machine
import Cpip.Lib.History
import Cpip.Python.Value

/-!
# The circuit breaker (`runtime/fallback.py`)

The three states of the breaker say nothing that the history of the admitted calls does not say: the
longest suffix of failures in it and the time of its last failure decide what the next call meets.
-/

namespace Cpip

/-- `_state`. -/
inductive BreakerState where
  | closed | opened | halfOpen
  deriving DecidableEq, Repr

/-- `CircuitBreaker`. -/
structure CircuitBreaker where
  failureThreshold : ℤ
  resetTimeout : ℚ
  failures : ℕ
  lastFailure : ℚ
  state : BreakerState

namespace CircuitBreaker

/-- `CircuitBreaker.__init__`. -/
def init (failureThreshold : ℤ) (resetTimeout : ℚ) : CircuitBreaker :=
  ⟨failureThreshold, resetTimeout, 0, 0, .closed⟩

/-- `is_open`, and the breaker that reading it leaves. -/
def isOpen (b : CircuitBreaker) (now : ℚ) : Bool × CircuitBreaker :=
  match b.state with
  | .opened =>
    if now - b.lastFailure > b.resetTimeout then (false, { b with state := .halfOpen })
    else (true, b)
  | _ => (false, b)

def recordSuccess (b : CircuitBreaker) : CircuitBreaker :=
  { b with failures := 0, state := .closed }

def recordFailure (b : CircuitBreaker) (now : ℚ) : CircuitBreaker :=
  let b := { b with failures := b.failures + 1, lastFailure := now }
  if b.failureThreshold ≤ b.failures then { b with state := .opened } else b

/-- The end of `call`: what the function did is recorded. -/
def settle {α : Type} (b : CircuitBreaker) (outcome : Except PyExc α) (now : ℚ) : CircuitBreaker :=
  match outcome with
  | .ok _ => b.recordSuccess
  | .error _ => b.recordFailure now

/-- The `ConnectionError` of a rejected call. -/
def unavailable : PyExc := .other "Circuit breaker is open — cloud unavailable"

/-- `call`, for a function that acts on the world and returns or raises.  The clock is read when
the call starts and, for a failure, when the function is done. -/
def call {ω α : Type} (b : CircuitBreaker) (func : ω → Except PyExc α × ω) (start finish : ℚ)
    (w : ω) : Except PyExc α × CircuitBreaker × ω :=
  match b.isOpen start with
  | (true, b) => (.error unavailable, b, w)
  | (false, b) =>
    let (outcome, w) := func w
    (outcome, b.settle outcome finish, w)

/-! ## Histories of calls -/

/-- What is known of a call: what its function would do, how often it was invoked, and what the
caller got. -/
structure CallRecord (α : Type) where
  start : ℚ
  finish : ℚ
  outcome : Except PyExc α
  invocations : ℕ
  result : Except PyExc α

section History

variable {α : Type}

def CallRecord.failed (c : CallRecord α) : Bool := c.outcome matches .error _

/-- The calls whose function was invoked. -/
def admitted (log : List (CallRecord α)) : List (CallRecord α) :=
  log.filter fun c => c.invocations ≠ 0

/-- The longest suffix of failed calls among the admitted ones. -/
def failedSuffix (log : List (CallRecord α)) : List (CallRecord α) :=
  (admitted log).rtakeWhile CallRecord.failed

/-- The time of the last failure of an admitted call. -/
def lastFailure? (log : List (CallRecord α)) : Option ℚ :=
  ((admitted log).filter CallRecord.failed).getLast?.map CallRecord.finish

/-- A call at time `t` after this history is to be rejected. -/
def Rejecting (failureThreshold : ℤ) (resetTimeout : ℚ) (log : List (CallRecord α)) (t : ℚ) :
    Prop :=
  failureThreshold ≤ (failedSuffix log).length ∧
    ∃ last, lastFailure? log = some last ∧ t - last ≤ resetTimeout

variable {log : List (CallRecord α)} {c : CallRecord α}

theorem admitted_snoc_of_rejected (h : c.invocations = 0) :
    admitted (log ++ [c]) = admitted log := by
  simp [admitted, h]

theorem admitted_snoc (h : c.invocations ≠ 0) : admitted (log ++ [c]) = admitted log ++ [c] := by
  simp [admitted, h]

theorem failedSuffix_snoc (h : c.invocations ≠ 0) :
    failedSuffix (log ++ [c]) = if c.failed then failedSuffix log ++ [c] else [] := by
  unfold failedSuffix
  rw [admitted_snoc h, List.rtakeWhile_concat]

theorem lastFailure?_snoc (h : c.invocations ≠ 0) (failed : c.failed = true) :
    lastFailure? (log ++ [c]) = some c.finish := by
  simp [lastFailure?, admitted_snoc h, List.filter_append, failed]

end History

/-! ## Runs -/

/-- What happens to a breaker: someone reads `is_open`, or calls a function through it. -/
inductive Event (α : Type) where
  | read (now : ℚ)
  | call (outcome : Except PyExc α) (start finish : ℚ)

/-- A breaker with the clock and the calls made so far. -/
structure Run (α : Type) where
  breaker : CircuitBreaker
  now : ℚ
  log : List (CallRecord α)

/-- A breaker that was just made. -/
def Run.init (α : Type) (failureThreshold : ℤ) (resetTimeout now : ℚ) : Run α :=
  ⟨.init failureThreshold resetTimeout, now, []⟩

/-- A call in the run; the world that its function acts on counts the invocations. -/
def Run.call {α : Type} (s : Run α) (outcome : Except PyExc α) (start finish : ℚ) : Run α :=
  let (result, breaker, invocations) := s.breaker.call (fun n => (outcome, n + 1)) start finish 0
  ⟨breaker, finish, s.log ++ [⟨start, finish, outcome, invocations, result⟩]⟩

/-- One event, when the clock does not go back. -/
def step {α : Type} (s : Run α) : Event α → Option (Run α)
  | .read now =>
    if s.now ≤ now then some { s with breaker := (s.breaker.isOpen now).2, now := now } else none
  | .call outcome start finish =>
    if s.now ≤ start ∧ start ≤ finish then some (s.call outcome start finish) else none

/-! ## What the state of a breaker says -/

/-- What the state of the breaker means for the history. -/
structure Explained {α : Type} (failureThreshold : ℤ) (resetTimeout : ℚ) (s : Run α) : Prop where
  threshold : s.breaker.failureThreshold = failureThreshold
  timeout : s.breaker.resetTimeout = resetTimeout
  failures : s.breaker.failures = (failedSuffix s.log).length
  last : 0 < s.breaker.failures → lastFailure? s.log = some s.breaker.lastFailure
  closed : s.breaker.state = .closed → (s.breaker.failures : ℤ) < failureThreshold
  opened : s.breaker.state = .opened → failureThreshold ≤ s.breaker.failures
  halfOpen : s.breaker.state = .halfOpen →
    failureThreshold ≤ s.breaker.failures ∧ resetTimeout < s.now - s.breaker.lastFailure

section Explained

variable {α : Type} {failureThreshold : ℤ} {resetTimeout : ℚ} {s : Run α}

theorem explained_init (positive : 0 < failureThreshold) (now : ℚ) :
    Explained failureThreshold resetTimeout (Run.init α failureThreshold resetTimeout now) where
  threshold := rfl
  timeout := rfl
  failures := rfl
  last h := absurd h (lt_irrefl 0)
  closed _ := by simpa [Run.init, CircuitBreaker.init] using positive
  opened h := by cases h
  halfOpen h := by cases h

/-- The condition on the history, with the fields of the breaker. -/
theorem Explained.rejecting_iff (h : Explained failureThreshold resetTimeout s)
    (positive : 0 < failureThreshold) (t : ℚ) :
    Rejecting failureThreshold resetTimeout s.log t ↔
      failureThreshold ≤ s.breaker.failures ∧ t - s.breaker.lastFailure ≤ resetTimeout := by
  unfold Rejecting
  rw [← h.failures]
  refine and_congr_right fun reached => ?_
  have last := h.last (by omega)
  constructor
  · rintro ⟨t', ht', recent⟩
    obtain rfl := Option.some.inj (last.symm.trans ht')
    exact recent
  · intro recent
    exact ⟨_, last, recent⟩

/-- `is_open` is the condition on the history. -/
theorem Explained.isOpen_iff (h : Explained failureThreshold resetTimeout s)
    (positive : 0 < failureThreshold) {now : ℚ} (clock : s.now ≤ now) :
    (s.breaker.isOpen now).1 = true ↔ Rejecting failureThreshold resetTimeout s.log now := by
  rw [h.rejecting_iff positive]
  unfold isOpen
  cases hstate : s.breaker.state with
  | closed =>
    have few := h.closed hstate
    simp only [Bool.false_eq_true, false_iff, not_and]
    intro many
    omega
  | opened =>
    have many := h.opened hstate
    dsimp only
    rw [h.timeout]
    split_ifs with expired
    · simp only [false_iff, not_and, not_le]
      exact fun _ => expired
    · simp only [true_iff]
      exact ⟨many, not_lt.1 expired⟩
  | halfOpen =>
    obtain ⟨-, expired⟩ := h.halfOpen hstate
    simp only [Bool.false_eq_true, false_iff, not_and, not_le]
    intro _
    linarith

/-- Reading `is_open` explains the next state, and only a breaker that is not open is entered. -/
theorem Explained.read (h : Explained failureThreshold resetTimeout s) {now : ℚ}
    (clock : s.now ≤ now) : Explained failureThreshold resetTimeout
      { s with breaker := (s.breaker.isOpen now).2, now := now } := by
  have later : s.breaker.state = .halfOpen → failureThreshold ≤ s.breaker.failures ∧
      resetTimeout < now - s.breaker.lastFailure := by
    intro hstate
    obtain ⟨many, expired⟩ := h.halfOpen hstate
    exact ⟨many, by linarith⟩
  unfold isOpen
  split
  · rename_i hstate
    split_ifs with expired
    · exact ⟨h.threshold, h.timeout, h.failures, h.last, nofun, nofun,
        fun _ => ⟨h.opened hstate, h.timeout ▸ expired⟩⟩
    · exact ⟨h.threshold, h.timeout, h.failures, h.last, h.closed, h.opened, later⟩
  · exact ⟨h.threshold, h.timeout, h.failures, h.last, h.closed, h.opened, later⟩

theorem isOpen_state_ne_opened {b : CircuitBreaker} {now : ℚ} (h : (b.isOpen now).1 = false) :
    (b.isOpen now).2.state ≠ .opened := by
  unfold isOpen at h ⊢
  split
  · rename_i hstate
    rw [hstate] at h
    dsimp only at h
    split_ifs at h ⊢ with expired
    simp
  · assumption

/-- A rejected call leaves the history of the admitted calls alone. -/
theorem Explained.rejected (h : Explained failureThreshold resetTimeout s) {c : CallRecord α}
    (hc : c.invocations = 0) (clock : s.now ≤ c.finish) :
    Explained failureThreshold resetTimeout ⟨s.breaker, c.finish, s.log ++ [c]⟩ where
  threshold := h.threshold
  timeout := h.timeout
  failures := by
    unfold failedSuffix
    rw [admitted_snoc_of_rejected hc]
    exact h.failures
  last := by
    unfold lastFailure?
    rw [admitted_snoc_of_rejected hc]
    exact h.last
  closed := h.closed
  opened := h.opened
  halfOpen hstate := by
    obtain ⟨many, expired⟩ := h.halfOpen hstate
    exact ⟨many, by dsimp only; linarith⟩

/-- An admitted call that returned. -/
theorem Explained.succeeded (h : Explained failureThreshold resetTimeout s)
    (positive : 0 < failureThreshold) {c : CallRecord α} (hc : c.invocations ≠ 0)
    (failed : c.failed = false) :
    Explained failureThreshold resetTimeout ⟨s.breaker.recordSuccess, c.finish, s.log ++ [c]⟩ where
  threshold := h.threshold
  timeout := h.timeout
  failures := by
    rw [failedSuffix_snoc hc, failed]
    rfl
  last reached := absurd reached (lt_irrefl 0)
  closed _ := by simpa [recordSuccess] using positive
  opened := nofun
  halfOpen := nofun

/-- An admitted call that raised. -/
theorem Explained.raised (h : Explained failureThreshold resetTimeout s)
    (entered : s.breaker.state ≠ .opened) {c : CallRecord α} (hc : c.invocations ≠ 0)
    (failed : c.failed = true) : Explained failureThreshold resetTimeout
      ⟨s.breaker.recordFailure c.finish, c.finish, s.log ++ [c]⟩ := by
  have failures : s.breaker.failures + 1 = (failedSuffix (s.log ++ [c])).length := by
    rw [failedSuffix_snoc hc, failed, if_pos rfl, List.length_append, h.failures,
      List.length_singleton]
  have last : lastFailure? (s.log ++ [c]) = some c.finish := lastFailure?_snoc hc failed
  unfold recordFailure
  dsimp only
  split_ifs with reached
  · rw [h.threshold] at reached
    exact ⟨h.threshold, h.timeout, failures, fun _ => last, nofun, fun _ => reached, nofun⟩
  · rw [h.threshold] at reached
    refine ⟨h.threshold, h.timeout, failures, fun _ => last, fun _ => not_le.1 reached,
      fun e => absurd e entered, fun e => ?_⟩
    -- A half-open breaker has its failures already.
    obtain ⟨many, -⟩ := h.halfOpen e
    push_cast at reached
    omega

end Explained

/-! ## What the calls meet -/

section Calls

variable {α : Type}

/-- A call is rejected when the history says so, and its function is invoked once otherwise. -/
def Served (failureThreshold : ℤ) (resetTimeout : ℚ) (past : List (CallRecord α))
    (c : CallRecord α) : Prop :=
  (Rejecting failureThreshold resetTimeout past c.start →
    c.invocations = 0 ∧ c.result = .error unavailable) ∧
  (¬ Rejecting failureThreshold resetTimeout past c.start →
    c.invocations = 1 ∧ c.result = c.outcome)

theorem Run.call_of_open {s : Run α} {start : ℚ} (h : (s.breaker.isOpen start).1 = true)
    (outcome : Except PyExc α) (finish : ℚ) :
    s.call outcome start finish = ⟨(s.breaker.isOpen start).2, finish,
      s.log ++ [⟨start, finish, outcome, 0, .error unavailable⟩]⟩ := by
  unfold Run.call CircuitBreaker.call
  generalize s.breaker.isOpen start = r at h
  obtain ⟨_, b⟩ := r
  obtain rfl := h
  rfl

theorem Run.call_of_entered {s : Run α} {start : ℚ} (h : (s.breaker.isOpen start).1 = false)
    (outcome : Except PyExc α) (finish : ℚ) :
    s.call outcome start finish = ⟨(s.breaker.isOpen start).2.settle outcome finish, finish,
      s.log ++ [⟨start, finish, outcome, 1, outcome⟩]⟩ := by
  unfold Run.call CircuitBreaker.call
  generalize s.breaker.isOpen start = r at h
  obtain ⟨_, b⟩ := r
  obtain rfl := h
  rfl

variable {failureThreshold : ℤ} {resetTimeout : ℚ} {s s' : Run α}

/-- One event keeps what the state says of the history, and serves the call that it is. -/
theorem explained_step (positive : 0 < failureThreshold) {e : Event α}
    (h : Explained failureThreshold resetTimeout s ∧
      History.Each (Served failureThreshold resetTimeout) s.log)
    (hs : step s e = some s') : Explained failureThreshold resetTimeout s' ∧
      History.Each (Served failureThreshold resetTimeout) s'.log := by
  obtain ⟨explained, served⟩ := h
  cases e with
  | read now =>
    simp only [step] at hs
    split_ifs at hs with clock
    obtain rfl := Option.some.inj hs
    exact ⟨explained.read clock, served⟩
  | call outcome start finish =>
    simp only [step] at hs
    split_ifs at hs with clock
    obtain rfl := Option.some.inj hs
    have entered := explained.read clock.1
    have isOpen_iff := explained.isOpen_iff positive clock.1
    cases hopen : (s.breaker.isOpen start).1 with
    | true =>
      rw [Run.call_of_open hopen]
      refine ⟨?_, served.snoc ⟨fun _ => ⟨rfl, rfl⟩,
        fun notRejecting => absurd (isOpen_iff.1 hopen) notRejecting⟩⟩
      exact entered.rejected (c := ⟨start, finish, outcome, 0, .error unavailable⟩) rfl clock.2
    | false =>
      rw [Run.call_of_entered hopen]
      have notRejecting : ¬ Rejecting failureThreshold resetTimeout s.log start := by
        rw [← isOpen_iff, hopen]
        simp
      refine ⟨?_, served.snoc ⟨fun rejecting => absurd rejecting notRejecting,
        fun _ => ⟨rfl, rfl⟩⟩⟩
      cases outcome with
      | ok v =>
        exact entered.succeeded (c := ⟨start, finish, .ok v, 1, .ok v⟩) positive one_ne_zero rfl
      | error e =>
        exact entered.raised (c := ⟨start, finish, .error e, 1, .error e⟩)
          (isOpen_state_ne_opened hopen) one_ne_zero rfl

/-- Along every run of a breaker, the history of the admitted calls decides every call. -/
theorem calls_served (failureThreshold : ℤ) (resetTimeout now : ℚ)
    (positive : 0 < failureThreshold) (events : List (Event α)) (s : Run α)
    (ran : Machine.run step (Run.init α failureThreshold resetTimeout now) events = some s) :
    History.Each (Served failureThreshold resetTimeout) s.log :=
  (Machine.invariant_run (fun _ _ _ => explained_step positive)
    ⟨explained_init positive now, History.each_nil⟩ ran).2

/-- A failure opens the breaker, a call meets it open, and the probe after the timeout returns. -/
def probe : List (Event ℕ) :=
  [.call (.error (.other "ConnectionError")) 0 1, .call (.ok 7) 5 5, .read 12, .call (.ok 7) 12 13]

theorem calls_served_probe :
    ∃ s, Machine.run step (Run.init ℕ 1 10 0) probe = some s ∧
      s.log.map CallRecord.invocations = [1, 0, 1] ∧ History.Each (Served 1 10) s.log :=
  ⟨_, rfl, by decide +kernel, calls_served 1 10 0 one_pos probe _ rfl⟩

end Calls

end CircuitBreaker

end Cpip
