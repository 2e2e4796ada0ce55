import Mathlib.Algebra.Order.Ring.Rat
import Mathlib.Data.List.Range
import Mathlib.Tactic.NormNum
import Cpip.Lib.Backoff
import Cpip.Lib.Proc

/-!
# Retries with a growing delay (`runtime/fallback.py`)

`retry_async` calls its function until an outcome is not a retryable exception or the retries are
used up, and sleeps between the calls.  The delay is cut at `max_delay` only after it was used, so a
`base_delay` above the limit is slept in full.
-/

namespace Cpip

namespace Retry

/-- An exception: the names of its class and of the bases of that class, what `bool` says of the
object, and its text. -/
structure Raised where
  mro : List String
  truth : Bool
  text : String
  deriving DecidableEq, Repr

/-- `RuntimeError(text)`. -/
def runtimeError (text : String) : Raised :=
  ⟨["RuntimeError", "Exception", "BaseException", "object"], true, text⟩

/-- `RetryConfig`. -/
structure RetryConfig where
  maxRetries : ℤ := 3
  baseDelay : ℚ := 1
  maxDelay : ℚ := 30
  backoffFactor : ℚ := 2
  retryableExceptions : List String := ["ConnectionError", "TimeoutError", "OSError"]

/-- `except cfg.retryable_exceptions` catches the exception. -/
def RetryConfig.catches (cfg : RetryConfig) (e : Raised) : Bool :=
  cfg.retryableExceptions.any fun name => e.mro.contains name

section Loop

variable {σ α : Type}

/-- `last_error or RuntimeError("Retry exhausted")`. -/
def exhausted (lastError : Option Raised) : Raised :=
  match lastError with
  | some e => if e.truth then e else runtimeError "Retry exhausted"
  | none => runtimeError "Retry exhausted"

/-- The loop of `retry_async` over the attempts that are left. -/
def attempts (cfg : RetryConfig) (func : Proc σ Raised α) (sleep : ℚ → Proc σ Raised Unit) :
    List ℕ → ℚ → Option Raised → Proc σ Raised α
  | [], _, lastError => .raise (exhausted lastError)
  | attempt :: rest, delay, _ => func.recover fun e =>
    if cfg.catches e then
      if attempt < cfg.maxRetries then do
        sleep delay
        attempts cfg func sleep rest (min (delay * cfg.backoffFactor) cfg.maxDelay) (some e)
      else attempts cfg func sleep rest delay (some e)
    else .raise e

/-- `retry_async`. -/
def retryAsync (func : Proc σ Raised α) (sleep : ℚ → Proc σ Raised Unit)
    (config : Option RetryConfig) : Proc σ Raised α :=
  let cfg := config.getD {}
  attempts cfg func sleep (List.range (cfg.maxRetries + 1).toNat) cfg.baseDelay none

end Loop

/-! ## A function with given outcomes -/

/-- What `retry_async` does to the world. -/
inductive Event where
  | call
  | sleep (seconds : ℚ)
  deriving DecidableEq, Repr

/-- The outcomes of the function, call by call, and what was done so far. -/
structure Trial (α : Type) where
  outcomes : ℕ → Except Raised α
  events : List Event

/-- How often the function was called. -/
def calls (events : List Event) : ℕ := events.count .call

section Trial

variable {α : Type}

/-- The next call of the function. -/
def Trial.func : Proc (Trial α) Raised α := fun t =>
  (t.outcomes (calls t.events), { t with events := t.events ++ [.call] })

/-- `asyncio.sleep`. -/
def Trial.sleep (seconds : ℚ) : Proc (Trial α) Raised Unit :=
  .modify fun t => { t with events := t.events ++ [.sleep seconds] }

/-- `retry_async` on a function with these outcomes: what it gives, and what it did. -/
def trial (cfg : RetryConfig) (outcomes : ℕ → Except Raised α) : Except Raised α × List Event :=
  let (result, t) := retryAsync Trial.func Trial.sleep (some cfg) ⟨outcomes, []⟩
  (result, t.events)

/-- The outcome is a retryable exception. -/
def RetryConfig.retries (cfg : RetryConfig) : Except Raised α → Bool
  | .ok _ => false
  | .error e => cfg.catches e

/-- `j`, counted from 1, is the position of the first outcome that is no retryable exception. -/
def FirstFinal (cfg : RetryConfig) (outcomes : ℕ → Except Raised α) (j : ℕ) : Prop :=
  0 < j ∧ cfg.retries (outcomes (j - 1)) = false ∧ ∀ i, i + 1 < j → cfg.retries (outcomes i) = true

/-- What is asked of `retry_async`. -/
structure Retried (cfg : RetryConfig) (outcomes : ℕ → Except Raised α)
    (ran : Except Raised α × List Event) : Prop where
  calls_of_first : ∀ j, FirstFinal cfg outcomes j → (calls ran.2 : ℤ) = min ↑j (cfg.maxRetries + 1)
  calls_of_none : (∀ j, ¬ FirstFinal cfg outcomes j) → (calls ran.2 : ℤ) = cfg.maxRetries + 1
  result : ran.1 = outcomes (calls ran.2 - 1)
  spaced : ∃ sleeps : List ℚ,
    ran.2 = .call :: sleeps.flatMap (fun seconds => [.sleep seconds, .call]) ∧
      ∀ k (h : k < sleeps.length),
        sleeps[k] = min (cfg.baseDelay * cfg.backoffFactor ^ k) cfg.maxDelay
  bounded : ∀ seconds, .sleep seconds ∈ ran.2 → seconds ≤ cfg.maxDelay

/-! ## What the loop does -/

/-- The calls that follow the call number `i`, each after its sleep. -/
def again (cfg : RetryConfig) (i n : ℕ) : List Event :=
  ((List.range' i n).map (Backoff.delay cfg.backoffFactor cfg.maxDelay cfg.baseDelay)).flatMap
    fun seconds => [.sleep seconds, .call]

/-- What the last call gives. -/
def RetryConfig.final (cfg : RetryConfig) : Except Raised α → Except Raised α
  | .ok v => .ok v
  | .error e => .error (if cfg.catches e then exhausted (some e) else e)

/-- When the next call has number `i`, the last one has number `c`. -/
structure Ended (cfg : RetryConfig) (outcomes : ℕ → Except Raised α) (i c : ℕ) : Prop where
  le : i ≤ c
  within : (c : ℤ) ≤ cfg.maxRetries
  before : ∀ k, i ≤ k → k < c → cfg.retries (outcomes k) = true
  last : (c : ℤ) = cfg.maxRetries ∨ cfg.retries (outcomes c) = false

variable {cfg : RetryConfig} {outcomes : ℕ → Except Raised α}

theorem calls_append_call (events : List Event) : calls (events ++ [.call]) = calls events + 1 := by
  simp [calls]

theorem calls_append_sleep (events : List Event) (seconds : ℚ) :
    calls (events ++ [.sleep seconds]) = calls events := by
  simp [calls]

theorem calls_again (i n : ℕ) : calls (again cfg i n) = n := by
  unfold again calls
  induction n generalizing i with
  | zero => rfl
  | succ n ih =>
    rw [List.range'_succ, List.map_cons, List.flatMap_cons, List.count_append, ih]
    simp [Nat.add_comm]

theorem again_succ (i n : ℕ) : again cfg i (n + 1) =
    .sleep (Backoff.delay cfg.backoffFactor cfg.maxDelay cfg.baseDelay i) :: .call ::
      again cfg (i + 1) n := by
  unfold again
  rw [List.range'_succ, List.map_cons, List.flatMap_cons]
  rfl

/-- The loop from the call number `i` on. -/
theorem exists_ended (n i : ℕ) (limit : (i + n : ℤ) = cfg.maxRetries) (lastError : Option Raised)
    (events : List Event) (count : calls events = i) :
    ∃ c, Ended cfg outcomes i c ∧
      attempts cfg Trial.func Trial.sleep (List.range' i (n + 1))
          (Backoff.delay cfg.backoffFactor cfg.maxDelay cfg.baseDelay i) lastError
          ⟨outcomes, events⟩ =
        (cfg.final (outcomes c), ⟨outcomes, events ++ .call :: again cfg i (c - i)⟩) := by
  induction n generalizing i lastError events with
  | zero =>
    have stop : ¬ (i : ℤ) < cfg.maxRetries := by omega
    refine ⟨i, ⟨le_rfl, by omega, fun k _ _ => by omega, .inl (by omega)⟩, ?_⟩
    rw [List.range'_succ, List.range'_zero, attempts, Proc.recover, Nat.sub_self]
    unfold Trial.func
    simp only [count]
    cases outcome : outcomes i with
    | ok v => rfl
    | error e =>
      dsimp only
      cases caught : cfg.catches e with
      | false =>
        rw [RetryConfig.final, caught]
        rfl
      | true =>
        rw [if_pos rfl, if_neg stop, RetryConfig.final, caught]
        rfl
  | succ n ih =>
    have more : (i : ℤ) < cfg.maxRetries := by omega
    rw [List.range'_succ, attempts, Proc.recover]
    unfold Trial.func
    simp only [count]
    cases outcome : outcomes i with
    | ok v =>
      refine ⟨i, ⟨le_rfl, by omega, fun k _ _ => by omega, .inr (by rw [outcome]; rfl)⟩, ?_⟩
      rw [outcome, Nat.sub_self]
      rfl
    | error e =>
      dsimp only
      cases caught : cfg.catches e with
      | false =>
        refine ⟨i, ⟨le_rfl, by omega, fun k _ _ => by omega, .inr (by rw [outcome]; exact caught)⟩,
          ?_⟩
        rw [outcome, Nat.sub_self, RetryConfig.final, caught]
        rfl
      | true =>
        obtain ⟨c, ended, ran⟩ := ih (i + 1) (by push_cast; omega) (some e)
          (events ++ [.call] ++ [.sleep (Backoff.delay cfg.backoffFactor cfg.maxDelay
            cfg.baseDelay i)])
          (by rw [calls_append_sleep, calls_append_call, count])
        have later : i + 1 ≤ c := ended.le
        refine ⟨c, ⟨by omega, ended.within, fun k hk hc => ?_, ended.last⟩, ?_⟩
        · rcases Nat.eq_or_lt_of_le hk with rfl | hk
          · rw [outcome]
            exact caught
          · exact ended.before k hk hc
        · rw [if_pos rfl, if_pos more]
          rw [Backoff.delay_succ] at ran
          obtain ⟨d, rfl⟩ := Nat.exists_eq_add_of_le later
          have rest : i + 1 + d - i = d + 1 := by omega
          have left : i + 1 + d - (i + 1) = d := by omega
          rw [rest, again_succ]
          rw [left] at ran
          refine Eq.trans (Proc.bind_of_ok rfl) (Eq.trans ran ?_)
          simp

/-- `retry_async` ends with some call. -/
theorem exists_trial (nonneg : 0 ≤ cfg.maxRetries) (outcomes : ℕ → Except Raised α) :
    ∃ c, Ended cfg outcomes 0 c ∧
      trial cfg outcomes = (cfg.final (outcomes c), .call :: again cfg 0 c) := by
  obtain ⟨n, hn⟩ := Int.eq_ofNat_of_zero_le nonneg
  have limit : ((0 : ℕ) + n : ℤ) = cfg.maxRetries := by omega
  obtain ⟨c, ended, ran⟩ := @exists_ended α cfg outcomes n 0 limit none [] rfl
  refine ⟨c, ended, ?_⟩
  have range : List.range (cfg.maxRetries + 1).toNat = List.range' 0 (n + 1) := by
    rw [hn, List.range_eq_range']
    rfl
  unfold trial retryAsync
  simp only [Option.getD_some]
  rw [Backoff.delay_zero] at ran
  rw [range, ran]
  rfl

namespace Ended

variable {c : ℕ}

/-- The last call has the position of the first outcome that is final, or is the last allowed. -/
theorem min_first (ended : Ended cfg outcomes 0 c) {j : ℕ} (first : FirstFinal cfg outcomes j) :
    ((c + 1 : ℕ) : ℤ) = min ↑j (cfg.maxRetries + 1) := by
  obtain ⟨pos, final, retried⟩ := first
  have within := ended.within
  have reached : c + 1 ≤ j := by
    by_contra early
    have contrary := ended.before (j - 1) (Nat.zero_le _) (by omega)
    rw [final] at contrary
    cases contrary
  rcases ended.last with last | last
  · rw [min_eq_right (by omega)]
    omega
  · have here : ¬ c + 1 < j := by
      intro later
      rw [retried c later] at last
      cases last
    rw [min_eq_left (by omega)]
    omega

theorem eq_of_no_first (ended : Ended cfg outcomes 0 c) (none : ∀ j, ¬ FirstFinal cfg outcomes j) :
    (c : ℤ) = cfg.maxRetries := by
  refine ended.last.resolve_right fun final => none (c + 1) ⟨by omega, final, fun i hi => ?_⟩
  exact ended.before i (Nat.zero_le i) (by omega)

/-- A second call needs a retryable first outcome and a retry. -/
theorem pos_iff (ended : Ended cfg outcomes 0 c) :
    0 < c ↔ 0 < cfg.maxRetries ∧ cfg.retries (outcomes 0) = true := by
  have within := ended.within
  constructor
  · intro hc
    exact ⟨by omega, ended.before 0 le_rfl hc⟩
  · rintro ⟨retries, retried⟩
    refine Nat.pos_of_ne_zero ?_
    rintro rfl
    rcases ended.last with last | last
    · simp only [Nat.cast_zero] at last
      omega
    · rw [retried] at last
      cases last

end Ended

theorem exhausted_eq_iff (e : Raised) : exhausted (some e) = e ↔ e.truth = true := by
  unfold exhausted
  constructor
  · intro same
    by_contra untrue
    dsimp only at same
    rw [if_neg untrue] at same
    rw [← same] at untrue
    exact untrue rfl
  · intro truth
    exact if_pos truth

theorem mem_again {i n : ℕ} {seconds : ℚ} (h : .sleep seconds ∈ again cfg i n) :
    ∃ k, i ≤ k ∧ k < i + n ∧
      seconds = Backoff.delay cfg.backoffFactor cfg.maxDelay cfg.baseDelay k := by
  unfold again at h
  simp only [List.mem_flatMap, List.mem_map, List.mem_range'_1] at h
  obtain ⟨_, ⟨k, ⟨hi, hn⟩, rfl⟩, mem⟩ := h
  refine ⟨k, hi, hn, ?_⟩
  simpa using mem

/-- `retry_async` does what is asked of it exactly when a first sleep, if there is one, is within
the limit, and an exception that is raised for want of retries is a true object. -/
theorem retryAsync_iff (cfg : RetryConfig) (retries : 0 ≤ cfg.maxRetries)
    (limit : 0 ≤ cfg.maxDelay) (factor : 1 ≤ cfg.backoffFactor) (outcomes : ℕ → Except Raised α) :
    Retried cfg outcomes (trial cfg outcomes) ↔
      (0 < cfg.maxRetries → cfg.retries (outcomes 0) = true → cfg.baseDelay ≤ cfg.maxDelay) ∧
      ((∀ i : ℕ, i ≤ cfg.maxRetries → cfg.retries (outcomes i) = true) →
        ∀ e, outcomes cfg.maxRetries.toNat = .error e → e.truth = true) := by
  obtain ⟨c, ended, ran⟩ := exists_trial retries outcomes
  have count : calls (.call :: again cfg 0 c) = c + 1 := by
    have rest : calls (again cfg 0 c) = c := calls_again 0 c
    simpa [calls] using rest
  rw [ran]
  constructor
  · rintro ⟨-, -, result, -, bounded⟩
    refine ⟨fun more retried => ?_, fun all e outcome => ?_⟩
    · have pos : 0 < c := ended.pos_iff.2 ⟨more, retried⟩
      obtain ⟨d, rfl⟩ := Nat.exists_eq_succ_of_ne_zero pos.ne'
      refine bounded cfg.baseDelay ?_
      rw [again_succ, Backoff.delay_zero]
      simp
    · have last : (c : ℤ) = cfg.maxRetries := by
        refine ended.last.resolve_right fun final => ?_
        rw [all c ended.within] at final
        cases final
      have hc : cfg.maxRetries.toNat = c := by omega
      rw [hc] at outcome
      have caught : cfg.catches e = true := by
        have := all c ended.within
        rwa [outcome] at this
      simp only [count, Nat.add_sub_cancel, outcome, RetryConfig.final, if_pos caught] at result
      exact (exhausted_eq_iff e).1 (Except.error.inj result)
  · rintro ⟨first, truth⟩
    refine ⟨fun j hj => ?_, fun none => ?_, ?_, ⟨_, rfl, fun k h => ?_⟩, fun seconds h => ?_⟩
    · rw [count]
      exact ended.min_first hj
    · have last := ended.eq_of_no_first none
      rw [count]
      push_cast
      omega
    · rw [count, Nat.add_sub_cancel]
      dsimp only
      cases outcome : outcomes c with
      | ok v => rfl
      | error e =>
        rw [RetryConfig.final]
        split_ifs with caught
        · -- Only the last allowed call ends the loop with a retryable exception.
          have last : (c : ℤ) = cfg.maxRetries := by
            refine ended.last.resolve_right fun final => ?_
            rw [outcome, RetryConfig.retries, caught] at final
            cases final
          have all : ∀ i : ℕ, i ≤ cfg.maxRetries → cfg.retries (outcomes i) = true := by
            intro i hi
            rcases Nat.lt_or_eq_of_le (show i ≤ c by omega) with hi | rfl
            · exact ended.before i (Nat.zero_le i) hi
            · rw [outcome]
              exact caught
          have hc : cfg.maxRetries.toNat = c := by omega
          rw [(exhausted_eq_iff e).2 (truth all e (hc ▸ outcome))]
        · rfl
    · simp only [List.length_map, List.length_range'] at h
      obtain ⟨more, retried⟩ := ended.pos_iff.1 (show 0 < c by omega)
      rw [List.getElem_map, List.getElem_range', zero_add, one_mul]
      exact Backoff.delay_of_le factor limit (first more retried) k
    · have slept : .sleep seconds ∈ again cfg 0 c := by simpa using h
      obtain ⟨k, -, hk, rfl⟩ := mem_again slept
      obtain ⟨more, retried⟩ := ended.pos_iff.1 (show 0 < c by omega)
      rw [Backoff.delay_of_le factor limit (first more retried)]
      exact min_le_right _ _

/-- A `TimeoutError`. -/
def timeout : Raised :=
  ⟨["TimeoutError", "OSError", "Exception", "BaseException", "object"], true, "timed out"⟩

/-- The default configuration on a function that answers at its third call. -/
theorem retryAsync_default :
    Retried {} (fun n => if n < 2 then .error timeout else .ok 7)
      (trial {} fun n => if n < 2 then .error timeout else .ok 7) := by
  refine (retryAsync_iff {} (by decide) (by norm_num) (by norm_num) _).2 ⟨?_, ?_⟩
  · intro _ _
    norm_num
  · intro all
    exact absurd (all 2 (by decide)) (by decide)

/-- With a base delay above the limit, the first sleep exceeds the limit. -/
theorem retryAsync_sleeps_past_limit :
    ¬ ∀ (cfg : RetryConfig) (outcomes : ℕ → Except Raised ℕ), 0 ≤ cfg.maxRetries →
      0 ≤ cfg.baseDelay → 0 ≤ cfg.maxDelay → 1 ≤ cfg.backoffFactor →
      Retried cfg outcomes (trial cfg outcomes) := by
  intro claim
  have retried := claim { baseDelay := 60 } (fun _ => .error timeout) (by decide) (by norm_num)
    (by norm_num) (by norm_num)
  have slept := retried.bounded 60 (by decide +kernel)
  norm_num at slept

end Trial

end Retry

end Cpip
