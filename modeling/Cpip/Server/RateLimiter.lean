import Mathlib.Algebra.Order.Ring.Rat
import Mathlib.Algebra.Order.Ring.Int
import Mathlib.Tactic.Linarith
import Cpip.Lib.Dict
import Cpip.Lib.Machine
import Cpip.Lib.Windows
import Cpip.Python.Text

/-!
# The rate limiter (`server/auth/rate_limiter.py`)

The limiter keeps one list of times for each client, which every check prunes to the window of its
own limit.  Where a client is checked under one limit only, the list holds all admissions that still
count, and so a request is admitted exactly when fewer than the limit were admitted in the window
that ends with it.
-/

namespace Cpip

structure RateLimit where
  requests : ℤ
  windowSeconds : ℤ
  deriving DecidableEq, Repr

/-- `RateLimiter`. -/
structure RateLimiter where
  windows : Dict String (List ℚ)

/-- The `HTTPException` of `check_rate_limit`. -/
structure TooManyRequests where
  statusCode : ℕ
  detail : String
  headers : List (String × String)
  deriving DecidableEq, Repr

namespace RateLimiter

/-- What the limiter reads of a request: the `x-forwarded-for` header, and the host of the client
when there is one. -/
structure Request where
  forwarded : Option String
  host : Option String
  deriving DecidableEq, Repr

def defaultLimit : RateLimit := ⟨100, 60⟩

def buildLimit : RateLimit := ⟨10, 60⟩

def execLimit : RateLimit := ⟨50, 60⟩

/-- `forwarded.split(",")[0].strip()`. -/
def firstForwarded (forwarded : String) : String :=
  pyStrip (String.ofList (forwarded.toList.takeWhile (· ≠ ',')))

def clientIp (r : Request) : String :=
  match r.forwarded with
  | none => r.host.getD "unknown"
  | some forwarded => if forwarded ≠ "" then firstForwarded forwarded else r.host.getD "unknown"

/-- `_client_key`. -/
def clientKey (r : Request) : String := "rate:" ++ clientIp r

def empty : RateLimiter := ⟨∅⟩

/-- The times that are kept for a client. -/
def stored (m : RateLimiter) (key : String) : List ℚ := (m.windows.get? key).getD []

/-- The times that a check or `remaining` counts. -/
def counted (m : RateLimiter) (key : String) (limit : RateLimit) (now : ℚ) : List ℚ :=
  (m.stored key).filter fun t => now - limit.windowSeconds < t

/-- `check`. -/
def check (m : RateLimiter) (r : Request) (limit : RateLimit) (now : ℚ) : Bool × RateLimiter :=
  let kept := m.counted (clientKey r) limit now
  if limit.requests ≤ kept.length then (false, ⟨m.windows.set (clientKey r) kept⟩)
  else (true, ⟨m.windows.set (clientKey r) (kept ++ [now])⟩)

/-- `remaining`. -/
def remaining (m : RateLimiter) (r : Request) (limit : RateLimit) (now : ℚ) : ℤ :=
  max 0 (limit.requests - (m.counted (clientKey r) limit now).length)

/-- `check_rate_limit`. -/
def checkRateLimit (m : RateLimiter) (r : Request) (limit : RateLimit) (now : ℚ) :
    Except TooManyRequests Unit × RateLimiter :=
  match m.check r limit now with
  | (true, m) => (.ok (), m)
  | (false, m) =>
    (.error
      { statusCode := 429
        detail := "Rate limit exceeded. Retry after " ++ toString limit.windowSeconds ++ "s"
        headers := [("Retry-After", toString limit.windowSeconds)] }, m)

theorem check_eq_true_iff {m : RateLimiter} {r : Request} {limit : RateLimit} {now : ℚ} :
    (m.check r limit now).1 = true ↔
      ((m.counted (clientKey r) limit now).length : ℤ) < limit.requests := by
  unfold check
  dsimp only
  split_ifs with full
  · simpa using full
  · simpa using full

theorem stored_check (m : RateLimiter) (r : Request) (limit : RateLimit) (now : ℚ) (key : String) :
    (m.check r limit now).2.stored key =
      if clientKey r = key then
        m.counted key limit now ++ if (m.check r limit now).1 then [now] else []
      else m.stored key := by
  unfold check stored
  dsimp only
  split_ifs with full same <;> simp_all [Dict.get?_set]

/-! ## Runs -/

/-- A request that was admitted. -/
structure Admission where
  key : String
  limit : RateLimit
  time : ℚ
  deriving DecidableEq

/-- A call on the limiter. -/
inductive Event where
  | check (r : Request) (limit : RateLimit) (now : ℚ)
  | remaining (r : Request) (limit : RateLimit) (now : ℚ)

def Event.now : Event → ℚ
  | .check _ _ now => now
  | .remaining _ _ now => now

/-- A limiter with the clock and the admissions so far. -/
structure Run where
  limiter : RateLimiter
  now : ℚ
  log : List Admission

def Run.init (now : ℚ) : Run := ⟨empty, now, []⟩

/-- A check in the run. -/
def Run.check (s : Run) (r : Request) (limit : RateLimit) (now : ℚ) : Run where
  limiter := (s.limiter.check r limit now).2
  now := now
  log := s.log ++ if (s.limiter.check r limit now).1 then [⟨clientKey r, limit, now⟩] else []

/-- One call, when the clock does not go back. -/
def step (s : Run) (e : Event) : Option Run :=
  if s.now ≤ e.now then
    match e with
    | .check r limit now => some (s.check r limit now)
    | .remaining _ _ now => some { s with now := now }
  else none

/-- What one call can do. -/
inductive Moves (s : Run) : Event → Run → Prop where
  | check {r : Request} {limit : RateLimit} {now : ℚ} (clock : s.now ≤ now) :
      Moves s (.check r limit now) (s.check r limit now)
  | remaining {r : Request} {limit : RateLimit} {now : ℚ} (clock : s.now ≤ now) :
      Moves s (.remaining r limit now) { s with now := now }

theorem moves_of_step {s s' : Run} {e : Event} (hs : step s e = some s') : Moves s e s' := by
  unfold step at hs
  split_ifs at hs with clock
  cases e with
  | check r limit now => exact Option.some.inj hs ▸ .check clock
  | remaining r limit now => exact Option.some.inj hs ▸ .remaining clock

/-- The times at which requests of a client were admitted under a limit. -/
def times (key : String) (limit : RateLimit) (log : List Admission) : List ℚ :=
  (log.filter fun a => a.key = key ∧ a.limit = limit).map Admission.time

theorem times_append (key : String) (limit : RateLimit) (log log' : List Admission) :
    times key limit (log ++ log') = times key limit log ++ times key limit log' := by
  simp [times]

/-- How many requests of the client were admitted under the limit in the window that ends at `t`. -/
def admitted (key : String) (limit : RateLimit) (s : Run) (t : ℚ) : ℕ :=
  Windows.count (t - limit.windowSeconds) t (times key limit s.log)

/-- The limits under which a client is checked do not disturb one another: beside a limit that can
reject and admit, every other admits nothing and prunes no further. -/
def Harmless (limits : RateLimit → Prop) : Prop :=
  ∀ limit other, limits limit → limits other → other ≠ limit → 0 < limit.requests →
    0 < limit.windowSeconds → other.requests ≤ 0 ∧ limit.windowSeconds ≤ other.windowSeconds

/-- A call that checks the client under one of the limits only. -/
def Event.Within (key : String) (limits : RateLimit → Prop) : Event → Prop
  | .check r limit _ => clientKey r = key → limits limit
  | .remaining _ _ _ => True

instance (key : String) (limits : RateLimit → Prop) [DecidablePred limits] :
    DecidablePred (Event.Within key limits)
  | .check r limit _ => inferInstanceAs (Decidable (clientKey r = key → limits limit))
  | .remaining _ _ _ => inferInstanceAs (Decidable True)

/-- What a run keeps of a client whose checks are under harmless limits, for one of them. -/
structure Kept (key : String) (limit : RateLimit) (s : Run) : Prop where
  ordered : (times key limit s.log).Pairwise (· ≤ ·)
  past : ∀ t ∈ times key limit s.log, t ≤ s.now
  limited : Windows.Limited limit.requests (limit.windowSeconds : ℚ) (times key limit s.log)
  stored : ∀ t ∈ s.limiter.stored key, t ≤ s.now
  kept : 0 < limit.requests → 0 < limit.windowSeconds → ∀ c, s.now - limit.windowSeconds ≤ c →
    (s.limiter.stored key).filter (c < ·) = (times key limit s.log).filter (c < ·)

theorem kept_init (key : String) (limit : RateLimit) (now : ℚ) : Kept key limit (Run.init now) where
  ordered := List.Pairwise.nil
  past := nofun
  limited := History.each_nil
  stored := nofun
  kept _ _ _ _ := rfl

variable {key : String} {limit : RateLimit} {s : Run}

/-- What is counted is what was admitted under the limit in the window, unless the limit rejects
everything. -/
theorem Kept.length_counted (h : Kept key limit s) (admits : 0 < limit.requests) {t : ℚ}
    (clock : s.now ≤ t) : (s.limiter.counted key limit t).length = admitted key limit s t := by
  have past : ∀ t' ∈ times key limit s.log, t' ≤ t := fun t' ht' => (h.past t' ht').trans clock
  rw [admitted, Windows.count_eq_of_le past, List.countP_eq_length_filter, counted]
  by_cases window : 0 < limit.windowSeconds
  · rw [h.kept admits window (t - limit.windowSeconds)
      (sub_le_sub_right clock _)]
  · -- nothing is later than the end of an empty window
    have empty (times : List ℚ) (early : ∀ t' ∈ times, t' ≤ s.now) :
        times.filter (fun t' => decide (t - limit.windowSeconds < t')) = [] := by
      rw [List.filter_eq_nil_iff]
      intro t' ht'
      have nonpos : (limit.windowSeconds : ℚ) ≤ 0 := by exact_mod_cast not_lt.1 window
      have := early t' ht'
      simp only [decide_eq_true_eq, not_lt]
      linarith
    rw [empty _ h.stored, empty _ h.past]

/-- A check admits exactly when fewer than the limit were admitted in the window. -/
theorem Kept.check_iff (h : Kept key limit s) {r : Request} (hr : clientKey r = key) {t : ℚ}
    (clock : s.now ≤ t) :
    (s.limiter.check r limit t).1 = true ↔ (admitted key limit s t : ℤ) < limit.requests := by
  rw [check_eq_true_iff, hr]
  by_cases admits : 0 < limit.requests
  · rw [h.length_counted admits clock]
  · constructor
    · intro fewer
      omega
    · intro fewer
      omega

theorem Kept.remaining_eq (h : Kept key limit s) {r : Request} (hr : clientKey r = key) {t : ℚ}
    (clock : s.now ≤ t) :
    s.limiter.remaining r limit t = max 0 (limit.requests - admitted key limit s t) := by
  rw [remaining, hr]
  by_cases admits : 0 < limit.requests
  · rw [h.length_counted admits clock]
  · omega

/-- What leaves the times of the client as they are keeps them. -/
theorem Kept.of_same (h : Kept key limit s) {s' : Run} (clock : s.now ≤ s'.now)
    (htimes : times key limit s'.log = times key limit s.log)
    (hstored : s'.limiter.stored key = s.limiter.stored key) : Kept key limit s' where
  ordered := by
    rw [htimes]
    exact h.ordered
  past := by
    rw [htimes]
    exact fun t ht => (h.past t ht).trans clock
  limited := by
    rw [htimes]
    exact h.limited
  stored := by
    rw [hstored]
    exact fun t ht => (h.stored t ht).trans clock
  kept := by
    rw [htimes, hstored]
    exact fun admits window c hc => h.kept admits window c ((sub_le_sub_right clock _).trans hc)

theorem times_check (key : String) (limit : RateLimit) (s : Run) (r : Request) (other : RateLimit)
    (now : ℚ) : times key limit (s.check r other now).log = times key limit s.log ++
      if (s.limiter.check r other now).1 ∧ clientKey r = key ∧ other = limit then [now]
      else [] := by
  rw [Run.check, times_append]
  congr 1
  by_cases hr : clientKey r = key <;> by_cases hl : other = limit <;>
    cases (s.limiter.check r other now).1 <;> simp [times, hr, hl]

theorem mem_stored_check {r : Request} {other : RateLimit} {now t : ℚ}
    (h : ∀ t ∈ s.limiter.stored key, t ≤ s.now) (clock : s.now ≤ now)
    (ht : t ∈ (s.check r other now).limiter.stored key) : t ≤ now := by
  have old : ∀ t ∈ s.limiter.stored key, t ≤ now := fun t ht => (h t ht).trans clock
  rw [Run.check, stored_check] at ht
  split_ifs at ht
  · rcases List.mem_append.1 ht with ht | ht
    · exact old t (List.mem_of_mem_filter ht)
    · exact (List.mem_singleton.1 ht).le
  · exact old t (List.mem_of_mem_filter (List.append_nil _ ▸ ht))
  · exact old t ht

/-- A list that was pruned, pruned again. -/
theorem filter_counted {m : RateLimiter} {now c : ℚ} (hc : now - limit.windowSeconds ≤ c) :
    (m.counted key limit now).filter (c < ·) = (m.stored key).filter (c < ·) := by
  rw [counted, List.filter_filter]
  refine List.filter_congr fun t _ => ?_
  simp only [Bool.and_eq_decide, decide_eq_true_eq, decide_eq_decide, and_iff_left_iff_imp]
  exact fun later => hc.trans_lt later

/-- A check of the client under another harmless limit. -/
theorem Kept.check_harmless (h : Kept key limit s) {r : Request} (hr : clientKey r = key)
    {other : RateLimit} (ne : other ≠ limit)
    (harmless : 0 < limit.requests → 0 < limit.windowSeconds →
      other.requests ≤ 0 ∧ limit.windowSeconds ≤ other.windowSeconds) {now : ℚ}
    (clock : s.now ≤ now) : Kept key limit (s.check r other now) := by
  have same : times key limit (s.check r other now).log = times key limit s.log := by
    rw [times_check, if_neg (by simp [ne]), List.append_nil]
  refine ⟨same ▸ h.ordered, fun t ht => (h.past t (same ▸ ht)).trans clock, same ▸ h.limited,
    fun t ht => mem_stored_check h.stored clock ht, fun admits window c hc => ?_⟩
  obtain ⟨rejects, longer⟩ := harmless admits window
  have rejected : (s.limiter.check r other now).1 = false := by
    rw [Bool.eq_false_iff, ne_eq, check_eq_true_iff]
    omega
  have longer' : (limit.windowSeconds : ℚ) ≤ other.windowSeconds := by exact_mod_cast longer
  have hc' : now - limit.windowSeconds ≤ c := hc
  rw [same, ← h.kept admits window c ((sub_le_sub_right clock _).trans hc), Run.check,
    stored_check, if_pos hr, rejected]
  simp only [Bool.false_eq_true, if_false, List.append_nil]
  exact filter_counted (by linarith)

/-- A check of the client under the limit. -/
theorem Kept.check_same (h : Kept key limit s) {r : Request} (hr : clientKey r = key) {now : ℚ}
    (clock : s.now ≤ now) : Kept key limit (s.check r limit now) := by
  have grown : times key limit (s.check r limit now).log = times key limit s.log ++
      if (s.limiter.check r limit now).1 then [now] else [] := by
    rw [times_check]
    simp [hr]
  have past : ∀ t ∈ times key limit s.log, t ≤ now := fun t ht => (h.past t ht).trans clock
  have admits_iff := h.check_iff hr clock
  have stored : (s.check r limit now).limiter.stored key = s.limiter.counted key limit now ++
      if (s.limiter.check r limit now).1 then [now] else [] := by
    rw [Run.check, stored_check, if_pos hr]
  have kept (admits : 0 < limit.requests) (window : 0 < limit.windowSeconds) (c : ℚ)
      (hc : now - limit.windowSeconds ≤ c) : ((s.check r limit now).limiter.stored key).filter
        (c < ·) = (times key limit (s.check r limit now).log).filter (c < ·) := by
    rw [stored, grown, List.filter_append, List.filter_append, filter_counted hc,
      h.kept admits window c ((sub_le_sub_right clock _).trans hc)]
  refine ⟨?_, ?_, ?_, fun t ht => mem_stored_check h.stored clock ht, kept⟩
  · rw [grown]
    split_ifs with admitted
    · exact List.pairwise_append.2 ⟨h.ordered, List.pairwise_singleton _ _, by simpa using past⟩
    · rw [List.append_nil]
      exact h.ordered
  · rw [grown]
    intro t ht
    rcases List.mem_append.1 ht with ht | ht
    · exact past t ht
    · split_ifs at ht
      · exact (List.mem_singleton.1 ht).le
      · cases ht
  · rw [grown]
    split_ifs with admitted
    · exact h.limited.snoc (admits_iff.1 admitted)
    · rw [List.append_nil]
      exact h.limited

theorem Kept.step {limits : RateLimit → Prop} (harmless : Harmless limits) (mem : limits limit)
    (h : Kept key limit s) {e : Event} (within : e.Within key limits) {s' : Run}
    (hs : step s e = some s') : Kept key limit s' := by
  cases moves_of_step hs with
  | remaining clock => exact h.of_same clock rfl rfl
  | @check r other now clock =>
    by_cases hr : clientKey r = key
    · by_cases same : other = limit
      · subst same
        exact h.check_same hr clock
      · exact h.check_harmless hr same (harmless limit other mem (within hr) same) clock
    · refine h.of_same clock ?_ ?_
      · rw [times_check, if_neg (by simp [hr]), List.append_nil]
      · rw [Run.check, stored_check, if_neg hr]

/-- After every run that starts empty and checks a client under harmless limits only. -/
theorem kept_run {limits : RateLimit → Prop} (harmless : Harmless limits) (mem : limits limit)
    {now : ℚ} {events : List Event} (within : ∀ e ∈ events, e.Within key limits)
    (ran : Machine.run step (Run.init now) events = some s) : Kept key limit s :=
  Machine.invariant_along (fun _ _ _ within kept hs => kept.step harmless mem within hs)
    (kept_init key limit now) (Machine.along_of_forall_mem within _) ran

theorem harmless_eq (limit : RateLimit) : Harmless (· = limit) := by
  intro limit' other hlimit hother ne
  exact absurd (hother.trans hlimit.symm) ne

/-! ## One limit for a client -/

/-- Where a client is checked under one limit, no window holds more admissions than the limit, a
check admits exactly when fewer were admitted in the window that ends with it, and `remaining` says
how many more it would admit. -/
theorem sliding_window (key : String) (limit : RateLimit) {now : ℚ} {events : List Event} {s : Run}
    (within : ∀ e ∈ events, e.Within key (· = limit))
    (ran : Machine.run step (Run.init now) events = some s) :
    (∀ a : ℚ, (Windows.count a (a + limit.windowSeconds) (times key limit s.log) : ℤ)
        ≤ max 0 limit.requests) ∧
      ∀ r t, clientKey r = key → s.now ≤ t →
        ((s.limiter.check r limit t).1 = true ↔
            (admitted key limit s t : ℤ) < limit.requests) ∧
          s.limiter.remaining r limit t = max 0 (limit.requests - admitted key limit s t) ∧
          (0 < s.limiter.remaining r limit t ↔ (s.limiter.check r limit t).1 = true) := by
  have kept := kept_run (harmless_eq limit) rfl within ran
  refine ⟨fun a => kept.limited.count_le kept.ordered a, fun r t hr clock => ?_⟩
  have admits := kept.check_iff hr clock
  have left := kept.remaining_eq hr clock
  refine ⟨admits, left, ?_⟩
  rw [left, admits]
  omega

/-- Two requests of a client under a limit of two, and one of another client. -/
def twoClients : List Event :=
  [.check ⟨none, some "a"⟩ ⟨2, 60⟩ 1, .check ⟨none, some "b"⟩ ⟨1, 10⟩ 1,
    .check ⟨some "a, b", some "b"⟩ ⟨2, 60⟩ 3]

theorem sliding_window_two_clients :
    ∃ s, Machine.run step (Run.init 0) twoClients = some s ∧ times "rate:a" ⟨2, 60⟩ s.log = [1, 3] ∧
      ∀ a : ℚ, (Windows.count a (a + (60 : ℤ)) (times "rate:a" ⟨2, 60⟩ s.log) : ℤ) ≤ max 0 2 := by
  have within : ∀ e ∈ twoClients, e.Within "rate:a" (· = ⟨2, 60⟩) := by decide +kernel
  exact ⟨_, rfl, by decide +kernel,
    (sliding_window "rate:a" ⟨2, 60⟩ within (rfl : Machine.run step (Run.init 0) _ = _)).1⟩

/-- A negative limit is exceeded by no admission at all. -/
theorem negative_limit_exceeded :
    ¬ ∀ (key : String) (limit : RateLimit) (now : ℚ) (events : List Event) (s : Run),
      0 < limit.windowSeconds → (∀ e ∈ events, e.Within key (· = limit)) →
        Machine.run step (Run.init now) events = some s →
          ∀ a : ℚ, (Windows.count a (a + limit.windowSeconds) (times key limit s.log) : ℤ)
            ≤ limit.requests := by
  intro holds
  have h := holds "rate:a" ⟨-1, 60⟩ 0 [] (Run.init 0) (by decide) (by simp) rfl 0
  have nonneg : (0 : ℤ) ≤ Windows.count 0 (0 + ((60 : ℤ) : ℚ)) (times "rate:a" ⟨-1, 60⟩ []) :=
    Int.natCast_nonneg _
  have : (0 : ℤ) ≤ -1 := nonneg.trans h
  omega

end RateLimiter

end Cpip
