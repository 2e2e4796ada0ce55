import Cpip.Server.Quotas

/-!
# Forwarded addresses

A request comes to the server directly or through the proxy of `deploy/nginx.conf`.  The client key
is the first address of the `X-Forwarded-For` header, and the proxy appends the address of the peer
after what the peer sent, so the key is what the peer says that it is.
-/

namespace Cpip

namespace RateLimiter

inductive Route where
  | direct
  | proxied
  deriving DecidableEq, Repr

/-- The request of a peer that sends these `X-Forwarded-For` lines.  The server reads the first
line; the proxy joins the lines and appends the address of the peer
(`$proxy_add_x_forwarded_for`). -/
def arrive (peer proxy : String) : Route → List String → Request
  | .direct, headers => ⟨headers.head?, some peer⟩
  | .proxied, headers => ⟨some (", ".intercalate (headers ++ [peer])), some proxy⟩

theorem checkRateLimit_eq (m : RateLimiter) (r : Request) (limit : RateLimit) (now : ℚ) :
    m.checkRateLimit r limit now =
      (if (m.check r limit now).1 then .ok ()
        else .error
          ⟨429, "Rate limit exceeded. Retry after " ++ toString limit.windowSeconds ++ "s",
            [("Retry-After", toString limit.windowSeconds)]⟩, (m.check r limit now).2) := by
  unfold checkRateLimit
  generalize m.check r limit now = outcome
  obtain ⟨_ | _, m'⟩ := outcome <;> rfl

/-- The limiter sees the client key of a request and nothing else. -/
theorem check_congr {r r' : Request} (same : clientKey r = clientKey r') (m : RateLimiter)
    (limit : RateLimit) (now : ℚ) : m.check r limit now = m.check r' limit now := by
  unfold check
  rw [same]

/-- The times at which requests were admitted under a limit, whatever their key. -/
def admissions (limit : RateLimit) (log : List Admission) : List ℚ :=
  (log.filter fun a => a.limit = limit).map Admission.time

theorem admissions_append (limit : RateLimit) (log log' : List Admission) :
    admissions limit (log ++ log') = admissions limit log ++ admissions limit log' := by
  simp [admissions]

theorem admissions_check (limit : RateLimit) (s : Run) (r : Request) (other : RateLimit) (now : ℚ) :
    admissions limit (s.check r other now).log = admissions limit s.log ++
      if (s.limiter.check r other now).1 ∧ other = limit then [now] else [] := by
  rw [Run.check, admissions_append]
  congr 1
  by_cases hl : other = limit <;> cases (s.limiter.check r other now).1 <;> simp [admissions, hl]

section Peer

variable (peer proxy : String) (sends : Route → List String → Prop) (limits : RateLimit → Prop)

/-- A request of the peer, with header lines that it sends on the route, under one of the limits. -/
def FromPeer (e : Event) : Prop :=
  ∃ route headers limit now, sends route headers ∧ limits limit ∧
    e = .check (arrive peer proxy route headers) limit now

/-- Two requests of the peer that differ in the header lines only. -/
def Alike (e e' : Event) : Prop :=
  ∃ route headers headers' limit now, sends route headers ∧ sends route headers' ∧ limits limit ∧
    e = .check (arrive peer proxy route headers) limit now ∧
      e' = .check (arrive peer proxy route headers') limit now

/-- No window of a limit holds more admissions of the peer than the limit has requests. -/
def PeerBounded : Prop :=
  ∀ s, Reachable (FromPeer peer proxy sends limits) s → ∀ limit, limits limit → ∀ a : ℚ,
    (Windows.count a (a + limit.windowSeconds) (admissions limit s.log) : ℤ) ≤ limit.requests

/-- In two runs that differ in the header lines only, the same requests are admitted. -/
def HeaderBlind : Prop :=
  ∀ now events events' s s', List.Forall₂ (Alike peer proxy sends limits) events events' →
    Machine.run step (Run.init now) events = some s →
      Machine.run step (Run.init now) events' = some s' →
        ∀ route headers headers' limit t, sends route headers → sends route headers' →
          limits limit → s.now ≤ t → s'.now ≤ t →
            (s.limiter.checkRateLimit (arrive peer proxy route headers) limit t).1
              = (s'.limiter.checkRateLimit (arrive peer proxy route headers') limit t).1

/-- Where a limit can admit and reject, all that the peer sends gives one client key, and no limit
with a shorter window is used beside it (unless neither can let a window run empty). -/
def OneQuota : Prop :=
  ∀ limit, limits limit → 0 ≤ limit.requests ∧
    (0 < limit.requests → 0 < limit.windowSeconds → ∀ route headers, sends route headers →
      (∀ route' headers', sends route' headers' →
        clientKey (arrive peer proxy route headers)
          = clientKey (arrive peer proxy route' headers')) ∧
      ∀ other, limits other → other.windowSeconds < limit.windowSeconds →
        limit.requests = 1 ∧ 0 < other.requests)

end Peer

/-! ## One key -/

/-- What a run keeps for a limit when all requests have one key: whatever was admitted under the
limit and still counts has a time of its own in the list. -/
structure Held (key : String) (limit : RateLimit) (s : Run) : Prop where
  ordered : (admissions limit s.log).Pairwise (· ≤ ·)
  past : ∀ t ∈ admissions limit s.log, t ≤ s.now
  limited : Windows.Limited limit.requests (limit.windowSeconds : ℚ) (admissions limit s.log)
  kept : ∀ c, s.now - limit.windowSeconds ≤ c →
    (admissions limit s.log).countP (c < ·) ≤ (s.limiter.stored key).countP (c < ·)

theorem held_init (key : String) (limit : RateLimit) (now : ℚ) : Held key limit (Run.init now) where
  ordered := List.Pairwise.nil
  past := nofun
  limited := History.each_nil
  kept _ _ := le_rfl

section Held

variable {key : String} {limit other : RateLimit} {s : Run} {r : Request} {now : ℚ}

theorem Held.length_le (h : Held key limit s) (clock : s.now ≤ now) :
    Windows.count (now - limit.windowSeconds) now (admissions limit s.log)
      ≤ (s.limiter.counted key limit now).length := by
  rw [Windows.count_eq_of_le fun t ht => (h.past t ht).trans clock, counted,
    ← List.countP_eq_length_filter]
  exact h.kept _ (sub_le_sub_right clock _)

/-- A check that prunes no further than the limit keeps the times that still count. -/
theorem Held.kept_longer (h : Held key limit s) (hr : clientKey r = key)
    (longer : limit.windowSeconds ≤ other.windowSeconds) (clock : s.now ≤ now) {c : ℚ}
    (hc : now - limit.windowSeconds ≤ c) :
    (admissions limit (s.check r other now).log).countP (c < ·)
      ≤ ((s.check r other now).limiter.stored key).countP (c < ·) := by
  have longer' : (limit.windowSeconds : ℚ) ≤ other.windowSeconds := by exact_mod_cast longer
  have old := h.kept c ((sub_le_sub_right clock _).trans hc)
  have pruned : (s.limiter.counted key other now).countP (c < ·)
      = (s.limiter.stored key).countP (c < ·) := by
    rw [List.countP_eq_length_filter, filter_counted (by linarith), List.countP_eq_length_filter]
  rw [admissions_check, Run.check, stored_check, if_pos hr, List.countP_append,
    List.countP_append, pruned]
  by_cases admitted : (s.limiter.check r other now).1 = true
  · rw [if_pos admitted]
    split_ifs
    · omega
    · simp only [List.countP_nil]
      omega
  · rw [if_neg admitted, if_neg fun h => admitted h.1]
    omega

/-- A check that prunes further leaves a time in the list where both limits admit, and one is
enough for a limit of one request. -/
theorem Held.kept_shorter (h : Held key limit s) (hr : clientKey r = key)
    (shorter : other.windowSeconds < limit.windowSeconds) (one : limit.requests = 1)
    (admits : 0 < other.requests) (clock : s.now ≤ now) {c : ℚ}
    (hc : now - limit.windowSeconds ≤ c) :
    (admissions limit (s.check r other now).log).countP (c < ·)
      ≤ ((s.check r other now).limiter.stored key).countP (c < ·) := by
  have ne : other ≠ limit := fun same => by
    rw [same] at shorter
    exact lt_irrefl _ shorter
  rw [admissions_check, if_neg fun h => ne h.2, List.append_nil]
  have past : ∀ t ∈ admissions limit s.log, t ≤ now := fun t ht => (h.past t ht).trans clock
  have single : (admissions limit s.log).countP (c < ·) ≤ 1 := by
    have bound := h.limited.count_le h.ordered (now - limit.windowSeconds)
    rw [one, sub_add_cancel] at bound
    have inside : Windows.count c now (admissions limit s.log)
        ≤ Windows.count (now - limit.windowSeconds) now (admissions limit s.log) :=
      Windows.count_le_count fun t _ later upto => ⟨hc.trans_lt later, upto⟩
    rw [Windows.count_eq_of_le past] at inside
    omega
  rcases Nat.eq_zero_or_pos ((admissions limit s.log).countP (c < ·)) with none | some
  · omega
  refine single.trans (List.countP_pos_iff.2 ?_)
  obtain ⟨t, ht, later⟩ := List.countP_pos_iff.1 some
  have old := h.kept c ((sub_le_sub_right clock _).trans hc)
  obtain ⟨e, he, hlater⟩ := List.countP_pos_iff.1 (some.trans_le old)
  rw [decide_eq_true_eq] at later hlater
  rw [Run.check, stored_check, if_pos hr]
  by_cases admitted : (s.limiter.check r other now).1 = true
  · rw [if_pos admitted]
    exact ⟨now, by simp, by simpa using later.trans_le (past t ht)⟩
  · -- what rejects is in the list, and later than what was pruned
    rw [if_neg admitted, List.append_nil]
    have full : 0 < (s.limiter.counted key other now).length := by
      rw [check_eq_true_iff, hr] at admitted
      omega
    by_cases stays : now - other.windowSeconds < e
    · exact ⟨e, List.mem_filter.2 ⟨he, by simpa using stays⟩, by simpa using hlater⟩
    · obtain ⟨e', he'⟩ := List.exists_mem_of_length_pos full
      have hlate := (List.mem_filter.1 he').2
      rw [decide_eq_true_eq] at hlate
      exact ⟨e', he', by simpa using hlater.trans_le ((not_lt.1 stays).trans hlate.le)⟩

theorem Held.check (h : Held key limit s) (hr : clientKey r = key)
    (spares : other.windowSeconds < limit.windowSeconds →
      limit.requests = 1 ∧ 0 < other.requests) (clock : s.now ≤ now) :
    Held key limit (s.check r other now) := by
  have past : ∀ t ∈ admissions limit s.log, t ≤ now := fun t ht => (h.past t ht).trans clock
  refine ⟨?_, ?_, ?_, fun c hc => ?_⟩
  · rw [admissions_check]
    split_ifs
    · exact List.pairwise_append.2 ⟨h.ordered, List.pairwise_singleton _ _, by simpa using past⟩
    · rw [List.append_nil]
      exact h.ordered
  · rw [admissions_check]
    intro t ht
    rcases List.mem_append.1 ht with ht | ht
    · exact past t ht
    · split_ifs at ht
      · exact (List.mem_singleton.1 ht).le
      · cases ht
  · rw [admissions_check]
    split_ifs with admitted
    · obtain ⟨admitted, rfl⟩ := admitted
      have counted := h.length_le clock
      rw [check_eq_true_iff, hr] at admitted
      exact h.limited.snoc (by omega)
    · rw [List.append_nil]
      exact h.limited
  · by_cases shorter : other.windowSeconds < limit.windowSeconds
    · exact h.kept_shorter hr shorter (spares shorter).1 (spares shorter).2 clock hc
    · exact h.kept_longer hr (not_lt.1 shorter) clock hc

end Held

/-! ## Limits that cannot both admit and reject -/

/-- No time in the lists is later than the clock. -/
def Past (s : Run) : Prop := ∀ key, ∀ t ∈ s.limiter.stored key, t ≤ s.now

theorem past_step {s s' : Run} {e : Event} (past : Past s) (hs : step s e = some s') : Past s' := by
  cases moves_of_step hs with
  | remaining clock => exact fun key t ht => (past key t ht).trans clock
  | check clock => exact fun key t ht => mem_stored_check (past key) clock ht

theorem past_run {now : ℚ} {events : List Event} {s : Run}
    (ran : Machine.run step (Run.init now) events = some s) : Past s :=
  Machine.invariant_run (fun _ _ _ past hs => past_step past hs)
    (fun _ _ ht => absurd ht List.not_mem_nil) ran

/-- Without a window, or without a request to admit, the key makes no difference. -/
theorem check_iff_of_vain {s : Run} (past : Past s) {r : Request} {limit : RateLimit} {now : ℚ}
    (clock : s.now ≤ now) (vain : 0 < limit.requests → limit.windowSeconds ≤ 0) :
    (s.limiter.check r limit now).1 = true ↔ 0 < limit.requests := by
  rw [check_eq_true_iff]
  by_cases admits : 0 < limit.requests
  · have window : (limit.windowSeconds : ℚ) ≤ 0 := by exact_mod_cast vain admits
    have none : s.limiter.counted (clientKey r) limit now = [] := by
      rw [counted, List.filter_eq_nil_iff]
      intro t ht
      have := past _ t ht
      rw [decide_eq_true_eq, not_lt]
      linarith
    rw [none]
    exact Iff.rfl
  · constructor
    · intro fewer
      omega
    · exact fun h => absurd h admits

/-! ## The quota of a peer -/

section Peer

variable {peer proxy : String} {sends : Route → List String → Prop} {limits : RateLimit → Prop}

theorem admissions_eq_nil {limit : RateLimit} (rejects : limit.requests ≤ 0) {now : ℚ}
    {events : List Event} {s : Run} (ran : Machine.run step (Run.init now) events = some s) :
    admissions limit s.log = [] := by
  refine Machine.invariant_run (I := fun s => admissions limit s.log = []) ?_ rfl ran
  intro s e s' none hs
  cases moves_of_step hs with
  | remaining clock => exact none
  | check clock =>
    rw [admissions_check, none, if_neg]
    · rfl
    · rintro ⟨admitted, rfl⟩
      rw [check_eq_true_iff] at admitted
      omega

theorem held_of_oneQuota (one : OneQuota peer proxy sends limits) {limit : RateLimit}
    (mem : limits limit) (admits : 0 < limit.requests) (window : 0 < limit.windowSeconds)
    {route : Route} {headers : List String} (hsends : sends route headers) {s : Run}
    (hs : Reachable (FromPeer peer proxy sends limits) s) :
    Held (clientKey (arrive peer proxy route headers)) limit s := by
  obtain ⟨now, events, fromPeer, ran⟩ := hs
  obtain ⟨sameKey, spares⟩ := (one limit mem).2 admits window route headers hsends
  refine Machine.invariant_along (P := fun _ e => FromPeer peer proxy sends limits e) ?_
    (held_init _ limit now) (Machine.along_of_forall_mem fromPeer _) ran
  rintro s e s' ⟨route', headers', other, t, hsends', hother, rfl⟩ held hs
  cases moves_of_step hs with
  | check clock =>
    exact held.check (sameKey route' headers' hsends').symm (spares other hother) clock

theorem peerBounded_of_oneQuota (one : OneQuota peer proxy sends limits) :
    PeerBounded peer proxy sends limits := by
  intro s hs limit mem a
  obtain ⟨nonneg, -⟩ := one limit mem
  obtain ⟨now, events, fromPeer, ran⟩ := hs
  by_cases admits : 0 < limit.requests
  swap
  · rw [admissions_eq_nil (by omega) ran]
    exact nonneg
  by_cases window : 0 < limit.windowSeconds
  swap
  · -- nothing is in an empty window
    have nonpos : (limit.windowSeconds : ℚ) ≤ 0 := by exact_mod_cast not_lt.1 window
    have none : Windows.count a (a + limit.windowSeconds) (admissions limit s.log) = 0 := by
      refine List.countP_eq_zero.2 fun t _ inside => ?_
      rw [decide_eq_true_eq] at inside
      linarith [inside.1, inside.2]
    rw [none]
    exact nonneg
  by_cases some : ∃ route headers, sends route headers
  · obtain ⟨route, headers, hsends⟩ := some
    have held := held_of_oneQuota one mem admits window hsends ⟨now, events, fromPeer, ran⟩
    have bound := held.limited.count_le held.ordered a
    omega
  · -- a peer that sends nothing
    cases events with
    | nil =>
      obtain rfl := Option.some.inj ran
      exact nonneg
    | cons e events =>
      obtain ⟨route, headers, _, _, hsends, -⟩ := fromPeer e (List.mem_cons_self ..)
      exact absurd ⟨route, headers, hsends⟩ some

/-- When the keys of requests that differ in the header lines are the same, so are the runs. -/
theorem run_eq_of_alike
    (same : ∀ route headers headers', sends route headers → sends route headers' →
      clientKey (arrive peer proxy route headers) = clientKey (arrive peer proxy route headers'))
    {s : Run} {events events' : List Event}
    (alike : List.Forall₂ (Alike peer proxy sends limits) events events') :
    Machine.run step s events = Machine.run step s events' := by
  induction alike generalizing s with
  | nil => rfl
  | @cons e e' events events' he _ ih =>
    obtain ⟨route, headers, headers', limit, now, hsends, hsends', -, rfl, rfl⟩ := he
    have hstep : step s (.check (arrive peer proxy route headers) limit now)
        = step s (.check (arrive peer proxy route headers') limit now) := by
      have key := same route headers headers' hsends hsends'
      have hcheck : s.check (arrive peer proxy route headers) limit now
          = s.check (arrive peer proxy route headers') limit now := by
        rw [Run.check, Run.check, check_congr key, key]
      show (if s.now ≤ now then some _ else none) = if s.now ≤ now then some _ else none
      rw [hcheck]
    simp only [Machine.run, hstep, ih]

theorem headerBlind_of_oneQuota (one : OneQuota peer proxy sends limits) :
    HeaderBlind peer proxy sends limits := by
  intro now events events' s s' alike ran ran' route headers headers' limit t hsends hsends' mem
    clock clock'
  have outcome : (s.limiter.check (arrive peer proxy route headers) limit t).1
      = (s'.limiter.check (arrive peer proxy route headers') limit t).1 := by
    by_cases able : 0 < limit.requests ∧ 0 < limit.windowSeconds
    · have same : ∀ route headers headers', sends route headers → sends route headers' →
          clientKey (arrive peer proxy route headers)
            = clientKey (arrive peer proxy route headers') := fun route headers headers' h h' =>
        ((one limit mem).2 able.1 able.2 route headers h).1 route headers' h'
      rw [run_eq_of_alike same alike, ran'] at ran
      obtain rfl := Option.some.inj ran
      rw [check_congr (same route headers headers' hsends hsends')]
    · have vain : 0 < limit.requests → limit.windowSeconds ≤ 0 := fun admits =>
        not_lt.1 fun window => able ⟨admits, window⟩
      rw [Bool.eq_iff_iff, check_iff_of_vain (past_run ran) clock vain,
        check_iff_of_vain (past_run ran') clock' vain]
  rw [checkRateLimit_eq, checkRateLimit_eq, outcome]

theorem admissions_replicate (key : String) (limit : RateLimit) (k : ℕ) (t : ℚ) :
    admissions limit (List.replicate k ⟨key, limit, t⟩) = List.replicate k t := by
  simp [admissions]

theorem FromPeer.check {route : Route} {headers : List String} {limit : RateLimit}
    (hsends : sends route headers) (mem : limits limit) (now : ℚ) :
    FromPeer peer proxy sends limits (.check (arrive peer proxy route headers) limit now) :=
  ⟨route, headers, limit, now, hsends, mem, rfl⟩

/-- One more check of the peer. -/
theorem Reachable.check {s : Run} (hs : Reachable (FromPeer peer proxy sends limits) s)
    {route : Route} {headers : List String} {limit : RateLimit} {now : ℚ}
    (hsends : sends route headers) (mem : limits limit) (clock : s.now ≤ now) :
    Reachable (FromPeer peer proxy sends limits)
      (s.check (arrive peer proxy route headers) limit now) :=
  hs.run [.check (arrive peer proxy route headers) limit now]
    (List.forall_mem_singleton.2 (.check hsends mem now))
    ((Machine.run_cons_eq_some step).2 ⟨_, if_pos clock, rfl⟩)

/-- All that the limit admits, at time zero and under one key. -/
theorem exists_reachable_full {limit : RateLimit} (mem : limits limit)
    (admits : 0 < limit.requests) (window : 0 < limit.windowSeconds) {route : Route}
    {headers : List String} (hsends : sends route headers) {s : Run}
    (hs : Reachable (FromPeer peer proxy sends limits) s) (clock : s.now = 0)
    (fresh : s.limiter.stored (clientKey (arrive peer proxy route headers)) = []) :
    ∃ (s' : Run) (n : ℕ), (n : ℤ) = limit.requests ∧
      Reachable (FromPeer peer proxy sends limits) s' ∧ s'.now = 0 ∧
      s'.limiter.stored (clientKey (arrive peer proxy route headers)) = List.replicate n 0 ∧
      admissions limit s'.log = admissions limit s.log ++ List.replicate n 0 := by
  obtain ⟨n, hn⟩ := Int.eq_ofNat_of_zero_le admits.le
  obtain ⟨s', ran, now, kept, log⟩ := run_checks window n clock (n := 0) fresh (by omega)
  refine ⟨s', n, hn.symm, hs.run _ (fun e he => ?_) ran, now, ?_, ?_⟩
  · rw [List.eq_of_mem_replicate he]
    exact .check hsends mem 0
  · rw [kept, Nat.zero_add]
  · rw [log, admissions_append, admissions_replicate]

theorem sameKey_of_peerBounded (bounded : PeerBounded peer proxy sends limits) {limit : RateLimit}
    (mem : limits limit) (admits : 0 < limit.requests) (window : 0 < limit.windowSeconds)
    {route route' : Route} {headers headers' : List String} (hsends : sends route headers)
    (hsends' : sends route' headers') :
    clientKey (arrive peer proxy route headers)
      = clientKey (arrive peer proxy route' headers') := by
  by_contra ne
  -- one request under the other key, and then all that the limit admits under this one
  have first : (empty.check (arrive peer proxy route' headers') limit 0).1 = true :=
    check_eq_true_iff.2 admits
  have fresh : ((Run.init 0).check (arrive peer proxy route' headers') limit 0).limiter.stored
      (clientKey (arrive peer proxy route headers)) = [] := by
    rw [Run.check, stored_check, if_neg fun same => ne same.symm]
    rfl
  obtain ⟨s, n, hn, hs, -, -, log⟩ := exists_reachable_full mem admits window hsends
    ((reachable_init _).check hsends' mem le_rfl) rfl fresh
  have bound := bounded s hs limit mem (-limit.windowSeconds)
  have inside : -(limit.windowSeconds : ℚ) < 0 ∧
      (0 : ℚ) ≤ -limit.windowSeconds + limit.windowSeconds := by
    have : (0 : ℚ) < limit.windowSeconds := by exact_mod_cast window
    exact ⟨by linarith, by linarith⟩
  rw [log, admissions_check, Run.init, if_pos ⟨first, rfl⟩, Windows.count_append,
    Windows.count_append, Windows.count_replicate inside, Windows.count_singleton,
    if_pos inside] at bound
  omega

theorem spares_of_peerBounded (bounded : PeerBounded peer proxy sends limits)
    {limit other : RateLimit} (mem : limits limit) (mem' : limits other)
    (admits : 0 < limit.requests) (window : 0 < limit.windowSeconds)
    (shorter : other.windowSeconds < limit.windowSeconds) {route : Route} {headers : List String}
    (hsends : sends route headers) : limit.requests = 1 ∧ 0 < other.requests := by
  by_contra room
  obtain ⟨t, nonneg, outside, inside⟩ := exists_time_between window shorter
  have ne : other ≠ limit := fun same => by
    rw [same] at shorter
    exact lt_irrefl _ shorter
  -- all that the limit admits, a check under the other limit, and one more under the limit
  obtain ⟨s, n, hn, hs, now, kept, log⟩ := exists_reachable_full mem admits window hsends
    (reachable_init _) rfl rfl
  have clock : s.now ≤ t := now.le.trans nonneg
  have pruned : s.limiter.counted (clientKey (arrive peer proxy route headers)) other t = [] := by
    rw [counted, kept, List.filter_replicate, if_neg (by simpa using outside)]
  have again : ((s.check (arrive peer proxy route headers) other t).limiter.check
      (arrive peer proxy route headers) limit t).1 = true := by
    have left : ((s.check (arrive peer proxy route headers) other t).limiter.counted
        (clientKey (arrive peer proxy route headers)) limit t).length
          ≤ (if (s.limiter.check (arrive peer proxy route headers) other t).1 then [t]
              else []).length := by
      rw [counted, Run.check, stored_check, if_pos rfl, pruned, List.nil_append]
      exact List.length_filter_le _ _
    have admitted : (s.limiter.check (arrive peer proxy route headers) other t).1 = true ↔ _ :=
      check_eq_true_iff
    rw [pruned] at admitted
    rw [check_eq_true_iff]
    split_ifs at left with h
    · have := admitted.1 h
      simp only [List.length_singleton, List.length_nil] at *
      omega
    · simp only [List.length_nil] at *
      omega
  have reached := (hs.check hsends mem' clock).check hsends mem (le_refl t)
  have bound := bounded _ reached limit mem (t - limit.windowSeconds)
  have old : t - limit.windowSeconds < 0 ∧
      (0 : ℚ) ≤ t - limit.windowSeconds + limit.windowSeconds := ⟨by linarith, by linarith⟩
  have new : t - limit.windowSeconds < t ∧ t ≤ t - limit.windowSeconds + limit.windowSeconds :=
    ⟨by linarith, by linarith⟩
  rw [admissions_check, if_pos ⟨again, rfl⟩, admissions_check, if_neg fun h => ne h.2, log,
    List.append_nil, Windows.count_append, Windows.count_append, Windows.count_replicate old,
    Windows.count_singleton, if_pos new] at bound
  omega

end Peer

/-- The quota of a peer is bounded whatever it says in its headers exactly when what it says gives
one key, and no shorter window erases what still counts. -/
theorem peer_quota_iff (peer proxy : String) (sends : Route → List String → Prop)
    (limits : RateLimit → Prop) :
    PeerBounded peer proxy sends limits ∧ HeaderBlind peer proxy sends limits ↔
      OneQuota peer proxy sends limits := by
  constructor
  · rintro ⟨bounded, -⟩ limit mem
    refine ⟨(Int.natCast_nonneg _).trans (bounded (Run.init 0) (reachable_init _) limit mem 0), ?_⟩
    intro admits window route headers hsends
    refine ⟨fun route' headers' hsends' => ?_, fun other mem' shorter => ?_⟩
    · exact sameKey_of_peerBounded bounded mem admits window hsends hsends'
    · exact spares_of_peerBounded bounded mem mem' admits window shorter hsends
  · intro one
    exact ⟨peerBounded_of_oneQuota one, headerBlind_of_oneQuota one⟩

/-- Eleven builds in a second through the proxy, each under an address of its own. -/
theorem headers_evade_limit :
    ¬ PeerBounded "203.0.113.9" "172.18.0.3" (fun _ _ => True) (· = buildLimit) := by
  intro bounded
  have ran : Machine.run step (Run.init 0) ((List.range 11).map fun i =>
      .check (arrive "203.0.113.9" "172.18.0.3" .proxied [toString i]) buildLimit 0) = some _ := rfl
  have fromPeer : ∀ e ∈ (List.range 11).map fun i => Event.check
      (arrive "203.0.113.9" "172.18.0.3" .proxied [toString i]) buildLimit 0,
      FromPeer "203.0.113.9" "172.18.0.3" (fun _ _ => True) (· = buildLimit) e := by
    intro e he
    obtain ⟨i, -, rfl⟩ := List.mem_map.1 he
    exact ⟨.proxied, [toString i], buildLimit, 0, trivial, rfl, rfl⟩
  have bound := bounded _ ⟨0, _, fromPeer, ran⟩ buildLimit rfl (-60)
  exact absurd bound (by decide +kernel)

end RateLimiter

end Cpip
