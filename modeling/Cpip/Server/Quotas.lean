import Cpip.Server.RateLimiter

/-!
# Quotas of one client

`packages.py`, `builds.py` and the execution routes check requests under limits of their own, and
each limit is meant as a quota of its own.  The limiter keeps one list for a client whatever the
limit, and every check prunes that list to the window of its own limit: the quotas stay apart
exactly when the limits that are used for the client are harmless to one another.
-/

namespace Cpip

namespace RateLimiter

/-- A state that the limiter gets into by calls with a property. -/
def Reachable (P : Event → Prop) (s : Run) : Prop :=
  ∃ now events, (∀ e ∈ events, P e) ∧ Machine.run step (Run.init now) events = some s

/-- When the client is checked under these limits, and other clients under any, no window of a limit
holds more admissions than the limit has requests. -/
def Bounded (key : String) (limits : RateLimit → Prop) : Prop :=
  ∀ s, Reachable (Event.Within key limits) s → ∀ limit, limits limit → ∀ a : ℚ,
    (Windows.count a (a + limit.windowSeconds) (times key limit s.log) : ℤ) ≤ limit.requests

/-- What was admitted under a limit before decides whether a request is admitted under it. -/
def Independent (key : String) (limits : RateLimit → Prop) : Prop :=
  ∀ s s', Reachable (Event.Within key limits) s → Reachable (Event.Within key limits) s' →
    ∀ limit, limits limit → times key limit s.log = times key limit s'.log →
      ∀ r t, clientKey r = key → s.now ≤ t → s'.now ≤ t →
        (s.limiter.check r limit t).1 = (s'.limiter.check r limit t).1

section Separate

variable {key : String} {limits : RateLimit → Prop}

theorem bounded_of_harmless (harmless : Harmless limits)
    (nonneg : ∀ limit, limits limit → 0 ≤ limit.requests) : Bounded key limits := by
  rintro s ⟨now, events, within, ran⟩ limit mem a
  have kept := kept_run harmless mem within ran
  have bound := kept.limited.count_le kept.ordered a
  have := nonneg limit mem
  omega

theorem independent_of_harmless (harmless : Harmless limits) : Independent key limits := by
  rintro s s' ⟨now, events, within, ran⟩ ⟨now', events', within', ran'⟩ limit mem same r t hr
    clock clock'
  have kept := kept_run harmless mem within ran
  have kept' := kept_run harmless mem within' ran'
  rw [Bool.eq_iff_iff, kept.check_iff hr clock, kept'.check_iff hr clock', admitted, admitted, same]

theorem nonneg_of_bounded (bounded : Bounded key limits) {limit : RateLimit} (mem : limits limit) :
    0 ≤ limit.requests :=
  (Int.natCast_nonneg _).trans (bounded (Run.init 0) ⟨0, [], by simp, rfl⟩ limit mem 0)

end Separate

/-! ## Limits that disturb one another -/

section Disturbed

variable {r : Request} {limit other : RateLimit} {s : Run}

theorem counted_replicate (limit : RateLimit) {m : RateLimiter} {key : String} {n : ℕ}
    (hstored : m.stored key = List.replicate n 0) {t : ℚ} (inside : t < limit.windowSeconds) :
    m.counted key limit t = List.replicate n 0 := by
  rw [counted, hstored, List.filter_replicate, if_pos (by simpa using inside)]

/-- A time when the shorter of two windows that start at zero is over, and the longer is not. -/
theorem exists_time_between (window : 0 < limit.windowSeconds)
    (shorter : other.windowSeconds < limit.windowSeconds) :
    ∃ t : ℚ, 0 ≤ t ∧ other.windowSeconds ≤ t ∧ t < limit.windowSeconds := by
  refine ⟨max 0 other.windowSeconds, le_max_left .., le_max_right .., max_lt ?_ ?_⟩
  · exact_mod_cast window
  · exact_mod_cast shorter

/-- Checks at time zero, as many as the limit still admits. -/
theorem run_checks (window : 0 < limit.windowSeconds) (k : ℕ) (clock : s.now = 0) {n : ℕ}
    (hstored : s.limiter.stored (clientKey r) = List.replicate n 0)
    (left : ((n + k : ℕ) : ℤ) ≤ limit.requests) :
    ∃ s', Machine.run step s (List.replicate k (.check r limit 0)) = some s' ∧ s'.now = 0 ∧
      s'.limiter.stored (clientKey r) = List.replicate (n + k) 0 ∧
      s'.log = s.log ++ List.replicate k ⟨clientKey r, limit, 0⟩ := by
  induction k generalizing s n with
  | zero => exact ⟨s, rfl, clock, hstored, by simp⟩
  | succ k ih =>
    have counted := counted_replicate limit hstored (t := 0) (by exact_mod_cast window)
    have admits : (s.limiter.check r limit 0).1 = true := by
      rw [check_eq_true_iff, counted, List.length_replicate]
      omega
    have next : step s (.check r limit 0) = some (s.check r limit 0) := if_pos clock.le
    have hnext : (s.check r limit 0).limiter.stored (clientKey r) = List.replicate (n + 1) 0 := by
      rw [Run.check, stored_check, if_pos rfl, admits, counted, List.replicate_succ']
      rfl
    obtain ⟨s', ran, now, kept, log⟩ := ih rfl hnext (by omega)
    refine ⟨s', (Machine.run_cons_eq_some step).2 ⟨_, next, ran⟩, now, ?_, ?_⟩
    · rw [kept, Nat.add_right_comm, Nat.add_assoc]
    · rw [log, Run.check, admits, List.replicate_succ]
      simp

theorem times_replicate (key : String) (k : ℕ) (t : ℚ) :
    times key limit (List.replicate k ⟨key, limit, t⟩) = List.replicate k t := by
  simp [times]

theorem Reachable.run {P : Event → Prop} (h : Reachable P s) (events : List Event)
    (he : ∀ e ∈ events, P e) {s' : Run} (ran : Machine.run step s events = some s') :
    Reachable P s' := by
  obtain ⟨now, past, hpast, hran⟩ := h
  refine ⟨now, past ++ events, List.forall_mem_append.2 ⟨hpast, he⟩, ?_⟩
  rw [Machine.run_append, hran]
  exact ran

theorem reachable_init (P : Event → Prop) : Reachable P (Run.init 0) := ⟨0, [], by simp, rfl⟩

/-- The state after checks at time zero, which were all admitted. -/
theorem exists_reachable_checks {limits : RateLimit → Prop} (mem : limits limit)
    (window : 0 < limit.windowSeconds) (hs : Reachable (Event.Within (clientKey r) limits) s)
    (clock : s.now = 0) {n : ℕ} (hstored : s.limiter.stored (clientKey r) = List.replicate n 0)
    (k : ℕ) (left : ((n + k : ℕ) : ℤ) ≤ limit.requests) :
    ∃ s', Reachable (Event.Within (clientKey r) limits) s' ∧ s'.now = 0 ∧
      s'.limiter.stored (clientKey r) = List.replicate (n + k) 0 ∧
      times (clientKey r) limit s'.log = times (clientKey r) limit s.log ++ List.replicate k 0 := by
  obtain ⟨s', ran, now, kept, log⟩ := run_checks window k clock hstored left
  refine ⟨s', hs.run _ ?_ ran, now, kept, ?_⟩
  · intro e he
    rw [List.eq_of_mem_replicate he]
    exact fun _ => mem
  · rw [log, times_append, times_replicate]

variable {limits : RateLimit → Prop}

/-- Another limit that admits takes a request away from the limit. -/
theorem Independent.rejects (independent : Independent (clientKey r) limits) (mem : limits limit)
    (mem' : limits other) (ne : other ≠ limit) (admits : 0 < limit.requests)
    (window : 0 < limit.windowSeconds) : other.requests ≤ 0 := by
  by_contra hother
  obtain ⟨k, hk⟩ := Int.eq_ofNat_of_zero_le (show 0 ≤ limit.requests - 1 by omega)
  -- one request under the other limit, which is admitted
  have fresh : (empty.check r other 0).1 = true := by
    rw [check_eq_true_iff]
    exact not_le.1 hother
  have first : Reachable (Event.Within (clientKey r) limits) ((Run.init 0).check r other 0) :=
    (reachable_init _).run [.check r other 0] (by simpa [Event.Within] using mem') rfl
  have hstored : ((Run.init 0).check r other 0).limiter.stored (clientKey r)
      = List.replicate 1 0 := by
    rw [Run.check, stored_check, if_pos rfl, Run.init, fresh]
    rfl
  have none : times (clientKey r) limit ((Run.init 0).check r other 0).log = [] := by
    rw [times_check, if_neg (by simp [ne])]
    rfl
  -- then all but one of the requests of the limit, with that request and without it
  obtain ⟨s, hs, now, kept, log⟩ :=
    exists_reachable_checks mem window first rfl hstored k (by omega)
  obtain ⟨s', hs', now', kept', log'⟩ := exists_reachable_checks (r := r) mem window
    (reachable_init _) rfl (n := 0) rfl k (by omega)
  have same := independent s s' hs hs' limit mem (by rw [log, log', none]; rfl) r 0 rfl now.le
    now'.le
  have inside : (0 : ℚ) < limit.windowSeconds := by exact_mod_cast window
  rw [Bool.eq_iff_iff, check_eq_true_iff, check_eq_true_iff, counted_replicate limit kept inside,
    counted_replicate limit kept' inside, List.length_replicate, List.length_replicate] at same
  omega

/-- Another limit with a shorter window erases what the limit still counts. -/
theorem Independent.longer (independent : Independent (clientKey r) limits) (mem : limits limit)
    (mem' : limits other) (ne : other ≠ limit) (admits : 0 < limit.requests)
    (window : 0 < limit.windowSeconds) (rejects : other.requests ≤ 0) :
    limit.windowSeconds ≤ other.windowSeconds := by
  by_contra hshorter
  obtain ⟨k, hk⟩ := Int.eq_ofNat_of_zero_le admits.le
  obtain ⟨t, nonneg, outside, inside⟩ := exists_time_between window (not_le.1 hshorter)
  -- all the requests of the limit, and then one under the other limit that is rejected
  obtain ⟨s, hs, now, kept, log⟩ := exists_reachable_checks (r := r) mem window
    (reachable_init _) rfl (n := 0) rfl k (by omega)
  have clock : s.now ≤ t := now.le.trans nonneg
  have hs' : Reachable (Event.Within (clientKey r) limits) (s.check r other t) :=
    hs.run [.check r other t] (by simpa [Event.Within] using mem')
      ((Machine.run_cons_eq_some step).2 ⟨_, if_pos clock, rfl⟩)
  have rejected : (s.limiter.check r other t).1 = false := by
    rw [Bool.eq_false_iff, ne_eq, check_eq_true_iff]
    omega
  have erased : (s.check r other t).limiter.stored (clientKey r) = [] := by
    rw [Run.check, stored_check, if_pos rfl, rejected, counted, kept, List.filter_replicate,
      if_neg (by simpa using outside)]
    rfl
  have unchanged : times (clientKey r) limit (s.check r other t).log
      = times (clientKey r) limit s.log := by
    rw [times_check, if_neg (by simp [ne]), List.append_nil]
  have same := independent s _ hs hs' limit mem unchanged.symm r t rfl clock le_rfl
  rw [Bool.eq_iff_iff, check_eq_true_iff, check_eq_true_iff, counted_replicate limit kept inside,
    counted, erased, List.length_replicate] at same
  simp at same
  omega

end Disturbed

theorem harmless_of_independent {r : Request} {limits : RateLimit → Prop}
    (independent : Independent (clientKey r) limits) : Harmless limits := by
  intro limit other mem mem' ne admits window
  have rejects := independent.rejects mem mem' ne admits window
  exact ⟨rejects, independent.longer mem mem' ne admits window rejects⟩

/-- The quotas of a client are bounded and apart exactly when no limit is negative and the limits
are harmless to one another. -/
theorem quotas_iff (r : Request) (limits : RateLimit → Prop) :
    Bounded (clientKey r) limits ∧ Independent (clientKey r) limits ↔
      (∀ limit, limits limit → 0 ≤ limit.requests) ∧ Harmless limits := by
  constructor
  · rintro ⟨bounded, independent⟩
    exact ⟨fun limit mem => nonneg_of_bounded bounded mem, harmless_of_independent independent⟩
  · rintro ⟨nonneg, harmless⟩
    exact ⟨bounded_of_harmless harmless nonneg, independent_of_harmless harmless⟩

/-- Ten package requests in a minute leave no build to the client. -/
theorem packages_exhaust_builds :
    ¬ Independent "rate:10.0.0.7" (fun limit => limit = defaultLimit ∨ limit = buildLimit) := by
  intro independent
  have ran : Machine.run step (Run.init 0)
      (List.replicate 10 (.check ⟨none, some "10.0.0.7"⟩ defaultLimit 0)) = some _ := rfl
  have within : ∀ e ∈ List.replicate 10 (Event.check ⟨none, some "10.0.0.7"⟩ defaultLimit 0),
      e.Within "rate:10.0.0.7" (fun limit => limit = defaultLimit ∨ limit = buildLimit) := by
    decide +kernel
  have same := independent _ (Run.init 0) ⟨0, _, within, ran⟩ (reachable_init _) buildLimit
    (.inr rfl) (by decide +kernel) ⟨none, some "10.0.0.7"⟩ 0 (by decide +kernel) (by decide +kernel)
    le_rfl
  exact absurd same (by decide +kernel)

end RateLimiter

end Cpip
