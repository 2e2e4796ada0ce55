import Cpip.Lib.Machine
import Cpip.Lib.Tasks
import Mathlib.Algebra.Order.Ring.Rat
import Mathlib.Tactic.Linarith

/-!
# The background sync (`client/sync.py`)

`start` and `stop` may be called at any time, also while an earlier `stop` still waits for its loop
to end, and `sync_now` syncs beside the loop.  What a sync does is modelled elsewhere; here it
begins, and it records the time when it is over.
-/

namespace Cpip

/-- Where the loop waits: to go on with its condition, until a sync is over, or asleep. -/
inductive SyncPoint where
  | condition
  | syncing
  | asleep (till : ℚ)
  deriving DecidableEq, Repr

/-- The sync manager among the tasks of its event loop: `tasks` are the loops that were created,
`stops` the loops for whose end a `stop` waits, and `explicit` counts the calls of `sync_now` that
are under way. -/
structure SyncLoops where
  running : Bool
  task : Option ℕ
  lastSync : ℚ
  tasks : Tasks SyncPoint
  stops : List ℕ
  explicit : ℕ
  now : ℚ
  deriving DecidableEq, Repr

/-- What happens next: a call up to the point at which it waits, the end of a call, a loop that goes
on, or the time that passes. -/
inductive SyncAct where
  | start
  | stop
  | stopReturns (loop : ℕ)
  | syncNow
  | syncNowReturns
  | syncNowCancelled
  | goOn (loop : ℕ)
  | pass (till : ℚ)
  deriving DecidableEq, Repr

namespace SyncLoops

def syncInterval : ℚ := 3600

/-- A new sync manager; the clock counts from the epoch. -/
def init (now : ℚ) : SyncLoops where
  running := false
  task := none
  lastSync := 0
  tasks := []
  stops := []
  explicit := 0
  now := now

variable (s : SyncLoops)

/-- `start`. -/
def start : SyncLoops :=
  if s.running then s
  else
    { s with running := true, task := some s.tasks.length, tasks := s.tasks.spawn .condition }

/-- `stop`, up to its `await`. -/
def stop : SyncLoops :=
  match s.task with
  | none => { s with running := false }
  | some i => { s with running := false, tasks := s.tasks.cancel i, stops := i :: s.stops }

/-- The loop from its condition to its next `await`. -/
def roundOf (i : ℕ) : SyncLoops :=
  if s.running then
    if syncInterval ≤ s.now - s.lastSync then { s with tasks := s.tasks.waitAt i .syncing }
    else { s with tasks := s.tasks.waitAt i (.asleep (s.now + 60)) }
  else { s with tasks := s.tasks.finish i }

/-- The end of a sync. -/
def record : SyncLoops := { s with lastSync := s.now }

/-- A loop goes on from the point at which it waits. -/
def goOn (i : ℕ) : SyncPoint → Option SyncLoops
  | .condition => some (s.roundOf i)
  | .syncing => some { s.record with tasks := s.tasks.waitAt i (.asleep (s.now + 60)) }
  | .asleep till => if till ≤ s.now then some (s.roundOf i) else none

def step : SyncAct → Option SyncLoops
  | .start => some s.start
  | .stop => some s.stop
  | .stopReturns i =>
    match s.tasks[i]? with
    | some ⟨none, _⟩ => if i ∈ s.stops then some { s with stops := s.stops.erase i } else none
    | _ => none
  | .syncNow => some { s with explicit := s.explicit + 1 }
  | .syncNowReturns =>
    if 0 < s.explicit then some { s.record with explicit := s.explicit - 1 } else none
  | .syncNowCancelled =>
    if 0 < s.explicit then some { s with explicit := s.explicit - 1 } else none
  | .goOn i =>
    match s.tasks[i]? with
    | some ⟨some _, true⟩ => some { s with tasks := s.tasks.finish i }
    | some ⟨some p, false⟩ => s.goOn i p
    | _ => none
  | .pass till => if s.now ≤ till then some { s with now := till } else none

variable {s} {s' : SyncLoops}

/-! ## What a step does to the loops -/

/-- A step leaves the switch and the live loops as they are, or it is a `start` that creates a loop,
or a `stop` that cancels the current one, or a loop ends that found the switch off. -/
inductive Effect (s s' : SyncLoops) : Prop where
  | same (running : s'.running = s.running) (task : s'.task = s.task)
    (live : ∀ i, s'.tasks.Live i ↔ s.tasks.Live i)
  | started (off : s.running = false) (on : s'.running = true)
    (task : s'.task = some s.tasks.length) (tasks : s'.tasks = s.tasks.spawn .condition)
  | stopped (i : ℕ) (current : s.task = some i) (off : s'.running = false)
    (tasks : s'.tasks = s.tasks.cancel i)
  | unstarted (none : s.task = none) (off : s'.running = false) (tasks : s'.tasks = s.tasks)
  | ended (i : ℕ) (off : s.running = false) (still : s'.running = false)
    (tasks : s'.tasks = s.tasks.finish i)

theorem effect_roundOf {i : ℕ} (live : s.tasks.Live i) : Effect s (s.roundOf i) := by
  unfold roundOf
  split_ifs with on
  · exact .same rfl rfl fun j => Tasks.live_waitAt_iff live _
  · exact .same rfl rfl fun j => Tasks.live_waitAt_iff live _
  · exact .ended i (by simpa using on) (by simpa using on) rfl

theorem effect_goOn {i : ℕ} {p : SyncPoint} (waits : s.tasks.LiveAt i p)
    (next : s.goOn i p = some s') : Effect s s' := by
  have live : s.tasks.Live i := ⟨p, waits⟩
  cases p with
  | condition =>
    obtain rfl := Option.some.inj next
    exact effect_roundOf live
  | syncing =>
    obtain rfl := Option.some.inj next
    exact .same rfl rfl fun j => Tasks.live_waitAt_iff live _
  | asleep till =>
    rw [goOn] at next
    split_ifs at next
    obtain rfl := Option.some.inj next
    exact effect_roundOf live

theorem effect_step {a : SyncAct} (next : s.step a = some s') : Effect s s' := by
  cases a with
  | start =>
    obtain rfl := Option.some.inj next
    unfold start
    split_ifs with on
    · exact .same rfl rfl fun _ => Iff.rfl
    · exact .started (by simpa using on) rfl rfl rfl
  | stop =>
    obtain rfl := Option.some.inj next
    unfold stop
    cases current : s.task with
    | none => exact .unstarted current rfl rfl
    | some i => exact .stopped i current rfl rfl
  | stopReturns i =>
    dsimp only [step] at next
    split at next
    · split_ifs at next
      obtain rfl := Option.some.inj next
      exact .same rfl rfl fun _ => Iff.rfl
    · cases next
  | syncNow =>
    obtain rfl := Option.some.inj next
    exact .same rfl rfl fun _ => Iff.rfl
  | syncNowReturns =>
    dsimp only [step] at next
    split_ifs at next
    obtain rfl := Option.some.inj next
    exact .same rfl rfl fun _ => Iff.rfl
  | syncNowCancelled =>
    dsimp only [step] at next
    split_ifs at next
    obtain rfl := Option.some.inj next
    exact .same rfl rfl fun _ => Iff.rfl
  | goOn i =>
    dsimp only [step] at next
    split at next
    · next p waits =>
      obtain rfl := Option.some.inj next
      exact .same rfl rfl fun j => Tasks.live_finish_of_cancelling waits rfl
    · next p waits => exact effect_goOn waits next
    · cases next
  | pass till =>
    dsimp only [step] at next
    split_ifs at next
    obtain rfl := Option.some.inj next
    exact .same rfl rfl fun _ => Iff.rfl

/-! ## One loop at a time -/

/-- The loop that `_task` names is live while the switch is on, and no other loop ever is. -/
structure Exclusive (s : SyncLoops) : Prop where
  live : ∀ i, s.tasks.Live i → s.running = true ∧ s.task = some i
  current : s.running = true → ∃ i, s.task = some i ∧ s.tasks.Live i

theorem exclusive_init (now : ℚ) : (init now).Exclusive where
  live i h := absurd h (Tasks.not_live_nil i)
  current on := by cases on

theorem Exclusive.not_live (h : s.Exclusive) (off : s.running = false) (i : ℕ) :
    ¬ s.tasks.Live i := fun live => by
  have on := (h.live i live).1
  rw [off] at on
  cases on

theorem Exclusive.of_effect (h : s.Exclusive) (effect : Effect s s') : s'.Exclusive := by
  cases effect with
  | same running task live =>
    constructor
    · intro i hi
      rw [running, task]
      exact h.live i ((live i).1 hi)
    · intro on
      obtain ⟨i, current, hi⟩ := h.current (running ▸ on)
      exact ⟨i, task.trans current, (live i).2 hi⟩
  | started off on task tasks =>
    constructor
    · intro i hi
      rw [tasks, Tasks.live_spawn_iff] at hi
      rcases hi with old | rfl
      · exact absurd old (h.not_live off i)
      · exact ⟨on, task⟩
    · intro _
      refine ⟨_, task, ?_⟩
      rw [tasks, Tasks.live_spawn_iff]
      exact .inr rfl
  | stopped i current off tasks =>
    constructor
    · intro j hj
      rw [tasks, Tasks.live_cancel_iff] at hj
      have other := (h.live j hj.1).2
      exact absurd (Option.some.inj (other.symm.trans current)) hj.2
    · intro on
      rw [off] at on
      cases on
  | unstarted none off tasks =>
    constructor
    · intro j hj
      have current := (h.live j (tasks ▸ hj)).2
      rw [none] at current
      cases current
    · intro on
      rw [off] at on
      cases on
  | ended i off still tasks =>
    constructor
    · intro j hj
      rw [tasks, Tasks.live_finish_iff] at hj
      exact absurd hj.1 (h.not_live off j)
    · intro on
      rw [still] at on
      cases on

theorem exclusive_of_run {start : ℚ} {acts : List SyncAct}
    (ran : Machine.run step (init start) acts = some s) : s.Exclusive :=
  Machine.invariant_run (fun _ _ _ h next => h.of_effect (effect_step next)) (exclusive_init start)
    ran

/-! ## The interval between syncs -/

/-- The loop begins a sync. -/
def Begins (s : SyncLoops) (i : ℕ) : Prop :=
  ∃ s', s.step (.goOn i) = some s' ∧ s'.tasks.LiveAt i .syncing

/-- A sync is over with this step, and its time is recorded. -/
def Records (s : SyncLoops) : SyncAct → Prop
  | .syncNowReturns => True
  | .goOn i => s.tasks.LiveAt i .syncing
  | _ => False

theorem due_of_roundOf {i : ℕ} (live : s.tasks.Live i)
    (begun : (s.roundOf i).tasks.LiveAt i .syncing) :
    s.running = true ∧ s.lastSync + syncInterval ≤ s.now := by
  unfold roundOf at begun
  split_ifs at begun with on due
  · exact ⟨on, by linarith⟩
  · have here := Tasks.liveAt_waitAt_self live (SyncPoint.asleep (s.now + 60))
    cases here.symm.trans begun
  · exact absurd ⟨_, begun⟩ (fun h => (Tasks.live_finish_iff.1 h).2 rfl)

/-- A loop begins a sync only while the switch is on, and when the last sync is long ago. -/
theorem Begins.due {i : ℕ} (h : s.Begins i) :
    s.running = true ∧ s.lastSync + syncInterval ≤ s.now := by
  obtain ⟨s', next, begun⟩ := h
  dsimp only [step] at next
  split at next
  · obtain rfl := Option.some.inj next
    exact absurd ⟨_, begun⟩ (fun h => (Tasks.live_finish_iff.1 h).2 rfl)
  · next p waits =>
    have live : s.tasks.Live i := ⟨p, waits⟩
    cases p with
    | condition =>
      obtain rfl := Option.some.inj next
      exact due_of_roundOf live begun
    | syncing =>
      obtain rfl := Option.some.inj next
      have here := Tasks.liveAt_waitAt_self live (SyncPoint.asleep (s.now + 60))
      cases here.symm.trans begun
    | asleep till =>
      rw [goOn] at next
      split_ifs at next
      obtain rfl := Option.some.inj next
      exact due_of_roundOf live begun
  · cases next

@[simp]
theorem lastSync_roundOf (i : ℕ) : (s.roundOf i).lastSync = s.lastSync := by
  unfold roundOf
  split_ifs <;> rfl

@[simp]
theorem now_roundOf (i : ℕ) : (s.roundOf i).now = s.now := by
  unfold roundOf
  split_ifs <;> rfl

/-- A step records the time of the end of a sync, or leaves the last one as it is. -/
theorem times_step {a : SyncAct} (next : s.step a = some s') :
    s'.lastSync = s.lastSync ∧ s.now ≤ s'.now ∧ ¬ s.Records a ∨
      s'.lastSync = s.now ∧ s'.now = s.now ∧ s.Records a := by
  cases a with
  | start =>
    obtain rfl := Option.some.inj next
    unfold start
    split_ifs
    · exact .inl ⟨rfl, le_rfl, id⟩
    · exact .inl ⟨rfl, le_rfl, id⟩
  | stop =>
    obtain rfl := Option.some.inj next
    unfold stop
    cases s.task with
    | none => exact .inl ⟨rfl, le_rfl, id⟩
    | some i => exact .inl ⟨rfl, le_rfl, id⟩
  | stopReturns i =>
    dsimp only [step] at next
    split at next
    · split_ifs at next
      obtain rfl := Option.some.inj next
      exact .inl ⟨rfl, le_rfl, id⟩
    · cases next
  | syncNow =>
    obtain rfl := Option.some.inj next
    exact .inl ⟨rfl, le_rfl, id⟩
  | syncNowReturns =>
    dsimp only [step] at next
    split_ifs at next
    obtain rfl := Option.some.inj next
    exact .inr ⟨rfl, rfl, trivial⟩
  | syncNowCancelled =>
    dsimp only [step] at next
    split_ifs at next
    obtain rfl := Option.some.inj next
    exact .inl ⟨rfl, le_rfl, id⟩
  | goOn i =>
    dsimp only [step] at next
    split at next
    · next p waits =>
      obtain rfl := Option.some.inj next
      refine .inl ⟨rfl, le_rfl, fun records : s.tasks.LiveAt i .syncing => ?_⟩
      cases waits.symm.trans records
    · next p waits =>
      have only (syncing : s.Records (.goOn i)) : p = .syncing := by
        have records : s.tasks.LiveAt i .syncing := syncing
        cases waits.symm.trans records
        rfl
      cases p with
      | condition =>
        obtain rfl := Option.some.inj next
        exact .inl ⟨lastSync_roundOf i, (now_roundOf i).ge, fun h => by cases only h⟩
      | syncing =>
        obtain rfl := Option.some.inj next
        exact .inr ⟨rfl, rfl, waits⟩
      | asleep till =>
        rw [goOn] at next
        split_ifs at next
        obtain rfl := Option.some.inj next
        exact .inl ⟨lastSync_roundOf i, (now_roundOf i).ge, fun h => by cases only h⟩
    · cases next
  | pass till =>
    dsimp only [step] at next
    split_ifs at next with later
    obtain rfl := Option.some.inj next
    exact .inl ⟨rfl, later, id⟩

/-- The time of the last sync never goes back. -/
theorem lastSync_le_of_run (t : ℚ) {acts : List SyncAct}
    (ran : Machine.run step s acts = some s') (since : t ≤ s.lastSync ∧ t ≤ s.now) :
    t ≤ s'.lastSync ∧ t ≤ s'.now := by
  refine Machine.invariant_run (I := fun s => t ≤ s.lastSync ∧ t ≤ s.now) ?_ since ran
  intro s a s' past next
  rcases times_step next with ⟨last, later, -⟩ | ⟨last, same, -⟩
  · rw [last]
    exact ⟨past.1, past.2.trans later⟩
  · rw [last, same]
    exact ⟨past.2, past.2⟩

/-! ## Every run -/

/-- However calls of `start`, `stop` and `sync_now` and the loops take turns, at most one loop still
acts: the one that `_task` names, exactly while `is_running` says so. -/
theorem one_sync_loop (start : ℚ) (acts : List SyncAct) (s : SyncLoops)
    (ran : Machine.run step (init start) acts = some s) :
    (s.running = true ↔ ∃ i, s.tasks.Live i) ∧ ∀ i, s.tasks.Live i → s.task = some i := by
  have exclusive := exclusive_of_run ran
  refine ⟨⟨fun on => ?_, ?_⟩, fun i live => (exclusive.live i live).2⟩
  · obtain ⟨i, -, live⟩ := exclusive.current on
    exact ⟨i, live⟩
  · rintro ⟨i, live⟩
    exact (exclusive.live i live).1

/-- A loop that is cancelled while it syncs, and another one that is started before it has ended. -/
def restarted : List SyncAct := [.start, .goOn 0, .stop, .start, .goOn 1, .goOn 0, .stopReturns 0]

theorem one_sync_loop_restarted : ∃ s, Machine.run step (init 10000) restarted = some s ∧
    (s.running = true ↔ ∃ i, s.tasks.Live i) ∧ ∀ i, s.tasks.Live i → s.task = some i := by
  have runs : (Machine.run step (init 10000) restarted).isSome = true := by decide +kernel
  obtain ⟨s, ran⟩ := Option.isSome_iff_exists.1 runs
  exact ⟨s, ran, one_sync_loop 10000 restarted s ran⟩

/-- Once any sync is over, the loops begin none for an hour, and they begin none after a `stop`
until the next `start`. -/
theorem sync_waits_an_hour (s s₁ s₂ : SyncLoops) (a : SyncAct) (acts : List SyncAct) (i : ℕ)
    (records : s.Records a) (next : s.step a = some s₁)
    (later : Machine.run step s₁ acts = some s₂) (begins : s₂.Begins i) :
    s.now + syncInterval ≤ s₂.now ∧ s₂.running = true := by
  have recorded : s₁.lastSync = s.now ∧ s₁.now = s.now := by
    rcases times_step next with ⟨-, -, other⟩ | ⟨last, same, -⟩
    · exact absurd records other
    · exact ⟨last, same⟩
  have since := lastSync_le_of_run s.now later ⟨recorded.1.ge, recorded.2.ge⟩
  have due := begins.due
  exact ⟨by linarith [since.1, due.2], due.1⟩

/-- A manager with a loop that waits at the point. -/
def sampleLoops (p : SyncPoint) (lastSync now : ℚ) : SyncLoops :=
  { init now with
    running := true, task := some 0, lastSync := lastSync, tasks := [⟨some p, false⟩] }

theorem sync_waits_an_hour_first :
    10000 + syncInterval ≤ (sampleLoops (.asleep 10060) 10000 13700).now :=
  (sync_waits_an_hour (sampleLoops .syncing 0 10000) (sampleLoops (.asleep 10060) 10000 10000)
    (sampleLoops (.asleep 10060) 10000 13700) (.goOn 0) [.pass 13700] 0 rfl (by decide +kernel)
    (by decide +kernel)
    ⟨sampleLoops .syncing 10000 13700, by decide +kernel, by decide⟩).1

end SyncLoops

end Cpip
