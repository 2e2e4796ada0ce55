import Mathlib.Algebra.Order.Ring.Rat
import Cpip.Lib.History
import Cpip.Lib.Machine
import Cpip.Server.Sessions

/-!
# Sessions and their history

A session is stored when it was created and nothing ended it since: no removal, no creation under
the same id, and no clean-up that found it idle for too long.  What it says of itself is what
happened since.
-/

namespace Cpip

namespace SessionManager

/-- A call on the manager. -/
inductive Event where
  | create (sessionId deviceId : String) (createdAt lastActive : ℚ)
  | updateActivity (sessionId : String) (now : ℚ)
  | remove (sessionId : String)
  | cleanupStale (maxIdleSeconds now : ℚ)

/-- A manager with the clock and the calls so far. -/
structure Run where
  manager : SessionManager
  now : ℚ
  log : List Event

def Run.init (now : ℚ) : Run := ⟨empty, now, []⟩

/-- One call, when the clock does not go back. -/
def step (s : Run) (e : Event) : Option Run :=
  match e with
  | .create sessionId deviceId createdAt lastActive =>
    if s.now ≤ createdAt ∧ createdAt ≤ lastActive then
      some ⟨(s.manager.create sessionId deviceId createdAt lastActive).2, lastActive, s.log ++ [e]⟩
    else none
  | .updateActivity sessionId now =>
    if s.now ≤ now then
      match s.manager.updateActivity (.str sessionId) now with
      | .ok manager => some ⟨manager, now, s.log ++ [e]⟩
      | .error _ => none
    else none
  | .remove sessionId => some ⟨s.manager.remove sessionId, s.now, s.log ++ [e]⟩
  | .cleanupStale maxIdleSeconds now =>
    if s.now ≤ now then
      some ⟨(s.manager.cleanupStale maxIdleSeconds now).2, now, s.log ++ [e]⟩
    else none

/-- What one call can do. -/
inductive Moves (s : Run) : Event → Run → Prop where
  | creates {sessionId deviceId : String} {createdAt lastActive : ℚ} :
      Moves s (.create sessionId deviceId createdAt lastActive)
        ⟨(s.manager.create sessionId deviceId createdAt lastActive).2, lastActive,
          s.log ++ [.create sessionId deviceId createdAt lastActive]⟩
  | updates {sessionId : String} {now : ℚ} {manager : SessionManager}
      (updated : s.manager.updateActivity (.str sessionId) now = .ok manager) :
        Moves s (.updateActivity sessionId now)
          ⟨manager, now, s.log ++ [.updateActivity sessionId now]⟩
  | removes {sessionId : String} : Moves s (.remove sessionId)
      ⟨s.manager.remove sessionId, s.now, s.log ++ [.remove sessionId]⟩
  | cleans {maxIdleSeconds now : ℚ} : Moves s (.cleanupStale maxIdleSeconds now)
      ⟨(s.manager.cleanupStale maxIdleSeconds now).2, now,
        s.log ++ [.cleanupStale maxIdleSeconds now]⟩

theorem moves_of_step {s s' : Run} {e : Event} (hs : step s e = some s') : Moves s e s' := by
  unfold step at hs
  cases e with
  | create sessionId deviceId createdAt lastActive =>
    simp only [Option.ite_none_right_eq_some] at hs
    exact Option.some.inj hs.2 ▸ .creates
  | updateActivity sessionId now =>
    simp only [Option.ite_none_right_eq_some] at hs
    obtain ⟨-, hs⟩ := hs
    split at hs
    · exact Option.some.inj hs ▸ .updates ‹_›
    · cases hs
  | remove sessionId => exact Option.some.inj hs ▸ .removes
  | cleanupStale maxIdleSeconds now =>
    simp only [Option.ite_none_right_eq_some] at hs
    exact Option.some.inj hs.2 ▸ .cleans

/-! ## What the history says of a session -/

/-- The times at which the activity of the session was updated. -/
def updates (id : String) (log : List Event) : List ℚ :=
  log.filterMap fun
    | .updateActivity sessionId now => if sessionId = id then some now else none
    | _ => none

/-- The time of the last update, or of the creation where there was none. -/
def lastActive (id : String) (created : ℚ) (since : List Event) : ℚ :=
  (updates id since).getLastD created

/-- A call that removes the session, or creates another under its id. -/
def Event.Ends (id : String) : Event → Prop
  | .create sessionId _ _ _ => sessionId = id
  | .remove sessionId => sessionId = id
  | _ => False

/-- Not a clean-up for which a session that was last active at this time is stale. -/
def Event.Spares (lastActive : ℚ) : Event → Prop
  | .cleanupStale maxIdleSeconds now => now - lastActive ≤ maxIdleSeconds
  | _ => True

/-- Nothing since the creation ended the session. -/
def Undisturbed (id : String) (created : ℚ) (since : List Event) : Prop :=
  History.Each (fun before e => ¬ e.Ends id ∧ e.Spares (lastActive id created before)) since

/-- The session under this id, after these calls. -/
def Alive (log : List Event) (id : String) (session : ExecutionSession) : Prop :=
  ∃ past device createdAt created since,
    log = past ++ .create id device createdAt created :: since ∧ Undisturbed id created since ∧
      session = ⟨.str id, .str device, createdAt, lastActive id created since,
        (updates id since).length⟩

/-- What a call that does not end a session makes of it. -/
def Event.touch (id : String) (session : ExecutionSession) : Event → ExecutionSession
  | .updateActivity sessionId now =>
    if sessionId = id then
      { session with lastActive := now, executionCount := session.executionCount + 1 }
    else session
  | _ => session

section History

variable {log since : List Event} {id : String} {created : ℚ} {session session' : ExecutionSession}

theorem updates_snoc (id : String) (since : List Event) (e : Event) :
    updates id (since ++ [e]) = updates id since ++ updates id [e] := List.filterMap_append

/-- A session, with one more call that does not end it. -/
theorem touch_eq (e : Event) (device : String) (createdAt : ℚ) :
    e.touch id ⟨.str id, .str device, createdAt, lastActive id created since,
        (updates id since).length⟩ =
      ⟨.str id, .str device, createdAt, lastActive id created (since ++ [e]),
        (updates id (since ++ [e])).length⟩ := by
  unfold lastActive
  rw [updates_snoc]
  cases e with
  | updateActivity sessionId now =>
    by_cases same : sessionId = id
    · simp [Event.touch, updates, same]
    · simp [Event.touch, updates, same]
  | create sessionId device createdAt lastActive => simp [Event.touch, updates]
  | remove sessionId => simp [Event.touch, updates]
  | cleanupStale maxIdleSeconds now => simp [Event.touch, updates]

/-- The session after one more call: it was created by the call, or was there and was not ended. -/
theorem alive_snoc (e : Event) : Alive (log ++ [e]) id session' ↔
    (∃ device createdAt created, e = .create id device createdAt created ∧
      session' = ⟨.str id, .str device, createdAt, created, 0⟩) ∨
    ∃ session, Alive log id session ∧ ¬ e.Ends id ∧ e.Spares session.lastActive ∧
      session' = e.touch id session := by
  constructor
  · rintro ⟨past, device, createdAt, created, since, hlog, undisturbed, hsession⟩
    rcases List.eq_nil_or_concat since with rfl | ⟨since, e', rfl⟩
    · obtain ⟨-, he⟩ := List.append_inj' hlog rfl
      exact .inl ⟨device, createdAt, created, (List.cons.inj he).1, hsession⟩
    · have split : log ++ [e] = (past ++ .create id device createdAt created :: since) ++ [e'] := by
        simpa using hlog
      obtain ⟨before, last⟩ := List.append_inj' split rfl
      obtain rfl := (List.cons.inj last).1
      rw [List.concat_eq_append] at undisturbed hsession
      obtain ⟨earlier, ends, spares⟩ := History.Each.of_snoc undisturbed
      refine .inr ⟨_, ⟨past, device, createdAt, created, since, before, earlier, rfl⟩, ends, spares,
        ?_⟩
      rw [hsession, touch_eq]
  · rintro (⟨device, createdAt, created, rfl, hsession⟩ | ⟨session, alive, ends, spares, hsession⟩)
    · exact ⟨log, device, createdAt, created, [], rfl, History.each_nil, hsession⟩
    · obtain ⟨past, device, createdAt, created, since, rfl, undisturbed, rfl⟩ := alive
      refine ⟨past, device, createdAt, created, since ++ [e], by simp, ?_, ?_⟩
      · exact undisturbed.snoc ⟨ends, spares⟩
      · rw [hsession, touch_eq]

end History

/-! ## What one call does -/

section Calls

variable {m : SessionManager} {id : String}

theorem get_create (m : SessionManager) (sessionId deviceId : String) (createdAt lastActive : ℚ) :
    (m.create sessionId deviceId createdAt lastActive).2.get id =
      if sessionId = id then some ⟨.str sessionId, .str deviceId, createdAt, lastActive, 0⟩
      else m.get id := by
  unfold create get
  rw [Dict.get?_set]
  simp

theorem get_remove (m : SessionManager) (sessionId : String) :
    (m.remove sessionId).get id = if sessionId = id then none else m.get id := by
  unfold remove get
  rw [Dict.get?_pop]
  simp

theorem updateActivity_str (m : SessionManager) (sessionId : String) (now : ℚ) :
    m.updateActivity (.str sessionId) now = .ok
      (match m.get sessionId with
        | some session => ⟨m.sessions.set (.str sessionId)
            { session with lastActive := now, executionCount := session.executionCount + 1 }⟩
        | none => m) := by
  have key : (PyVal.str sessionId).hash? = some (.str sessionId) := PyVal.hash?_eq_str_iff.2 rfl
  unfold updateActivity get
  rw [key]
  dsimp only
  cases m.sessions.get? (.str sessionId) <;> rfl

theorem get_updateActivity {m' : SessionManager} {sessionId : String} {now : ℚ}
    (h : m.updateActivity (.str sessionId) now = .ok m') (id : String) :
    m'.get id = (m.get id).map fun session =>
      (Event.updateActivity sessionId now).touch id session := by
  rw [updateActivity_str] at h
  obtain rfl := Except.ok.inj h
  by_cases same : sessionId = id
  · subst same
    cases hget : m.get sessionId with
    | none => rw [hget]; rfl
    | some session =>
      unfold get
      rw [Dict.get?_set_self]
      simp [Event.touch]
  · have untouched : (match m.get sessionId with
        | some session => (⟨m.sessions.set (.str sessionId)
            { session with lastActive := now, executionCount := session.executionCount + 1 }⟩ :
              SessionManager)
        | none => m).get id = m.get id := by
      cases m.get sessionId with
      | none => rfl
      | some session => exact (Dict.get?_set ..).trans (if_neg (by simpa using same))
    rw [untouched]
    cases m.get id with
    | none => rfl
    | some session => simp [Event.touch, same]

theorem mem_stale_iff {maxIdleSeconds now : ℚ} {e : PyKey × ExecutionSession}
    (he : e ∈ m.sessions.entries) :
    e.1 ∈ m.stale maxIdleSeconds now ↔ ¬ now - e.2.lastActive ≤ maxIdleSeconds := by
  unfold stale
  rw [List.mem_map]
  constructor
  · rintro ⟨e', he', same⟩
    obtain ⟨mem, idle⟩ := List.mem_filter.1 he'
    obtain rfl := List.inj_on_of_nodup_map m.sessions.nodup mem he same
    exact not_le.2 (of_decide_eq_true idle)
  · intro idle
    exact ⟨e, List.mem_filter.2 ⟨he, decide_eq_true (not_le.1 idle)⟩, rfl⟩

/-- A clean-up keeps the sessions that were not idle for too long. -/
theorem entries_cleanupStale (m : SessionManager) (maxIdleSeconds now : ℚ) :
    (m.cleanupStale maxIdleSeconds now).2.sessions.entries =
      m.sessions.entries.filter fun e => now - e.2.lastActive ≤ maxIdleSeconds := by
  unfold cleanupStale
  rw [Dict.entries_foldl_pop]
  refine List.filter_congr fun e he => ?_
  rw [decide_eq_decide, mem_stale_iff he, not_not]

theorem get?_cleanupStale (m : SessionManager) (maxIdleSeconds now : ℚ) (k : PyKey)
    (session : ExecutionSession) :
    (m.cleanupStale maxIdleSeconds now).2.sessions.get? k = some session ↔
      m.sessions.get? k = some session ∧ now - session.lastActive ≤ maxIdleSeconds := by
  rw [Dict.get?_eq_some_iff, entries_cleanupStale, List.mem_filter, Dict.get?_eq_some_iff,
    decide_eq_true_eq]

/-- The result of a clean-up is the number of sessions that it removed. -/
theorem cleanupStale_count (m : SessionManager) (maxIdleSeconds now : ℚ) :
    (m.cleanupStale maxIdleSeconds now).1 + (m.cleanupStale maxIdleSeconds now).2.activeCount
      = m.activeCount := by
  have rest : (m.sessions.entries.filter fun e => now - e.2.lastActive ≤ maxIdleSeconds)
      = m.sessions.entries.filter fun e => !decide (now - e.2.lastActive > maxIdleSeconds) := by
    refine List.filter_congr fun e _ => ?_
    rw [← decide_not, decide_eq_decide]
    exact not_lt.symm
  unfold activeCount
  rw [entries_cleanupStale, rest]
  show (List.map Prod.fst _).length + _ = _
  rw [List.length_map]
  exact (List.length_eq_length_filter_add _).symm

end Calls

/-! ## Runs -/

/-- What is stored is what is alive. -/
structure Described (s : Run) : Prop where
  alive : ∀ id session, s.manager.get id = some session ↔ Alive s.log id session
  keys : ∀ k session, s.manager.sessions.get? k = some session → ∃ id, k = .str id

theorem described_init (now : ℚ) : Described (Run.init now) where
  alive id session := by
    constructor
    · exact nofun
    · rintro ⟨past, device, createdAt, created, since, hlog, -⟩
      cases past <;> cases hlog
  keys _ _ h := by cases h

theorem Described.step {s s' : Run} {e : Event} (h : Described s) (hs : step s e = some s') :
    Described s' := by
  cases moves_of_step hs with
  | @creates sessionId deviceId createdAt lastActive =>
    refine ⟨fun id session => ?_, fun k session hget => ?_⟩
    · dsimp only
      rw [get_create, alive_snoc]
      by_cases same : sessionId = id
      · subst same
        simp [Event.Ends, eq_comm]
      · rw [if_neg same, h.alive]
        simp [Event.Ends, Event.Spares, Event.touch, same]
    · have hget' : (s.manager.sessions.set (.str sessionId) _).get? k = some session := hget
      rw [Dict.get?_set] at hget'
      split_ifs at hget' with same
      · exact ⟨sessionId, same.symm⟩
      · exact h.keys k session hget'
  | @updates sessionId now manager updated =>
    refine ⟨fun id session => ?_, fun k session hget => ?_⟩
    · dsimp only
      rw [get_updateActivity updated, alive_snoc, Option.map_eq_some_iff]
      simp only [h.alive, Event.Ends, Event.Spares]
      simp [eq_comm]
    · rw [updateActivity_str] at updated
      obtain rfl := Except.ok.inj updated
      cases hold : s.manager.get sessionId with
      | none =>
        rw [hold] at hget
        exact h.keys k session hget
      | some old =>
        rw [hold] at hget
        dsimp only at hget
        rw [Dict.get?_set] at hget
        split_ifs at hget with same
        · exact ⟨sessionId, same.symm⟩
        · exact h.keys k session hget
  | @removes sessionId =>
    refine ⟨fun id session => ?_, fun k session hget => ?_⟩
    · dsimp only
      rw [get_remove, alive_snoc]
      by_cases same : sessionId = id
      · simp [Event.Ends, same]
      · rw [if_neg same, h.alive]
        simp [Event.Ends, Event.Spares, Event.touch, same]
    · exact h.keys k session (Dict.get?_of_get?_pop hget).1
  | @cleans maxIdleSeconds now =>
    refine ⟨fun id session => ?_, fun k session hget => ?_⟩
    · dsimp only
      rw [get, get?_cleanupStale, alive_snoc]
      show s.manager.get id = some session ∧ _ ↔ _
      rw [h.alive]
      simp [Event.Ends, Event.Spares, Event.touch]
    · exact h.keys k session ((get?_cleanupStale _ _ _ _ _).1 hget).1

/-- The log of a run is the calls that were made. -/
theorem log_step {s s' : Run} {e : Event} (hs : step s e = some s') : s'.log = s.log ++ [e] := by
  cases moves_of_step hs with
  | creates | updates | removes | cleans => rfl

theorem log_run {s s' : Run} {events : List Event} (ran : Machine.run step s events = some s') :
    s'.log = s.log ++ events := by
  induction events generalizing s with
  | nil =>
    obtain rfl := Option.some.inj ran
    exact (List.append_nil _).symm
  | cons e events ih =>
    obtain ⟨t, hs, rest⟩ := (Machine.run_cons_eq_some step).1 ran
    rw [ih rest, log_step hs, List.append_assoc, List.singleton_append]

/-- `get_by_device` lists the stored sessions of the device. -/
theorem Described.mem_getByDevice_iff {s : Run} (h : Described s) (device : String)
    (session : ExecutionSession) : session ∈ s.manager.getByDevice device ↔
      (∃ id, s.manager.get id = some session) ∧ session.deviceId = .str device := by
  have stored : session ∈ s.manager.sessions.entries.map Prod.snd ↔
      ∃ id, s.manager.get id = some session := by
    rw [List.mem_map]
    constructor
    · rintro ⟨⟨k, session⟩, mem, rfl⟩
      have hget := (Dict.get?_eq_some_iff _ _ _).2 mem
      obtain ⟨id, rfl⟩ := h.keys k session hget
      exact ⟨id, hget⟩
    · rintro ⟨id, hget⟩
      exact ⟨_, (Dict.get?_eq_some_iff _ _ _).1 hget, rfl⟩
  rw [getByDevice, List.mem_filter, stored, ExecutionSession.isOn_iff]

/-- Along every run, the stored sessions are the ones that the calls so far leave alive, each is
listed for its device, and a clean-up removes the stale ones, counts them, and keeps the rest. -/
theorem sessions_described (start : ℚ) (events : List Event) (s : Run)
    (ran : Machine.run step (Run.init start) events = some s) :
    (∀ id session, s.manager.get id = some session ↔ Alive events id session) ∧
      (∀ device session, session ∈ s.manager.getByDevice device ↔
        (∃ id, s.manager.get id = some session) ∧ session.deviceId = .str device) ∧
        ∀ maxIdleSeconds now,
          (s.manager.cleanupStale maxIdleSeconds now).1
              + (s.manager.cleanupStale maxIdleSeconds now).2.activeCount = s.manager.activeCount ∧
            ∀ id session, (s.manager.cleanupStale maxIdleSeconds now).2.get id = some session ↔
              s.manager.get id = some session ∧ now - session.lastActive ≤ maxIdleSeconds := by
  have h : Described s :=
    Machine.invariant_run (fun _ _ _ h hs => h.step hs) (described_init start) ran
  have log : s.log = events := log_run ran
  refine ⟨log ▸ h.alive, h.mem_getByDevice_iff, fun maxIdleSeconds now => ⟨?_, ?_⟩⟩
  · exact cleanupStale_count s.manager maxIdleSeconds now
  · intro id session
    exact get?_cleanupStale s.manager maxIdleSeconds now (.str id) session

/-- An id that is used twice. -/
def reused : List Event :=
  [.create "a" "phone" 0 0, .create "b" "phone" 1 1, .updateActivity "a" 2, .remove "a",
    .create "a" "tablet" 3 4, .updateActivity "a" 5]

theorem sessions_described_reused :
    ∃ s, Machine.run step (Run.init 0) reused = some s ∧ s.manager.activeCount = 2 ∧
      Alive reused "a" ⟨.str "a", .str "tablet", 3, 5, 1⟩ :=
  ⟨_, rfl, rfl, ((sessions_described 0 reused _ rfl).1 "a" _).1 rfl⟩

end SessionManager

end Cpip
