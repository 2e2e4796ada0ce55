import Cpip.Server.Devices

/-!
# Acknowledged sessions

The handler acknowledges a session by its id and updates the activity of that id, the manager keeps
the sessions that it created, and the health report counts them.  Nothing creates a session, and so
an acknowledged session is never found.
-/

namespace Cpip

/-! ## The sessions that were promised -/

/-- An acknowledged session: its id, when it was last active, and its calls. -/
structure Acked where
  sessionId : PyVal
  lastActive : ℚ
  calls : ℕ

/-- The sessions that were acknowledged on one connection and are still alive: the last one, and
those before it. -/
structure SessionLedger where
  current : Option Acked
  earlier : List Acked

namespace SessionLedger

def empty : SessionLedger := ⟨none, []⟩

def all (l : SessionLedger) : List Acked := l.current.toList ++ l.earlier

/-- A session is acknowledged, under an id that it may have been acknowledged under before. -/
def acknowledge (l : SessionLedger) (sessionId : PyVal) (now : ℚ) : SessionLedger :=
  ⟨some ⟨sessionId, now, 0⟩, l.all.filter fun a => !sameId a.sessionId sessionId⟩

/-- A call is dispatched, in the last session that was acknowledged. -/
def dispatch (l : SessionLedger) (now : ℚ) : SessionLedger :=
  { l with current := l.current.map fun a => { a with lastActive := now, calls := a.calls + 1 } }

/-- The sessions that were idle for too long are no longer alive. -/
def cleanup (l : SessionLedger) (maxIdleSeconds now : ℚ) : SessionLedger :=
  let alive (a : Acked) : Bool := now - a.lastActive ≤ maxIdleSeconds
  ⟨l.current.filter alive, l.earlier.filter alive⟩

end SessionLedger

namespace SessionManager

/-- `get`, for an id of any type. -/
def lookup (m : SessionManager) (sessionId : PyVal) : Option ExecutionSession :=
  sessionId.hash?.bind m.sessions.get?

end SessionManager

/-- `HealthStatus`, with the fields that vary. -/
structure HealthStatus where
  uptimeSeconds : ℚ
  connectedDevices : ℕ
  activeExecutions : ℕ

/-- `health_check`, at a time since the start. -/
def healthCheck (hub : ConnectionHub) (sessions : SessionManager) (uptime : ℚ) : HealthStatus where
  uptimeSeconds := uptime
  connectedDevices := hub.connections.entries.length
  activeExecutions := sessions.activeCount

/-- Every session of the ledger is found under its id, is one of that device and has counted its
calls, and the health report counts exactly those sessions. -/
structure SessionLedger.KeptBy (ledger : SessionLedger) (w : World) : Prop where
  found : ∀ a ∈ ledger.all, ∃ session, w.sessions.lookup a.sessionId = some session ∧
    session.deviceId = a.sessionId ∧ session.executionCount = a.calls
  reported : ∀ uptime, (healthCheck w.hub w.sessions uptime).activeExecutions = ledger.all.length

/-! ## Watching a connection -/

/-- The session id of an acknowledgement. -/
def ackedSession (text : JsonText) : PyVal :=
  match text.field "params" with
  | some (.dict items) => (PyVal.getStr "session_id" items).getD .none
  | _ => .none

namespace World

/-- The acknowledgement that a step sends on the connection of handler `t`. -/
def acknowledges (w : World) (t : ℕ) : Action → Option JsonText
  | .step u input =>
    match w.tasks u with
    | some (.endpoint ⟨_, .running _ (.sending text)⟩) =>
      if u = t ∧ isAck text ∧ input.answer = .ok then some text else none
    | _ => none
  | .start _ _ => none

/-- The step has handler `t` take a call to dispatch it. -/
def dispatches (w : World) (t : ℕ) : Action → Bool
  | .step u input =>
    match w.tasks u, input.received.map (RPCMessage.fromJson input.measured.amb) with
    | some (.endpoint ⟨deviceId, .running _ .receiving⟩), some (.ok msg) =>
      u = t ∧ msg.type = .call ∧ deviceId.hash?.isSome
    | _, _ => false
  | .start _ _ => false

end World

/-- The time that an action reads off the clock. -/
def Action.now : Action → ℚ
  | .step _ input => input.measured.amb.now
  | .start _ _ => 0

/-- The server, and the sessions that it acknowledged on one connection. -/
structure Watched where
  world : World
  ledger : SessionLedger

/-- The server acts, or `_session_cleanup_loop` cleans up. -/
inductive WatchedAction where
  | serve (a : Action)
  | cleanup (maxIdleSeconds now : ℚ)

namespace Watched

def init : Watched := ⟨.init, .empty⟩

/-- What the ledger becomes in a step of the server. -/
def watch (s : Watched) (t : ℕ) (a : Action) : SessionLedger :=
  match s.world.acknowledges t a with
  | some text => s.ledger.acknowledge (ackedSession text) a.now
  | none => if s.world.dispatches t a then s.ledger.dispatch a.now else s.ledger

def step (srv : Server) (t : ℕ) (s : Watched) : WatchedAction → Option Watched
  | .serve a => (s.world.step srv a).map fun w => ⟨w, s.watch t a⟩
  | .cleanup maxIdleSeconds now => some
    ⟨{ s.world with sessions := (s.world.sessions.cleanupStale maxIdleSeconds now).2 },
      s.ledger.cleanup maxIdleSeconds now⟩

/-- The action sends no acknowledgement on the connection. -/
def SendsNoAck (t : ℕ) (s : Watched) : WatchedAction → Prop
  | .serve a => s.world.acknowledges t a = none
  | .cleanup _ _ => True

/-- The promised sessions are kept. -/
def Kept (s : Watched) : Prop := s.ledger.KeptBy s.world

end Watched

/-! ## No session is ever created -/

namespace Served

variable {srv : Server} {amb : Ambient}

theorem sessions_internalError (s : Served) (conn : DeviceConnection) :
    (s.internalError srv amb conn).sessions = s.sessions := by
  unfold internalError
  split <;> rfl

theorem sessions_acknowledge (s : Served) (conn : DeviceConnection) :
    (s.acknowledge srv amb conn).sessions = s.sessions := by
  unfold acknowledge
  dsimp only
  split
  · rfl
  · exact sessions_internalError s conn

theorem sessions_sessionInit (s : Served) (conn : DeviceConnection) (msg : RPCMessage) :
    (s.sessionInit srv amb conn msg).sessions = s.sessions := by
  unfold sessionInit
  split
  · dsimp only
    split
    · exact sessions_acknowledge _ conn
    · rfl
  · exact sessions_internalError s conn

/-- Activity of a session that does not exist changes nothing. -/
theorem updateActivity_empty {sessionId : PyVal} {now : ℚ} {m : SessionManager}
    (updated : SessionManager.empty.updateActivity sessionId now = .ok m) : m = .empty := by
  unfold SessionManager.updateActivity at updated
  split at updated
  · cases updated
  · exact (Except.ok.inj updated).symm

theorem sessions_receive {s : Served} (empty : s.sessions = .empty) (conn : DeviceConnection)
    (t : ℕ) (raw : Frame) : (s.receive srv amb conn t raw).sessions = .empty := by
  unfold receive
  dsimp only
  split
  · unfold parseError
    split <;> exact empty
  · exact (sessions_internalError _ conn).trans empty
  · split
    · exact (sessions_sessionInit _ conn _).trans empty
    · exact empty
    · split
      · next m updated =>
        rw [empty] at updated
        exact updateActivity_empty updated
      · exact (sessions_internalError _ conn).trans empty
    · exact empty

theorem sessions_loopStep {s s' : Served} (empty : s.sessions = .empty) {t : ℕ}
    {conn : DeviceConnection} {input : Input} {pc : LoopPc}
    (h : s.loopStep srv amb t conn input pc = some s') : s'.sessions = .empty := by
  unfold loopStep at h
  cases pc with
  | receiving =>
    dsimp only at h
    split at h <;> cases h
    · exact empty
    · exact sessions_receive empty conn t _
  | disconnecting params pc =>
    dsimp only at h
    split at h <;> cases h
    · exact empty
    · exact empty
    · exact (sessions_internalError _ conn).trans empty
  | reconnecting params pc =>
    dsimp only at h
    split at h <;> cases h
    · exact empty
    · exact (sessions_acknowledge _ _).trans empty
    · exact (sessions_internalError _ conn).trans empty
  | dispatching msg =>
    dsimp only at h
    split at h
    · cases h
      exact (sessions_internalError _ conn).trans empty
    · split at h <;> cases h
      · exact empty
      · exact (sessions_internalError _ conn).trans empty
  | sending text =>
    cases h
    unfold sent
    dsimp only
    split
    · exact empty
    · exact (sessions_internalError _ conn).trans empty
  | sendingParseError text =>
    cases h
    exact empty
  | sendingInternalError text =>
    dsimp only at h
    split at h <;> cases h <;> exact empty

theorem sessions_step {s s' : Served} (empty : s.sessions = .empty) {t : ℕ} {input : Input}
    (h : s.step srv t input = some s') : s'.sessions = .empty := by
  unfold step at h
  dsimp only at h
  split at h
  · split at h <;> cases h <;> exact empty
  · exact sessions_loopStep empty h
  · split at h <;> cases h <;> exact empty
  · cases h

end Served

namespace World

theorem sessions_step {srv : Server} {w w' : World} {a : Action} (empty : w.sessions = .empty)
    (h : w.step srv a = some w') : w'.sessions = .empty := by
  cases a with
  | start t call =>
    rw [step] at h
    cases task : w.tasks t with
    | none =>
      rw [task] at h
      cases h
      exact empty
    | some task' =>
      rw [task] at h
      cases h
  | step t input =>
    obtain ⟨task, -, ran⟩ := Option.bind_eq_some_iff.1 h
    cases task with
    | endpoint self =>
      obtain ⟨s, served, rfl⟩ := runTask_endpoint ran
      exact Served.sessions_step empty served
    | sendToDevice deviceId message pc =>
      obtain ⟨⟨hub, p⟩, -, rfl⟩ := Option.map_eq_some_iff.1 ran
      cases p <;> exact empty
    | broadcast self =>
      obtain ⟨⟨hub, p⟩, -, rfl⟩ := Option.map_eq_some_iff.1 ran
      cases p <;> exact empty
    | heartbeatLoop interval pc =>
      obtain ⟨⟨hub, pc'⟩, -, rfl⟩ := Option.map_eq_some_iff.1 ran
      exact empty
    | done => cases ran

end World

namespace Watched

variable {srv : Server} {t : ℕ}

/-- There is no session, and none was acknowledged. -/
structure Unused (s : Watched) : Prop where
  sessions : s.world.sessions = .empty
  ledger : s.ledger = .empty

theorem Unused.kept {s : Watched} (h : Unused s) : Kept s where
  found a mem := by
    rw [h.ledger] at mem
    cases mem
  reported uptime := by
    show s.world.sessions.activeCount = s.ledger.all.length
    rw [h.sessions, h.ledger]
    rfl

theorem sessions_of_step {s s' : Watched} {a : WatchedAction} (empty : s.world.sessions = .empty)
    (next : step srv t s a = some s') : s'.world.sessions = .empty := by
  cases a with
  | serve a =>
    obtain ⟨w, served, rfl⟩ := Option.map_eq_some_iff.1 next
    exact World.sessions_step empty served
  | cleanup maxIdleSeconds now =>
    obtain rfl := Option.some.inj next
    show (s.world.sessions.cleanupStale maxIdleSeconds now).2 = _
    rw [empty]
    rfl

theorem Unused.step {s s' : Watched} {a : WatchedAction} (quiet : SendsNoAck t s a) (h : Unused s)
    (next : step srv t s a = some s') : Unused s' := by
  refine ⟨sessions_of_step h.sessions next, ?_⟩
  cases a with
  | serve a =>
    obtain ⟨w, served, rfl⟩ := Option.map_eq_some_iff.1 next
    show s.watch t a = _
    rw [watch, show s.world.acknowledges t a = none from quiet, h.ledger]
    exact ite_self _
  | cleanup maxIdleSeconds now =>
    obtain rfl := Option.some.inj next
    show s.ledger.cleanup maxIdleSeconds now = _
    rw [h.ledger]
    rfl

/-- What was just acknowledged is not found. -/
theorem sendsNoAck_of_kept {s s' : Watched} {a : WatchedAction} (h : Unused s)
    (next : step srv t s a = some s') (kept : Kept s') : SendsNoAck t s a := by
  have empty := sessions_of_step h.sessions next
  cases a with
  | cleanup maxIdleSeconds now => trivial
  | serve a =>
    obtain ⟨w, served, rfl⟩ := Option.map_eq_some_iff.1 next
    show s.world.acknowledges t a = none
    cases sent : s.world.acknowledges t a with
    | none => rfl
    | some text =>
      have acked : (⟨ackedSession text, a.now, 0⟩ : Acked) ∈ (s.watch t a).all := by
        rw [watch, sent]
        exact List.mem_cons_self
      obtain ⟨session, found, -⟩ := kept.found _ acked
      rw [SessionManager.lookup, show w.sessions = .empty from empty] at found
      obtain ⟨key, -, none⟩ := Option.bind_eq_some_iff.1 found
      cases none

/-- In every run of the server, with cleanups at any times: the sessions that are acknowledged on a
connection are kept and reported throughout exactly when none is acknowledged. -/
theorem kept_iff_no_ack (srv : Server) (t : ℕ) (as : List WatchedAction) (s : Watched)
    (ran : Machine.run (step srv t) init as = some s) :
    Machine.Along (step srv t) (SendsNoAck t) init as ↔
      Machine.Throughout (step srv t) Kept init as :=
  Machine.along_iff_throughout (I := Unused) (fun _ h => h.kept)
    (fun _ _ _ quiet h next => h.step quiet next)
    (fun _ _ _ h next kept => sendsNoAck_of_kept h next kept) ⟨rfl, rfl⟩ ran

/-- A device with the placeholder id opens its socket. -/
def openingRun : List WatchedAction :=
  [.serve (.start 0 .endpoint), .serve (.step 0 (.io .ok)), .serve (.step 0 (.io .ok)),
    .cleanup 3600 60]

theorem kept_iff_no_ack_opening :
    Machine.Throughout (step ⟨plainText, .builtin⟩ 0) Kept init openingRun := by
  obtain ⟨s, ran⟩ : ∃ s, Machine.run (step ⟨plainText, .builtin⟩ 0) init openingRun = some s :=
    ⟨_, rfl⟩
  refine (kept_iff_no_ack _ 0 openingRun s ran).1 ?_
  exact .cons rfl rfl (.cons rfl rfl (.cons rfl rfl (.cons trivial rfl trivial)))

/-- The device announces itself and is acknowledged. -/
def acknowledgedRun : List WatchedAction := World.placeholderRun.map .serve

/-- The session is acknowledged, and it is neither found nor reported. -/
theorem acknowledged_session_missing : ∃ s,
    Machine.run (step ⟨plainText, .builtin⟩ 0) init acknowledgedRun = some s ∧
      s.ledger.all.map (fun a => a.sessionId.asStr?) = [some "unknown"] ∧
      s.world.sessions.get "unknown" = none ∧
      (healthCheck s.world.hub s.world.sessions 0).activeExecutions = 0 ∧ ¬ Kept s := by
  refine ⟨_, rfl, by decide +kernel, rfl, rfl, fun kept => ?_⟩
  have counted := kept.reported 0
  revert counted
  decide +kernel

end Watched

end Cpip
