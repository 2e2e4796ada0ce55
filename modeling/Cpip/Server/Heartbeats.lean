import Cpip.Server.Turns

/-!
# The times of connections

Of the mutable fields of a connection, `last_heartbeat` decides how long it stays.  A step of the
server leaves it or sets it to the present (`Refreshed`); a handler has, while its socket is
registered, the registered connection; and a step of `heartbeat_loop` is one of the cases of
`ConnectionHub.Pulses`.
-/

namespace Cpip

open ConnectionHub (ConnectPc DisconnectPc SendPc Broadcast HeartbeatPc Disconnects Connects Calm)

/-! ## What sets the times -/

namespace ConnectionHub

/-- Connections that were there keep their last heartbeat or have it now, and new ones have it
now. -/
structure Refreshed (now : ℚ) (hub hub' : ConnectionHub) : Prop where
  nextRef : hub.nextRef ≤ hub'.nextRef
  old : ∀ r < hub.nextRef, hub'.lastHeartbeat r = hub.lastHeartbeat r ∨ hub'.lastHeartbeat r = now
  new : ∀ r < hub'.nextRef, hub.nextRef ≤ r → hub'.lastHeartbeat r = now

namespace Refreshed

variable {now : ℚ} {hub hub' : ConnectionHub}

theorem of_same (last : hub'.lastHeartbeat = hub.lastHeartbeat)
    (next : hub'.nextRef = hub.nextRef) : Refreshed now hub hub' where
  nextRef := next.ge
  old _ _ := .inl (congrFun last _)
  new _ lt le := absurd (next ▸ lt) le.not_gt

theorem of_update {r : ℕ} (last : hub'.lastHeartbeat = Function.update hub.lastHeartbeat r now)
    (next : hub'.nextRef = hub.nextRef ∨ hub'.nextRef = hub.nextRef + 1 ∧ r = hub.nextRef) :
    Refreshed now hub hub' where
  nextRef := by omega
  old j _ := by
    rw [last, Function.update_apply]
    split_ifs
    · exact .inr rfl
    · exact .inl rfl
  new j lt le := by
    obtain rfl : j = r := by omega
    rw [last, Function.update_self]

end Refreshed

theorem refreshed_connectStep {hub hub' : ConnectionHub} {t : ℕ} {deviceId : PyVal} {w : ℕ}
    {metadata : PyVal} {now : ℚ} {pc : ConnectPc} {answer : Answer}
    {p : Progress ConnectPc (Except PyExc DeviceConnection)}
    (h : hub.connectStep t deviceId w metadata now pc answer = some (hub', p)) :
    Refreshed now hub hub' := by
  cases connects_of_step h with
  | refused e => exact .of_same rfl rfl
  | accepted => exact .of_update rfl (.inr ⟨rfl, rfl⟩)
  | unhashable conn answer e hash => exact .of_same rfl rfl
  | displaces answer free hash stored => exact .of_same rfl rfl
  | registers answer free hash stored => exact .of_same rfl rfl
  | replaces _ hash => cases answer <;> exact .of_same rfl rfl

theorem Disconnects.refreshed {hub hub' : ConnectionHub} {t : ℕ} {deviceId : PyVal}
    {reason : Reason} {pc : DisconnectPc} {answer : Answer}
    {p : Progress DisconnectPc (Except PyExc Unit)}
    (step : Disconnects hub t deviceId reason pc answer hub' p) (now : ℚ) :
    Refreshed now hub hub' := by
  cases step with
  | absent _ r stored => exact .of_same rfl rfl
  | removes _ free hash stored => exact .of_same rfl rfl
  | closes conn _ => cases answer <;> exact .of_same rfl rfl

theorem refreshed_sent (hub : ConnectionHub) (w : ℕ) (text : JsonText) (answer : Answer)
    (now : ℚ) : Refreshed now hub (hub.sent w text answer) := by
  cases answer <;> exact .of_same rfl rfl

end ConnectionHub

namespace Served

variable {srv : Server} {amb : Ambient}

theorem Rests.refreshed {s s' : Served} {conn : DeviceConnection} {hub : ConnectionHub}
    (rests : Rests conn hub s') {now : ℚ} (step : ConnectionHub.Refreshed now s.hub hub) :
    ConnectionHub.Refreshed now s.hub s'.hub := by
  rw [rests.hub]
  exact step

theorem refreshed_sessionInit (s : Served) (conn : DeviceConnection) (msg : RPCMessage) (now : ℚ) :
    ConnectionHub.Refreshed now s.hub (s.sessionInit srv amb conn msg).hub := by
  unfold sessionInit
  split
  · dsimp only
    split
    · exact (rests_acknowledge rfl conn).refreshed (s := s) (.of_same rfl rfl)
    · exact .of_same rfl rfl
  · exact (rests_internalError rfl conn).refreshed (.of_same rfl rfl)

theorem refreshed_receive (s : Served) (conn : DeviceConnection) (t : ℕ) (raw : Frame) :
    ConnectionHub.Refreshed amb.now s.hub (s.receive srv amb conn t raw).hub := by
  unfold receive
  dsimp only
  split
  · exact (rests_parseError rfl conn).refreshed (s := s) (.of_same rfl rfl)
  · exact (rests_internalError rfl conn).refreshed (s := s) (.of_same rfl rfl)
  · next msg _ =>
    split
    · have step := @refreshed_sessionInit srv amb { s with hub := s.hub.record [.received t raw] }
        conn msg amb.now
      exact ⟨step.nextRef, step.old, step.new⟩
    · exact .of_update rfl (.inl rfl)
    · split
      · exact .of_same rfl rfl
      · exact (rests_internalError rfl conn).refreshed (s := s) (.of_same rfl rfl)
    · exact .of_same rfl rfl

theorem refreshed_loopStep {s s' : Served} {t : ℕ} {conn : DeviceConnection} {input : Input}
    {pc : LoopPc} (h : s.loopStep srv amb t conn input pc = some s') :
    ConnectionHub.Refreshed amb.now s.hub s'.hub := by
  unfold loopStep at h
  split at h
  · split at h <;> cases h
    · exact .of_same rfl rfl
    · exact refreshed_receive s conn t _
  · split at h <;> cases h <;> rename_i hstep
    · exact (ConnectionHub.disconnects_of_step hstep).refreshed _
    · exact (ConnectionHub.disconnects_of_step hstep).refreshed _
    · exact (rests_internalError rfl conn).refreshed
        ((ConnectionHub.disconnects_of_step hstep).refreshed _)
  · split at h <;> cases h <;> rename_i hstep
    · exact ConnectionHub.refreshed_connectStep hstep
    · exact (rests_acknowledge rfl _).refreshed (ConnectionHub.refreshed_connectStep hstep)
    · exact (rests_internalError rfl conn).refreshed (ConnectionHub.refreshed_connectStep hstep)
  · split at h
    · cases h
      exact (rests_internalError rfl conn).refreshed (.of_same rfl rfl)
    · split at h <;> cases h
      · exact .of_same rfl rfl
      · exact (rests_internalError rfl conn).refreshed (.of_same rfl rfl)
  · next text =>
    cases h
    have sent := ConnectionHub.refreshed_sent s.hub t text input.answer amb.now
    unfold Served.sent
    dsimp only
    split
    · exact sent
    · exact (rests_internalError rfl conn).refreshed sent
  · cases h
    exact ConnectionHub.refreshed_sent s.hub t _ input.answer amb.now
  · dsimp only at h
    split at h <;> cases h <;> exact ConnectionHub.refreshed_sent s.hub t _ _ amb.now

theorem refreshed_step {s s' : Served} {t : ℕ} {input : Input}
    (h : s.step srv t input = some s') :
    ConnectionHub.Refreshed input.measured.amb.now s.hub s'.hub := by
  unfold step at h
  dsimp only at h
  split at h
  · split at h <;> cases h <;> rename_i hstep <;> exact ConnectionHub.refreshed_connectStep hstep
  · exact refreshed_loopStep h
  · split at h <;> cases h <;> rename_i hstep <;>
      exact (ConnectionHub.disconnects_of_step hstep).refreshed _
  · cases h

end Served

/-! ## The heartbeat loop -/

namespace ConnectionHub

/-- The cases of a step of `heartbeat_loop`, with what it reads and writes. -/
inductive Pulses (hub : ConnectionHub) (t : ℕ) (interval now : ℚ) (answer : Answer) :
    HeartbeatPc → ConnectionHub → HeartbeatPc → Prop
  | wakes : Pulses hub t interval now answer .sleeping hub (.scanning now hub.connections.keys [])
  | scanned (start : ℚ) (dead : List (PyKey × Reason)) :
    Pulses hub t interval now answer (.scanning start [] dead) hub (.cleaning dead)
  | gone {key : PyKey} (start : ℚ) (rest : List PyKey) (dead : List (PyKey × Reason))
    (stored : hub.connections.get? key = none) :
    Pulses hub t interval now answer (.scanning start (key :: rest) dead) hub
      (.scanning start rest dead)
  | late {key : PyKey} {conn : DeviceConnection} (start : ℚ) (rest : List PyKey)
    (dead : List (PyKey × Reason)) (stored : hub.connections.get? key = some conn)
    (old : start - hub.lastHeartbeat conn.ref > interval * 3) :
    Pulses hub t interval now answer (.scanning start (key :: rest) dead) hub
      (.scanning start rest
        (dead ++ [(key, .heartbeatTimeout conn start (hub.lastHeartbeat conn.ref) interval)]))
  | beats {key : PyKey} {conn : DeviceConnection} (start : ℚ) (rest : List PyKey)
    (dead : List (PyKey × Reason)) (stored : hub.connections.get? key = some conn)
    (young : start - hub.lastHeartbeat conn.ref ≤ interval * 3) :
    Pulses hub t interval now answer (.scanning start (key :: rest) dead) hub
      (.sending start key conn rest dead)
  | sent (start : ℚ) (key : PyKey) (conn : DeviceConnection) (rest : List PyKey)
    (dead : List (PyKey × Reason)) (text : JsonText)
    (heartbeat : (Frame.json text).type? = some .heartbeat) :
    Pulses hub t interval now answer (.sending start key conn rest dead)
      (hub.record [.sent conn.websocket text]) (.scanning start rest dead)
  | failed (start : ℚ) (key : PyKey) (conn : DeviceConnection) (rest : List PyKey)
    (dead : List (PyKey × Reason)) :
    Pulses hub t interval now answer (.sending start key conn rest dead)
      (hub.record [.sendFailed conn.websocket])
      (.scanning start rest (dead ++ [(key, .sendFailed conn)]))
  | sleeps : Pulses hub t interval now answer (.cleaning []) hub .sleeping
  | cleans (key : PyKey) (reason : Reason) (dead : List (PyKey × Reason)) :
    Pulses hub t interval now answer (.cleaning ((key, reason) :: dead)) hub
      (.disconnecting key reason .locking dead)
  | disconnects {key : PyKey} {reason : Reason} {pc pc' : DisconnectPc} {hub' : ConnectionHub}
    (dead : List (PyKey × Reason))
    (step : Disconnects hub t (.ofKey key) reason pc answer hub' (.suspended pc')) :
    Pulses hub t interval now answer (.disconnecting key reason pc dead) hub'
      (.disconnecting key reason pc' dead)
  | returns {key : PyKey} {reason : Reason} {pc : DisconnectPc} {hub' : ConnectionHub}
    {r : Except PyExc Unit} (dead : List (PyKey × Reason))
    (step : Disconnects hub t (.ofKey key) reason pc answer hub' (.returned r)) :
    Pulses hub t interval now answer (.disconnecting key reason pc dead) hub' (.cleaning dead)

theorem pulses_of_step {hub hub' : ConnectionHub} {py : PyText} {t : ℕ} {interval : ℚ}
    {amb : Ambient} {pc pc' : HeartbeatPc} {answer : Answer}
    (h : hub.heartbeatStep py t interval amb pc answer = some (hub', pc')) :
    Pulses hub t interval amb.now answer pc hub' pc' := by
  unfold heartbeatStep at h
  split at h
  · cases h
    exact .wakes
  · cases h
    exact .scanned _ _
  · split at h
    · next stored =>
      cases h
      exact .gone _ _ _ stored
    · next conn stored =>
      dsimp only at h
      split at h
      · next old =>
        cases h
        exact .late _ _ _ stored old
      · next young =>
        cases h
        exact .beats _ _ _ stored (Rat.not_lt.1 young)
  · split at h
    · next _ _ text encoded =>
      cases h
      exact .sent _ _ _ _ _ text (Frame.type?_of_toJson encoded)
    · cases h
      exact .failed _ _ _ _ _
  · cases h
    exact .sleeps
  · cases h
    exact .cleans _ _ _
  · split at h <;> cases h
    · next hstep => exact .disconnects _ (disconnects_of_step hstep)
    · next hstep => exact .returns _ (disconnects_of_step hstep)

theorem Pulses.refreshed {hub hub' : ConnectionHub} {t : ℕ} {interval now : ℚ} {answer : Answer}
    {pc pc' : HeartbeatPc} (h : Pulses hub t interval now answer pc hub' pc') :
    Refreshed now hub hub' := by
  cases h with
  | disconnects dead step | returns dead step => exact step.refreshed now
  | wakes | scanned start dead | gone start rest dead stored | late start rest dead stored old
  | beats start rest dead stored young | sent start key conn rest dead text heartbeat
  | failed start key conn rest dead | sleeps | cleans key reason dead => exact .of_same rfl rfl

end ConnectionHub

theorem World.refreshed_runTask {srv : Server} {w w' : World} {t : ℕ} {input : Input} {task : Task}
    (h : w.runTask srv t input task = some w') :
    ConnectionHub.Refreshed input.measured.amb.now w.hub w'.hub := by
  have sends {hub' : ConnectionHub} {deviceId : PyVal} {pc : SendPc} {answer : Answer}
      {p : Progress SendPc (Except PyExc Bool)}
      (step : ConnectionHub.Sends w.hub t deviceId pc answer hub' p) :
      ConnectionHub.Refreshed input.measured.amb.now w.hub hub' := by
    cases step with
    | sent conn text => exact .of_same rfl rfl
    | failed conn answer => exact .of_same rfl rfl
    | disconnects step | returns r step => exact step.refreshed _
  cases task with
  | endpoint self =>
    obtain ⟨s, hs, rfl⟩ := runTask_endpoint h
    exact Served.refreshed_step hs
  | sendToDevice deviceId message pc =>
    obtain ⟨⟨hub, p⟩, hs, rfl⟩ := Option.map_eq_some_iff.1 h
    cases p <;> exact sends (ConnectionHub.sends_of_step hs)
  | broadcast self =>
    obtain ⟨⟨hub, p⟩, hs, rfl⟩ := Option.map_eq_some_iff.1 h
    have step : ConnectionHub.Refreshed input.measured.amb.now w.hub hub := by
      cases ConnectionHub.broadcasts_of_step hs with
      | done n => exact .of_same rfl rfl
      | turns current => exact .of_same rfl rfl
      | sends current step current' | returns current step current' => exact sends step
    cases p <;> exact step
  | heartbeatLoop interval pc =>
    obtain ⟨⟨hub, pc'⟩, hs, rfl⟩ := Option.map_eq_some_iff.1 h
    exact (ConnectionHub.pulses_of_step hs).refreshed
  | done => cases h

/-! ## Connections that are found too old -/

namespace Reason

def isTimeout : Reason → Bool
  | heartbeatTimeout _ _ _ _ => true
  | _ => false

end Reason

/-- The connection of the socket is removed because a heartbeat pass found some connection too
old. -/
def Event.TimesOut (w : ℕ) : Event → Prop
  | unregisters conn (.disconnect reason) => reason.isTimeout = true ∧ conn.websocket = w
  | _ => False

/-- The socket was never disconnected for a timeout. -/
def Undisturbed (w : ℕ) (log : List Event) : Prop := ∀ e ∈ log, ¬ e.TimesOut w

theorem Undisturbed.append {w : ℕ} {log events : List Event} (h : Undisturbed w log)
    (new : ∀ e ∈ events, ¬ e.TimesOut w) : Undisturbed w (log ++ events) := by
  intro e mem
  exact (List.mem_append.1 mem).elim (h e) (new e)

namespace ConnectionHub

theorem Calm.undisturbed {on : ℕ → Prop} {hub hub' : ConnectionHub} {w : ℕ}
    (calm : Calm on hub hub') (h : Undisturbed w hub.log) : Undisturbed w hub'.log := by
  obtain ⟨events, hlog, traffic⟩ := calm.log
  rw [hlog]
  refine h.append fun e mem => ?_
  have on := traffic e mem
  cases e with
  | unregisters conn cause => exact on.elim
  | received _ _ | sent _ _ | sendFailed _ | registers _ | closes _ _ => exact id

theorem Undisturbed.register {hub : ConnectionHub} {w : ℕ} (h : Undisturbed w hub.log)
    (key : PyKey) (conn : DeviceConnection) : Undisturbed w (hub.register key conn).log := by
  refine h.append fun e mem => ?_
  rcases List.mem_append.1 mem with mem | mem
  · obtain ⟨old, -, rfl⟩ := List.mem_map.1 mem
    exact id
  · obtain rfl := List.mem_singleton.1 mem
    exact id

theorem Connects.undisturbed {hub hub' : ConnectionHub} {t : ℕ} {deviceId : PyVal} {socket : ℕ}
    {metadata : PyVal} {now : ℚ} {pc : ConnectPc} {answer : Answer}
    {p : Progress ConnectPc (Except PyExc DeviceConnection)} {w : ℕ}
    (step : Connects hub t deviceId socket metadata now pc answer hub' p)
    (h : Undisturbed w hub.log) : Undisturbed w hub'.log := by
  cases step with
  | refused e | accepted | unhashable conn answer e hash => exact h
  | displaces answer free hash stored =>
    refine h.append fun e mem => ?_
    obtain rfl := List.mem_singleton.1 mem
    exact id
  | registers answer free hash stored => exact Undisturbed.register h _ _
  | @replaces conn old key _ hash =>
    have closed : Undisturbed w (hub.closed old.websocket answer).log := by
      rw [closed_log]
      exact h
    exact Undisturbed.register closed _ _

theorem Disconnects.undisturbed {hub hub' : ConnectionHub} {t : ℕ} {deviceId : PyVal}
    {reason : Reason} {pc : DisconnectPc} {answer : Answer}
    {p : Progress DisconnectPc (Except PyExc Unit)} {w : ℕ}
    (step : Disconnects hub t deviceId reason pc answer hub' p)
    (other : pc = .locking → reason.isTimeout = true → ∀ key conn, deviceId.hash? = some key →
      hub.connections.get? key = some conn → conn.websocket ≠ w)
    (h : Undisturbed w hub.log) : Undisturbed w hub'.log := by
  cases step with
  | absent _ r stored => exact h
  | @removes conn key _ free hash stored =>
    refine h.append fun e mem => ?_
    rcases List.mem_cons.1 mem with rfl | mem
    · exact fun ⟨timeout, own⟩ => other rfl timeout key conn hash stored own
    · obtain rfl := List.mem_singleton.1 mem
      exact id
  | closes conn _ => exact (closed_log hub _ answer).symm ▸ h

end ConnectionHub

/-! ## The connection of a handler -/

namespace ConnectionHub

/-- What `connect` leaves registered was there, or is the connection that it returns. -/
theorem Connects.registered {hub hub' : ConnectionHub} {t : ℕ} {deviceId : PyVal} {socket : ℕ}
    {metadata : PyVal} {now : ℚ} {pc : ConnectPc} {answer : Answer}
    {p : Progress ConnectPc (Except PyExc DeviceConnection)}
    (step : Connects hub t deviceId socket metadata now pc answer hub' p) {key : PyKey}
    {conn : DeviceConnection} (stored : hub'.connections.get? key = some conn) :
    hub.connections.get? key = some conn ∨
      p = .returned (.ok conn) ∧ pc.conn? = some conn ∧ deviceId.hash? = some key := by
  have set {k : PyKey} {c : DeviceConnection}
      (found : (hub.connections.set k c).get? key = some conn) :
      hub.connections.get? key = some conn ∨ k = key ∧ c = conn := by
    rw [Dict.get?_set] at found
    split_ifs at found with same
    · exact .inr ⟨same, Option.some.inj found⟩
    · exact .inl found
  cases step with
  | refused e | accepted | unhashable conn answer e hash
  | displaces answer free hash stored => exact .inl stored
  | registers _ free hash _ =>
    exact (set stored).imp_right fun ⟨same, same'⟩ => by
      subst same same'
      exact ⟨rfl, rfl, hash⟩
  | @replaces new old k _ hash =>
    have found : ((hub.closed old.websocket answer).connections.set k new).get? key = some conn :=
      stored
    rw [closed_connections] at found
    exact (set found).imp_right fun ⟨same, same'⟩ => by
      subst same same'
      exact ⟨rfl, rfl, hash⟩

/-- A connection that `connect` has, it had before, or it is new. -/
theorem Connects.pending {hub hub' : ConnectionHub} {t : ℕ} {deviceId : PyVal} {socket : ℕ}
    {metadata : PyVal} {now : ℚ} {pc pc' : ConnectPc} {answer : Answer}
    (step : Connects hub t deviceId socket metadata now pc answer hub' (.suspended pc'))
    {conn : DeviceConnection} (here : pc'.conn? = some conn) :
    pc.conn? = some conn ∨ hub'.lastHeartbeat conn.ref = conn.connectedAt := by
  cases step with
  | accepted =>
    obtain rfl := Option.some.inj here
    exact .inr (Function.update_self ..)
  | displaces answer free hash stored => exact .inl here

theorem Connects.kept {hub hub' : ConnectionHub} {t : ℕ} {deviceId : PyVal} {socket : ℕ}
    {metadata : PyVal} {now : ℚ} {pc : ConnectPc} {answer : Answer}
    {p : Progress ConnectPc (Except PyExc DeviceConnection)}
    (step : Connects hub t deviceId socket metadata now pc answer hub' p)
    (fails : ∀ conn, p ≠ .returned (.ok conn)) {key : PyKey} {conn : DeviceConnection}
    (stored : hub'.connections.get? key = some conn) : hub.connections.get? key = some conn :=
  (step.registered stored).resolve_right fun ⟨returned, _⟩ => fails conn returned

theorem Disconnects.registered {hub hub' : ConnectionHub} {t : ℕ} {deviceId : PyVal}
    {reason : Reason} {pc : DisconnectPc} {answer : Answer}
    {p : Progress DisconnectPc (Except PyExc Unit)}
    (step : Disconnects hub t deviceId reason pc answer hub' p) {key : PyKey}
    {conn : DeviceConnection} (stored : hub'.connections.get? key = some conn) :
    hub.connections.get? key = some conn := by
  cases step with
  | absent _ r absent => exact stored
  | removes _ free hash found => exact (Dict.get?_of_get?_pop stored).1
  | closes old _ =>
    rw [← closed_connections hub old.websocket answer]
    exact stored

end ConnectionHub

/-- The task is about to register the connection. -/
def Task.AboutTo (task : Task) (key : PyKey) (conn : DeviceConnection) : Prop :=
  ∃ deviceId pc, task.connecting = some (deviceId, pc) ∧ pc.conn? = some conn ∧
    deviceId.hash? = some key

namespace Served

/-- Where its socket is registered, the handler has the registered connection. -/
def Has (t : ℕ) (s : Served) : Prop :=
  ∀ key conn, s.hub.connections.get? key = some conn → conn.websocket = t →
    s.self.pc.conn? = some conn

/-- A step of a handler: its registered connection stays the one it has, and a newly registered one
is the one it was about to register. -/
theorem Serves.has {s s' : Served} {t : ℕ} {input : Input} (h : Serves s t input s')
    (owns : s.Owns t) (has : s.Has t) (owns' : s'.Owns t) :
    s'.Has t ∧ ∀ key conn, s'.hub.connections.get? key = some conn → conn.websocket = t →
      s.hub.connections.get? key = some conn ∨ (Task.endpoint s.self).AboutTo key conn := by
  obtain ⟨hub, sessions, deviceId, pc⟩ := s
  cases h with
  | @quiet conn s' before quiet =>
    have same := quiet.calm.connections
    refine ⟨fun key c stored own => ?_, fun key c stored _ => .inl (same ▸ stored)⟩
    rw [quiet.settled.conn_eq, ← before.conn_eq]
    exact has key c (same ▸ stored) own
  | connects now before step | failed now before step =>
    dsimp only at before
    subst before
    exact ⟨fun key c stored own => (by cases has key c (step.kept nofun stored) own),
      fun key c stored _ => .inl (step.kept nofun stored)⟩
  | @connected pc hub' conn now before step =>
    dsimp only at before
    subst before
    refine ⟨fun key c stored own => ?_, fun key c stored _ => ?_⟩
    · rcases step.registered stored with old | ⟨returned, -, -⟩
      · cases has key c old own
      · cases returned
        rfl
    · exact (step.registered stored).imp_right fun ⟨_, about, hash⟩ => ⟨_, _, rfl, about, hash⟩
  | disconnects before step =>
    dsimp only at before
    subst before
    exact ⟨fun key c stored own => has key c (step.registered stored) own,
      fun key c stored _ => .inl (step.registered stored)⟩
  | disconnected before step after =>
    dsimp only at before
    subst before
    rcases after with rfl | rests
    · exact ⟨fun key c stored own => has key c (step.registered stored) own,
        fun key c stored _ => .inl (step.registered stored)⟩
    · obtain rfl := rests.hub
      refine ⟨fun key c stored own => ?_, fun key c stored _ => .inl (step.registered stored)⟩
      rw [rests.settled.conn_eq]
      exact has key c (step.registered stored) own
  | reconnects now before step =>
    dsimp only at before
    subst before
    exact ⟨fun key c stored own => (by cases owns key c (step.kept nofun stored) own),
      fun key c stored _ => .inl (step.kept nofun stored)⟩
  | reconnected now before step rests =>
    dsimp only at before
    subst before
    obtain rfl := rests.hub
    refine ⟨fun key c stored own => ?_, fun key c stored _ => ?_⟩
    · rcases step.registered stored with old | ⟨returned, -, -⟩
      · cases owns key c old own
      · cases returned
        exact rests.settled.conn_eq
    · exact (step.registered stored).imp_right fun ⟨_, about, hash⟩ => ⟨_, _, rfl, about, hash⟩
  | reconnectFailed now before step rests =>
    dsimp only at before
    subst before
    obtain rfl := rests.hub
    exact ⟨fun key c stored own => (by cases owns key c (step.kept nofun stored) own),
      fun key c stored _ => .inl (step.kept nofun stored)⟩
  | closes before step =>
    dsimp only at before
    subst before
    exact ⟨fun key c stored own => has key c (step.registered stored) own,
      fun key c stored _ => .inl (step.registered stored)⟩
  | finishes before step =>
    dsimp only at before
    subst before
    exact ⟨fun key c stored own => (by cases owns' key c stored own),
      fun key c stored _ => .inl (step.registered stored)⟩

theorem not_connecting_of_settled {self : Endpoint} {conn : DeviceConnection}
    (h : self.pc.Settled conn) : (Task.endpoint self).connecting = none := by
  obtain ⟨deviceId, pc⟩ := self
  unfold Task.connecting
  split <;> simp_all [EndpointPc.Settled]

/-- A connection that a handler is about to register after a step, it had before, or it is new. -/
theorem Serves.pending {s s' : Served} {t : ℕ} {input : Input} (h : Serves s t input s')
    {deviceId : PyVal} {pc : ConnectPc} {conn : DeviceConnection}
    (here : (Task.endpoint s'.self).connecting = some (deviceId, pc)) (has : pc.conn? = some conn) :
    (∃ deviceId pc, (Task.endpoint s.self).connecting = some (deviceId, pc) ∧
      pc.conn? = some conn) ∨ s'.hub.lastHeartbeat conn.ref = conn.connectedAt := by
  obtain ⟨hub, sessions, id, pc₀⟩ := s
  have settled {s' : Served} {c : DeviceConnection} (h : s'.self.pc.Settled c)
      (here : (Task.endpoint s'.self).connecting = some (deviceId, pc)) : False := by
    cases (not_connecting_of_settled h).symm.trans here
  cases h with
  | connects now before step | reconnects now before step =>
    dsimp only at before
    subst before
    cases here
    exact (step.pending has).imp_left fun before => ⟨_, _, rfl, before⟩
  | disconnected before step after =>
    rcases after with rfl | rests
    · cases here
      cases has
    · exact (settled rests.settled here).elim
  | quiet before quiet => exact (settled quiet.settled here).elim
  | reconnected now before step rests | reconnectFailed now before step rests =>
    exact (settled rests.settled here).elim
  | connected now before step | failed now before step | disconnects before step
  | closes before step | finishes before step => cases here

/-- An acknowledgement sets the time of the connection that the handler has. -/
theorem lastHeartbeat_of_ack {srv : Server} {s s' : Served} {t : ℕ} {input : Input}
    {conn : DeviceConnection} {raw : Frame} (here : s.self.pc = .running conn .receiving)
    (received : input.received = some raw) (ack : raw.type? = some .heartbeatAck)
    (h : s.step srv t input = some s') :
    s'.hub.lastHeartbeat conn.ref = input.measured.amb.now := by
  unfold step at h
  rw [here] at h
  unfold loopStep at h
  dsimp only at h
  rw [received] at h
  obtain rfl := Option.some.inj h
  obtain ⟨msg, decoded, type⟩ : ∃ msg, RPCMessage.fromJson input.measured.amb raw = .ok msg ∧
      msg.type = .heartbeatAck := ⟨_, Frame.fromJson_eq_ok_iff.2 ⟨_, ack, rfl⟩, rfl⟩
  unfold receive
  rw [decoded]
  dsimp only
  rw [type]
  exact Function.update_self ..

end Served

/-! ## What a task becomes -/

/-- A handler stays one, a heartbeat loop keeps its interval, and nothing else becomes either. -/
inductive Task.Becomes : Task → Task → Prop
  | endpoint (self self' : Endpoint) : Becomes (.endpoint self) (.endpoint self')
  | heartbeatLoop (interval : ℚ) (pc pc' : HeartbeatPc) :
    Becomes (.heartbeatLoop interval pc) (.heartbeatLoop interval pc')
  | sends {task task' : Task} (before : ∀ interval pc, task ≠ .heartbeatLoop interval pc)
    (handler : ∀ self, task ≠ .endpoint self)
    (after : ∀ interval pc, task' ≠ .heartbeatLoop interval pc)
    (handler' : ∀ self, task' ≠ .endpoint self) : Becomes task task'

theorem World.becomes_of_runTask {srv : Server} {w w' : World} {t : ℕ} {input : Input}
    {task : Task} (h : w.runTask srv t input task = some w') :
    ∃ task', w'.tasks t = some task' ∧ task.Becomes task' := by
  cases task with
  | endpoint self =>
    obtain ⟨s, -, rfl⟩ := runTask_endpoint h
    exact ⟨_, Function.update_self .., .endpoint _ _⟩
  | sendToDevice deviceId message pc =>
    obtain ⟨⟨hub, p⟩, -, rfl⟩ := Option.map_eq_some_iff.1 h
    cases p with
    | suspended pc =>
      refine ⟨.sendToDevice deviceId message pc, Function.update_self .., .sends ?_ ?_ ?_ ?_⟩ <;>
        simp
    | returned sent => refine ⟨.done, Function.update_self .., .sends ?_ ?_ ?_ ?_⟩ <;> simp
  | broadcast self =>
    obtain ⟨⟨hub, p⟩, -, rfl⟩ := Option.map_eq_some_iff.1 h
    cases p with
    | suspended self =>
      refine ⟨.broadcast self, Function.update_self .., .sends ?_ ?_ ?_ ?_⟩ <;> simp
    | returned count => refine ⟨.done, Function.update_self .., .sends ?_ ?_ ?_ ?_⟩ <;> simp
  | heartbeatLoop interval pc =>
    obtain ⟨⟨hub, pc'⟩, -, rfl⟩ := Option.map_eq_some_iff.1 h
    exact ⟨_, Function.update_self .., .heartbeatLoop _ _ _⟩
  | done => cases h

/-- Only a heartbeat loop disconnects for a timeout. -/
theorem World.undisturbed_of_runTask {srv : Server} {w w' : World} {t socket : ℕ} {input : Input}
    {task : Task} (other : ∀ interval pc, task ≠ .heartbeatLoop interval pc)
    (h : w.runTask srv t input task = some w') (spared : Undisturbed socket w.hub.log) :
    Undisturbed socket w'.hub.log := by
  cases effect_of_runTask h with
  | calm calm => exact calm.undisturbed spared
  | connects before step => exact step.undisturbed spared
  | @disconnects deviceId reason pc _ _ _ before step =>
    refine step.undisturbed (fun _ timeout => ?_) spared
    have never : reason.isTimeout = false := by
      unfold Task.disconnecting at before
      split at before <;> cases before
      · rfl
      · rfl
      · rfl
      · rfl
      · exact absurd rfl (other _ _)
    rw [never] at timeout
    cases timeout

end Cpip
