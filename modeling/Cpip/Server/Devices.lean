import Cpip.Server.Registry

/-!
# Devices that announce themselves

Finitely many devices, each of which opens a socket and sends one `session.init` with its own id.
The sockets keep Starlette's state machine: `accept` succeeds only on a socket that is connecting,
nothing fails on an open socket, and a closed socket stays closed.

A handler registers its socket under the placeholder id first, and to register it under another id
it closes it and accepts it again.  So a device is served exactly when its id is the placeholder.
-/

namespace Cpip

open ConnectionHub (ConnectPc DisconnectPc Connects Disconnects)

/-! ## Devices and conforming runs -/

/-- A `session.init` frame that carries the id. -/
def Announces (raw : Frame) (id : String) : Prop :=
  raw.type? = some .sessionInit ∧ ∃ params, raw.field "params" = some (.dict params) ∧
    PyVal.getStr "device_id" params = some (.str id)

namespace ConnectionHub

/-- The handler of socket `t` has received a frame. -/
def HasReceived (hub : ConnectionHub) (t : ℕ) : Prop := ∃ raw, .received t raw ∈ hub.log

/-- The texts sent to socket `t`. -/
def sentTo (hub : ConnectionHub) (t : ℕ) : List JsonText :=
  hub.log.filterMap fun
    | .sent w text => if w = t then some text else none
    | _ => none

end ConnectionHub

/-- What Starlette answers to a call on socket `w` that succeeds in the given state only. -/
def Answer.FollowsFrom (answer : Answer) (hub : ConnectionHub) (w : ℕ) (state : SocketState) :
    Prop :=
  answer = .ok ↔ hub.sockets w = state

/-- The step of handler `t`, whose device has the id, is one that Starlette and the device allow. -/
def EndpointPc.Allows (hub : ConnectionHub) (t : ℕ) (id : String) (input : Input) :
    EndpointPc → Prop
  | .connecting .accepting | .running _ (.reconnecting _ .accepting) =>
    input.answer.FollowsFrom hub t .connecting
  | .connecting (.closingOld _ c) | .running _ (.reconnecting _ (.closingOld _ c))
  | .running _ (.disconnecting _ (.closing c)) | .closing _ (.closing c) =>
    input.answer.FollowsFrom hub c.websocket .connected
  | .running _ (.sending _) | .running _ (.sendingParseError _)
  | .running _ (.sendingInternalError _) => input.answer.FollowsFrom hub t .connected
  | .running _ .receiving =>
    match input.received with
    | some raw => ¬ hub.HasReceived t ∧ Announces raw id
    | none => hub.sockets t ≠ .connected
  | _ => True

namespace World

/-- The action starts the handler of a device, or is a step of a handler that Starlette and its
device allow. -/
def Conforms (devices : List String) (w : World) : Action → Prop
  | .start t call => call = .endpoint ∧ t < devices.length
  | .step t input => ∀ self id, w.tasks t = some (.endpoint self) → devices[t]? = some id →
    self.pc.Allows w.hub t id input

/-- Every device has opened its socket, and its handler has received its frame and waits for the
next, or has ended. -/
def Complete (devices : List String) (w : World) : Prop :=
  ∀ t < devices.length, ∃ self, w.tasks t = some (.endpoint self) ∧
    (self.pc = .finished ∨ ∃ conn, self.pc = .running conn .receiving ∧ w.hub.HasReceived t)

/-- An acknowledgement of a session. -/
def isAck (text : JsonText) : Bool :=
  (text.field "method").bind PyVal.asStr? = some "session.ack"

/-- The device with the id, on socket `t`, is served: its socket is open and was never closed, is
registered under its id and no other, and was sent one acknowledgement. -/
structure Serves (w : World) (t : ℕ) (id : String) : Prop where
  opened : w.hub.sockets t = .connected
  neverClosed : ∀ conn cause, .closes conn cause ∈ w.hub.log → conn.websocket ≠ t
  registered : ∃ conn, w.hub.connections.get? (.str id) = some conn ∧ conn.websocket = t
  nowhereElse : ∀ key conn, w.hub.connections.get? key = some conn → conn.websocket = t →
    key = .str id
  acknowledged : ((w.hub.sentTo t).filter isAck).length = 1

end World

/-! ## Frames of what a step leaves alone -/

namespace ConnectionHub

/-- An accepted socket stays accepted, and texts are sent to some of the sockets only. -/
structure Leaves (on : ℕ → Prop) (hub hub' : ConnectionHub) : Prop where
  accepted : ∀ u, hub.sockets u ≠ .connecting → hub'.sockets u ≠ .connecting
  sent : ∀ w text, .sent w text ∈ hub'.log → .sent w text ∈ hub.log ∨ on w

theorem setSocket_ne_connecting {hub : ConnectionHub} {u w : ℕ} {state : SocketState}
    (h : hub.sockets u ≠ .connecting) (hs : state ≠ .connecting) :
    (hub.setSocket w state).sockets u ≠ .connecting := by
  simp only [setSocket, Function.update_apply]
  split
  · exact hs
  · exact h

theorem closed_ne_connecting {hub : ConnectionHub} {u w : ℕ} (answer : Answer)
    (h : hub.sockets u ≠ .connecting) : (hub.closed w answer).sockets u ≠ .connecting := by
  cases answer with
  | ok => exact setSocket_ne_connecting h (by decide)
  | raises => exact h

theorem Connects.leaves {on : ℕ → Prop} {hub hub' : ConnectionHub} {t w : ℕ}
    {deviceId metadata : PyVal} {now : ℚ} {pc : ConnectPc} {answer : Answer}
    {p : Progress ConnectPc (Except PyExc DeviceConnection)}
    (step : Connects hub t deviceId w metadata now pc answer hub' p) : Leaves on hub hub' := by
  cases step with
  | refused e => exact ⟨fun _ h => h, fun _ _ h => .inl h⟩
  | unhashable conn answer e hash => exact ⟨fun _ h => h, fun _ _ h => .inl h⟩
  | accepted =>
    exact ⟨fun u h => setSocket_ne_connecting h (by decide), fun _ _ h => .inl h⟩
  | displaces answer free hash stored =>
    exact ⟨fun _ h => h, fun w text h => .inl (by simpa [record] using h)⟩
  | registers answer free hash stored =>
    exact ⟨fun _ h => h, fun w text h => .inl (by simpa [register, record] using h)⟩
  | replaces answer hash =>
    refine ⟨fun u h => closed_ne_connecting _ h, fun w text h => .inl ?_⟩
    simpa [register, record] using h

theorem Disconnects.leaves {on : ℕ → Prop} {hub hub' : ConnectionHub} {t : ℕ} {deviceId : PyVal}
    {reason : Reason} {pc : DisconnectPc} {answer : Answer}
    {p : Progress DisconnectPc (Except PyExc Unit)}
    (step : Disconnects hub t deviceId reason pc answer hub' p) : Leaves on hub hub' := by
  cases step with
  | absent answer r stored => exact ⟨fun _ h => h, fun _ _ h => .inl h⟩
  | removes answer free hash stored =>
    exact ⟨fun _ h => h, fun w text h => .inl (by simpa [record] using h)⟩
  | closes conn answer =>
    exact ⟨fun u h => closed_ne_connecting _ h, fun w text h => .inl (by simpa using h)⟩

theorem Connects.sent {hub hub' : ConnectionHub} {t w v : ℕ} {deviceId metadata : PyVal} {now : ℚ}
    {pc : ConnectPc} {answer : Answer} {p : Progress ConnectPc (Except PyExc DeviceConnection)}
    (step : Connects hub t deviceId w metadata now pc answer hub' p) {text : JsonText}
    (h : .sent v text ∈ hub'.log) : .sent v text ∈ hub.log := by
  have leaves : Leaves (fun _ => False) hub hub' := step.leaves
  exact (leaves.sent v text h).resolve_right not_false

theorem Disconnects.sent {hub hub' : ConnectionHub} {t v : ℕ} {deviceId : PyVal} {reason : Reason}
    {pc : DisconnectPc} {answer : Answer} {p : Progress DisconnectPc (Except PyExc Unit)}
    (step : Disconnects hub t deviceId reason pc answer hub' p) {text : JsonText}
    (h : .sent v text ∈ hub'.log) : .sent v text ∈ hub.log := by
  have leaves : Leaves (fun _ => False) hub hub' := step.leaves
  exact (leaves.sent v text h).resolve_right not_false

theorem Calm.leaves {on : ℕ → Prop} {hub hub' : ConnectionHub} (calm : Calm on hub hub') :
    Leaves on hub hub' := by
  obtain ⟨events, hlog, traffic⟩ := calm.log
  refine ⟨fun u h => calm.sockets ▸ h, fun w text h => ?_⟩
  rw [hlog] at h
  exact (List.mem_append.1 h).imp id (traffic _)

end ConnectionHub

theorem Served.Serves.leaves {s s' : Served} {t : ℕ} {input : Input} (h : Serves s t input s') :
    ConnectionHub.Leaves (· = t) s.hub s'.hub := by
  cases h with
  | quiet before quiet => exact quiet.calm.leaves
  | connects now before step | connected now before step | failed now before step
  | reconnects now before step => exact step.leaves
  | disconnects before step | closes before step | finishes before step => exact step.leaves
  | disconnected before step after =>
    rcases after with rfl | rests
    · exact step.leaves
    · exact rests.hub ▸ step.leaves
  | reconnected now before step rests | reconnectFailed now before step rests =>
    exact rests.hub ▸ step.leaves

/-! ## A device whose id is not the placeholder -/

theorem sameId_str (a b : String) : sameId (.str a) (.str b) = decide (a = b) := by
  have ha : (PyVal.str a).hash? = some (.str a) := rfl
  have hb : (PyVal.str b).hash? = some (.str b) := rfl
  have hn : sameId.nanKey ≠ .str a := by
    simp [sameId.nanKey, PyKey.norm, PyAtom.norm, PyAtom.number?]
  simp [sameId, ha, hb, hn.symm]

/-- What a frame that announces an id is decoded to. -/
theorem Announces.decoded {raw : Frame} {id : String} (h : Announces raw id) (amb : Ambient) :
    ∃ msg params, RPCMessage.fromJson amb raw = .ok msg ∧ msg.type = .sessionInit ∧
      msg.params = .dict params ∧ PyVal.getStr "device_id" params = some (.str id) := by
  obtain ⟨typed, params, hparams, hid⟩ := h
  refine ⟨_, params, Frame.fromJson_eq_ok_iff.2 ⟨_, typed, rfl⟩, rfl, ?_, hid⟩
  rw [hparams]
  refine if_pos ?_
  cases params with
  | nil => simp [PyVal.getItem] at hid
  | cons e rest => rfl

namespace Served

/-- A handler that receives another id than that of its connection disconnects. -/
theorem receive_of_announces (srv : Server) (amb : Ambient) (s : Served) (t : ℕ)
    {conn : DeviceConnection} {raw : Frame} {id old : String} (h : Announces raw id)
    (hold : conn.deviceId = .str old) (other : id ≠ old) :
    ∃ params, s.receive srv amb conn t raw = ⟨s.hub.record [.received t raw], s.sessions,
      ⟨.str id, .running conn (.disconnecting params .locking)⟩⟩ := by
  obtain ⟨msg, params, hmsg, htype, hparams, hid⟩ := h.decoded amb
  refine ⟨params, ?_⟩
  unfold receive
  rw [hmsg]
  dsimp only
  rw [htype]
  dsimp only
  unfold sessionInit
  rw [hparams]
  dsimp only
  rw [hid, Option.getD_some, hold, sameId_str, decide_eq_false other]
  rfl

end Served

/-- The handler `t` did not register its socket under another id than the placeholder, and has no
way to do so any more. -/
def EndpointPc.Stuck (hub : ConnectionHub) (t : ℕ) (deviceId : PyVal) : EndpointPc → Prop
  | .connecting .accepting => deviceId = .str "unknown"
  | .connecting (.locking conn) | .connecting (.closingOld conn _) | .running conn .receiving =>
    deviceId = .str "unknown" ∧ conn.deviceId = .str "unknown" ∧ hub.sockets t ≠ .connecting
  | .running _ (.disconnecting _ _) | .running _ (.reconnecting _ .accepting) =>
    hub.sockets t ≠ .connecting
  | .closing _ _ | .finished => True
  | _ => False

namespace Served

variable {srv : Server}

theorem stuck_of_leaves {on : ℕ → Prop} {hub hub' : ConnectionHub} {t : ℕ} {deviceId : PyVal}
    {pc : EndpointPc} (h : pc.Stuck hub t deviceId) (leaves : ConnectionHub.Leaves on hub hub') :
    pc.Stuck hub' t deviceId := by
  have keep := leaves.accepted t
  unfold EndpointPc.Stuck at h ⊢
  split <;> simp_all

/-- One step of the handler of a device whose id is not the placeholder: it sends nothing. -/
theorem stuck_step {s s' : Served} {t : ℕ} {input : Input} {id : String} (other : id ≠ "unknown")
    (h : s.self.pc.Stuck s.hub t s.self.deviceId) (allows : s.self.pc.Allows s.hub t id input)
    (hs : s.step srv t input = some s') :
    s'.self.pc.Stuck s'.hub t s'.self.deviceId ∧
      ∀ text, .sent t text ∈ s'.hub.log → .sent t text ∈ s.hub.log := by
  obtain ⟨hub, sessions, deviceId, pc⟩ := s
  obtain ⟨answer, received, outcome, measured⟩ := input
  unfold step at hs
  cases pc with
  | finished => cases hs
  | closing conn pc =>
    dsimp only at hs
    split at hs <;> cases hs <;> rename_i hstep
    · exact ⟨trivial, fun text => (ConnectionHub.disconnects_of_step hstep).sent⟩
    · exact ⟨trivial, fun text => (ConnectionHub.disconnects_of_step hstep).sent⟩
  | connecting pc =>
    dsimp only at hs
    split at hs <;> cases hs <;> rename_i hstep
    · refine ⟨?_, fun text => (ConnectionHub.connects_of_step hstep).sent⟩
      cases ConnectionHub.connects_of_step hstep with
      | accepted => exact ⟨h, h, by simp [goto, ConnectionHub.accepted, ConnectionHub.setSocket]⟩
      | displaces answer free hash stored => exact h
    · refine ⟨?_, fun text => (ConnectionHub.connects_of_step hstep).sent⟩
      have leaves : ConnectionHub.Leaves (fun _ => False) hub _ :=
        (ConnectionHub.connects_of_step hstep).leaves
      cases ConnectionHub.connects_of_step hstep with
      | registers answer free hash stored => exact ⟨h.1, h.2.1, leaves.accepted t h.2.2⟩
      | replaces answer hash => exact ⟨h.1, h.2.1, leaves.accepted t h.2.2⟩
    · exact ⟨trivial, fun text => (ConnectionHub.connects_of_step hstep).sent⟩
  | running conn pc =>
    unfold loopStep at hs
    cases pc with
    | receiving =>
      dsimp only at hs
      split at hs <;> cases hs
      · exact ⟨trivial, fun text ht => ht⟩
      · obtain ⟨params, hreceive⟩ := receive_of_announces srv measured.amb
          ⟨hub, sessions, ⟨deviceId, .running conn .receiving⟩⟩ t allows.2 h.2.1 other
        rw [hreceive]
        exact ⟨h.2.2, fun text ht => by simpa [ConnectionHub.record] using ht⟩
    | disconnecting params pc =>
      dsimp only at hs
      split at hs <;> cases hs <;> rename_i hstep
      all_goals
        have step := ConnectionHub.disconnects_of_step hstep
        have leaves : ConnectionHub.Leaves (fun _ => False) hub _ := step.leaves
      · exact ⟨leaves.accepted t h, fun text => step.sent⟩
      · exact ⟨leaves.accepted t h, fun text => step.sent⟩
      · exact ⟨trivial, fun text => step.sent⟩
    | reconnecting params pc =>
      cases pc with
      | accepting =>
        -- the socket was accepted before, so that it is refused now
        cases answer with
        | ok => exact absurd (allows.1 rfl) h
        | raises =>
          cases hs
          exact ⟨trivial, fun text ht => ht⟩
      | locking conn => exact h.elim
      | closingOld conn old => exact h.elim
    | dispatching msg => exact h.elim
    | sending text => exact h.elim
    | sendingParseError text => exact h.elim
    | sendingInternalError text => exact h.elim

end Served

namespace World

variable {srv : Server} {devices : List String}

/-- The tasks are handlers of devices, and the handler of socket `t`, if it was started, is stuck
and sent nothing. -/
structure NotServed (t : ℕ) (w : World) : Prop where
  handlers : ∀ u task, w.tasks u = some task → ∃ self, task = .endpoint self
  nothing : ∀ text, .sent t text ∉ w.hub.log
  stuck : ∀ self, w.tasks t = some (.endpoint self) → self.pc.Stuck w.hub t self.deviceId

theorem notServed_step {t : ℕ} {id : String} (device : devices[t]? = some id)
    (other : id ≠ "unknown") (w : World) (a : Action) (w' : World) (conforms : w.Conforms devices a)
    (inv : w.NotServed t) (h : step srv w a = some w') : w'.NotServed t := by
  cases a with
  | start u call =>
    simp only [step] at h
    split at h
    · cases h
      obtain ⟨rfl, -⟩ := conforms
      refine ⟨fun v task hv => ?_, inv.nothing, fun self hself => ?_⟩
      · rw [tasks_setTask] at hv
        split at hv
        · cases hv
          exact ⟨_, rfl⟩
        · exact inv.handlers v task hv
      · rw [tasks_setTask] at hself
        split at hself
        · cases hself
          rfl
        · exact inv.stuck self hself
    · cases h
  | step u input =>
    obtain ⟨task, hu, h⟩ := Option.bind_eq_some_iff.1 h
    obtain ⟨self, rfl⟩ := inv.handlers u task hu
    obtain ⟨s, hs, rfl⟩ := runTask_endpoint h
    have handlers : ∀ v task, ({ w with hub := s.hub, sessions := s.sessions }.setTask u
        (.endpoint s.self)).tasks v = some task → ∃ self, task = .endpoint self := by
      intro v task hv
      rw [tasks_setTask] at hv
      split at hv
      · cases hv
        exact ⟨_, rfl⟩
      · exact inv.handlers v task hv
    by_cases hut : u = t
    · subst hut
      obtain ⟨stuck, nothing⟩ := Served.stuck_step other (inv.stuck self hu)
        (conforms self id hu device) hs
      refine ⟨handlers, fun text ht => inv.nothing text (nothing text ht), fun self' hself => ?_⟩
      rw [tasks_setTask, if_pos rfl] at hself
      cases hself
      exact stuck
    · have leaves := (Served.serves_of_step hs).leaves
      refine ⟨handlers, fun text ht => ?_, fun self' hself => ?_⟩
      · rcases leaves.sent t text ht with ht | ht
        · exact inv.nothing text ht
        · exact hut ht.symm
      · rw [tasks_setTask, if_neg (Ne.symm hut)] at hself
        exact Served.stuck_of_leaves (inv.stuck self' hself) leaves

/-- A device whose id is not the placeholder is sent nothing at all. -/
theorem nothing_sent {t : ℕ} {id : String} (device : devices[t]? = some id)
    (other : id ≠ "unknown") {as : List Action} {w : World}
    (conforms : Machine.Along (step srv) (Conforms devices) init as)
    (ran : Machine.run (step srv) init as = some w) : w.hub.sentTo t = [] := by
  have start : init.NotServed t := by
    refine ⟨?_, ?_, ?_⟩ <;> simp [init, ConnectionHub.init]
  have inv := Machine.invariant_along (notServed_step device other) start conforms ran
  rw [ConnectionHub.sentTo, List.filterMap_eq_nil_iff]
  intro e he
  cases e with
  | sent v text =>
    refine if_neg ?_
    rintro rfl
    exact inv.nothing text he
  | received v raw => rfl
  | sendFailed v => rfl
  | registers conn => rfl
  | closes conn cause => rfl
  | unregisters conn cause => rfl

end World

/-! ## The device whose id is the placeholder -/

theorem makeNotification_ack (py : PyText) (amb : Ambient) (id : String) (now : ℚ) :
    ∃ text, (makeNotification amb "session.ack" (.dict [(.str "session_id", .str id),
        (.str "timestamp", .float (.finite now))])).toJson py = .ok text ∧
      World.isAck text = true := by
  let msg := makeNotification amb "session.ack"
    (.dict [(.str "session_id", .str id), (.str "timestamp", .float (.finite now))])
  obtain ⟨text, htext⟩ : ∃ text, msg.toJson py = .ok text := ⟨_, rfl⟩
  have hget : PyVal.getStr "method" msg.entries = some (.str "session.ack") := rfl
  refine ⟨text, htext, ?_⟩
  obtain ⟨u, hu, hfield⟩ := py.field_of_dumps msg.entries_strings msg.entries_nodup htext hget
  cases hu
  simp [World.isAck, hfield, JsonText.loads, PyVal.asStr?]

namespace Served

/-- A handler that receives the id of its connection acknowledges it. -/
theorem receive_of_announces_same (srv : Server) (amb : Ambient) (s : Served) (t : ℕ)
    {conn : DeviceConnection} {raw : Frame} {id : String} (h : Announces raw id)
    (hold : conn.deviceId = .str id) :
    ∃ metadata text, s.receive srv amb conn t raw =
        ⟨{ s.hub.record [.received t raw] with metadata := metadata }, s.sessions,
          ⟨.str id, .running conn (.sending text)⟩⟩ ∧ World.isAck text = true := by
  obtain ⟨msg, params, hmsg, htype, hparams, hid⟩ := h.decoded amb
  obtain ⟨text, htext, hack⟩ := makeNotification_ack srv.py amb id amb.now
  refine ⟨Function.update s.hub.metadata conn.ref (.dict params), text, ?_, hack⟩
  unfold receive
  rw [hmsg]
  dsimp only
  rw [htype]
  dsimp only
  unfold sessionInit
  rw [hparams]
  dsimp only
  rw [hid, Option.getD_some, hold, sameId_str, decide_eq_true rfl]
  unfold acknowledge
  dsimp only
  rw [htext]
  rfl

end Served

namespace World

variable {srv : Server}

/-- The only socket is open and is registered, as `conn`, under the placeholder id; the handler is
at `pc`, and this is what happened so far. -/
structure Open (w : World) (conn : DeviceConnection) (pc : EndpointPc) (log : List Event) :
    Prop where
  task : w.tasks 0 = some (.endpoint ⟨.str "unknown", pc⟩)
  deviceId : conn.deviceId = .str "unknown"
  websocket : conn.websocket = 0
  opened : w.hub.sockets 0 = .connected
  stored : w.hub.connections = Dict.set ∅ (.str "unknown") conn
  log : w.hub.log = log

/-- What the handler of a device with the placeholder id goes through when it is the only one. -/
inductive Phase (w : World) : Prop
  | unborn (task : w.tasks 0 = none) (hub : w.hub = .init)
  | accepting (task : w.tasks 0 = some (.endpoint .start)) (hub : w.hub = .init)
  | locking (conn : DeviceConnection)
    (task : w.tasks 0 = some (.endpoint ⟨.str "unknown", .connecting (.locking conn)⟩))
    (deviceId : conn.deviceId = .str "unknown") (websocket : conn.websocket = 0)
    (opened : w.hub.sockets 0 = .connected) (stored : w.hub.connections = ∅)
    (log : w.hub.log = [])
  | waiting (conn : DeviceConnection)
    (opened : w.Open conn (.running conn .receiving) [.registers conn])
  | acknowledging (conn : DeviceConnection) (raw : Frame) (text : JsonText) (ack : isAck text)
    (opened : w.Open conn (.running conn (.sending text)) [.registers conn, .received 0 raw])
  | served (conn : DeviceConnection) (raw : Frame) (text : JsonText) (ack : isAck text)
    (opened : w.Open conn (.running conn .receiving)
      [.registers conn, .received 0 raw, .sent 0 text])

theorem phase_step_of_accepting {w w' : World} {input : Input}
    (task : w.tasks 0 = some (.endpoint .start)) (hub : w.hub = .init)
    (conforms : w.Conforms ["unknown"] (.step 0 input))
    (h : w.runTask srv 0 input (.endpoint .start) = some w') : w'.Phase := by
  obtain ⟨answer, received, outcome, measured⟩ := input
  have allows : answer.FollowsFrom w.hub 0 .connecting := conforms .start "unknown" task rfl
  rw [hub] at allows
  obtain ⟨s, hs, rfl⟩ := runTask_endpoint h
  rw [hub] at hs
  cases answer with
  | raises => exact absurd (allows.2 rfl) (by decide)
  | ok =>
    cases hs
    exact .locking ⟨0, .str "unknown", 0, measured.amb.now⟩ rfl rfl rfl rfl rfl rfl

theorem phase_step_of_locking {w w' : World} {input : Input} {conn : DeviceConnection}
    (deviceId : conn.deviceId = .str "unknown") (websocket : conn.websocket = 0)
    (opened : w.hub.sockets 0 = .connected) (stored : w.hub.connections = ∅)
    (log : w.hub.log = [])
    (h : w.runTask srv 0 input (.endpoint ⟨.str "unknown", .connecting (.locking conn)⟩) =
      some w') : w'.Phase := by
  obtain ⟨s, hs, rfl⟩ := runTask_endpoint h
  unfold Served.step at hs
  dsimp only at hs
  split at hs <;> cases hs <;> rename_i hstep
  · cases ConnectionHub.connects_of_step hstep with
    | displaces answer free hash old => simp [stored] at old
  · cases ConnectionHub.connects_of_step hstep with
    | registers answer free hash none =>
      rename_i key
      cases hash
      refine .waiting conn ⟨rfl, deviceId, websocket, opened, ?_, ?_⟩
      · show w.hub.connections.set _ conn = _
        rw [stored]
        rfl
      · show w.hub.log ++ _ = _
        rw [log, none]
        rfl
  · cases ConnectionHub.connects_of_step hstep with
    | unhashable =>
      rename_i unhashable
      cases unhashable

theorem phase_step_of_waiting {w w' : World} {input : Input} {conn : DeviceConnection}
    (opened : w.Open conn (.running conn .receiving) [.registers conn])
    (conforms : w.Conforms ["unknown"] (.step 0 input))
    (h : w.runTask srv 0 input (.endpoint ⟨.str "unknown", .running conn .receiving⟩) =
      some w') : w'.Phase := by
  obtain ⟨answer, received, outcome, measured⟩ := input
  have allows := conforms _ "unknown" opened.task rfl
  obtain ⟨s, hs, rfl⟩ := runTask_endpoint h
  cases received with
  | none => exact absurd opened.opened allows
  | some raw =>
    obtain ⟨metadata, text, hreceive, ack⟩ := Served.receive_of_announces_same srv measured.amb
      ⟨w.hub, w.sessions, ⟨.str "unknown", .running conn .receiving⟩⟩ 0 allows.2 opened.deviceId
    cases hs
    rw [hreceive]
    refine .acknowledging conn raw text ack
      ⟨rfl, opened.deviceId, opened.websocket, opened.opened, opened.stored, ?_⟩
    show w.hub.log ++ _ = _
    rw [opened.log]
    rfl

theorem phase_step_of_acknowledging {w w' : World} {input : Input} {conn : DeviceConnection}
    {raw : Frame} {text : JsonText} (ack : isAck text)
    (opened : w.Open conn (.running conn (.sending text)) [.registers conn, .received 0 raw])
    (conforms : w.Conforms ["unknown"] (.step 0 input))
    (h : w.runTask srv 0 input (.endpoint ⟨.str "unknown", .running conn (.sending text)⟩) =
      some w') : w'.Phase := by
  obtain ⟨answer, received, outcome, measured⟩ := input
  have allows : answer.FollowsFrom w.hub 0 .connected := conforms _ "unknown" opened.task rfl
  obtain ⟨s, hs, rfl⟩ := runTask_endpoint h
  cases answer with
  | raises => exact absurd (allows.2 opened.opened) (by decide)
  | ok =>
    cases hs
    refine .served conn raw text ack
      ⟨rfl, opened.deviceId, opened.websocket, opened.opened, opened.stored, ?_⟩
    show w.hub.log ++ _ = _
    rw [opened.log]
    rfl

/-- Everything there is belongs to the one device. -/
structure Alone (w : World) : Prop where
  others : ∀ u, u ≠ 0 → w.tasks u = none
  phase : w.Phase

theorem alone_step (w : World) (a : Action) (w' : World) (conforms : w.Conforms ["unknown"] a)
    (alone : w.Alone) (h : step srv w a = some w') : w'.Alone := by
  cases a with
  | start u call =>
    obtain ⟨rfl, hu⟩ := conforms
    obtain rfl : u = 0 := Nat.lt_one_iff.1 hu
    simp only [step] at h
    split at h
    · rename_i free
      cases h
      refine ⟨fun v hv => ?_, ?_⟩
      · rw [tasks_setTask, if_neg hv]
        exact alone.others v hv
      · cases alone.phase with
        | unborn task hub => exact .accepting rfl hub
        | accepting task hub => cases free.symm.trans task
        | locking conn task => cases free.symm.trans task
        | waiting conn opened => cases free.symm.trans opened.task
        | acknowledging conn raw text ack opened => cases free.symm.trans opened.task
        | served conn raw text ack opened => cases free.symm.trans opened.task
    · cases h
  | step u input =>
    obtain ⟨task', ht, h⟩ := Option.bind_eq_some_iff.1 h
    have hu : u = 0 := by
      by_contra hu
      cases (alone.others u hu).symm.trans ht
    subst hu
    refine ⟨fun v hv => (tasks_of_runTask h hv).trans (alone.others v hv), ?_⟩
    cases alone.phase with
    | unborn task hub => cases task.symm.trans ht
    | accepting task hub =>
      cases task.symm.trans ht
      exact phase_step_of_accepting task hub conforms h
    | locking conn task deviceId websocket opened stored log =>
      cases task.symm.trans ht
      exact phase_step_of_locking deviceId websocket opened stored log h
    | waiting conn opened =>
      cases opened.task.symm.trans ht
      exact phase_step_of_waiting opened conforms h
    | acknowledging conn raw text ack opened =>
      cases opened.task.symm.trans ht
      exact phase_step_of_acknowledging ack opened conforms h
    | served conn raw text ack opened =>
      -- its only frame was received, and its socket is open
      have allows := conforms _ "unknown" opened.task rfl
      obtain ⟨answer, received, outcome, measured⟩ := input
      cases received with
      | none => exact absurd opened.opened allows
      | some raw' => exact absurd ⟨raw, by simp [opened.log]⟩ allows.1

theorem Phase.serves {w : World} (phase : w.Phase) (complete : w.Complete ["unknown"]) :
    w.Serves 0 "unknown" := by
  obtain ⟨self, ht, hself⟩ := complete 0 (by decide)
  cases phase with
  | unborn task hub => cases task.symm.trans ht
  | accepting task hub =>
    cases task.symm.trans ht
    rcases hself with h | ⟨conn, h, -⟩ <;> cases h
  | locking conn task =>
    cases task.symm.trans ht
    rcases hself with h | ⟨conn, h, -⟩ <;> cases h
  | waiting conn opened =>
    cases opened.task.symm.trans ht
    rcases hself with h | ⟨conn, -, raw, h⟩
    · cases h
    · simp [opened.log] at h
  | acknowledging conn raw text ack opened =>
    cases opened.task.symm.trans ht
    rcases hself with h | ⟨conn, h, -⟩ <;> cases h
  | served conn raw text ack opened =>
    refine ⟨opened.opened, ?_, ⟨conn, ?_, opened.websocket⟩, ?_, ?_⟩
    · simp [opened.log]
    · rw [opened.stored, Dict.get?_set_self]
    · intro key c hc hws
      rw [opened.stored, Dict.get?_set] at hc
      split at hc
      · rename_i hkey
        exact hkey.symm
      · cases hc
    · simp [ConnectionHub.sentTo, opened.log, ack]

/-- After every complete run that Starlette and the devices allow, the devices are served exactly
when the id of each is the placeholder. -/
theorem served_iff (srv : Server) (devices : List String) (distinct : devices.Nodup)
    (as : List Action) (w : World)
    (conforms : Machine.Along (step srv) (Conforms devices) init as)
    (ran : Machine.run (step srv) init as = some w) (complete : w.Complete devices) :
    (∀ t id, devices[t]? = some id → w.Serves t id) ↔ ∀ id ∈ devices, id = "unknown" := by
  constructor
  · intro served id hid
    obtain ⟨t, ht⟩ := List.getElem?_of_mem hid
    by_contra other
    have acknowledged := (served t id ht).acknowledged
    simp [nothing_sent ht other conforms ran] at acknowledged
  · intro placeholder t id ht
    obtain rfl : devices = ["unknown"] := by
      cases devices with
      | nil => cases ht
      | cons first rest =>
        obtain rfl := placeholder first (List.mem_cons_self ..)
        cases rest with
        | nil => rfl
        | cons second rest =>
          obtain rfl := placeholder second (by simp)
          simp at distinct
    have start : init.Alone := ⟨fun _ _ => rfl, .unborn rfl rfl⟩
    have alone := Machine.invariant_along alone_step start conforms ran
    obtain rfl : t = 0 := by
      have hlt := (List.getElem?_eq_some_iff.1 ht).1
      exact Nat.lt_one_iff.1 hlt
    cases ht
    exact alone.phase.serves complete

/-- The frame with which a device announces its id. -/
def sessionInit (id : String) : Frame :=
  .json (.obj [("type", .str "session.init"), ("params", .obj [("device_id", .str id)])])

theorem announces_sessionInit (id : String) : Announces (sessionInit id) id :=
  ⟨rfl, [(.str "device_id", .str id)], rfl, rfl⟩

/-- One device opens its socket and announces the placeholder id. -/
def placeholderRun : List Action :=
  [.start 0 .endpoint, .step 0 (.io .ok), .step 0 (.io .ok),
    .step 0 (.frame (sessionInit "unknown")), .step 0 (.io .ok)]

/-- One device opens its socket and announces another id. -/
def deviceRun : List Action :=
  [.start 0 .endpoint, .step 0 (.io .ok), .step 0 (.io .ok), .step 0 (.frame (sessionInit "dev-1")),
    .step 0 (.io .ok), .step 0 (.io .ok), .step 0 (.io .raises), .step 0 (.io .ok)]

/-- To conform, a step of the only handler has to be allowed where the handler is. -/
theorem conforms_step {w : World} {self : Endpoint} {id : String} {input : Input}
    (ht : w.tasks 0 = some (.endpoint self)) (allows : self.pc.Allows w.hub 0 id input) :
    w.Conforms [id] (.step 0 input) := by
  intro self' id' ht' hid
  cases ht.symm.trans ht'
  cases hid
  exact allows

theorem complete_single {w : World} {self : Endpoint} {id : String}
    (ht : w.tasks 0 = some (.endpoint self))
    (h : self.pc = .finished ∨ ∃ conn, self.pc = .running conn .receiving ∧ w.hub.HasReceived 0) :
    w.Complete [id] := by
  intro t hlt
  obtain rfl : t = 0 := Nat.lt_one_iff.1 hlt
  exact ⟨self, ht, h⟩

theorem served_iff_placeholder : ∃ w,
    Machine.run (step ⟨plainText, .builtin⟩) init placeholderRun = some w ∧
      ((∀ t id, ["unknown"][t]? = some id → w.Serves t id) ↔
        ∀ id ∈ ["unknown"], id = "unknown") := by
  refine ⟨_, rfl, served_iff ⟨plainText, .builtin⟩ ["unknown"] (by decide) placeholderRun _ ?_
    rfl ?_⟩
  · refine .cons ⟨rfl, by decide⟩ rfl (.cons (conforms_step rfl ?_) rfl
      (.cons (conforms_step rfl ?_) rfl (.cons (conforms_step rfl ?_) rfl
      (.cons (conforms_step rfl ?_) rfl trivial))))
    · exact iff_of_true rfl rfl
    · exact trivial
    · refine ⟨?_, announces_sessionInit "unknown"⟩
      rintro ⟨raw, h⟩
      have h : Event.received 0 raw ∈ [Event.registers ⟨0, .str "unknown", 0, 0⟩] := h
      simp at h
    · exact iff_of_true rfl rfl
  · exact complete_single rfl (.inr ⟨_, rfl, sessionInit "unknown", .tail _ (.head _)⟩)

/-- A device that announces its own id is closed and gets no acknowledgement. -/
theorem device_not_served : ¬ ∀ (srv : Server) (devices : List String), devices.Nodup →
    ∀ (as : List Action) (w : World), Machine.Along (step srv) (Conforms devices) init as →
      Machine.run (step srv) init as = some w → w.Complete devices →
      ∀ t id, devices[t]? = some id → w.Serves t id := by
  intro h
  have served := h ⟨plainText, .builtin⟩ ["dev-1"] (by decide) deviceRun _ ?_ rfl ?_ 0 "dev-1" rfl
  · exact absurd served.opened (by decide)
  · refine .cons ⟨rfl, by decide⟩ rfl (.cons (conforms_step rfl ?_) rfl
      (.cons (conforms_step rfl ?_) rfl (.cons (conforms_step rfl ?_) rfl
      (.cons (conforms_step rfl ?_) rfl (.cons (conforms_step rfl ?_) rfl
      (.cons (conforms_step rfl ?_) rfl
      (.cons (conforms_step rfl ?_) rfl trivial)))))))
    · exact iff_of_true rfl rfl
    · exact trivial
    · refine ⟨?_, announces_sessionInit "dev-1"⟩
      rintro ⟨raw, h⟩
      have h : Event.received 0 raw ∈ [Event.registers ⟨0, .str "unknown", 0, 0⟩] := h
      simp at h
    · exact trivial
    · exact iff_of_true rfl rfl
    · exact iff_of_false (by decide) (by decide)
    · exact trivial
  · exact complete_single rfl (.inl rfl)

end World

end Cpip
