import Cpip.Server.WorldSteps

/-!
# What the server says

The built-in RPC handlers, and where the texts come from that the tasks of the server send: a
handler sends acknowledgements and replies to calls that it received, on its own socket, and the
other tasks send heartbeats and the messages they were started with.
-/

namespace Cpip

open ConnectionHub (ConnectPc DisconnectPc SendPc Broadcast HeartbeatPc Connects Disconnects)

namespace RPCDispatcher

/-- `_handle_ping`. -/
def handlePing (_params : PyVal) (now : ℚ) : PyVal :=
  .dict [(.str "pong", .bool true), (.str "timestamp", .float (.finite now))]

/-- `_handle_echo`. -/
def handleEcho (params : PyVal) : PyVal := params

/-- What the built-in handler for the message does, if there is one; neither raises. -/
def builtinOutcome (msg : RPCMessage) (now : ℚ) : Outcome :=
  if msg.method.asStr? = some "ping" then .returns (handlePing msg.params now)
  else .returns (handleEcho msg.params)

end RPCDispatcher

/-! ## The log of the hub -/

/-- A text goes out on a socket only where `Said` allows it. -/
def Event.Within (Said : ℕ → JsonText → Prop) : Event → Prop
  | sent w text => Said w text
  | _ => True

namespace ConnectionHub

/-- From `hub` to `hub'` every text that went out is allowed. -/
def Speaks (Said : ℕ → JsonText → Prop) (hub hub' : ConnectionHub) : Prop :=
  ∃ events, hub'.log = hub.log ++ events ∧ ∀ e ∈ events, e.Within Said

variable {Said : ℕ → JsonText → Prop}

theorem Speaks.silent {hub hub' : ConnectionHub} (log : hub'.log = hub.log) :
    Speaks Said hub hub' := ⟨[], by rw [log, List.append_nil], by simp⟩

theorem Speaks.event {hub hub' : ConnectionHub} {e : Event} (log : hub'.log = hub.log ++ [e])
    (within : e.Within Said) : Speaks Said hub hub' :=
  ⟨[e], log, by simpa using within⟩

theorem speaks_sent (hub : ConnectionHub) {w : ℕ} {text : JsonText} (said : Said w text)
    (answer : Answer) : Speaks Said hub (hub.sent w text answer) := by
  cases answer with
  | ok => exact .event rfl said
  | raises => exact .event rfl trivial

theorem speaks_register {hub hub' : ConnectionHub} (log : hub'.log = hub.log) (key : PyKey)
    (conn : DeviceConnection) : Speaks Said hub (hub'.register key conn) := by
  refine ⟨_, by rw [← log]; rfl, ?_⟩
  intro e he
  rcases List.mem_append.1 he with he | he
  · obtain ⟨old, -, rfl⟩ := List.mem_map.1 he
    trivial
  · obtain rfl := List.mem_singleton.1 he
    trivial

theorem speaks_connects {hub hub' : ConnectionHub} {t : ℕ} {deviceId : PyVal} {websocket : ℕ}
    {metadata : PyVal} {now : ℚ} {pc : ConnectPc} {answer : Answer}
    {p : Progress ConnectPc (Except PyExc DeviceConnection)}
    (h : Connects hub t deviceId websocket metadata now pc answer hub' p) :
    Speaks Said hub hub' := by
  cases h with
  | refused e => exact .silent rfl
  | accepted => exact .silent rfl
  | unhashable conn answer e hash => exact .silent rfl
  | displaces answer free hash stored => exact .event rfl trivial
  | registers answer free hash stored => exact speaks_register rfl _ _
  | replaces answer hash => exact speaks_register (closed_log ..) _ _

theorem speaks_disconnects {hub hub' : ConnectionHub} {t : ℕ} {deviceId : PyVal} {reason : Reason}
    {pc : DisconnectPc} {answer : Answer} {p : Progress DisconnectPc (Except PyExc Unit)}
    (h : Disconnects hub t deviceId reason pc answer hub' p) : Speaks Said hub hub' := by
  cases h with
  | absent answer r stored => exact .silent rfl
  | removes answer free hash stored =>
    refine ⟨_, rfl, ?_⟩
    simp [Event.Within]
  | closes conn answer => exact .silent (closed_log ..)

end ConnectionHub

open ConnectionHub (Speaks speaks_connects speaks_disconnects speaks_sent)

/-! ## Handlers -/

/-- A handler dispatches only messages with `Asked` and is about to send only texts with `Said`; it
never sends a recovery, since it cannot build one. -/
def EndpointPc.Speaks (Asked : RPCMessage → Prop) (Said : JsonText → Prop) : EndpointPc → Prop
  | .running _ (.dispatching msg) => Asked msg
  | .running _ (.sending text) => Said text
  | .running _ (.sendingParseError _) | .running _ (.sendingInternalError _) => False
  | _ => True

theorem EndpointPc.Speaks.mono {Asked Asked' : RPCMessage → Prop} {Said Said' : JsonText → Prop}
    {pc : EndpointPc} (h : pc.Speaks Asked Said) (asked : ∀ msg, Asked msg → Asked' msg)
    (said : ∀ text, Said text → Said' text) : pc.Speaks Asked' Said' := by
  cases pc with
  | connecting pc => trivial
  | running conn pc =>
    cases pc with
    | dispatching msg => exact asked _ h
    | sending text => exact said _ h
    | sendingParseError text => exact h
    | sendingInternalError text => exact h
    | receiving => trivial
    | disconnecting params pc => trivial
    | reconnecting params pc => trivial
  | closing conn pc => trivial
  | finished => trivial

namespace Served

/-- What a step of the handler `t` may do: what it receives it may dispatch, what it dispatches it
may reply to, and it may send acknowledgements. -/
structure Allows (srv : Server) (Asked : RPCMessage → Prop) (Said : JsonText → Prop) (s : Served)
    (input : Input) : Prop where
  asks : ∀ conn raw msg, s.self.pc = .running conn .receiving → input.received = some raw →
    RPCMessage.fromJson input.measured.amb raw = .ok msg → msg.type = .call → Asked msg
  replies : ∀ conn msg response text, s.self.pc = .running conn (.dispatching msg) → Asked msg →
    srv.dispatcher.dispatch srv.py msg input.outcome input.measured = .ok response →
    response.toJson srv.py = .ok text → Said text
  acknowledges : ∀ params text,
    (makeNotification input.measured.amb "session.ack" params).toJson srv.py = .ok text → Said text

section Steps

variable {srv : Server} {Asked : RPCMessage → Prop} {Said : JsonText → Prop} {amb : Ambient}

/-- What a handler has come to in a step: it said what it may, and is left with what it may. -/
structure Spoke (Asked : RPCMessage → Prop) (Said : JsonText → Prop) (t : ℕ)
    (hub : ConnectionHub) (s : Served) : Prop where
  pc : s.self.pc.Speaks Asked Said
  hub : Speaks (fun w text => w = t ∧ Said text) hub s.hub

theorem spoke_internalError {t : ℕ} {hub : ConnectionHub} (s : Served) (conn : DeviceConnection)
    (spoken : Speaks (fun w text => w = t ∧ Said text) hub s.hub) :
    Spoke Asked Said t hub (s.internalError srv amb conn) := ⟨trivial, spoken⟩

theorem spoke_acknowledge {t : ℕ} {hub : ConnectionHub} (s : Served) (conn : DeviceConnection)
    (acknowledges : ∀ params text,
      (makeNotification amb "session.ack" params).toJson srv.py = .ok text → Said text)
    (spoken : Speaks (fun w text => w = t ∧ Said text) hub s.hub) :
    Spoke Asked Said t hub (s.acknowledge srv amb conn) := by
  unfold acknowledge
  dsimp only
  split
  · exact ⟨acknowledges _ _ ‹_›, spoken⟩
  · exact spoke_internalError s conn spoken

theorem spoke_sessionInit {t : ℕ} {hub : ConnectionHub} (s : Served) (conn : DeviceConnection)
    (msg : RPCMessage) (acknowledges : ∀ params text,
      (makeNotification amb "session.ack" params).toJson srv.py = .ok text → Said text)
    (spoken : Speaks (fun w text => w = t ∧ Said text) hub s.hub) :
    Spoke Asked Said t hub (s.sessionInit srv amb conn msg) := by
  unfold sessionInit
  split
  · dsimp only
    split
    · exact spoke_acknowledge _ conn acknowledges spoken
    · exact ⟨trivial, spoken⟩
  · exact spoke_internalError s conn spoken

theorem spoke_receive {t : ℕ} (s : Served) (conn : DeviceConnection) (raw : Frame)
    (waiting : s.self.pc = .running conn .receiving)
    (asks : ∀ msg, RPCMessage.fromJson amb raw = .ok msg → msg.type = .call → Asked msg)
    (acknowledges : ∀ params text,
      (makeNotification amb "session.ack" params).toJson srv.py = .ok text → Said text) :
    Spoke Asked Said t s.hub (s.receive srv amb conn t raw) := by
  have heard : Speaks (fun w text => w = t ∧ Said text) s.hub (s.hub.record [.received t raw]) :=
    .event rfl trivial
  have still : s.self.pc.Speaks Asked Said := by rw [waiting]; trivial
  unfold receive
  dsimp only
  split
  · exact ⟨trivial, heard⟩
  · exact spoke_internalError _ conn heard
  · rename_i decoded
    split
    · exact spoke_sessionInit _ conn _ acknowledges heard
    · exact ⟨still, heard⟩
    · rename_i typed
      split
      · exact ⟨asks _ decoded typed, heard⟩
      · exact spoke_internalError _ conn heard
    · exact ⟨still, heard⟩

theorem spoke_sent {t : ℕ} (s : Served) (conn : DeviceConnection) {text : JsonText}
    (said : Said text) (answer : Answer) :
    Spoke Asked Said t s.hub (s.sent srv amb conn t text answer) := by
  have spoken : Speaks (fun w text => w = t ∧ Said text) s.hub (s.hub.sent t text answer) :=
    speaks_sent s.hub ⟨rfl, said⟩ answer
  unfold Served.sent
  cases answer with
  | ok => exact ⟨trivial, spoken⟩
  | raises => exact spoke_internalError _ conn spoken

theorem spoke_loopStep {t : ℕ} {s s' : Served} {conn : DeviceConnection} {pc : LoopPc}
    {input : Input} (before : s.self.pc = .running conn pc)
    (speaks : s.self.pc.Speaks Asked Said) (allows : Allows srv Asked Said s input)
    (h : s.loopStep srv input.measured.amb t conn input pc = some s') :
    Spoke Asked Said t s.hub s' := by
  rw [before] at speaks
  cases pc with
  | receiving =>
    simp only [loopStep] at h
    split at h <;> cases h
    · exact ⟨trivial, .silent rfl⟩
    · rename_i raw received
      exact spoke_receive s conn raw before (fun msg => allows.asks conn raw msg before received)
        allows.acknowledges
  | disconnecting params pc =>
    simp only [loopStep] at h
    split at h <;> cases h <;> rename_i hstep
    · exact ⟨trivial, speaks_disconnects (ConnectionHub.disconnects_of_step hstep)⟩
    · exact ⟨trivial, speaks_disconnects (ConnectionHub.disconnects_of_step hstep)⟩
    · exact spoke_internalError _ conn
        (speaks_disconnects (ConnectionHub.disconnects_of_step hstep))
  | reconnecting params pc =>
    simp only [loopStep] at h
    split at h <;> cases h <;> rename_i hstep
    · exact ⟨trivial, speaks_connects (ConnectionHub.connects_of_step hstep)⟩
    · exact spoke_acknowledge _ _ allows.acknowledges
        (speaks_connects (ConnectionHub.connects_of_step hstep))
    · exact spoke_internalError _ conn (speaks_connects (ConnectionHub.connects_of_step hstep))
  | dispatching msg =>
    simp only [loopStep] at h
    split at h
    · cases h
      exact spoke_internalError s conn (.silent rfl)
    · rename_i response dispatched
      split at h <;> cases h
      · rename_i text encoded
        exact ⟨allows.replies conn msg response text before speaks dispatched encoded,
          .silent rfl⟩
      · exact spoke_internalError s conn (.silent rfl)
  | sending text =>
    cases h
    exact spoke_sent s conn speaks _
  | sendingParseError text => exact speaks.elim
  | sendingInternalError text => exact speaks.elim

theorem spoke_step {t : ℕ} {s s' : Served} {input : Input}
    (speaks : s.self.pc.Speaks Asked Said) (allows : Allows srv Asked Said s input)
    (h : s.step srv t input = some s') : Spoke Asked Said t s.hub s' := by
  unfold step at h
  dsimp only at h
  split at h
  · split at h <;> cases h <;> rename_i hstep <;>
      exact ⟨trivial, speaks_connects (ConnectionHub.connects_of_step hstep)⟩
  · exact spoke_loopStep ‹_› speaks allows h
  · split at h <;> cases h <;> rename_i hstep <;>
      exact ⟨trivial, speaks_disconnects (ConnectionHub.disconnects_of_step hstep)⟩
  · cases h

end Steps

end Served

/-! ## Tasks -/

/-- A handler says what `Said` allows on its socket, and a message that is pushed is allowed on
every socket. -/
def Task.Speaks (py : PyText) (Asked : ℕ → RPCMessage → Prop) (Said : ℕ → JsonText → Prop)
    (t : ℕ) : Task → Prop
  | .endpoint self => self.pc.Speaks (Asked t) (Said t)
  | .sendToDevice _ message _ => ∀ w text, message.toJson py = .ok text → Said w text
  | .broadcast self => ∀ w text, self.message.toJson py = .ok text → Said w text
  | .heartbeatLoop _ _ | .done => True

theorem Task.Speaks.mono {py : PyText} {Asked Asked' : ℕ → RPCMessage → Prop}
    {Said Said' : ℕ → JsonText → Prop} {t : ℕ} {task : Task} (h : task.Speaks py Asked Said t)
    (asked : ∀ msg, Asked t msg → Asked' t msg) (said : ∀ w text, Said w text → Said' w text) :
    task.Speaks py Asked' Said' t := by
  cases task with
  | endpoint self => exact EndpointPc.Speaks.mono h asked (said t)
  | sendToDevice deviceId message pc => exact fun w text encoded => said w text (h w text encoded)
  | broadcast self => exact fun w text encoded => said w text (h w text encoded)
  | heartbeatLoop interval pc => trivial
  | done => trivial

namespace ConnectionHub

variable {Said : ℕ → JsonText → Prop} {hub hub' : ConnectionHub} {py : PyText} {t : ℕ}
  {answer : Answer}

theorem speaks_sendToDevice {deviceId : PyVal} {message : RPCMessage} {pc : SendPc}
    {p : Progress SendPc (Except PyExc Bool)}
    (allowed : ∀ w text, message.toJson py = .ok text → Said w text)
    (h : hub.sendToDeviceStep py t deviceId message pc answer = some (hub', p)) :
    Speaks Said hub hub' := by
  unfold sendToDeviceStep at h
  split at h
  · split at h <;> cases h
    · rename_i encoded
      exact speaks_sent hub (allowed _ _ encoded) _
    · rename_i encoded
      exact speaks_sent hub (allowed _ _ encoded) _
    · exact .event rfl trivial
  · split at h <;> cases h <;> rename_i hstep <;>
      exact speaks_disconnects (disconnects_of_step hstep)

theorem Broadcast.count_message (b : Broadcast) (r : Except PyExc Bool) :
    (b.count r).message = b.message := by
  unfold count
  split <;> rfl

/-- A broadcast says its message, and keeps it. -/
theorem speaks_broadcast {b : Broadcast} {p : Progress Broadcast ℕ}
    (allowed : ∀ w text, b.message.toJson py = .ok text → Said w text)
    (h : hub.broadcastStep py t b answer = some (hub', p)) :
    Speaks Said hub hub' ∧ ∀ b', p = .suspended b' → b'.message = b.message := by
  unfold broadcastStep at h
  split at h
  · cases h
    exact ⟨.silent rfl, by rintro b' ⟨⟩⟩
  · split at h <;> cases h <;> refine ⟨.silent rfl, ?_⟩ <;> rintro b' ⟨⟩
    · rfl
    · exact Broadcast.count_message _ _
  · split at h <;> cases h <;> rename_i hstep <;>
      refine ⟨speaks_sendToDevice allowed hstep, ?_⟩ <;> rintro b' ⟨⟩
    · rfl
    · exact Broadcast.count_message _ _

theorem speaks_heartbeat {interval : ℚ} {amb : Ambient} {pc pc' : HeartbeatPc}
    (allowed : ∀ w text, (makeHeartbeat amb).toJson py = .ok text → Said w text)
    (h : hub.heartbeatStep py t interval amb pc answer = some (hub', pc')) :
    Speaks Said hub hub' := by
  unfold heartbeatStep at h
  split at h
  · cases h
    exact .silent rfl
  · cases h
    exact .silent rfl
  · split at h
    · cases h
      exact .silent rfl
    · dsimp only at h
      split at h <;> cases h <;> exact .silent rfl
  · split at h <;> cases h
    · rename_i encoded
      exact speaks_sent hub (allowed _ _ encoded) _
    · exact .event rfl trivial
  · cases h
    exact .silent rfl
  · cases h
    exact .silent rfl
  · split at h <;> cases h <;> rename_i hstep <;>
      exact speaks_disconnects (disconnects_of_step hstep)

end ConnectionHub

namespace World

variable {srv : Server} {Asked : ℕ → RPCMessage → Prop} {Said : ℕ → JsonText → Prop}

theorem speaks_launch {hub : ConnectionHub} {call : Call} {t : ℕ}
    (allowed : ∀ message, (∃ id, call = .sendToDevice id message) ∨ call = .broadcast message →
      ∀ w text, message.toJson srv.py = .ok text → Said w text) :
    (launch hub call).Speaks srv.py Asked Said t := by
  cases call with
  | endpoint => trivial
  | sendToDevice deviceId message =>
    unfold launch
    dsimp only
    split
    · exact allowed message (.inl ⟨_, rfl⟩)
    · trivial
  | broadcast message => exact allowed message (.inr rfl)
  | heartbeatLoop interval => trivial

/-- What a step of a task says is allowed, and so is what it may say next. -/
theorem speaks_of_runTask {w w' : World} {t : ℕ} {input : Input} {task : Task}
    (speaks : task.Speaks srv.py Asked Said t)
    (handlers : ∀ self, task = .endpoint self →
      Served.Allows srv (Asked t) (Said t) ⟨w.hub, w.sessions, self⟩ input)
    (heartbeats : ∀ u text,
      (makeHeartbeat input.measured.amb).toJson srv.py = .ok text → Said u text)
    (h : w.runTask srv t input task = some w') :
    ConnectionHub.Speaks Said w.hub w'.hub ∧
      ∃ task', w'.tasks t = some task' ∧ task'.Speaks srv.py Asked Said t := by
  cases task with
  | endpoint self =>
    obtain ⟨s, hs, rfl⟩ := runTask_endpoint h
    have speaks : self.pc.Speaks (Asked t) (Said t) := speaks
    obtain ⟨pc, events, log, within⟩ :=
      Served.spoke_step (s := ⟨w.hub, w.sessions, self⟩) speaks (handlers self rfl) hs
    refine ⟨⟨events, log, fun e he => ?_⟩, _, Function.update_self .., pc⟩
    have allowed := within e he
    cases e with
    | sent w text =>
      obtain ⟨rfl, said⟩ := allowed
      exact said
    | _ => trivial
  | sendToDevice deviceId message pc =>
    obtain ⟨⟨hub, p⟩, hs, rfl⟩ := Option.map_eq_some_iff.1 h
    have spoken := ConnectionHub.speaks_sendToDevice speaks hs
    cases p with
    | suspended pc => exact ⟨spoken, _, Function.update_self .., speaks⟩
    | returned r => exact ⟨spoken, _, Function.update_self .., trivial⟩
  | broadcast self =>
    obtain ⟨⟨hub, p⟩, hs, rfl⟩ := Option.map_eq_some_iff.1 h
    obtain ⟨spoken, keeps⟩ := ConnectionHub.speaks_broadcast speaks hs
    cases p with
    | suspended b =>
      refine ⟨spoken, _, Function.update_self .., ?_⟩
      show ∀ w text, b.message.toJson srv.py = .ok text → Said w text
      rw [keeps b rfl]
      exact speaks
    | returned r => exact ⟨spoken, _, Function.update_self .., trivial⟩
  | heartbeatLoop interval pc =>
    obtain ⟨⟨hub, pc'⟩, hs, rfl⟩ := Option.map_eq_some_iff.1 h
    exact ⟨ConnectionHub.speaks_heartbeat heartbeats hs, _, Function.update_self .., trivial⟩
  | done => cases h

end World

end Cpip
