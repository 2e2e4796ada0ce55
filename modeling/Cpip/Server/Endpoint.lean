import Cpip.Server.Hub

/-!
# The WebSocket endpoint (`server/app.py`)

The handler of one socket, as a coroutine like those of the hub.  It registers the socket under the
placeholder id, then receives frames, and disconnects the id of its connection at the end.  Its
local `conn` is `None` exactly while it connects, so the states after that carry the connection.
-/

namespace Cpip

open ConnectionHub (ConnectPc DisconnectPc)

/-- Where the message loop of a handler is suspended.  `sending` is both the acknowledgement of a
session and the reply to a call, which fail in the same way. -/
inductive LoopPc where
  | receiving
  | disconnecting (params : List (PyKey × PyVal)) (pc : DisconnectPc)
  | reconnecting (params : List (PyKey × PyVal)) (pc : ConnectPc)
  | dispatching (msg : RPCMessage)
  | sending (text : JsonText)
  | sendingParseError (text : JsonText)
  | sendingInternalError (text : JsonText)

inductive EndpointPc where
  | connecting (pc : ConnectPc)
  | running (conn : DeviceConnection) (pc : LoopPc)
  | closing (conn : DeviceConnection) (pc : DisconnectPc)
  | finished

/-- A handler: its local `device_id` and where it is suspended. -/
structure Endpoint where
  deviceId : PyVal
  pc : EndpointPc

/-- What does not change while the server runs. -/
structure Server where
  py : PyText
  dispatcher : RPCDispatcher

/-- What the environment supplies to a step: the answer of an awaited call on a socket, the frame
that `iter_text` yields (none when it ends or raises), what an RPC handler does, and what the
interpreter supplies to the messages built. -/
structure Input where
  answer : Answer
  received : Option Frame
  outcome : Outcome
  measured : RPCDispatcher.Measured

/-- `a == b` for values from JSON texts, when `b` has a hash. -/
def sameId (a b : PyVal) : Bool := a.hash?.isSome ∧ a.hash? = b.hash? ∧ a.hash? ≠ some nanKey
where nanKey : PyKey := (PyKey.atom (.float .nan)).norm

/-- All that a step of a handler reads and writes. -/
structure Served where
  hub : ConnectionHub
  sessions : SessionManager
  self : Endpoint

namespace Endpoint

def start : Endpoint := ⟨.str "unknown", .connecting .accepting⟩

end Endpoint

namespace Served

variable (srv : Server) (amb : Ambient)

def goto (s : Served) (pc : EndpointPc) : Served := { s with self := { s.self with pc := pc } }

/-- The names of `shared.protocol` that `app.py` imports. -/
def protocolNames : List String := ["MessageType", "RPCMessage"]

/-- `make_error(msg_id="unknown", code=.., message=..).to_json()`, where `make_error` is looked up
among the names of the module first. -/
def errorText (code : ℤ) (message : String) : Except PyExc JsonText := do
  if "make_error" ∉ protocolNames then
    throw (.other "NameError: name 'make_error' is not defined")
  let msg ← makeErrorKw amb
    [("msg_id", .str "unknown"), ("code", .int code), ("message", .str message)]
  msg.toJson srv.py

/-- `make_error` is not imported, so no error text is ever made. -/
theorem errorText_eq (code : ℤ) (message : String) : errorText srv amb code message =
    .error (.other "NameError: name 'make_error' is not defined") := rfl

/-- The recovery from a text that is not JSON, in which every further exception is ignored. -/
def parseError (s : Served) (conn : DeviceConnection) : Served :=
  match errorText srv amb (-32700) "Parse error" with
  | .ok text => s.goto (.running conn (.sendingParseError text))
  | .error _ => s.goto (.running conn .receiving)

/-- The recovery from any other exception in the loop, in which a further exception ends it. -/
def internalError (s : Served) (conn : DeviceConnection) : Served :=
  match errorText srv amb (-32603) "Internal error" with
  | .ok text => s.goto (.running conn (.sendingInternalError text))
  | .error _ => s.goto (.closing conn .locking)

/-- The acknowledgement of a session, up to its send. -/
def acknowledge (s : Served) (conn : DeviceConnection) : Served :=
  let response := makeNotification amb "session.ack"
    (.dict [(.str "session_id", s.self.deviceId), (.str "timestamp", .float (.finite amb.now))])
  match response.toJson srv.py with
  | .ok text => s.goto (.running conn (.sending text))
  | .error _ => s.internalError srv amb conn

/-- A `session.init` frame, up to the re-registration or the acknowledgement. -/
def sessionInit (s : Served) (conn : DeviceConnection) (msg : RPCMessage) : Served :=
  match msg.params with
  | .dict params =>
    let deviceId := (PyVal.getStr "device_id" params).getD s.self.deviceId
    let s := { s with self := { s.self with deviceId := deviceId } }
    if sameId deviceId conn.deviceId then
      let metadata := Function.update s.hub.metadata conn.ref (.dict params)
      { s with hub := { s.hub with metadata := metadata } }.acknowledge srv amb conn
    else s.goto (.running conn (.disconnecting params .locking))
  | _ => s.internalError srv amb conn

/-- A frame, up to the first suspension of its processing. -/
def receive (s : Served) (conn : DeviceConnection) (t : ℕ) (raw : Frame) : Served :=
  let s := { s with hub := s.hub.record [.received t raw] }
  match RPCMessage.fromJson amb raw with
  | .error .jsonDecodeError => s.parseError srv amb conn
  | .error _ => s.internalError srv amb conn
  | .ok msg =>
    match msg.type with
    | .sessionInit => s.sessionInit srv amb conn msg
    | .heartbeatAck =>
      let lastHeartbeat := Function.update s.hub.lastHeartbeat conn.ref amb.now
      { s with hub := { s.hub with lastHeartbeat := lastHeartbeat } }
    | .call =>
      match s.sessions.updateActivity s.self.deviceId amb.now with
      | .ok sessions => { s with sessions := sessions }.goto (.running conn (.dispatching msg))
      | .error _ => s.internalError srv amb conn
    | _ => s

/-- The handler after the send of an acknowledgement or a reply. -/
def sent (s : Served) (conn : DeviceConnection) (t : ℕ) (text : JsonText) (answer : Answer) :
    Served :=
  let s := { s with hub := s.hub.sent t text answer }
  match answer with
  | .ok => s.goto (.running conn .receiving)
  | .raises => s.internalError srv amb conn

/-- One step of the message loop of handler `t`, with the connection `conn`. -/
def loopStep (s : Served) (t : ℕ) (conn : DeviceConnection) (input : Input) :
    LoopPc → Option Served
  | .receiving =>
    match input.received with
    | none => some (s.goto (.closing conn .locking))
    | some raw => some (s.receive srv amb conn t raw)
  | .disconnecting params pc =>
    match s.hub.disconnectStep t conn.deviceId (.reRegistered t) pc input.answer with
    | none => none
    | some (hub, .suspended pc) =>
      some ({ s with hub := hub }.goto (.running conn (.disconnecting params pc)))
    | some (hub, .returned (.ok ())) =>
      some ({ s with hub := hub }.goto (.running conn (.reconnecting params .accepting)))
    | some (hub, .returned (.error _)) => some ({ s with hub := hub }.internalError srv amb conn)
  | .reconnecting params pc =>
    match s.hub.connectStep t s.self.deviceId t (.dict params) amb.now pc input.answer with
    | none => none
    | some (hub, .suspended pc) =>
      some ({ s with hub := hub }.goto (.running conn (.reconnecting params pc)))
    | some (hub, .returned (.ok conn)) => some ({ s with hub := hub }.acknowledge srv amb conn)
    | some (hub, .returned (.error _)) => some ({ s with hub := hub }.internalError srv amb conn)
  | .dispatching msg =>
    match srv.dispatcher.dispatch srv.py msg input.outcome input.measured with
    | .error _ => some (s.internalError srv amb conn)
    | .ok response =>
      match response.toJson srv.py with
      | .ok text => some (s.goto (.running conn (.sending text)))
      | .error _ => some (s.internalError srv amb conn)
  | .sending text => some (s.sent srv amb conn t text input.answer)
  | .sendingParseError text =>
    some ({ s with hub := s.hub.sent t text input.answer }.goto (.running conn .receiving))
  | .sendingInternalError text =>
    let s := { s with hub := s.hub.sent t text input.answer }
    match input.answer with
    | .ok => some (s.goto (.running conn .receiving))
    | .raises => some (s.goto (.closing conn .locking))

/-- One step of `websocket_endpoint` for the socket `t`. -/
def step (s : Served) (t : ℕ) (input : Input) : Option Served :=
  let amb := input.measured.amb
  match s.self.pc with
  | .connecting pc =>
    match s.hub.connectStep t s.self.deviceId t .none amb.now pc input.answer with
    | none => none
    | some (hub, .suspended pc) => some ({ s with hub := hub }.goto (.connecting pc))
    | some (hub, .returned (.ok conn)) =>
      some ({ s with hub := hub }.goto (.running conn .receiving))
    | some (hub, .returned (.error _)) => some ({ s with hub := hub }.goto .finished)
  | .running conn pc => s.loopStep srv amb t conn input pc
  | .closing conn pc =>
    match s.hub.disconnectStep t conn.deviceId (.handlerEnded t) pc input.answer with
    | none => none
    | some (hub, .suspended pc) => some ({ s with hub := hub }.goto (.closing conn pc))
    | some (hub, .returned _) => some ({ s with hub := hub }.goto .finished)
  | .finished => none

end Served

end Cpip
