import Mathlib.Logic.Function.Basic
import Cpip.Lib.Machine
import Cpip.Server.Rpc
import Cpip.Server.Sessions

/-!
# The connection hub (`server/ws/hub.py`)

The hub, the sockets and the operations of the hub as coroutines.  An operation is a program counter
that says at which `await` it is suspended, and a step function that runs it from there to the next
one.  A socket is named by the endpoint handler that owns it.  What an awaited `accept`, `close` or
`send_text` does is the environment's choice (`Answer`).

Taking the lock is a step of its own, possible whenever the lock is free, and so is every turn of a
loop over device ids.  A coroutine that does not suspend there takes those steps one after the
other, so the runs of the model include those of the event loop.

Nothing in the code reads `log`.  It records what the handlers receive, what is sent, and which
connections are registered and why they are removed: every call of `disconnect` carries the reason
for which its caller makes it.
-/

namespace Cpip

/-- `DeviceConnection`: the identity of the object and the fields that never change.  Its
`last_heartbeat` and `metadata` are in the hub, under its identity. -/
structure DeviceConnection where
  ref : ℕ
  deviceId : PyVal
  websocket : ℕ
  connectedAt : ℚ

/-- Starlette's `application_state` of a socket. -/
inductive SocketState where
  | connecting | connected | disconnected
  deriving DecidableEq

/-- Why `disconnect` is called: the handler that owns socket `t` ended or re-registers it, a send
on the connection failed, or the connection's last heartbeat, at `last`, was found too old. -/
inductive Reason where
  | handlerEnded (t : ℕ)
  | reRegistered (t : ℕ)
  | sendFailed (conn : DeviceConnection)
  | heartbeatTimeout (conn : DeviceConnection) (now last interval : ℚ)

/-- Why the hub closes a socket or drops a connection. -/
inductive Cause where
  | replacedBy (conn : DeviceConnection)
  | disconnect (reason : Reason)

inductive Event where
  | received (websocket : ℕ) (raw : Frame)
  | sent (websocket : ℕ) (text : JsonText)
  | sendFailed (websocket : ℕ)
  | registers (conn : DeviceConnection)
  | closes (conn : DeviceConnection) (cause : Cause)
  | unregisters (conn : DeviceConnection) (cause : Cause)

/-- What an awaited call on a socket does. -/
inductive Answer where
  | ok | raises
  deriving DecidableEq

/-- `ConnectionHub`, with the mutable fields of its connections and the state of the sockets. -/
structure ConnectionHub where
  connections : Dict PyKey DeviceConnection
  lock : Option ℕ
  nextRef : ℕ
  lastHeartbeat : ℕ → ℚ
  metadata : ℕ → PyVal
  sockets : ℕ → SocketState
  log : List Event

/-- How far a coroutine got: it is suspended, or it returned. -/
inductive Progress (π ρ : Type) where
  | suspended (pc : π)
  | returned (r : ρ)

namespace ConnectionHub

def init : ConnectionHub where
  connections := ∅
  lock := none
  nextRef := 0
  lastHeartbeat := fun _ => 0
  metadata := fun _ => .none
  sockets := fun _ => .connecting
  log := []

def record (hub : ConnectionHub) (events : List Event) : ConnectionHub :=
  { hub with log := hub.log ++ events }

def setSocket (hub : ConnectionHub) (w : ℕ) (state : SocketState) : ConnectionHub :=
  { hub with sockets := Function.update hub.sockets w state }

/-- `await websocket.close()`, after which the socket is closed if the call succeeded. -/
def closed (hub : ConnectionHub) (w : ℕ) : Answer → ConnectionHub
  | .ok => hub.setSocket w .disconnected
  | .raises => hub

/-- `await websocket.send_text(text)`. -/
def sent (hub : ConnectionHub) (w : ℕ) (text : JsonText) : Answer → ConnectionHub
  | .ok => hub.record [.sent w text]
  | .raises => hub.record [.sendFailed w]

/-- `self._connections[device_id] = conn`. -/
def register (hub : ConnectionHub) (key : PyKey) (conn : DeviceConnection) : ConnectionHub :=
  { hub.record ((hub.connections.get? key).toList.map (.unregisters · (.replacedBy conn)) ++
      [.registers conn]) with
    connections := hub.connections.set key conn }

/-! ## `connect` -/

/-- Where `connect` is suspended: in `accept`, at the lock with the new connection, or, holding the
lock, in closing the connection that had the id. -/
inductive ConnectPc where
  | accepting
  | locking (conn : DeviceConnection)
  | closingOld (conn : DeviceConnection) (old : DeviceConnection)

/-- `connect(device_id, websocket, metadata)`, called by task `t`. -/
def connectStep (hub : ConnectionHub) (t : ℕ) (deviceId : PyVal) (websocket : ℕ) (metadata : PyVal)
    (now : ℚ) : ConnectPc → Answer →
    Option (ConnectionHub × Progress ConnectPc (Except PyExc DeviceConnection))
  | .accepting, .raises => some (hub, .returned (.error (.other "WebSocketError")))
  | .accepting, .ok =>
    let conn : DeviceConnection := ⟨hub.nextRef, deviceId, websocket, now⟩
    some ({ hub.setSocket websocket .connected with
      nextRef := hub.nextRef + 1
      lastHeartbeat := Function.update hub.lastHeartbeat conn.ref now
      metadata := Function.update hub.metadata conn.ref (metadata.or (.dict [])) },
      .suspended (.locking conn))
  | .locking conn, _ =>
    if hub.lock = none then
      match deviceId.hash? with
      | none => some (hub, .returned (.error (.typeError "unhashable type")))
      | some key =>
        match hub.connections.get? key with
        | some old =>
          some ({ hub.record [.closes old (.replacedBy conn)] with lock := some t },
            .suspended (.closingOld conn old))
        | none => some (hub.register key conn, .returned (.ok conn))
    else none
  | .closingOld conn old, answer =>
    match deviceId.hash? with
    | none => none
    | some key =>
      some ({ (hub.closed old.websocket answer).register key conn with lock := none },
        .returned (.ok conn))

/-! ## `disconnect` -/

/-- Where `disconnect` is suspended: at the lock, or, holding it, in closing the connection that it
took out. -/
inductive DisconnectPc where
  | locking
  | closing (conn : DeviceConnection)

/-- `disconnect(device_id)`, called by task `t` for the given reason. -/
def disconnectStep (hub : ConnectionHub) (t : ℕ) (deviceId : PyVal) (reason : Reason) :
    DisconnectPc → Answer → Option (ConnectionHub × Progress DisconnectPc (Except PyExc Unit))
  | .locking, _ =>
    if hub.lock = none then
      match deviceId.hash? with
      | none => some (hub, .returned (.error (.typeError "unhashable type")))
      | some key =>
        match hub.connections.get? key with
        | none => some (hub, .returned (.ok ()))
        | some conn =>
          some ({ hub.record [.unregisters conn (.disconnect reason),
              .closes conn (.disconnect reason)] with
            connections := hub.connections.pop key
            lock := some t }, .suspended (.closing conn))
    else none
  | .closing conn, answer =>
    some ({ hub.closed conn.websocket answer with lock := none }, .returned (.ok ()))

/-! ## `send_to_device` -/

/-- Where `send_to_device` is suspended: in the send, or in `disconnect` after a failed send. -/
inductive SendPc where
  | sending (conn : DeviceConnection)
  | disconnecting (conn : DeviceConnection) (pc : DisconnectPc)

/-- `send_to_device(device_id, message)`, up to the send. -/
def sendToDevice (hub : ConnectionHub) (deviceId : PyVal) : Progress SendPc (Except PyExc Bool) :=
  match deviceId.hash? with
  | none => .returned (.error (.typeError "unhashable type"))
  | some key =>
    match hub.connections.get? key with
    | none => .returned (.ok false)
    | some conn => .suspended (.sending conn)

/-- `send_to_device(device_id, message)` after its first suspension.  A message that cannot be
encoded fails as a send does. -/
def sendToDeviceStep (hub : ConnectionHub) (py : PyText) (t : ℕ) (deviceId : PyVal)
    (message : RPCMessage) : SendPc → Answer →
    Option (ConnectionHub × Progress SendPc (Except PyExc Bool))
  | .sending conn, answer =>
    match message.toJson py, answer with
    | .ok text, .ok => some (hub.sent conn.websocket text .ok, .returned (.ok true))
    | .ok text, .raises =>
      some (hub.sent conn.websocket text .raises, .suspended (.disconnecting conn .locking))
    | .error _, _ =>
      some (hub.record [.sendFailed conn.websocket], .suspended (.disconnecting conn .locking))
  | .disconnecting conn pc, answer =>
    match hub.disconnectStep t deviceId (.sendFailed conn) pc answer with
    | none => none
    | some (hub, .suspended pc) => some (hub, .suspended (.disconnecting conn pc))
    | some (hub, .returned (.ok ())) => some (hub, .returned (.ok false))
    | some (hub, .returned (.error e)) => some (hub, .returned (.error e))

/-! ## `broadcast` -/

/-- A `broadcast`: the ids it has not come to, the number of sends so far that succeeded, and the
`send_to_device` it is in, if any. -/
structure Broadcast where
  message : RPCMessage
  rest : List PyKey
  sent : ℕ
  current : Option (PyKey × SendPc)

/-- `broadcast(message)`, up to its first id. -/
def broadcast (hub : ConnectionHub) (message : RPCMessage) : Broadcast :=
  ⟨message, hub.connections.keys, 0, none⟩

/-- The broadcast after a `send_to_device` that returned. -/
def Broadcast.count (b : Broadcast) (r : Except PyExc Bool) : Broadcast :=
  match r with
  | .ok true => { b with sent := b.sent + 1, current := none }
  | _ => { b with current := none }

/-- One step of `broadcast`; it returns the number of messages sent. -/
def broadcastStep (hub : ConnectionHub) (py : PyText) (t : ℕ) (b : Broadcast) (answer : Answer) :
    Option (ConnectionHub × Progress Broadcast ℕ) :=
  match b.current, b.rest with
  | none, [] => some (hub, .returned b.sent)
  | none, key :: rest =>
    match hub.sendToDevice (.ofKey key) with
    | .suspended pc => some (hub, .suspended { b with rest := rest, current := some (key, pc) })
    | .returned r => some (hub, .suspended ({ b with rest := rest }.count r))
  | some (key, pc), _ =>
    match hub.sendToDeviceStep py t (.ofKey key) b.message pc answer with
    | none => none
    | some (hub, .suspended pc) => some (hub, .suspended { b with current := some (key, pc) })
    | some (hub, .returned r) => some (hub, .suspended (b.count r))

/-! ## `heartbeat_loop` -/

/-- Where `heartbeat_loop` is: asleep; in the pass started at `now`, with the ids it has not come to
and those found dead, each with the reason; sending a heartbeat in that pass; or disconnecting the
dead. -/
inductive HeartbeatPc where
  | sleeping
  | scanning (now : ℚ) (rest : List PyKey) (dead : List (PyKey × Reason))
  | sending (now : ℚ) (key : PyKey) (conn : DeviceConnection) (rest : List PyKey)
      (dead : List (PyKey × Reason))
  | cleaning (dead : List (PyKey × Reason))
  | disconnecting (key : PyKey) (reason : Reason) (pc : DisconnectPc) (dead : List (PyKey × Reason))

/-- `heartbeat_loop(interval)`. -/
def heartbeatStep (hub : ConnectionHub) (py : PyText) (t : ℕ) (interval : ℚ) (amb : Ambient) :
    HeartbeatPc → Answer → Option (ConnectionHub × HeartbeatPc)
  | .sleeping, _ => some (hub, .scanning amb.now hub.connections.keys [])
  | .scanning _ [] dead, _ => some (hub, .cleaning dead)
  | .scanning now (key :: rest) dead, _ =>
    match hub.connections.get? key with
    | none => some (hub, .scanning now rest dead)
    | some conn =>
      let last := hub.lastHeartbeat conn.ref
      if now - last > interval * 3 then
        some (hub, .scanning now rest (dead ++ [(key, .heartbeatTimeout conn now last interval)]))
      else some (hub, .sending now key conn rest dead)
  | .sending now key conn rest dead, answer =>
    match (makeHeartbeat amb).toJson py, answer with
    | .ok text, .ok => some (hub.sent conn.websocket text .ok, .scanning now rest dead)
    | _, _ =>
      some (hub.record [.sendFailed conn.websocket],
        .scanning now rest (dead ++ [(key, .sendFailed conn)]))
  | .cleaning [], _ => some (hub, .sleeping)
  | .cleaning ((key, reason) :: dead), _ => some (hub, .disconnecting key reason .locking dead)
  | .disconnecting key reason pc dead, answer =>
    match hub.disconnectStep t (.ofKey key) reason pc answer with
    | none => none
    | some (hub, .suspended pc) => some (hub, .disconnecting key reason pc dead)
    | some (hub, .returned _) => some (hub, .cleaning dead)

end ConnectionHub

end Cpip
