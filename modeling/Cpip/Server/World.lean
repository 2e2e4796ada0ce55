import Cpip.Server.Endpoint

/-!
# The running server

Any number of tasks on one event loop: handlers of sockets, `send_to_device`, `broadcast` and
`heartbeat_loop`.  An action starts a task or lets one task run to its next suspension, and a run is
a list of actions, so that a statement about every run is a statement about every interleaving and
every behaviour of the sockets.
-/

namespace Cpip

open ConnectionHub (SendPc Broadcast HeartbeatPc)

/-- What a task is started as. -/
inductive Call where
  | endpoint
  | sendToDevice (deviceId : PyVal) (message : RPCMessage)
  | broadcast (message : RPCMessage)
  | heartbeatLoop (interval : ℚ)

inductive Task where
  | endpoint (self : Endpoint)
  | sendToDevice (deviceId : PyVal) (message : RPCMessage) (pc : SendPc)
  | broadcast (self : Broadcast)
  | heartbeatLoop (interval : ℚ) (pc : HeartbeatPc)
  | done

inductive Action where
  | start (t : ℕ) (call : Call)
  | step (t : ℕ) (input : Input)

/-- The input at an awaited call on a socket. -/
def Input.io (answer : Answer) : Input := ⟨answer, none, .returns .none, ⟨⟨"", 0⟩, .finite 0, ""⟩⟩

/-- The input at a handler that receives a frame. -/
def Input.frame (raw : Frame) : Input := { Input.io .ok with received := some raw }

structure World where
  hub : ConnectionHub
  sessions : SessionManager
  tasks : ℕ → Option Task

namespace World

def init : World := ⟨.init, .empty, fun _ => none⟩

def setTask (w : World) (t : ℕ) (task : Task) : World :=
  { w with tasks := Function.update w.tasks t (some task) }

/-- A new task, up to its first suspension. -/
def launch (hub : ConnectionHub) : Call → Task
  | .endpoint => .endpoint .start
  | .sendToDevice deviceId message =>
    match hub.sendToDevice deviceId with
    | .suspended pc => .sendToDevice deviceId message pc
    | .returned _ => .done
  | .broadcast message => .broadcast (hub.broadcast message)
  | .heartbeatLoop interval => .heartbeatLoop interval .sleeping

/-- Task `t` runs to its next suspension. -/
def runTask (srv : Server) (w : World) (t : ℕ) (input : Input) : Task → Option World
  | .endpoint self =>
    (Served.step srv ⟨w.hub, w.sessions, self⟩ t input).map fun s =>
      { w with hub := s.hub, sessions := s.sessions }.setTask t (.endpoint s.self)
  | .sendToDevice deviceId message pc =>
    (w.hub.sendToDeviceStep srv.py t deviceId message pc input.answer).map fun
      | (hub, .suspended pc) => { w with hub := hub }.setTask t (.sendToDevice deviceId message pc)
      | (hub, .returned _) => { w with hub := hub }.setTask t .done
  | .broadcast self =>
    (w.hub.broadcastStep srv.py t self input.answer).map fun
      | (hub, .suspended self) => { w with hub := hub }.setTask t (.broadcast self)
      | (hub, .returned _) => { w with hub := hub }.setTask t .done
  | .heartbeatLoop interval pc =>
    (w.hub.heartbeatStep srv.py t interval input.measured.amb pc input.answer).map fun
      | (hub, pc) => { w with hub := hub }.setTask t (.heartbeatLoop interval pc)
  | .done => none

def step (srv : Server) (w : World) : Action → Option World
  | .start t call =>
    match w.tasks t with
    | none => some (w.setTask t (launch w.hub call))
    | some _ => none
  | .step t input => (w.tasks t).bind fun task => w.runTask srv t input task

variable {srv : Server} {w w' : World} {t : ℕ} {input : Input}

theorem runTask_endpoint {self : Endpoint}
    (h : w.runTask srv t input (.endpoint self) = some w') :
    ∃ s, Served.step srv ⟨w.hub, w.sessions, self⟩ t input = some s ∧
      { w with hub := s.hub, sessions := s.sessions }.setTask t (.endpoint s.self) = w' :=
  Option.map_eq_some_iff.1 h

/-- A step of a task changes no other task. -/
theorem tasks_of_runTask {task : Task} (h : w.runTask srv t input task = some w') {u : ℕ}
    (other : u ≠ t) : w'.tasks u = w.tasks u := by
  cases task with
  | endpoint self =>
    obtain ⟨s, -, rfl⟩ := runTask_endpoint h
    exact Function.update_of_ne other _ _
  | sendToDevice deviceId message pc =>
    obtain ⟨⟨hub, p⟩, -, rfl⟩ := Option.map_eq_some_iff.1 h
    cases p <;> exact Function.update_of_ne other _ _
  | broadcast self =>
    obtain ⟨⟨hub, p⟩, -, rfl⟩ := Option.map_eq_some_iff.1 h
    cases p <;> exact Function.update_of_ne other _ _
  | heartbeatLoop interval pc =>
    obtain ⟨⟨hub, pc'⟩, -, rfl⟩ := Option.map_eq_some_iff.1 h
    exact Function.update_of_ne other _ _
  | done => cases h

end World

end Cpip
