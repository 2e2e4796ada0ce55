import Cpip.Client.Calls

/-!
# The daemon (`client/daemon.py`)

The calls of the daemon and its receive loop.  Of `_connection_loop` there is only that it sets
`_ws`, which nothing resets, and builds the message that opens the session; the loop, and with it
the receiving of frames, runs in one task.
-/

namespace Cpip

/-- `CpipDaemon`: whether `_ws` is set, and the calls. -/
structure Daemon where
  ws : Bool
  calls : Calls

namespace Daemon

/-- What the daemon makes of replies. -/
def client (py : PyText) (ids : IdSupply) : Client := ⟨py, ids, "Unknown", "Unknown error", .ok⟩

def init : Daemon := ⟨false, .init⟩

variable (py : PyText) (ids : IdSupply)

/-- `_handle_message`, as far as it touches the calls: a HEARTBEAT is acknowledged and a CALL is
dispatched and answered, neither of which reads or writes `_pending`. -/
def handleMessage (calls : Calls) (msg : RPCMessage) : Calls :=
  calls.handleReply (client py ids) msg

/-- A frame in the message handling loop, which ignores every exception. -/
def receive (d : Daemon) (raw : Frame) (now : ℚ) : Option Daemon :=
  let calls := d.calls.draw.record (.received raw)
  if d.ws then
    match RPCMessage.fromJson (d.calls.ambient (client py ids) now) raw with
    | .ok msg => some { d with calls := handleMessage py ids calls msg }
    | .error _ => some { d with calls := calls }
  else none

/-- `rpc_call`, up to its first suspension. -/
def rpcCall (d : Daemon) (c : ℕ) (method : String) (params : PyVal) (now : ℚ)
    (answer : SendAnswer) : Option Daemon :=
  let next :=
    if d.ws then d.calls.request (client py ids) c method params now true answer
    else d.calls.complete c .notConnected
  (d.calls.begin? c next).map fun calls => { d with calls := calls }

inductive Action where
  | connected
  | rpcCall (c : ℕ) (method : String) (params : PyVal) (now : ℚ) (answer : SendAnswer)
  | sent (c : ℕ) (answer : SendAnswer)
  | wake (c : ℕ)
  | timeOut (c : ℕ)
  | receive (raw : Frame) (now : ℚ)

def step (d : Daemon) : Action → Option Daemon
  | .connected => some ⟨true, d.calls.draw⟩
  | .rpcCall c method params now answer => d.rpcCall py ids c method params now answer
  | .sent c answer => (d.calls.sent? c answer).map fun calls => { d with calls := calls }
  | .wake c => (d.calls.wake? (client py ids) c).map fun calls => { d with calls := calls }
  | .timeOut c => (d.calls.timeOut? c).map fun calls => { d with calls := calls }
  | .receive raw now => d.receive py ids raw now

/-- What a step of the daemon is for its calls. -/
def Action.onCalls (d : Daemon) : Action → Calls.Action
  | .connected => .draw
  | .rpcCall c method params now answer =>
    if d.ws then .request c method params now true answer else .refuse c
  | .sent c answer => .sent c answer
  | .wake c => .wake c
  | .timeOut c => .timeOut c
  | .receive raw now => .receive raw now

variable {py : PyText} {ids : IdSupply}

/-- Every step of the daemon is a step of its calls. -/
theorem calls_of_step {d d' : Daemon} {a : Action} (h : step py ids d a = some d') :
    d.calls.step (client py ids) (a.onCalls d) = some d'.calls := by
  cases a with
  | connected =>
    cases h
    rfl
  | rpcCall c method params now answer =>
    obtain ⟨calls, hcalls, rfl⟩ := Option.map_eq_some_iff.1 h
    cases hws : d.ws with
    | true => simpa [hws, Action.onCalls, Calls.step] using hcalls
    | false => simpa [hws, Action.onCalls, Calls.step] using hcalls
  | sent c answer =>
    obtain ⟨calls, hcalls, rfl⟩ := Option.map_eq_some_iff.1 h
    exact hcalls
  | wake c =>
    obtain ⟨calls, hcalls, rfl⟩ := Option.map_eq_some_iff.1 h
    exact hcalls
  | timeOut c =>
    obtain ⟨calls, hcalls, rfl⟩ := Option.map_eq_some_iff.1 h
    exact hcalls
  | receive raw now =>
    simp only [step, receive] at h
    simp only [Action.onCalls, Calls.step, Calls.receive]
    split at h
    · split at h <;> cases h <;> simp_all [handleMessage]
    · cases h

end Daemon

end Cpip
