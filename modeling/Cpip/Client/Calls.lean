import Mathlib.Logic.Function.Basic
import Cpip.Lib.History
import Cpip.Lib.Machine
import Cpip.Shared.Protocol

/-!
# Calls that wait for a reply

The daemon and the cloud session send their calls and match the replies in the same way: a call
stores a future in `_pending` under the id of its message, sends the message and waits for the
future, and the receive loop pops the future that a RESULT or ERROR frame names and settles it.
`Calls` is that part of both, with the operations that their coroutines are made of.

A call is named by a number that the environment picks, and the future in `_pending` by its call.
Nothing in the code reads `log`.
-/

namespace Cpip

/-- What `uuid.uuid4()` supplies, one after the other. -/
structure IdSupply where
  of : ℕ → String
  injective : Function.Injective of
  nonempty : ∀ n, of n ≠ ""

/-- What does not change while a client runs: what `json.dumps` needs, the ids, and what the client
makes of a reply.  `noError` and `noMessage` are the texts for an ERROR frame whose error is falsy
or has no message. -/
structure Client where
  py : PyText
  ids : IdSupply
  noError : String
  noMessage : String
  read : PyVal → Except PyExc PyVal

/-- The future of a call; when its call does not wait any more, nobody looks at it. -/
inductive Future where
  | pending
  | result (v : PyVal)
  | exception (message : PyVal)

/-- What `await ws.send(text)` does: it is over at once, suspends, or raises. -/
inductive SendAnswer where
  | completes
  | suspends
  | raises (e : PyExc)

/-- How a call ends.  The first three are what a reply makes of it. -/
inductive CallOutcome where
  | value (v : PyVal)
  | remoteError (message : PyVal)
  | unreadable (e : PyExc)
  | timeout
  | notConnected
  | notSent (e : PyExc)

/-- Where a registered call is suspended: in its send, or waiting for its future, after its message
was sent or, for want of a socket, not. -/
inductive CallPc where
  | sending
  | waiting (sent : Bool)

inductive CallState where
  | active (request : RPCMessage) (future : Future) (pc : CallPc)
  | completed

inductive CallEvent where
  | registered (c : ℕ) (request : RPCMessage)
  | received (raw : Frame)
  | completed (c : ℕ) (outcome : CallOutcome)

structure Calls where
  pending : Dict PyKey ℕ
  calls : ℕ → Option CallState
  nextId : ℕ
  log : List CallEvent

namespace Client

variable (cl : Client)

/-- The message of the exception for an ERROR frame. -/
def errorMessage (error : PyVal) : Except PyExc PyVal :=
  if error.truthy then
    match error with
    | .dict items => .ok ((PyVal.getStr "message" items).getD (.str cl.noMessage))
    | _ => .error (.attributeError "object has no attribute 'get'")
  else .ok (.str cl.noError)

/-- What a call returns or raises once its future is done. -/
def outcome : Future → Option CallOutcome
  | .pending => none
  | .result v =>
    match cl.read v with
    | .ok v => some (.value v)
    | .error e => some (.unreadable e)
  | .exception message => some (.remoteError message)

end Client

namespace Calls

def init : Calls := ⟨∅, fun _ => none, 0, []⟩

variable (cl : Client)

/-- What the interpreter supplies to the next message. -/
def ambient (s : Calls) (now : ℚ) : Ambient := ⟨cl.ids.of s.nextId, now⟩

/-- An id is taken from the supply for a message that is no call. -/
def draw (s : Calls) : Calls := { s with nextId := s.nextId + 1 }

def record (s : Calls) (e : CallEvent) : Calls := { s with log := s.log ++ [e] }

def put (s : Calls) (c : ℕ) (state : CallState) : Calls :=
  { s with calls := Function.update s.calls c (some state) }

/-- The call returns or raises. -/
def complete (s : Calls) (c : ℕ) (outcome : CallOutcome) : Calls :=
  (s.put c .completed).record (.completed c outcome)

/-- The send of the call's message. -/
def send (s : Calls) (c : ℕ) (request : RPCMessage) (future : Future) : SendAnswer → Calls
  | .completes => s.put c (.active request future (.waiting true))
  | .suspends => s.put c (.active request future .sending)
  | .raises e => s.complete c (.notSent e)

/-- `_pending[msg.id] = future` for a new future. -/
def register (s : Calls) (c : ℕ) (request : RPCMessage) (id : String) : Calls :=
  ({ s with pending := s.pending.set (.str id) c }.put c (.active request .pending .sending)).record
    (.registered c request)

/-- From `make_call` to the first suspension.  Without a socket the message is not even encoded. -/
def request (s : Calls) (c : ℕ) (method : String) (params : PyVal) (now : ℚ) (socket : Bool)
    (answer : SendAnswer) : Calls :=
  let msg := makeCall (s.ambient cl now) method params
  let s := s.draw.register c msg (cl.ids.of s.nextId)
  if socket then
    match msg.toJson cl.py with
    | .ok _ => s.send c msg .pending answer
    | .error e => s.complete c (.notSent e)
  else s.put c (.active msg .pending (.waiting false))

/-- `_pending.pop(key)`. -/
def pop (s : Calls) (key : PyKey) : Calls := { s with pending := s.pending.pop key }

/-- `if future and not future.done()`, and the settling of the future, whose value may raise. -/
def setFuture (s : Calls) (c : ℕ) (value : Except PyExc Future) : Calls :=
  match s.calls c, value with
  | some (.active request .pending pc), .ok future => s.put c (.active request future pc)
  | _, _ => s

/-- `future = _pending.pop(id, None)` and what is done with it; an id without a hash raises. -/
def settle (s : Calls) (id : PyVal) (value : Except PyExc Future) : Calls :=
  match id.hash? with
  | none => s
  | some key =>
    match s.pending.get? key with
    | none => s
    | some c => (s.pop key).setFuture c value

/-- What RESULT and ERROR messages do. -/
def handleReply (s : Calls) (msg : RPCMessage) : Calls :=
  match msg.type with
  | .result => s.settle msg.id (.ok (.result msg.result))
  | .error => s.settle msg.id ((cl.errorMessage msg.error).map .exception)
  | _ => s

/-- A frame, in a receive loop that ignores every exception.  Decoding takes an id from the supply,
in case the frame has none. -/
def receive (s : Calls) (raw : Frame) (now : ℚ) : Calls :=
  let decoded := RPCMessage.fromJson (s.ambient cl now) raw
  let s := s.draw.record (.received raw)
  match decoded with
  | .ok msg => s.handleReply cl msg
  | .error _ => s

section Lemmas

variable (s : Calls) (c : ℕ)

@[simp]
theorem put_calls_self (state : CallState) : (s.put c state).calls c = some state :=
  Function.update_self ..

@[simp]
theorem complete_calls_self (o : CallOutcome) : (s.complete c o).calls c = some .completed :=
  Function.update_self ..

@[simp]
theorem register_calls_self (request : RPCMessage) (id : String) :
    (s.register c request id).calls c = some (.active request .pending .sending) :=
  Function.update_self ..

variable {c' : ℕ} (ne : c' ≠ c)
include ne

theorem put_calls_of_ne (state : CallState) : (s.put c state).calls c' = s.calls c' :=
  Function.update_of_ne ne ..

theorem complete_calls_of_ne (o : CallOutcome) : (s.complete c o).calls c' = s.calls c' :=
  Function.update_of_ne ne ..

theorem register_calls_of_ne (request : RPCMessage) (id : String) :
    (s.register c request id).calls c' = s.calls c' :=
  Function.update_of_ne ne ..

/-- No other call is stored under an id that was not. -/
theorem get?_of_register {request : RPCMessage} {id : String} {key : PyKey}
    (h : (s.register c request id).pending.get? key = some c') : s.pending.get? key = some c' := by
  have h : (s.pending.set (.str id) c).get? key = some c' := h
  rw [Dict.get?_set] at h
  split_ifs at h
  · exact absurd (Option.some.inj h).symm ne
  · exact h

end Lemmas

/-! ## The coroutines of calls -/

/-- A call that has not begun. -/
def begin? (s : Calls) (c : ℕ) (next : Calls) : Option Calls :=
  match s.calls c with
  | none => some next
  | some _ => none

/-- A suspended send is over. -/
def sent? (s : Calls) (c : ℕ) (answer : SendAnswer) : Option Calls :=
  match s.calls c with
  | some (.active request future .sending) => some (s.send c request future answer)
  | _ => none

/-- A waiting call whose future is done runs on. -/
def wake? (s : Calls) (c : ℕ) : Option Calls :=
  match s.calls c with
  | some (.active _ future (.waiting _)) => (cl.outcome future).map fun o => s.complete c o
  | _ => none

/-- The time that a waiting call has is over.  This can come after its future was settled, when the
call has not run since. -/
def timeOut? (s : Calls) (c : ℕ) : Option Calls :=
  match s.calls c with
  | some (.active _ _ (.waiting _)) => some (s.complete c .timeout)
  | _ => none

/-- One of the calls, the receive loop, or another coroutine of the client runs to its next
suspension. -/
inductive Action where
  | refuse (c : ℕ)
  | request (c : ℕ) (method : String) (params : PyVal) (now : ℚ) (socket : Bool)
      (answer : SendAnswer)
  | sent (c : ℕ) (answer : SendAnswer)
  | wake (c : ℕ)
  | timeOut (c : ℕ)
  | receive (raw : Frame) (now : ℚ)
  | draw

def step (s : Calls) : Action → Option Calls
  | .refuse c => s.begin? c (s.complete c .notConnected)
  | .request c method params now socket answer =>
    s.begin? c (s.request cl c method params now socket answer)
  | .sent c answer => s.sent? c answer
  | .wake c => s.wake? cl c
  | .timeOut c => s.timeOut? c
  | .receive raw now => some (s.receive cl raw now)
  | .draw => some s.draw

end Calls

end Cpip
