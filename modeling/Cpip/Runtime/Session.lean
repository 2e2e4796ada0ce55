import Cpip.Client.Calls
import Cpip.Runtime.Serialization

/-!
# Cloud sessions (`runtime/interceptor.py`)

A session connects when a call needs it, starts a receive loop for each connection, and matches the
replies as the daemon does.  The `n`-th connection made is the socket `n`, and its receive loop is
the loop `n`; a loop reads `_ws` when it first runs, which may then hold another socket.

A socket counts as open until an iteration over it ends: what the peer did before that, the session
does not see.  `close` is not part of the model.
-/

namespace Cpip

/-- The arguments of `_async_execute`. -/
structure Execute where
  method : String
  args : List PyVal
  kwargs : List (PyKey × PyVal)

/-- `_receive_loop`: its task was created, it iterates over a socket, or it is over. -/
inductive ReceiveLoop where
  | created
  | iterating (w : ℕ)
  | ended
  deriving DecidableEq

/-- Why an iteration over a socket ends: the peer closed it cleanly, it broke, or another loop
already waits for its next frame.  Only the first raises nothing. -/
inductive LoopEnd where
  | closed | broke | contended
  deriving DecidableEq

/-- `CloudSession`, with its sockets, its receive loops and the calls that wait in `_connect`. -/
structure Session where
  sessionId : String
  calls : Calls
  connected : Bool
  ws : Option ℕ
  opened : ℕ
  isOpen : ℕ → Bool
  loops : ℕ → Option ReceiveLoop
  connecting : ℕ → Option Execute

namespace Session

open Serialization (Env serializeArgs deserializeResult)

/-- What a session makes of replies. -/
def client (env : Env) (py : PyText) (ids : IdSupply) : Client :=
  ⟨py, ids, "Remote error", "Remote error", fun v => (deserializeResult env v).out⟩

def init (sessionId : String) : Session :=
  ⟨sessionId, .init, false, none, 0, fun _ => false, fun _ => none, fun _ => none⟩

variable (env : Env) (py : PyText) (ids : IdSupply)

/-- The parameters of the `exec.call` message. -/
def execParams (s : Session) (e : Execute) : PyVal :=
  .dict [(.str "session_id", .str s.sessionId), (.str "method", .str e.method),
    (.str "args", serializeArgs (.tuple e.args)),
    (.str "kwargs", if e.kwargs.isEmpty then .dict [] else serializeArgs (.dict e.kwargs))]

/-- `_async_execute` from the return of `_connect` to the next suspension. -/
def request (s : Session) (c : ℕ) (e : Execute) (now : ℚ) (answer : SendAnswer) : Option Session :=
  let next :=
    s.calls.request (client env py ids) c "exec.call" (s.execParams e) now s.ws.isSome answer
  (s.calls.begin? c next).map fun calls => { s with calls := calls }

/-- `_async_execute` up to its first suspension, which is in `_connect` unless the session is
connected. -/
def asyncExecute (s : Session) (c : ℕ) (e : Execute) (now : ℚ) (answer : SendAnswer) :
    Option Session :=
  match s.connecting c with
  | some _ => none
  | none =>
    if s.connected then s.request env py ids c e now answer
    else
      (s.calls.begin? c s.calls).map fun _ =>
        { s with connecting := Function.update s.connecting c (some e) }

/-- `websockets.connect` returned to `_connect`. -/
def opens (s : Session) : Session :=
  { s with
    ws := some s.opened
    connected := true
    opened := s.opened + 1
    isOpen := Function.update s.isOpen s.opened true
    loops := Function.update s.loops s.opened (some .created) }

/-- The rest of `_connect`, and the call goes on, connected or not. -/
def connectDone (s : Session) (c : ℕ) (success : Bool) (now : ℚ) (answer : SendAnswer) :
    Option Session :=
  match s.connecting c with
  | none => none
  | some e =>
    let s := { s with connecting := Function.update s.connecting c none }
    let s := if success then s.opens else { s with connected := false }
    s.request env py ids c e now answer

/-! ## `_receive_loop` -/

def setLoop (s : Session) (l : ℕ) (loop : ReceiveLoop) : Session :=
  { s with loops := Function.update s.loops l (some loop) }

def closeSocket (s : Session) (w : ℕ) : Session :=
  { s with isOpen := Function.update s.isOpen w false }

/-- The loop runs for the first time; iterating over `None` raises. -/
def startLoop (s : Session) (l : ℕ) : Option Session :=
  match s.loops l, s.ws with
  | some .created, some w => some (s.setLoop l (.iterating w))
  | some .created, none => some { s.setLoop l .ended with connected := false }
  | _, _ => none

/-- The loop gets a frame. -/
def receive (s : Session) (l : ℕ) (raw : Frame) (now : ℚ) : Option Session :=
  let calls := s.calls.draw.record (.received raw)
  match s.loops l with
  | some (.iterating _) =>
    match RPCMessage.fromJson (s.calls.ambient (client env py ids) now) raw with
    | .ok msg => some { s with calls := calls.handleReply (client env py ids) msg }
    | .error _ => some { s with calls := calls }
  | _ => none

/-- Another loop iterates over the socket. -/
def shared (s : Session) (l w : ℕ) : Bool :=
  (List.range s.opened).any fun l' => l' ≠ l ∧ s.loops l' = some (.iterating w)

/-- The iteration of the loop ends. -/
def endLoop (s : Session) (l : ℕ) (cause : LoopEnd) : Option Session :=
  match s.loops l with
  | some (.iterating w) =>
    match cause with
    | .closed => some ((s.setLoop l .ended).closeSocket w)
    | .broke => some { (s.setLoop l .ended).closeSocket w with connected := false }
    | .contended =>
      if s.shared l w then some { s.setLoop l .ended with connected := false } else none
  | _ => none

/-- The receive loop iterates over the socket, or will once it runs. -/
def Reads (s : Session) (l w : ℕ) : Prop :=
  s.loops l = some (.iterating w) ∨ s.loops l = some .created ∧ s.ws = some w

instance (s : Session) (l w : ℕ) : Decidable (s.Reads l w) :=
  inferInstanceAs (Decidable (_ ∨ _))

/-- A socket that no loop reads goes down. -/
def lose (s : Session) (w : ℕ) : Option Session :=
  if ∀ l ∈ List.range s.opened, ¬ s.Reads l w then some (s.closeSocket w) else none

inductive Action where
  | execute (c : ℕ) (e : Execute) (now : ℚ) (answer : SendAnswer)
  | connectDone (c : ℕ) (success : Bool) (now : ℚ) (answer : SendAnswer)
  | sent (c : ℕ) (answer : SendAnswer)
  | wake (c : ℕ)
  | timeOut (c : ℕ)
  | startLoop (l : ℕ)
  | receive (l : ℕ) (raw : Frame) (now : ℚ)
  | endLoop (l : ℕ) (cause : LoopEnd)
  | lose (w : ℕ)

def step (s : Session) : Action → Option Session
  | .execute c e now answer => s.asyncExecute env py ids c e now answer
  | .connectDone c success now answer => s.connectDone env py ids c success now answer
  | .sent c answer => (s.calls.sent? c answer).map fun calls => { s with calls := calls }
  | .wake c => (s.calls.wake? (client env py ids) c).map fun calls => { s with calls := calls }
  | .timeOut c => (s.calls.timeOut? c).map fun calls => { s with calls := calls }
  | .startLoop l => s.startLoop l
  | .receive l raw now => s.receive env py ids l raw now
  | .endLoop l cause => s.endLoop l cause
  | .lose w => s.lose w

/-- What a step of the session is for its calls, if anything. -/
def Action.onCalls (s : Session) : Action → Option Calls.Action
  | .execute c e now answer =>
    if s.connected then some (.request c "exec.call" (s.execParams e) now s.ws.isSome answer)
    else none
  | .connectDone c success now answer =>
    (s.connecting c).map fun e =>
      .request c "exec.call" (s.execParams e) now (success || s.ws.isSome) answer
  | .sent c answer => some (.sent c answer)
  | .wake c => some (.wake c)
  | .timeOut c => some (.timeOut c)
  | .receive _ raw now => some (.receive raw now)
  | .startLoop _ | .endLoop _ _ | .lose _ => none

variable {env : Env} {py : PyText} {ids : IdSupply}

theorem calls_of_request {s s' : Session} {c : ℕ} {e : Execute} {now : ℚ} {answer : SendAnswer}
    (h : s.request env py ids c e now answer = some s') :
    s.calls.step (client env py ids)
      (.request c "exec.call" (s.execParams e) now s.ws.isSome answer) = some s'.calls := by
  obtain ⟨calls, hcalls, rfl⟩ := Option.map_eq_some_iff.1 h
  exact hcalls

/-- Every step of the session is a step of its calls or leaves them alone. -/
theorem calls_of_step {s s' : Session} {a : Action} (h : step env py ids s a = some s') :
    (∃ b, a.onCalls s = some b ∧ s.calls.step (client env py ids) b = some s'.calls) ∨
      a.onCalls s = none ∧ s'.calls = s.calls := by
  cases a with
  | execute c e now answer =>
    simp only [step, asyncExecute] at h
    cases hc : s.connecting c with
    | some _ => simp [hc] at h
    | none =>
      cases hconn : s.connected with
      | true =>
        simp only [hc, hconn, if_true] at h
        exact .inl ⟨_, by simp [Action.onCalls, hconn], calls_of_request h⟩
      | false =>
        simp only [hc, hconn, Bool.false_eq_true, if_false] at h
        obtain ⟨-, -, rfl⟩ := Option.map_eq_some_iff.1 h
        exact .inr ⟨by simp [Action.onCalls, hconn], rfl⟩
  | connectDone c success now answer =>
    simp only [step, connectDone] at h
    cases hc : s.connecting c with
    | none => simp [hc] at h
    | some e =>
      simp only [hc] at h
      refine .inl ⟨.request c "exec.call" (s.execParams e) now (success || s.ws.isSome) answer,
        by simp only [Action.onCalls, hc, Option.map_some], ?_⟩
      have requested := calls_of_request h
      cases success with
      | true => exact requested
      | false => exact requested
  | sent c answer =>
    obtain ⟨calls, hcalls, rfl⟩ := Option.map_eq_some_iff.1 h
    exact .inl ⟨_, rfl, hcalls⟩
  | wake c =>
    obtain ⟨calls, hcalls, rfl⟩ := Option.map_eq_some_iff.1 h
    exact .inl ⟨_, rfl, hcalls⟩
  | timeOut c =>
    obtain ⟨calls, hcalls, rfl⟩ := Option.map_eq_some_iff.1 h
    exact .inl ⟨_, rfl, hcalls⟩
  | receive l raw now =>
    refine .inl ⟨_, rfl, ?_⟩
    simp only [step, receive] at h
    simp only [Calls.step, Calls.receive]
    split at h
    · split at h <;> cases h <;> simp_all
    · cases h
  | startLoop l =>
    refine .inr ⟨rfl, ?_⟩
    simp only [step, startLoop] at h
    split at h <;> cases h <;> rfl
  | endLoop l cause =>
    refine .inr ⟨rfl, ?_⟩
    simp only [step, endLoop] at h
    split at h
    · cases cause with
      | closed => cases h; rfl
      | broke => cases h; rfl
      | contended =>
        dsimp only at h
        split at h <;> cases h
        rfl
    · cases h
  | lose w =>
    refine .inr ⟨rfl, ?_⟩
    simp only [step, lose] at h
    split at h <;> cases h
    rfl

end Session

end Cpip
