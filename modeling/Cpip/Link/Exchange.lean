import Cpip.Client.Correlation
import Cpip.Link.Heartbeat
import Cpip.Server.Answers

/-!
# Calls and the server that answers them

A client of this repository and the server with its built-in RPC methods, joined by any number of
sockets of the client.  Frames keep their order on a socket; the ones on their way are lost when it
breaks.  The other tasks of the server, handlers of other clients among them, run as they like, but
push no RESULT or ERROR.  What a call is told is then what the dispatcher makes of the call itself.
-/

namespace Cpip

/-! ## What the steps of calls write down and send -/

namespace Calls

/-- The message that the step makes. -/
def Action.message? (cl : Client) (s : Calls) : Action → Option RPCMessage
  | .request _ method params now _ _ => some (makeCall (s.ambient cl now) method params)
  | _ => none

/-- The frame that the step hands to a socket: the one of a call that begins. -/
def Action.frame? (cl : Client) (s : Calls) : Action → Option Frame
  | .request _ method params now true answer =>
    match (makeCall (s.ambient cl now) method params).toJson cl.py, answer with
    | .ok _, .raises _ => none
    | .ok text, _ => some (.json text)
    | .error _, _ => none
  | _ => none

/-- The frame that the step receives. -/
def Action.received? : Action → Option Frame
  | .receive raw _ => some raw
  | _ => none

/-- What a step writes down; a frame that it sends is that of a call that it writes down. -/
structure Writes (cl : Client) (s : Calls) (a : Action) (events : List CallEvent) : Prop where
  registered : ∀ c request, .registered c request ∈ events → a.message? cl s = some request
  received : ∀ raw, .received raw ∈ events → a.received? = some raw
  sends : ∀ raw, a.frame? cl s = some raw → ∃ c request text, .registered c request ∈ events ∧
    request.toJson cl.py = .ok text ∧ raw = .json text

variable {cl : Client} {s : Calls}

/-- A step that only completes calls. -/
theorem Writes.ends {a : Action} {events : List CallEvent} (idle : a.frame? cl s = none)
    (ends : ∀ e ∈ events, ∃ o c, e = .completed c o) : Writes cl s a events where
  registered c request mem := by
    obtain ⟨o, c', ho⟩ := ends _ mem
    cases ho
  received raw mem := by
    obtain ⟨o, c', ho⟩ := ends _ mem
    cases ho
  sends raw sent := by
    rw [idle] at sent
    cases sent

theorem log_settle (id : PyVal) (value : Except PyExc Future) :
    (s.settle id value).log = s.log := by
  unfold settle
  split
  · rfl
  · split
    · rfl
    · unfold setFuture
      split <;> rfl

theorem log_handleReply (msg : RPCMessage) : (s.handleReply cl msg).log = s.log := by
  unfold handleReply
  split
  · exact log_settle _ _
  · exact log_settle _ _
  · rfl

theorem log_send (c : ℕ) (request : RPCMessage) (future : Future) (answer : SendAnswer) :
    ∃ events, (s.send c request future answer).log = s.log ++ events ∧
      ∀ e ∈ events, ∃ o c, e = .completed c o := by
  cases answer with
  | completes => exact ⟨[], (List.append_nil _).symm, by simp⟩
  | suspends => exact ⟨[], (List.append_nil _).symm, by simp⟩
  | raises e => exact ⟨[.completed c (.notSent e)], rfl, by simp⟩

theorem log_request (c : ℕ) (method : String) (params : PyVal) (now : ℚ) (socket : Bool)
    (answer : SendAnswer) :
    ∃ events, (s.request cl c method params now socket answer).log =
        s.log ++ .registered c (makeCall (s.ambient cl now) method params) :: events ∧
      ∀ e ∈ events, ∃ o c, e = .completed c o := by
  unfold request
  dsimp only
  split
  · split
    · obtain ⟨events, log, ends⟩ := log_send
        (s := s.draw.register c (makeCall (s.ambient cl now) method params) (cl.ids.of s.nextId)) c
        (makeCall (s.ambient cl now) method params) .pending answer
      exact ⟨events, log.trans (List.append_assoc ..), ends⟩
    · rename_i e _
      exact ⟨[.completed c (.notSent e)], List.append_assoc .., by simp⟩
  · exact ⟨[], rfl, by simp⟩

theorem encoded_of_frame {c : ℕ} {method : String} {params : PyVal} {now : ℚ} {socket : Bool}
    {answer : SendAnswer} {raw : Frame}
    (h : (Action.request c method params now socket answer).frame? cl s = some raw) :
    ∃ text, (makeCall (s.ambient cl now) method params).toJson cl.py = .ok text ∧
      raw = .json text := by
  cases socket with
  | false => cases h
  | true =>
    simp only [Action.frame?] at h
    split at h <;> cases h
    exact ⟨_, ‹_›, rfl⟩

/-- A step adds to the log, and of calls and frames only its own. -/
theorem writes_of_step {s' : Calls} {a : Action} (h : s.step cl a = some s') :
    ∃ events, s'.log = s.log ++ events ∧ Writes cl s a events := by
  cases a with
  | refuse c =>
    obtain ⟨-, rfl⟩ := begin?_eq_some.1 h
    exact ⟨_, rfl, .ends rfl (by simp)⟩
  | request c method params now socket answer =>
    obtain ⟨-, rfl⟩ := begin?_eq_some.1 h
    obtain ⟨events, log, ends⟩ := log_request (s := s) c method params now socket answer
    refine ⟨_, log, ⟨fun c' request mem => ?_, fun raw mem => ?_, fun raw sent => ?_⟩⟩
    · rcases List.mem_cons.1 mem with same | mem
      · obtain ⟨-, rfl⟩ := CallEvent.registered.inj same
        rfl
      · obtain ⟨o, c'', ho⟩ := ends _ mem
        cases ho
    · rcases List.mem_cons.1 mem with same | mem
      · cases same
      · obtain ⟨o, c', ho⟩ := ends _ mem
        cases ho
    · obtain ⟨text, encoded, rfl⟩ := encoded_of_frame sent
      exact ⟨c, _, text, List.mem_cons_self, encoded, rfl⟩
  | sent c answer =>
    obtain ⟨request, future, -, rfl⟩ := sent?_eq_some.1 h
    obtain ⟨events, log, ends⟩ := log_send (s := s) c request future answer
    exact ⟨events, log, .ends rfl ends⟩
  | wake c =>
    obtain ⟨request, future, sent, o, -, -, rfl⟩ := wake?_eq_some.1 h
    exact ⟨_, rfl, .ends rfl (by simp)⟩
  | timeOut c =>
    obtain ⟨request, future, sent, -, rfl⟩ := timeOut?_eq_some.1 h
    exact ⟨_, rfl, .ends rfl (by simp)⟩
  | receive raw now =>
    cases h
    refine ⟨[.received raw], ?_, ⟨by simp, by simp [Action.received?], by rintro raw' ⟨⟩⟩⟩
    unfold receive
    dsimp only
    split
    · exact log_handleReply _
    · rfl
  | draw =>
    cases h
    exact ⟨[], (List.append_nil _).symm, .ends rfl (by simp)⟩

end Calls

/-- A reply completes a call. -/
def CallEvent.replied : CallEvent → Bool
  | completed _ (.value _) | completed _ (.remoteError _) | completed _ (.unreadable _) => true
  | _ => false

theorem CallEvent.replied_iff {e : CallEvent} :
    e.replied = true ↔ ∃ c o, e = .completed c o ∧ o.FromReply := by
  constructor
  · intro h
    unfold replied at h
    split at h
    · exact ⟨_, _, rfl, trivial⟩
    · exact ⟨_, _, rfl, trivial⟩
    · exact ⟨_, _, rfl, trivial⟩
    · cases h
  · rintro ⟨c, o, rfl, reply⟩
    cases o with
    | value v => rfl
    | remoteError message => rfl
    | unreadable e => rfl
    | timeout => exact reply.elim
    | notConnected => exact reply.elim
    | notSent e => exact reply.elim

/-! ## The two programs and the sockets -/

/-- A program that makes calls: its state with the calls in it, what it does other than receiving
frames, and the frames it receives in one of its loops.  What it does is a step of its calls or
leaves them alone. -/
structure Caller where
  State : Type
  Action : Type
  client : Client
  init : State
  calls : State → Calls
  step : State → Action → Option State
  receive : State → ℕ → Frame → ℚ → Option State
  onCalls : State → Action → Option Calls.Action
  calls_init : calls init = .init
  calls_of_step : ∀ s a s', step s a = some s' →
    (∃ b, onCalls s a = some b ∧ (calls s).step client b = some (calls s')) ∨
      onCalls s a = none ∧ calls s' = calls s
  calls_of_receive : ∀ s l raw now s', receive s l raw now = some s' →
    (calls s).step client (.receive raw now) = some (calls s')

/-- The daemon, with its message handling loop. -/
def Daemon.caller (py : PyText) (ids : IdSupply) : Caller where
  State := Daemon
  Action := Daemon.Action
  client := client py ids
  init := .init
  calls := Daemon.calls
  step := step py ids
  receive d _ raw now := d.receive py ids raw now
  onCalls d a := some (a.onCalls d)
  calls_init := rfl
  calls_of_step _ _ _ h := .inl ⟨_, rfl, calls_of_step h⟩
  calls_of_receive _ _ raw now _ h := calls_of_step (a := .receive raw now) h

/-- A session, with its receive loops. -/
def Session.caller (env : Serialization.Env) (py : PyText) (ids : IdSupply) (sessionId : String) :
    Caller where
  State := Session
  Action := Session.Action
  client := client env py ids
  init := .init sessionId
  calls := Session.calls
  step := step env py ids
  receive := receive env py ids
  onCalls s a := a.onCalls s
  calls_init := rfl
  calls_of_step _ _ _ h := calls_of_step h
  calls_of_receive _ l raw now _ h := by
    obtain ⟨b, hb, hstep⟩ | ⟨hb, -⟩ := calls_of_step (a := .receive l raw now) h
    · obtain rfl := Option.some.inj hb
      exact hstep
    · cases hb

/-- What does not change: the client, what the server's `json.dumps` needs, and the sockets of the
client, each with the number of the task that handles it. -/
structure ExchangeEnv where
  caller : Caller
  serverPy : PyText
  ours : ℕ → Bool

/-- The server and the client with the frames on their way on each socket. -/
structure Exchange (env : ExchangeEnv) where
  world : World
  client : env.caller.State
  up : ℕ → List Frame
  down : ℕ → List JsonText

/-- A task of the server is started, or runs, with what `time.time()` returns in `_handle_ping`; the
client does something, and what it sends goes to a socket; it says something else; it receives the
next frame of a socket in one of its loops; or a socket breaks, and the rest is lost. -/
inductive ExchangeAction (env : ExchangeEnv) where
  | start (u : ℕ) (call : Call)
  | serve (u : ℕ) (input : Input) (pong : ℚ)
  | act (a : env.caller.Action) (wire : ℕ)
  | say (raw : Frame) (wire : ℕ)
  | deliver (wire l : ℕ) (now : ℚ)
  | lose (wire n m : ℕ)

namespace World

/-- The call that the handler is about to dispatch. -/
def dispatching (w : World) (u : ℕ) : Option RPCMessage :=
  match w.tasks u with
  | some (.endpoint ⟨_, .running _ (.dispatching msg)⟩) => some msg
  | _ => none

end World

namespace Exchange

variable {env : ExchangeEnv}

def server (env : ExchangeEnv) : Server := ⟨env.serverPy, .builtin⟩

def init (env : ExchangeEnv) : Exchange env :=
  ⟨.init, env.caller.init, fun _ => [], fun _ => []⟩

/-- The client's sockets have handlers, and nobody pushes a RESULT or an ERROR. -/
def startable (env : ExchangeEnv) (u : ℕ) : Call → Bool
  | .endpoint => true
  | .heartbeatLoop _ => !env.ours u
  | .sendToDevice _ message | .broadcast message =>
    !env.ours u && message.type ≠ .result && message.type ≠ .error

/-- What the handler of one of the client's sockets receives is the next frame on it. -/
def feed (s : Exchange env) (u : ℕ) (input : Input) : Option (Input × List Frame) :=
  if env.ours u ∧ s.world.receiving u ∧ input.received.isSome then
    match s.up u with
    | [] => none
    | raw :: up => some ({ input with received := some raw }, up)
  else some (input, s.up u)

/-- If the task calls an RPC handler, that does what the built-in one does. -/
def handle (s : Exchange env) (u : ℕ) (pong : ℚ) (input : Input) : Input :=
  match s.world.dispatching u with
  | some msg => { input with outcome := RPCDispatcher.builtinOutcome msg pong }
  | none => input

/-- A task of the server runs, and what it says is on its way. -/
def serve (s : Exchange env) (u : ℕ) (input : Input) (pong : ℚ) : Option (Exchange env) :=
  (s.feed u input).bind fun (input, up) =>
    (s.world.step (server env) (.step u (s.handle u pong input))).map fun world =>
      let events := world.hub.log.drop s.world.hub.log.length
      { s with
        world := world
        up := Function.update s.up u up
        down := fun w => s.down w ++ events.filterMap (Event.sentOn w) }

/-- A frame of the client is put on the socket. -/
def push (s : Exchange env) (wire : ℕ) (raw : Option Frame) : Exchange env :=
  { s with up := Function.update s.up wire (s.up wire ++ raw.toList) }

def step (s : Exchange env) : ExchangeAction env → Option (Exchange env)
  | .start u call =>
    if startable env u call then
      (s.world.step (server env) (.start u call)).map fun world => { s with world := world }
    else none
  | .serve u input pong => s.serve u input pong
  | .act a wire =>
    let onCalls := env.caller.onCalls s.client a
    if (onCalls.bind Calls.Action.received?).isNone then
      (env.caller.step s.client a).map fun client =>
        { s.push wire (onCalls.bind (·.frame? env.caller.client (env.caller.calls s.client))) with
          client := client }
    else none
  | .say raw wire =>
    if raw.type? = some .call then none else some (s.push wire raw)
  | .deliver wire l now =>
    match s.down wire with
    | [] => none
    | text :: down =>
      if env.ours wire then
        (env.caller.receive s.client l (.json text) now).map fun client =>
          { s with client := client, down := Function.update s.down wire down }
      else none
  | .lose wire n m =>
    some { s with
      up := Function.update s.up wire ((s.up wire).take n)
      down := Function.update s.down wire ((s.down wire).take m) }

/-- The log of the client's calls. -/
def log (s : Exchange env) : List CallEvent := (env.caller.calls s.client).log

/-! ## What holds in every run -/

/-- The message is what the server decodes from one of the client's requests. -/
def Decoded (env : ExchangeEnv) (request msg : RPCMessage) : Prop :=
  ∃ text amb, request.toJson env.caller.client.py = .ok text ∧
    RPCMessage.fromJson amb (.json text) = .ok msg

/-- The text is a reply of the dispatcher to the request. -/
def RepliesTo (env : ExchangeEnv) (request : RPCMessage) (text : JsonText) : Prop :=
  ∃ msg pong measured response, Decoded env request msg ∧
    RPCDispatcher.builtin.dispatch env.serverPy msg (RPCDispatcher.builtinOutcome msg pong) measured
      = .ok response ∧
    response.toJson env.serverPy = .ok text

/-- The handlers of the client's sockets dispatch requests of the client. -/
def Asked (env : ExchangeEnv) (log : List CallEvent) (u : ℕ) (msg : RPCMessage) : Prop :=
  env.ours u = true → ∃ c request, .registered c request ∈ log ∧ Decoded env request msg

/-- A RESULT or an ERROR for the client is a reply to one of its requests. -/
def Said (env : ExchangeEnv) (log : List CallEvent) (u : ℕ) (text : JsonText) : Prop :=
  env.ours u = true →
    (Frame.json text).type? = some .result ∨ (Frame.json text).type? = some .error →
      ∃ c request, .registered c request ∈ log ∧ RepliesTo env request text

structure Inv (s : Exchange env) : Prop where
  calls : (env.caller.calls s.client).Inv env.caller.client
  up : ∀ w raw, env.ours w = true → raw ∈ s.up w → raw.type? = some .call →
    ∃ c request text, .registered c request ∈ s.log ∧
      request.toJson env.caller.client.py = .ok text ∧ raw = .json text
  down : ∀ w text, text ∈ s.down w → Said env s.log w text
  tasks : ∀ u task, s.world.tasks u = some task →
    task.Speaks env.serverPy (Asked env s.log) (Said env s.log) u
  received : ∀ raw, .received raw ∈ s.log → ∃ w text, env.ours w = true ∧ raw = .json text ∧
    Said env s.log w text

theorem inv_init (env : ExchangeEnv) : (init env).Inv := by
  have silent : (init env).log = [] := congrArg Calls.log env.caller.calls_init
  refine ⟨?_, ?_, ?_, ?_, ?_⟩
  · show (env.caller.calls env.caller.init).Inv env.caller.client
    rw [env.caller.calls_init]
    exact Calls.inv_init
  · intro w raw _ mem
    cases mem
  · intro w text mem
    cases mem
  · intro u task here
    cases here
  · intro raw mem
    rw [silent] at mem
    cases mem

theorem Asked.mono {log : List CallEvent} {u : ℕ} {msg : RPCMessage} (asked : Asked env log u msg)
    (events : List CallEvent) : Asked env (log ++ events) u msg := fun ours => by
  obtain ⟨c, request, mem, decoded⟩ := asked ours
  exact ⟨c, request, List.mem_append_left _ mem, decoded⟩

theorem Said.mono {log : List CallEvent} {u : ℕ} {text : JsonText} (said : Said env log u text)
    (events : List CallEvent) : Said env (log ++ events) u text := fun ours typed => by
  obtain ⟨c, request, mem, replies⟩ := said ours typed
  exact ⟨c, request, List.mem_append_left _ mem, replies⟩

/-- A message of another type is no reply. -/
theorem said_of_type {log : List CallEvent} {msg : RPCMessage} {text : JsonText} {py : PyText}
    (encoded : msg.toJson py = .ok text) (result : msg.type ≠ .result) (error : msg.type ≠ .error)
    (u : ℕ) : Said env log u text := by
  intro _ typed
  rw [Frame.type?_of_toJson encoded] at typed
  rcases typed with typed | typed
  · exact absurd (Option.some.inj typed) result
  · exact absurd (Option.some.inj typed) error

/-! ### Steps of the server -/

/-- A message that is pushed is no RESULT and no ERROR. -/
theorem types_of_startable {u : ℕ} {call : Call} (h : startable env u call = true)
    {message : RPCMessage}
    (pushed : (∃ id, call = .sendToDevice id message) ∨ call = .broadcast message) :
    message.type ≠ .result ∧ message.type ≠ .error := by
  rcases pushed with ⟨id, rfl⟩ | rfl
  · simp only [startable, Bool.and_eq_true, decide_eq_true_eq] at h
    exact ⟨h.1.2, h.2⟩
  · simp only [startable, Bool.and_eq_true, decide_eq_true_eq] at h
    exact ⟨h.1.2, h.2⟩

theorem inv_start {s s' : Exchange env} (inv : s.Inv) {u : ℕ} {call : Call}
    (h : s.step (.start u call) = some s') : s'.Inv := by
  simp only [step] at h
  split at h
  · rename_i startable
    obtain ⟨world, started, rfl⟩ := Option.map_eq_some_iff.1 h
    simp only [World.step] at started
    split at started
    · obtain rfl := Option.some.inj started
      refine ⟨inv.calls, inv.up, inv.down, fun u' task here => ?_, inv.received⟩
      have here : Function.update s.world.tasks u (some (World.launch s.world.hub call)) u' =
        some task := here
      by_cases same : u' = u
      · subst same
        rw [Function.update_self] at here
        obtain rfl := Option.some.inj here
        refine @World.speaks_launch (server env) _ _ _ _ _ fun message pushed w text encoded => ?_
        obtain ⟨result, error⟩ := types_of_startable startable pushed
        exact said_of_type encoded result error w
      · rw [Function.update_of_ne same] at here
        exact inv.tasks u' task here
    · cases started
  · cases h

/-- What the handler of one of the client's sockets receives came from the client. -/
theorem received_of_feed {s : Exchange env} {u : ℕ} {input fed : Input} {up : List Frame}
    (h : s.feed u input = some (fed, up)) :
    fed.measured = input.measured ∧ (∀ raw ∈ up, raw ∈ s.up u) ∧
      (env.ours u = true → s.world.receiving u = true → ∀ raw, fed.received = some raw →
        raw ∈ s.up u) := by
  unfold feed at h
  split at h
  · split at h
    · cases h
    · rename_i head rest waiting
      obtain ⟨rfl, rfl⟩ := Prod.mk.inj (Option.some.inj h)
      refine ⟨rfl, fun raw mem => ?_, fun _ _ raw received => ?_⟩
      · rw [waiting]
        exact List.mem_cons_of_mem _ mem
      · obtain rfl := Option.some.inj received
        rw [waiting]
        exact List.mem_cons_self
  · rename_i elsewhere
    obtain ⟨rfl, rfl⟩ := Prod.mk.inj (Option.some.inj h)
    refine ⟨rfl, fun raw mem => mem, fun ours receiving raw received => ?_⟩
    exact absurd ⟨ours, receiving, by rw [received]; rfl⟩ elsewhere

theorem handle_eq {s : Exchange env} {u : ℕ} (pong : ℚ) (input : Input) :
    (s.handle u pong input).measured = input.measured ∧
      (s.handle u pong input).received = input.received ∧
      ∀ msg, s.world.dispatching u = some msg →
        (s.handle u pong input).outcome = RPCDispatcher.builtinOutcome msg pong := by
  unfold handle
  split
  · rename_i msg dispatching
    refine ⟨rfl, rfl, fun msg' same => ?_⟩
    obtain rfl := Option.some.inj (dispatching.symm.trans same)
    rfl
  · rename_i none
    exact ⟨rfl, rfl, fun msg same => by rw [none] at same; cases same⟩

/-- What a handler may do: dispatch requests of the client, and send the replies. -/
theorem allows_of_inv {s : Exchange env} (inv : s.Inv) {u : ℕ} {self : Endpoint} {input fed : Input}
    {up : List Frame} (here : s.world.tasks u = some (.endpoint self))
    (fedOn : s.feed u input = some (fed, up)) (pong : ℚ) :
    Served.Allows (server env) (Asked env s.log u) (Said env s.log u)
      ⟨s.world.hub, s.world.sessions, self⟩ (s.handle u pong fed) := by
  obtain ⟨-, -, fromUs⟩ := received_of_feed fedOn
  obtain ⟨-, received, outcome⟩ := handle_eq (s := s) (u := u) pong fed
  obtain ⟨deviceId, pc⟩ := self
  refine ⟨?_, ?_, ?_⟩
  · rintro conn raw msg waiting got decoded typed ours
    dsimp only at waiting
    subst waiting
    have receiving : s.world.receiving u = true := by
      unfold World.receiving
      rw [here]
    have mem := fromUs ours receiving raw (received ▸ got)
    obtain ⟨type, htype, rfl⟩ := Frame.fromJson_eq_ok_iff.1 decoded
    have call : raw.type? = some .call := htype.trans (congrArg some typed)
    obtain ⟨c, request, text, registered, encoded, rfl⟩ := inv.up u raw ours mem call
    exact ⟨c, request, registered, text, _, encoded, decoded⟩
  · rintro conn msg response text dispatching asked dispatched encoded ours -
    dsimp only at dispatching
    subst dispatching
    have about : s.world.dispatching u = some msg := by
      unfold World.dispatching
      rw [here]
    obtain ⟨c, request, registered, decoded⟩ := asked ours
    rw [outcome msg about] at dispatched
    exact ⟨c, request, registered, msg, pong, _, response, decoded, dispatched, encoded⟩
  · intro params text encoded
    have types : MessageType.notify ≠ .result ∧ MessageType.notify ≠ .error := by decide
    exact said_of_type encoded types.1 types.2 u

theorem inv_serve {s s' : Exchange env} (inv : s.Inv) {u : ℕ} {input : Input} {pong : ℚ}
    (h : s.step (.serve u input pong) = some s') : s'.Inv := by
  obtain ⟨⟨fed, up⟩, fedOn, h⟩ := Option.bind_eq_some_iff.1 h
  obtain ⟨world, stepped, rfl⟩ := Option.map_eq_some_iff.1 h
  obtain ⟨task, here, ran⟩ := Option.bind_eq_some_iff.1 stepped
  have types : MessageType.heartbeat ≠ .result ∧ MessageType.heartbeat ≠ .error := by decide
  have before : task.Speaks (server env).py (Asked env s.log) (Said env s.log) u :=
    inv.tasks u task here
  obtain ⟨⟨events, log, within⟩, task', here', speaks⟩ :=
    World.speaks_of_runTask before
      (fun self same => allows_of_inv inv (here.trans (congrArg some same)) fedOn pong)
      (fun w text encoded => said_of_type encoded types.1 types.2 w) ran
  obtain ⟨-, rest, -⟩ := received_of_feed fedOn
  refine ⟨inv.calls, fun w raw ours mem => ?_, fun w text mem => ?_, fun u' task here => ?_,
    inv.received⟩
  · have mem : raw ∈ Function.update s.up u up w := mem
    refine inv.up w raw ours ?_
    by_cases same : w = u
    · subst same
      rw [Function.update_self] at mem
      exact rest raw mem
    · rwa [Function.update_of_ne same] at mem
  · rcases List.mem_append.1 mem with mem | mem
    · exact inv.down w text mem
    · obtain ⟨e, he, sent⟩ := List.mem_filterMap.1 mem
      rw [log, List.drop_left] at he
      have allowed := within e he
      unfold Event.sentOn at sent
      split at sent
      · split at sent
        · rename_i same
          obtain rfl := Option.some.inj sent
          exact same ▸ allowed
        · cases sent
      · cases sent
  · by_cases same : u' = u
    · subst same
      obtain rfl := Option.some.inj (here'.symm.trans here)
      exact speaks
    · exact inv.tasks u' task ((World.tasks_of_runTask ran same).symm.trans here)

/-! ### Steps of the client -/

/-- The client goes on: what is new in its log are its calls and frames it was sent, and what is new
on its way to the server are its calls and frames of other types. -/
theorem Inv.goOn {s : Exchange env} (inv : s.Inv) {client : env.caller.State}
    {up : ℕ → List Frame} {down : ℕ → List JsonText} (events : List CallEvent)
    (calls : (env.caller.calls client).Inv env.caller.client)
    (log : (env.caller.calls client).log = s.log ++ events)
    (sends : ∀ w raw, raw ∈ up w → raw ∈ s.up w ∨ raw.type? ≠ some .call ∨
      ∃ c request text, .registered c request ∈ events ∧
        request.toJson env.caller.client.py = .ok text ∧ raw = .json text)
    (rest : ∀ w text, text ∈ down w → text ∈ s.down w)
    (receives : ∀ raw, .received raw ∈ events → ∃ w text, env.ours w = true ∧ raw = .json text ∧
      text ∈ s.down w) : Inv ⟨s.world, client, up, down⟩ := by
  refine ⟨calls, fun w raw ours mem typed => ?_, fun w text mem => ?_, fun u task here => ?_,
    fun raw mem => ?_⟩
  · show ∃ c request text, .registered c request ∈ (env.caller.calls client).log ∧ _
    rw [log]
    rcases sends w raw mem with mem | other | ⟨c, request, text, registered, encoded, rfl⟩
    · obtain ⟨c, request, text, registered, encoded, rfl⟩ := inv.up w raw ours mem typed
      exact ⟨c, request, text, List.mem_append_left _ registered, encoded, rfl⟩
    · exact absurd typed other
    · exact ⟨c, request, text, List.mem_append_right _ registered, encoded, rfl⟩
  · show Said env (env.caller.calls client).log w text
    rw [log]
    exact (inv.down w text (rest w text mem)).mono events
  · show task.Speaks env.serverPy (Asked env (env.caller.calls client).log)
      (Said env (env.caller.calls client).log) u
    rw [log]
    exact (inv.tasks u task here).mono (fun msg asked => asked.mono events)
      fun w text said => said.mono events
  · have mem : .received raw ∈ (env.caller.calls client).log := mem
    show ∃ w text, env.ours w = true ∧ raw = .json text ∧
      Said env (env.caller.calls client).log w text
    rw [log] at mem ⊢
    rcases List.mem_append.1 mem with mem | mem
    · obtain ⟨w, text, ours, rfl, said⟩ := inv.received raw mem
      exact ⟨w, text, ours, rfl, said.mono events⟩
    · obtain ⟨w, text, ours, rfl, waiting⟩ := receives raw mem
      exact ⟨w, text, ours, rfl, (inv.down w text waiting).mono events⟩

/-- What is on the way on a socket that a frame was put on. -/
theorem mem_push {s : Exchange env} {wire w : ℕ} {frame : Option Frame} {raw : Frame}
    (mem : raw ∈ (s.push wire frame).up w) : raw ∈ s.up w ∨ frame = some raw := by
  have mem : raw ∈ Function.update s.up wire (s.up wire ++ frame.toList) w := mem
  by_cases same : w = wire
  · subst same
    rw [Function.update_self] at mem
    exact (List.mem_append.1 mem).imp id Option.mem_toList.1
  · rw [Function.update_of_ne same] at mem
    exact .inl mem

theorem inv_act {s s' : Exchange env} (inv : s.Inv) {a : env.caller.Action} {wire : ℕ}
    (h : s.step (.act a wire) = some s') : s'.Inv := by
  simp only [step] at h
  split at h
  · rename_i deaf
    obtain ⟨client, stepped, rfl⟩ := Option.map_eq_some_iff.1 h
    rcases env.caller.calls_of_step _ _ _ stepped with ⟨b, onCalls, ran⟩ | ⟨onCalls, same⟩
    · obtain ⟨events, log, writes⟩ := Calls.writes_of_step ran
      have deaf : b.received? = none := by simpa [onCalls] using deaf
      refine inv.goOn events (Calls.inv_step _ _ _ inv.calls ran) log (fun w raw mem => ?_)
        (fun w text mem => mem) fun raw mem => ?_
      · rcases mem_push mem with mem | sent
        · exact .inl mem
        · rw [onCalls] at sent
          exact .inr (.inr (writes.sends raw sent))
      · exact absurd (writes.received raw mem) (by simp [deaf])
    · refine inv.goOn [] (same ▸ inv.calls) ?_ (fun w raw mem => ?_)
        (fun w text mem => mem) (by simp)
      · rw [List.append_nil]
        exact congrArg Calls.log same
      · rcases mem_push mem with mem | sent
        · exact .inl mem
        · rw [onCalls] at sent
          cases sent
  · cases h

theorem inv_say {s s' : Exchange env} (inv : s.Inv) {raw : Frame} {wire : ℕ}
    (h : s.step (.say raw wire) = some s') : s'.Inv := by
  simp only [step] at h
  split at h
  · cases h
  · rename_i other
    obtain rfl := Option.some.inj h
    refine inv.goOn [] inv.calls (List.append_nil _).symm (fun w raw' mem => ?_)
      (fun w text mem => mem) (by simp)
    rcases mem_push mem with mem | same
    · exact .inl mem
    · obtain rfl := Option.some.inj same
      exact .inr (.inl other)

theorem inv_deliver {s s' : Exchange env} (inv : s.Inv) {wire l : ℕ} {now : ℚ}
    (h : s.step (.deliver wire l now) = some s') : s'.Inv := by
  simp only [step] at h
  split at h
  · cases h
  · rename_i text down waiting
    split at h
    · rename_i ours
      obtain ⟨client, received, rfl⟩ := Option.map_eq_some_iff.1 h
      have ran := env.caller.calls_of_receive _ _ _ _ _ received
      obtain ⟨events, log, writes⟩ := Calls.writes_of_step ran
      refine inv.goOn events (Calls.inv_step _ _ _ inv.calls ran) log (fun w raw mem => .inl mem)
        (fun w text' mem => ?_) fun raw mem => ?_
      · by_cases same : w = wire
        · subst same
          rw [Function.update_self] at mem
          rw [waiting]
          exact List.mem_cons_of_mem _ mem
        · rwa [Function.update_of_ne same] at mem
      · obtain rfl := Option.some.inj (writes.received raw mem)
        exact ⟨wire, text, ours, rfl, waiting ▸ List.mem_cons_self⟩
    · cases h

theorem inv_lose {s s' : Exchange env} (inv : s.Inv) {wire n m : ℕ}
    (h : s.step (.lose wire n m) = some s') : s'.Inv := by
  obtain rfl := Option.some.inj h
  have kept {β : Type} {f : ℕ → List β} {k w : ℕ} {x : β}
      (mem : x ∈ Function.update f wire ((f wire).take k) w) : x ∈ f w := by
    by_cases same : w = wire
    · subst same
      rw [Function.update_self] at mem
      exact List.mem_of_mem_take mem
    · rwa [Function.update_of_ne same] at mem
  exact inv.goOn [] inv.calls (List.append_nil _).symm (fun w raw mem => .inl (kept mem))
    (fun w text mem => kept mem) (by simp)

theorem inv_step (s : Exchange env) (a : ExchangeAction env) (s' : Exchange env) (inv : s.Inv)
    (h : s.step a = some s') : s'.Inv := by
  cases a with
  | start u call => exact inv_start inv h
  | serve u input pong => exact inv_serve inv h
  | act a wire => exact inv_act inv h
  | say raw wire => exact inv_say inv h
  | deliver wire l now => exact inv_deliver inv h
  | lose wire n m => exact inv_lose inv h

theorem inv_run {as : List (ExchangeAction env)} {s : Exchange env}
    (ran : Machine.run step (init env) as = some s) : s.Inv :=
  Machine.invariant_run inv_step (inv_init env) ran

/-! ## What calls are told -/

/-- Two messages that were registered under one id are the same. -/
theorem request_unique {cl : Client} {log : List CallEvent} (correlated : Correlated cl log)
    {c c' : ℕ} {request request' : RPCMessage} (mem : .registered c request ∈ log)
    (mem' : .registered c' request' ∈ log) (id : request'.id = request.id) :
    request' = request := by
  obtain ⟨before, after, rfl⟩ := List.append_of_mem mem
  rcases List.mem_append.1 mem' with early | late
  · exact absurd id (correlated _ _ _ rfl c' request' early).2
  · rcases List.mem_cons.1 late with same | later
    · exact (CallEvent.registered.inj same).2
    · obtain ⟨between, rest, rfl⟩ := List.append_of_mem later
      have explained := correlated (before ++ .registered c request :: between)
        (.registered c' request') rest (by simp)
      exact absurd id.symm (explained c request (by simp)).2

/-- A reply carries the id of its request. -/
theorem id_of_repliesTo {request : RPCMessage} {text : JsonText} {id : String} (ne : id ≠ "")
    (own : request.id = .str id) (h : RepliesTo env request text) :
    text.field "id" = some (.str id) := by
  obtain ⟨msg, pong, measured, response, ⟨sent, amb, sentOk, decoded⟩, dispatched, encoded⟩ := h
  have field : sent.field "id" = some request.id :=
    RPCMessage.field_id_of_toJson _ sentOk (by rw [own]; trivial)
  obtain ⟨type, -, rfl⟩ := Frame.fromJson_eq_ok_iff.1 decoded
  have same : (RPCMessage.init amb type (((Frame.json sent).field "method").getD .none)
      (((Frame.json sent).field "params").getD .none)
      (((Frame.json sent).field "result").getD .none)
      (((Frame.json sent).field "error").getD .none) (((Frame.json sent).field "id").getD .none)
      (((Frame.json sent).field "metadata").getD .none)).id = .str id := by
    show (((Frame.json sent).field "id").getD .none).or _ = _
    rw [show (Frame.json sent).field "id" = some (.str id) from field.trans (congrArg some own)]
    exact PyVal.str_or ne _
  obtain ⟨keeps, -⟩ := RPCDispatcher.dispatch_reply dispatched
    (by rw [same]; simpa [PyVal.truthy] using ne)
  rw [same] at keeps
  have read := RPCMessage.field_id_of_toJson env.serverPy encoded (by rw [keeps]; trivial)
  rw [read, keeps]

/-- What completes a call is in a reply to the call itself. -/
theorem replied_of_completed {s : Exchange env} (inv : s.Inv) {c : ℕ} {o : CallOutcome}
    (completed : .completed c o ∈ s.log) (reply : o.FromReply) :
    ∃ request text, .registered c request ∈ s.log ∧ RepliesTo env request text ∧
      env.caller.client.content (.json text) = some o := by
  have correlated : Correlated env.caller.client s.log := inv.calls.correlated
  obtain ⟨past, later, hlog⟩ := List.append_of_mem completed
  obtain ⟨-, explained⟩ := correlated past _ later hlog
  obtain ⟨earlier, request, during, raw, hpast, first, content⟩ := explained reply
  have registered : .registered c request ∈ s.log := by
    rw [hlog, hpast]
    simp
  obtain ⟨before, after, hduring, answers, -⟩ := first
  have received : .received raw ∈ s.log := by
    rw [hlog, hpast, hduring]
    simp
  obtain ⟨w, text, ours, rfl, said⟩ := inv.received raw received
  obtain ⟨typed, id⟩ := answers
  obtain ⟨c', request', registered', replies⟩ := said ours typed
  obtain ⟨-, n, -, own⟩ := (inv.calls.tracked c').registered request' registered'
  have same : text.field "id" = some request'.id :=
    (id_of_repliesTo (env.caller.client.ids.nonempty n) own replies).trans (congrArg some own.symm)
  obtain rfl := request_unique correlated registered registered'
    (Option.some.inj (same.symm.trans id))
  exact ⟨request', text, registered, replies, content⟩

/-- What the built-in methods make of a request, as what its future is settled with: the parameters
of an echo are those that the server decoded. -/
inductive BuiltinReply (py : PyText) (request : RPCMessage) : Future → Prop
  | pong (method : request.method = .str "ping") (now : ℚ) :
    BuiltinReply py request (.result (RPCDispatcher.handlePing request.params now))
  | echo (method : request.method = .str "echo") {text : JsonText}
    (encoded : py.dumps request.params = .ok text) :
    BuiltinReply py request (.result (text.loads.or (.dict [])))
  | unknown {method : String} (own : request.method = .str method)
    (unknown : method ∉ RPCDispatcher.builtin.handlers) :
    BuiltinReply py request (.exception (.str ("Unknown method: " ++ method)))

/-- The server decodes the method of a request. -/
theorem method_of_decoded {request msg : RPCMessage} {method : String}
    (own : request.method = .str method) (h : Decoded env request msg) :
    msg.method.or (.str "") = .str method := by
  obtain ⟨text, amb, encoded, decoded⟩ := h
  obtain ⟨type, -, rfl⟩ := Frame.fromJson_eq_ok_iff.1 decoded
  show ((text.field "method").getD .none).or (.str "") = .str method
  have entry : PyVal.getStr "method" request.entries =
      if request.method.truthy = true then some request.method else none := by
    simp [RPCMessage.entries, PyVal.getStr_append, PyVal.getStr_cons, RPCMessage.getStr_fieldIf]
  by_cases empty : method = ""
  · subst empty
    have none : PyVal.getStr "method" request.entries = none := by
      rw [entry, own]
      rfl
    rw [PyText.field_of_dumps_eq_none _ request.entries_strings request.entries_nodup encoded none]
    rfl
  · have some : PyVal.getStr "method" request.entries = some (.str method) := by
      rw [entry, own]
      simp [PyVal.truthy, empty]
    obtain ⟨u, hu, field⟩ := RPCMessage.field_of_toJson _ encoded some
    obtain rfl := Except.ok.inj hu
    rw [field]
    exact PyVal.str_or empty _

/-- The server decodes the parameters of a request as their text reads. -/
theorem params_of_decoded {request msg : RPCMessage}
    (built : ∃ params : PyVal, request.params = params.or (.dict []))
    (h : Decoded env request msg) :
    ∃ text, env.caller.client.py.dumps request.params = .ok text ∧
      msg.params = text.loads.or (.dict []) := by
  obtain ⟨text, amb, encoded, decoded⟩ := h
  obtain ⟨type, -, rfl⟩ := Frame.fromJson_eq_ok_iff.1 decoded
  show ∃ t, _ ∧ ((text.field "params").getD .none).or (.dict []) = _
  have entry : PyVal.getStr "params" request.entries =
      if request.params.truthy = true then some request.params else none := by
    simp [RPCMessage.entries, PyVal.getStr_append, PyVal.getStr_cons, RPCMessage.getStr_fieldIf]
  by_cases truthy : request.params.truthy = true
  · rw [if_pos truthy] at entry
    obtain ⟨u, hu, field⟩ := RPCMessage.field_of_toJson _ encoded entry
    exact ⟨u, hu, by rw [field]; rfl⟩
  · rw [if_neg truthy] at entry
    rw [PyText.field_of_dumps_eq_none _ request.entries_strings request.entries_nodup encoded entry]
    obtain ⟨params, hparams⟩ := built
    have empty : request.params = .dict [] := by
      rw [hparams] at truthy ⊢
      unfold PyVal.or at truthy ⊢
      split_ifs at truthy ⊢ with h
      · exact absurd h truthy
      · rfl
    exact ⟨.obj [], by rw [empty]; rfl, rfl⟩

/-- A RESULT is settled with its result, when that came from a text and is not `None`. -/
theorem settlement_of_result {cl : Client} {py : PyText} {response : RPCMessage} {text : JsonText}
    (typed : response.type = .result) (json : response.result.IsJson)
    (isSome : response.result.isNone = false) (encoded : response.toJson py = .ok text) :
    cl.settlement (.json text) = .ok (.result response.result) := by
  obtain ⟨u, hu, field⟩ :=
    RPCMessage.field_of_toJson py encoded (RPCMessage.getStr_entries_result isSome)
  obtain ⟨u', hu', loads⟩ := py.loads_dumps json
  obtain rfl := Except.ok.inj (hu.symm.trans hu')
  have type? : (Frame.json text).type? = some .result :=
    typed ▸ Frame.type?_of_toJson encoded
  have read : (Frame.json text).field "result" = some response.result := field.trans (by rw [loads])
  unfold Client.settlement
  rw [type?, read]
  rfl

/-- An ERROR is settled with its message. -/
theorem settlement_of_error {cl : Client} {py : PyText} {amb : Ambient} {id : PyVal}
    {code message : String} {text : JsonText}
    (encoded : (makeError amb id (.str code) (.str message) .none).toJson py = .ok text) :
    cl.settlement (.json text) = .ok (.exception (.str message)) := by
  have error : PyVal.getStr "error" (makeError amb id (.str code) (.str message) .none).entries =
      some (.dict [(.str "code", .str code), (.str "message", .str message),
        (.str "data", .none)]) := rfl
  obtain ⟨u, hu, field⟩ := RPCMessage.field_of_toJson py encoded error
  have json : (PyVal.dict [(.str "code", .str code), (.str "message", .str message),
      (.str "data", .none)]).IsJson := by
    refine (PyVal.everywhere_dict_iff _).2 ⟨⟨by simp, by simp⟩, ?_⟩
    simp only [List.forall_mem_cons]
    exact ⟨trivial, trivial, trivial, by simp⟩
  obtain ⟨u', hu', loads⟩ := py.loads_dumps json
  obtain rfl := Except.ok.inj (hu.symm.trans hu')
  have type? : (Frame.json text).type? = some .error := Frame.type?_of_toJson encoded
  have read : (Frame.json text).field "error" = _ := field.trans (by rw [loads])
  unfold Client.settlement
  rw [type?, read]
  rfl

theorem isNone_or_dict (v : PyVal) : (v.or (.dict [])).isNone = false := by
  unfold PyVal.or
  split_ifs with h
  · cases v with
    | atom a => cases a <;> first | rfl | cases h
    | _ => rfl
  · rfl

/-- A reply settles the future of its call with what the built-in methods make of the request. -/
theorem settlement_of_repliesTo {request : RPCMessage} {text : JsonText} {method : String}
    (own : request.method = .str method)
    (built : ∃ params : PyVal, request.params = params.or (.dict []))
    (h : RepliesTo env request text) :
    ∃ future, env.caller.client.settlement (.json text) = .ok future ∧
      BuiltinReply env.caller.client.py request future := by
  obtain ⟨msg, pong, measured, response, decoded, dispatched, encoded⟩ := h
  have called := method_of_decoded own decoded
  obtain ⟨ptext, hptext, params⟩ := params_of_decoded built decoded
  have exact_method (ne : method ≠ "") : msg.method = .str method := by
    unfold PyVal.or at called
    split_ifs at called with h
    · exact called
    · exact absurd (by simpa using called.symm) ne
  have key : (PyVal.str method).hash? = some (.str method) := rfl
  unfold RPCDispatcher.dispatch at dispatched
  rw [called] at dispatched
  simp only [key] at dispatched
  split at dispatched
  · rename_i registered
    have known : method = "ping" ∨ method = "echo" := by
      simpa [RPCDispatcher.builtin] using registered
    rcases known with rfl | rfl
    · have outcome : RPCDispatcher.builtinOutcome msg pong =
          .returns (RPCDispatcher.handlePing msg.params pong) := by
        unfold RPCDispatcher.builtinOutcome
        rw [exact_method (by decide)]
        rfl
      rw [outcome] at dispatched
      obtain rfl := Except.ok.inj dispatched
      have json : (RPCDispatcher.handlePing msg.params pong).IsJson := by
        refine (PyVal.everywhere_dict_iff _).2 ⟨⟨by simp, by simp⟩, ?_⟩
        simp only [List.forall_mem_cons]
        exact ⟨trivial, trivial, by simp⟩
      exact ⟨_, settlement_of_result rfl json rfl encoded, .pong own pong⟩
    · have outcome : RPCDispatcher.builtinOutcome msg pong = .returns msg.params := by
        unfold RPCDispatcher.builtinOutcome
        rw [exact_method (by decide)]
        rfl
      rw [outcome] at dispatched
      obtain rfl := Except.ok.inj dispatched
      have json : msg.params.IsJson := by
        rw [params]
        unfold PyVal.or
        split_ifs
        · exact JsonText.isJson_loads ptext
        · exact (PyVal.everywhere_dict_iff _).2 ⟨⟨by simp, by simp⟩, by simp⟩
      have isSome : msg.params.isNone = false := params ▸ isNone_or_dict _
      refine ⟨_, settlement_of_result rfl json isSome encoded, ?_⟩
      show BuiltinReply _ _ (.result msg.params)
      rw [params]
      exact .echo own hptext
  · rename_i unknown
    obtain rfl := Except.ok.inj dispatched
    have unknown : method ∉ RPCDispatcher.builtin.handlers := by
      simpa [RPCDispatcher.builtin] using unknown
    refine ⟨_, settlement_of_error encoded, ?_⟩
    show BuiltinReply _ _ (.exception (.str ("Unknown method: " ++ method)))
    exact .unknown own unknown

/-- A request is one that the program makes. -/
def Makes (env : ExchangeEnv) (request : RPCMessage) : Prop :=
  ∃ (state : env.caller.State) (a : env.caller.Action) (b : Calls.Action),
    env.caller.onCalls state a = some b ∧
      b.message? env.caller.client (env.caller.calls state) = some request

/-- The requests of the client are made by the client. -/
theorem makes_of_step (s : Exchange env) (a : ExchangeAction env) (s' : Exchange env)
    (makes : ∀ c request, .registered c request ∈ s.log → Makes env request)
    (h : s.step a = some s') : ∀ c request, .registered c request ∈ s'.log → Makes env request := by
  cases a with
  | start u call =>
    simp only [step] at h
    split at h
    · obtain ⟨world, -, rfl⟩ := Option.map_eq_some_iff.1 h
      exact makes
    · cases h
  | serve u input pong =>
    obtain ⟨⟨fed, up⟩, -, h⟩ := Option.bind_eq_some_iff.1 h
    obtain ⟨world, -, rfl⟩ := Option.map_eq_some_iff.1 h
    exact makes
  | act a wire =>
    simp only [step] at h
    split at h
    · obtain ⟨client, stepped, rfl⟩ := Option.map_eq_some_iff.1 h
      intro c request mem
      have mem : .registered c request ∈ (env.caller.calls client).log := mem
      rcases env.caller.calls_of_step _ _ _ stepped with ⟨b, onCalls, ran⟩ | ⟨-, same⟩
      · obtain ⟨events, log, writes⟩ := Calls.writes_of_step ran
        rw [log] at mem
        rcases List.mem_append.1 mem with mem | mem
        · exact makes c request mem
        · exact ⟨_, a, b, onCalls, writes.registered c request mem⟩
      · rw [same] at mem
        exact makes c request mem
    · cases h
  | say raw wire =>
    simp only [step] at h
    split at h
    · cases h
    · obtain rfl := Option.some.inj h
      exact makes
  | deliver wire l now =>
    simp only [step] at h
    split at h
    · cases h
    · split at h
      · obtain ⟨client, received, rfl⟩ := Option.map_eq_some_iff.1 h
        intro c request mem
        have mem : .registered c request ∈ (env.caller.calls client).log := mem
        obtain ⟨events, log, writes⟩ :=
          Calls.writes_of_step (env.caller.calls_of_receive _ _ _ _ _ received)
        rw [log] at mem
        rcases List.mem_append.1 mem with mem | mem
        · exact makes c request mem
        · cases writes.registered c request mem
      · cases h
  | lose wire n m =>
    obtain rfl := Option.some.inj h
    exact makes

theorem makes_of_run {as : List (ExchangeAction env)} {s : Exchange env}
    (ran : Machine.run step (init env) as = some s) {c : ℕ} {request : RPCMessage}
    (mem : .registered c request ∈ s.log) : Makes env request := by
  have start : ∀ c request, .registered c request ∈ (init env).log → Makes env request := by
    intro c request mem
    have silent : (init env).log = [] := congrArg Calls.log env.caller.calls_init
    rw [silent] at mem
    cases mem
  exact Machine.invariant_run makes_of_step start ran c request mem

theorem built_of_message {cl : Client} {s : Calls} {b : Calls.Action} {request : RPCMessage}
    (h : b.message? cl s = some request) : (∃ method, request.method = .str method) ∧
      ∃ params : PyVal, request.params = params.or (.dict []) := by
  cases b with
  | request c method params now socket answer =>
    obtain rfl := Option.some.inj h
    exact ⟨⟨method, rfl⟩, params, rfl⟩
  | _ => cases h

/-- Whatever the server, the client and the sockets do: a call that a reply completes is completed
with what the built-in methods make of the call's own request. -/
theorem told_of_run {as : List (ExchangeAction env)} {s : Exchange env}
    (ran : Machine.run step (init env) as = some s) {c : ℕ} {o : CallOutcome}
    (completed : .completed c o ∈ s.log) (reply : o.FromReply) :
    ∃ request future, .registered c request ∈ s.log ∧ Makes env request ∧
      BuiltinReply env.caller.client.py request future ∧
      env.caller.client.outcome future = some o := by
  obtain ⟨request, text, registered, replies, content⟩ :=
    replied_of_completed (inv_run ran) completed reply
  have makes := makes_of_run ran registered
  obtain ⟨state, a, b, -, message⟩ := makes
  obtain ⟨⟨method, own⟩, built⟩ := built_of_message message
  obtain ⟨future, settles, told⟩ := settlement_of_repliesTo own built replies
  unfold Client.content at content
  rw [settles] at content
  exact ⟨request, future, registered, makes_of_run ran registered, told, content⟩

/-- A session makes one kind of request. -/
theorem method_of_session {env : Serialization.Env} {py serverPy : PyText} {ids : IdSupply}
    {sessionId : String} {ours : ℕ → Bool} {request : RPCMessage}
    (h : Makes ⟨Session.caller env py ids sessionId, serverPy, ours⟩ request) :
    request.method = .str "exec.call" := by
  obtain ⟨state, a, b, onCalls, message⟩ := h
  have onCalls : Session.Action.onCalls state a = some b := onCalls
  cases a with
  | execute c e now answer =>
    simp only [Session.Action.onCalls] at onCalls
    split at onCalls
    · obtain rfl := Option.some.inj onCalls
      obtain rfl := Option.some.inj message
      rfl
    · cases onCalls
  | connectDone c success now answer =>
    obtain ⟨e, -, rfl⟩ := Option.map_eq_some_iff.1 onCalls
    obtain rfl := Option.some.inj message
    rfl
  | sent c answer =>
    cases onCalls
    cases message
  | wake c =>
    cases onCalls
    cases message
  | timeOut c =>
    cases onCalls
    cases message
  | receive l raw now =>
    cases onCalls
    cases message
  | startLoop l => cases onCalls
  | endLoop l cause => cases onCalls
  | lose w => cases onCalls

/-- A run with a call that a reply completes. -/
theorem completed_of_any {ran : Option (Exchange env)}
    (replied : ran.any (fun s => s.log.any CallEvent.replied) = true) :
    ∃ s c o, ran = some s ∧ .completed c o ∈ s.log ∧ o.FromReply := by
  obtain ⟨s, ran, replied⟩ := (Option.any_eq_true _ _).1 replied
  obtain ⟨e, mem, replied⟩ := List.any_eq_true.1 replied
  obtain ⟨c, o, rfl, reply⟩ := CallEvent.replied_iff.1 replied
  exact ⟨s, c, o, ran, mem, reply⟩

end Exchange

/-! ## Sessions and daemons -/

/-- Whatever a cloud session, the server and the sockets do, no `execute` of the session returns a
value: one that a reply completes raises the server's refusal, for the server has no method
`exec.call`. -/
theorem execute_refused (env : Serialization.Env) (py serverPy : PyText) (ids : IdSupply)
    (sessionId : String) (ours : ℕ → Bool)
    (as : List (ExchangeAction ⟨Session.caller env py ids sessionId, serverPy, ours⟩))
    (s : Exchange ⟨Session.caller env py ids sessionId, serverPy, ours⟩)
    (ran : Machine.run Exchange.step (.init _) as = some s) (c : ℕ) (o : CallOutcome)
    (completed : .completed c o ∈ s.log) (reply : o.FromReply) :
    o = .remoteError (.str "Unknown method: exec.call") := by
  obtain ⟨request, future, -, makes, told, outcome⟩ := Exchange.told_of_run ran completed reply
  have own := Exchange.method_of_session makes
  cases told with
  | pong method now => exact absurd (own.symm.trans method) (by simp)
  | echo method encoded => exact absurd (own.symm.trans method) (by simp)
  | unknown method unknown =>
    obtain rfl : "exec.call" = _ := by simpa using own.symm.trans method
    exact (Option.some.inj outcome).symm

/-- A session whose only socket is the first. -/
def sampleSession : ExchangeEnv :=
  ⟨Session.caller ⟨fun _ => .ok .none, none, none⟩ plainText tallyIds "s", plainText, (· = 0)⟩

/-- The session connects for a call, and the server answers it. -/
def refusal : List (ExchangeAction sampleSession) :=
  [.start 0 .endpoint, .serve 0 (.io .ok) 0, .serve 0 (.io .ok) 0,
    .act (Session.Action.execute 0 ⟨"numpy.zeros", [], []⟩ 0 .completes) 0,
    .act (Session.Action.connectDone 0 true 0 .completes) 0, .act (Session.Action.startLoop 0) 0,
    .serve 0 (.frame .notJson) 0, .serve 0 (.io .ok) 0, .serve 0 (.io .ok) 0, .deliver 0 0 0,
    .act (Session.Action.wake 0) 0]

theorem execute_refused_refusal :
    ∃ s c o, Machine.run Exchange.step (.init sampleSession) refusal = some s ∧
      .completed c o ∈ s.log ∧ o.FromReply ∧
        o = .remoteError (.str "Unknown method: exec.call") := by
  have replied : (Machine.run Exchange.step (.init sampleSession) refusal).any
      (fun s => s.log.any CallEvent.replied) = true := by decide +kernel
  obtain ⟨s, c, o, ran, completed, reply⟩ := Exchange.completed_of_any replied
  exact ⟨s, c, o, ran, completed, reply,
    execute_refused _ _ _ _ _ _ refusal s ran c o completed reply⟩

/-- Whatever the daemon, the server and the sockets do: an `rpc_call` that a reply completes returns
the answer to a ping, or the parameters of its own echo as JSON has them, or it raises the server's
refusal of its own method. -/
theorem rpcCall_told (py serverPy : PyText) (ids : IdSupply) (ours : ℕ → Bool)
    (as : List (ExchangeAction ⟨Daemon.caller py ids, serverPy, ours⟩))
    (s : Exchange ⟨Daemon.caller py ids, serverPy, ours⟩)
    (ran : Machine.run Exchange.step (.init _) as = some s) (c : ℕ) (o : CallOutcome)
    (completed : .completed c o ∈ s.log) (reply : o.FromReply) :
    ∃ request method, .registered c request ∈ s.log ∧ request.method = .str method ∧
      (method = "ping" ∧
          (∃ now, o = .value (RPCDispatcher.handlePing request.params now)) ∨
        method = "echo" ∧ (∃ text, py.dumps request.params = .ok text ∧
          o = .value (text.loads.or (.dict []))) ∨
        method ≠ "ping" ∧ method ≠ "echo" ∧
          o = .remoteError (.str ("Unknown method: " ++ method))) := by
  obtain ⟨request, future, registered, -, told, outcome⟩ :=
    Exchange.told_of_run ran completed reply
  cases told with
  | pong method now =>
    exact ⟨request, "ping", registered, method, .inl ⟨rfl, now, (Option.some.inj outcome).symm⟩⟩
  | echo method encoded =>
    exact ⟨request, "echo", registered, method,
      .inr (.inl ⟨rfl, _, encoded, (Option.some.inj outcome).symm⟩)⟩
  | @unknown method own unknown =>
    have neither : method ≠ "ping" ∧ method ≠ "echo" := by
      simpa [RPCDispatcher.builtin] using unknown
    exact ⟨request, method, registered, own,
      .inr (.inr ⟨neither.1, neither.2, (Option.some.inj outcome).symm⟩)⟩

/-- A daemon whose only socket is the first. -/
def sampleDaemon : ExchangeEnv := ⟨Daemon.caller plainText tallyIds, plainText, (· = 0)⟩

/-- The daemon is connected, calls `echo`, and gets its parameters back. -/
def echoed : List (ExchangeAction sampleDaemon) :=
  [.start 0 .endpoint, .serve 0 (.io .ok) 0, .serve 0 (.io .ok) 0,
    .act Daemon.Action.connected 0,
    .act (Daemon.Action.rpcCall 0 "echo" (.dict [(.str "n", .int 7)]) 0 .completes) 0,
    .serve 0 (.frame .notJson) 0, .serve 0 (.io .ok) 0, .serve 0 (.io .ok) 0, .deliver 0 0 0,
    .act (Daemon.Action.wake 0) 0]

theorem rpcCall_told_echoed :
    ∃ s c o, Machine.run Exchange.step (.init sampleDaemon) echoed = some s ∧
      .completed c o ∈ s.log ∧ o.FromReply ∧
      ∃ request method, .registered c request ∈ s.log ∧ request.method = .str method ∧
        (method = "ping" ∧
            (∃ now, o = .value (RPCDispatcher.handlePing request.params now)) ∨
          method = "echo" ∧ (∃ text, plainText.dumps request.params = .ok text ∧
            o = .value (text.loads.or (.dict []))) ∨
          method ≠ "ping" ∧ method ≠ "echo" ∧
            o = .remoteError (.str ("Unknown method: " ++ method))) := by
  have replied : (Machine.run Exchange.step (.init sampleDaemon) echoed).any
      (fun s => s.log.any CallEvent.replied) = true := by decide +kernel
  obtain ⟨s, c, o, ran, completed, reply⟩ := Exchange.completed_of_any replied
  exact ⟨s, c, o, ran, completed, reply,
    rpcCall_told _ _ _ _ echoed s ran c o completed reply⟩

end Cpip
