import Cpip.Server.World

/-!
# The message loop of a handler

What a handler sends for a sequence of frames without `session.init`, on a socket whose sends
succeed.  `turn` runs the steps of the handler from one frame to where it waits for the next, and
`Processes` says that it sends what it should for each frame and goes on.  `Clean` is the exact
condition on a frame for that: every other frame either ends the loop or gets the wrong reply.
-/

namespace Cpip

/-- A frame, with what its RPC handler does and what the interpreter supplies meanwhile. -/
structure Turn where
  raw : Frame
  outcome : Outcome
  measured : RPCDispatcher.Measured

def Turn.input (r : Turn) : Input := ⟨.ok, some r.raw, r.outcome, r.measured⟩

/-- What is to be sent for a frame: an error for one that cannot be decoded, a result or an error
with the id of the frame for a call, and nothing for any other. -/
def Proper (raw : Frame) (texts : List JsonText) : Prop :=
  match raw.type? with
  | none => ∃ text, texts = [text] ∧ text.field "type" = some (.str MessageType.error.value)
  | some .call => ∃ text, texts = [text] ∧
    (text.field "type" = some (.str MessageType.result.value) ∨
      text.field "type" = some (.str MessageType.error.value)) ∧
    ∀ id, raw.field "id" = some id → text.field "id" = some id
  | some _ => texts = []

/-- A frame that the handler processes as it should: it can be decoded, and if it is a call, its id
is absent or true, its method has a hash, and its handler does not return a value that cannot be
encoded. -/
def Clean (srv : Server) (r : Turn) : Prop :=
  ∃ type, r.raw.type? = some type ∧
    (type = .call → (∀ id, r.raw.field "id" = some id → id.truthy) ∧
      srv.dispatcher.Answers srv.py ((r.raw.field "method").getD .none) r.outcome)

namespace Served

variable (srv : Server) (t : ℕ)

/-- The handler waits for a frame. -/
def Waiting (s : Served) : Prop := ∃ conn, s.self.pc = .running conn .receiving

/-- The next step of a handler that is in the middle of a frame. -/
def resume (input : Input) (s : Served) : Served :=
  match s.self.pc with
  | .running _ .receiving | .connecting _ | .closing _ _ | .finished => s
  | .running _ _ => (s.step srv t input).getD s

/-- The processing of one frame: it is received, dispatched, and the reply is sent. -/
def turn (r : Turn) (s : Served) : Served :=
  resume srv t r.input (resume srv t r.input ((s.step srv t r.input).getD s))

/-- The turn appends to the log the reception of the frame and the sending of what is to be sent
for it. -/
def Sends (s : Served) (r : Turn) : Prop :=
  ∃ texts, (s.turn srv t r).hub.log = s.hub.log ++ .received t r.raw :: texts.map (.sent t) ∧
    Proper r.raw texts

/-- The handler processes every frame in order, sends what it should for each, and stays in its
loop. -/
def Processes : Served → List Turn → Prop
  | s, [] => s.Waiting
  | s, r :: rest => s.Waiting ∧ Sends srv t s r ∧ Processes (s.turn srv t r) rest

variable {srv t}

theorem resume_eq_run (input : Input) (s : Served) :
    ∃ k, Machine.run (fun s i => step srv s t i) s (List.replicate k input) =
      some (resume srv t input s) := by
  unfold resume
  split
  · exact ⟨0, rfl⟩
  · exact ⟨0, rfl⟩
  · exact ⟨0, rfl⟩
  · exact ⟨0, rfl⟩
  · cases hs : s.step srv t input with
    | none => exact ⟨0, rfl⟩
    | some s' => exact ⟨1, by simp [Machine.run, hs]⟩

/-- A turn is a run of the handler, from one frame on. -/
theorem turn_eq_run (r : Turn) (s : Served) :
    ∃ k, Machine.run (fun s i => step srv s t i) s (List.replicate k r.input) =
      some (s.turn srv t r) := by
  have first : ∃ k, Machine.run (fun s i => step srv s t i) s (List.replicate k r.input) =
      some ((s.step srv t r.input).getD s) := by
    cases hs : s.step srv t r.input with
    | none => exact ⟨0, rfl⟩
    | some s' => exact ⟨1, by simp [Machine.run, hs]⟩
  obtain ⟨a, ha⟩ := first
  obtain ⟨b, hb⟩ : ∃ k, Machine.run (fun s i => step srv s t i) _ (List.replicate k r.input) = some
      (resume srv t r.input ((s.step srv t r.input).getD s)) := resume_eq_run _ _
  obtain ⟨c, hc⟩ : ∃ k, Machine.run (fun s i => step srv s t i) _ (List.replicate k r.input) = some
      (s.turn srv t r) := resume_eq_run _ _
  refine ⟨a + (b + c), ?_⟩
  rw [List.replicate_add, Machine.run_append, ha, Option.bind_some, List.replicate_add,
    Machine.run_append, hb, Option.bind_some, hc]

/-! ## One frame -/

/-- The name `make_error` is not defined, so the recovery from a text that is not JSON sends
nothing. -/
theorem parseError_eq (amb : Ambient) (s : Served) (conn : DeviceConnection) :
    s.parseError srv amb conn = s.goto (.running conn .receiving) := by
  rw [parseError, errorText_eq]

/-- For the same reason the recovery from any other exception ends the loop. -/
theorem internalError_eq (amb : Ambient) (s : Served) (conn : DeviceConnection) :
    s.internalError srv amb conn = s.goto (.closing conn .locking) := by
  rw [internalError, errorText_eq]

theorem resume_of_receiving {s : Served} {conn : DeviceConnection} (input : Input)
    (h : s.self.pc = .running conn .receiving) : resume srv t input s = s := by
  unfold resume
  rw [h]

theorem resume_of_closing {s : Served} {conn : DeviceConnection} {pc : ConnectionHub.DisconnectPc}
    (input : Input) (h : s.self.pc = .closing conn pc) : resume srv t input s = s := by
  unfold resume
  rw [h]

theorem step_of_receiving {s : Served} {conn : DeviceConnection} (r : Turn)
    (h : s.self.pc = .running conn .receiving) :
    s.step srv t r.input = some (s.receive srv r.measured.amb conn t r.raw) := by
  unfold step
  rw [h]
  rfl

/-- A turn that is over with the reception of the frame. -/
theorem turn_eq_receive {s : Served} {conn : DeviceConnection} {r : Turn}
    (h : s.self.pc = .running conn .receiving)
    (handled : (s.receive srv r.measured.amb conn t r.raw).self.pc = .running conn .receiving ∨
      (s.receive srv r.measured.amb conn t r.raw).self.pc = .closing conn .locking) :
    s.turn srv t r = s.receive srv r.measured.amb conn t r.raw := by
  unfold turn
  rw [step_of_receiving r h, Option.getD_some]
  rcases handled with handled | handled
  · rw [resume_of_receiving _ handled, resume_of_receiving _ handled]
  · rw [resume_of_closing _ handled, resume_of_closing _ handled]

theorem turn_of_error (srv : Server) (t : ℕ) {s : Served} {conn : DeviceConnection} {r : Turn}
    {e : PyExc} (h : s.self.pc = .running conn .receiving)
    (he : RPCMessage.fromJson r.measured.amb r.raw = .error e) :
    (s.turn srv t r).hub.log = s.hub.log ++ [.received t r.raw] ∨
      (s.turn srv t r).self.pc = .closing conn .locking := by
  by_cases hjson : e = .jsonDecodeError
  · have receive : s.receive srv r.measured.amb conn t r.raw =
        { s with hub := s.hub.record [.received t r.raw] }.goto (.running conn .receiving) := by
      unfold Served.receive
      rw [he, hjson]
      rfl
    refine Or.inl ?_
    rw [turn_eq_receive h (Or.inl (by rw [receive]; rfl)), receive]
    rfl
  · have receive : s.receive srv r.measured.amb conn t r.raw =
        { s with hub := s.hub.record [.received t r.raw] }.goto (.closing conn .locking) := by
      unfold Served.receive
      rw [he]
      cases e <;> first | exact absurd rfl hjson | rfl
    refine Or.inr ?_
    rw [turn_eq_receive h (Or.inr (by rw [receive]; rfl)), receive]
    rfl

/-- Frames other than calls are received, and nothing else. -/
theorem turn_of_other (srv : Server) (t : ℕ) {s : Served} {conn : DeviceConnection} {r : Turn}
    {msg : RPCMessage} (h : s.self.pc = .running conn .receiving)
    (hmsg : RPCMessage.fromJson r.measured.amb r.raw = .ok msg) (call : msg.type ≠ .call)
    (sessionInit : msg.type ≠ .sessionInit) :
    (s.turn srv t r).hub.log = s.hub.log ++ [.received t r.raw] ∧
      (s.turn srv t r).self = s.self := by
  have receive : (s.receive srv r.measured.amb conn t r.raw).hub.log =
        s.hub.log ++ [.received t r.raw] ∧
      (s.receive srv r.measured.amb conn t r.raw).self = s.self := by
    unfold Served.receive
    rw [hmsg]
    dsimp only
    split <;> first | contradiction | exact ⟨rfl, rfl⟩
  have handled := receive.2 ▸ h
  rwa [turn_eq_receive h (Or.inl handled)]

theorem updateActivity_isOk (m : SessionManager) {id : PyVal} {key : PyKey}
    (h : id.hash? = some key) (now : ℚ) : ∃ m', m.updateActivity id now = .ok m' := by
  unfold SessionManager.updateActivity
  rw [h]
  dsimp only
  split <;> exact ⟨_, rfl⟩

/-- A call, once it is received, is being dispatched. -/
theorem receive_of_call (srv : Server) (t : ℕ) (conn : DeviceConnection) {s : Served} {r : Turn}
    {msg : RPCMessage} {key : PyKey} (known : s.self.deviceId.hash? = some key)
    (hmsg : RPCMessage.fromJson r.measured.amb r.raw = .ok msg) (call : msg.type = .call) :
    ∃ sessions, s.receive srv r.measured.amb conn t r.raw =
      ⟨s.hub.record [.received t r.raw], sessions,
        ⟨s.self.deviceId, .running conn (.dispatching msg)⟩⟩ := by
  obtain ⟨sessions, hsessions⟩ := updateActivity_isOk s.sessions known r.measured.amb.now
  refine ⟨sessions, ?_⟩
  unfold Served.receive
  rw [hmsg]
  dsimp only
  rw [call]
  dsimp only
  rw [hsessions]
  rfl

/-- A call that gets a reply: the reply is sent and the handler goes on. -/
theorem turn_of_reply {s : Served} {conn : DeviceConnection} {r : Turn} {msg response : RPCMessage}
    {text : JsonText} {key : PyKey} (h : s.self.pc = .running conn .receiving)
    (known : s.self.deviceId.hash? = some key)
    (hmsg : RPCMessage.fromJson r.measured.amb r.raw = .ok msg) (call : msg.type = .call)
    (hresponse : srv.dispatcher.dispatch srv.py msg r.outcome r.measured = .ok response)
    (htext : response.toJson srv.py = .ok text) :
    (s.turn srv t r).hub.log = s.hub.log ++ [.received t r.raw, .sent t text] ∧
      (s.turn srv t r).self = ⟨s.self.deviceId, .running conn .receiving⟩ := by
  obtain ⟨sessions, receive⟩ := receive_of_call srv t conn known hmsg call
  have dispatched : resume srv t r.input (s.receive srv r.measured.amb conn t r.raw) =
      ⟨s.hub.record [.received t r.raw], sessions,
        ⟨s.self.deviceId, .running conn (.sending text)⟩⟩ := by
    rw [receive]
    simp only [resume, step, loopStep, Turn.input, hresponse, htext]
    rfl
  unfold turn
  rw [step_of_receiving r h, Option.getD_some, dispatched]
  refine ⟨?_, rfl⟩
  show (s.hub.log ++ [.received t r.raw]) ++ [.sent t text] = _
  simp

/-- A call that gets no reply ends the loop. -/
theorem turn_of_no_reply {s : Served} {conn : DeviceConnection} {r : Turn} {msg : RPCMessage}
    {key : PyKey} (h : s.self.pc = .running conn .receiving)
    (known : s.self.deviceId.hash? = some key)
    (hmsg : RPCMessage.fromJson r.measured.amb r.raw = .ok msg) (call : msg.type = .call)
    (none : ∀ response text,
      srv.dispatcher.dispatch srv.py msg r.outcome r.measured = .ok response →
      response.toJson srv.py ≠ .ok text) :
    (s.turn srv t r).self.pc = .closing conn .locking := by
  obtain ⟨sessions, receive⟩ := receive_of_call srv t conn known hmsg call
  have dispatched : (resume srv t r.input (s.receive srv r.measured.amb conn t r.raw)).self.pc =
      .closing conn .locking := by
    rw [receive]
    simp only [resume, step, loopStep, Turn.input]
    cases hresponse : srv.dispatcher.dispatch srv.py msg r.outcome r.measured with
    | error e => rfl
    | ok response =>
      dsimp only
      cases htext : response.toJson srv.py with
      | error e => rfl
      | ok text => exact absurd htext (none response text hresponse)
  unfold turn
  rw [step_of_receiving r h, Option.getD_some, resume_of_closing _ dispatched]
  exact dispatched

theorem not_waiting_of_closing {s : Served} {conn : DeviceConnection}
    {pc : ConnectionHub.DisconnectPc} (h : s.self.pc = .closing conn pc) : ¬ s.Waiting := by
  rintro ⟨c, hc⟩
  cases h.symm.trans hc

/-- The texts sent in a turn can be read from the log. -/
theorem texts_unique {log log' : List Event} {raw : Frame} {texts texts' : List JsonText}
    (h : log' = log ++ .received t raw :: texts.map (.sent t))
    (h' : log' = log ++ .received t raw :: texts'.map (.sent t)) : texts = texts' := by
  have hmap := (List.cons.inj (List.append_cancel_left (h.symm.trans h'))).2
  exact List.map_injective_iff.2 (fun a b hab => by cases hab; rfl) hmap

/-- The id of a decoded message is true, and one that `json.loads` can return. -/
theorem id_of_fromJson {amb : Ambient} {raw : Frame} {msg : RPCMessage} (uuid : amb.uuid ≠ "")
    (h : RPCMessage.fromJson amb raw = .ok msg) :
    msg.id.truthy ∧ msg.id.IsJson ∧ ∀ id, raw.field "id" = some id → id.truthy → msg.id = id := by
  obtain ⟨type, -, rfl⟩ := Frame.fromJson_eq_ok_iff.1 h
  show (PyVal.or _ _).truthy ∧ (PyVal.or _ _).IsJson ∧ _
  cases hid : raw.field "id" with
  | none => exact ⟨by simpa [PyVal.or, PyVal.truthy] using uuid, trivial, by simp⟩
  | some id =>
    have json := Frame.isJson_field hid
    by_cases htruthy : id.truthy
    · have keep : id.or (.str amb.uuid) = id := if_pos htruthy
      refine ⟨?_, ?_, ?_⟩
      · rwa [Option.getD_some, keep]
      · rwa [Option.getD_some, keep]
      · rintro id' hid' -
        cases hid'
        exact keep
    · have default : id.or (.str amb.uuid) = .str amb.uuid := if_neg htruthy
      refine ⟨?_, ?_, ?_⟩
      · rw [Option.getD_some, default]
        simpa [PyVal.truthy] using uuid
      · rw [Option.getD_some, default]
        trivial
      · rintro id' hid' htruthy'
        cases hid'
        exact absurd htruthy' htruthy

/-- A frame that cannot be decoded is never answered as it should be. -/
theorem not_sends_of_error {s : Served} {conn : DeviceConnection} {r : Turn} {e : PyExc}
    (h : s.self.pc = .running conn .receiving)
    (he : RPCMessage.fromJson r.measured.amb r.raw = .error e)
    (waiting : (s.turn srv t r).Waiting) : ¬ Sends srv t s r := by
  rintro ⟨texts, hlog, proper⟩
  rcases turn_of_error srv t h he with hturn | hturn
  · have untyped : r.raw.type? = none := by
      cases htype : r.raw.type? with
      | none => rfl
      | some type =>
        rw [Frame.fromJson_eq_ok_iff.2 ⟨type, htype, rfl⟩] at he
        cases he
    obtain rfl : texts = [] := texts_unique hlog hturn
    rw [Proper, untyped] at proper
    obtain ⟨text, htext, -⟩ := proper
    cases htext
  · exact not_waiting_of_closing hturn waiting

theorem proper_call_iff {raw : Frame} (typed : raw.type? = some .call) (text : JsonText) :
    Proper raw [text] ↔ (text.field "type" = some (.str MessageType.result.value) ∨
        text.field "type" = some (.str MessageType.error.value)) ∧
      ∀ id, raw.field "id" = some id → text.field "id" = some id := by
  rw [Proper, typed]
  simp

section Call

variable {s : Served} {conn : DeviceConnection} {r : Turn} {msg : RPCMessage} {key : PyKey}
  (h : s.self.pc = .running conn .receiving) (known : s.self.deviceId.hash? = some key)
  (uuid : r.measured.amb.uuid ≠ "") (hmsg : RPCMessage.fromJson r.measured.amb r.raw = .ok msg)
  (call : msg.type = .call) (typed : r.raw.type? = some .call)

include h known uuid hmsg call typed

/-- A call whose id is not false and that can be replied to is answered as it should be. -/
theorem sends_of_answers (ids : ∀ id, r.raw.field "id" = some id → id.truthy)
    (answers : srv.dispatcher.Answers srv.py msg.method r.outcome) :
    Sends srv t s r ∧ (s.turn srv t r).self = ⟨s.self.deviceId, .running conn .receiving⟩ := by
  obtain ⟨truthy, json, idOf⟩ := id_of_fromJson uuid hmsg
  obtain ⟨idText, hidText, -⟩ := srv.py.loads_dumps json
  obtain ⟨response, text, hresponse, htext⟩ :=
    (RPCDispatcher.reply_isOk_iff (m := r.measured) truthy ⟨idText, hidText⟩).2 answers
  obtain ⟨hlog, hself⟩ := turn_of_reply (t := t) h known hmsg call hresponse htext
  obtain ⟨same, kind⟩ := RPCDispatcher.dispatch_reply hresponse truthy
  refine ⟨⟨[text], hlog, (proper_call_iff typed text).2 ⟨?_, fun id hid => ?_⟩⟩, hself⟩
  · rw [RPCMessage.field_type_of_toJson srv.py htext]
    exact kind.imp (fun h => by rw [h]) fun h => by rw [h]
  · rw [RPCMessage.field_id_of_toJson srv.py htext (same ▸ json), same, idOf id hid (ids id hid)]

/-- A call that is answered as it should be has no false id and can be replied to. -/
theorem answers_of_sends (sends : Sends srv t s r) (waiting : (s.turn srv t r).Waiting) :
    (∀ id, r.raw.field "id" = some id → id.truthy) ∧
      srv.dispatcher.Answers srv.py msg.method r.outcome := by
  obtain ⟨texts, hlog, proper⟩ := sends
  obtain ⟨truthy, json, -⟩ := id_of_fromJson uuid hmsg
  obtain ⟨idText, hidText, -⟩ := srv.py.loads_dumps json
  rw [← RPCDispatcher.reply_isOk_iff (m := r.measured) truthy ⟨idText, hidText⟩]
  by_cases reply : ∃ response text,
      srv.dispatcher.dispatch srv.py msg r.outcome r.measured = .ok response ∧
      response.toJson srv.py = .ok text
  · refine ⟨fun id hid => ?_, reply⟩
    obtain ⟨response, text, hresponse, htext⟩ := reply
    have hturn := (turn_of_reply (t := t) h known hmsg call hresponse htext).1
    obtain rfl : texts = [text] := texts_unique hlog hturn
    have sent := ((proper_call_iff typed text).1 proper).2 id hid
    -- the reply carries the id of the message, which is true
    have same := (RPCDispatcher.dispatch_reply hresponse truthy).1
    rw [RPCMessage.field_id_of_toJson srv.py htext (same ▸ json), same] at sent
    exact Option.some.inj sent ▸ truthy
  · have closing := turn_of_no_reply (t := t) h known hmsg call
      fun response text hr ht => reply ⟨response, text, hr, ht⟩
    exact absurd waiting (not_waiting_of_closing closing)

end Call

section OneFrame

variable {s : Served} {conn : DeviceConnection} {r : Turn} {key : PyKey}
  (h : s.self.pc = .running conn .receiving) (known : s.self.deviceId.hash? = some key)
  (uuid : r.measured.amb.uuid ≠ "")

include h known uuid

theorem sends_of_clean (noInit : r.raw.type? ≠ some .sessionInit) (clean : Clean srv r) :
    Sends srv t s r ∧ (s.turn srv t r).self = ⟨s.self.deviceId, .running conn .receiving⟩ := by
  obtain ⟨type, typed, hcall⟩ := clean
  have hmsg : RPCMessage.fromJson r.measured.amb r.raw = .ok _ :=
    Frame.fromJson_eq_ok_iff.2 ⟨type, typed, rfl⟩
  by_cases call : type = .call
  · subst call
    exact sends_of_answers h known uuid hmsg rfl typed (hcall rfl).1 (hcall rfl).2
  · have other : type ≠ .sessionInit := fun hi => noInit (hi ▸ typed)
    obtain ⟨hlog, hself⟩ := turn_of_other srv t h hmsg call other
    refine ⟨⟨[], hlog, ?_⟩, ?_⟩
    · rw [Proper, typed]
      cases type <;> first | exact absurd rfl call | rfl
    · rw [hself, ← h]

theorem clean_of_sends (sends : Sends srv t s r) (waiting : (s.turn srv t r).Waiting) :
    Clean srv r := by
  cases hmsg : RPCMessage.fromJson r.measured.amb r.raw with
  | error e => exact absurd sends (not_sends_of_error h hmsg waiting)
  | ok msg =>
    obtain ⟨type, typed, hinit⟩ := Frame.fromJson_eq_ok_iff.1 hmsg
    refine ⟨type, typed, ?_⟩
    rintro rfl
    obtain rfl := hinit
    exact answers_of_sends h known uuid hmsg rfl typed sends waiting

end OneFrame

/-! ## All frames -/

theorem Processes.waiting {s : Served} {turns : List Turn} (h : Processes srv t s turns) :
    s.Waiting := by
  cases turns with
  | nil => exact h
  | cons r rest => exact h.1

theorem processes_iff_of_waiting {s : Served} {conn : DeviceConnection} {key : PyKey}
    {turns : List Turn} (h : s.self.pc = .running conn .receiving)
    (known : s.self.deviceId.hash? = some key) (uuid : ∀ r ∈ turns, r.measured.amb.uuid ≠ "")
    (noInit : ∀ r ∈ turns, r.raw.type? ≠ some .sessionInit) :
    Processes srv t s turns ↔ ∀ r ∈ turns, Clean srv r := by
  induction turns generalizing s with
  | nil => exact iff_of_true ⟨conn, h⟩ (by simp)
  | cons r rest ih =>
    rw [List.forall_mem_cons] at uuid noInit ⊢
    constructor
    · rintro ⟨-, sends, processes⟩
      have clean := clean_of_sends h known uuid.1 sends processes.waiting
      have hself := (sends_of_clean (t := t) h known uuid.1 noInit.1 clean).2
      refine ⟨clean, (ih ?_ ?_ uuid.2 noInit.2).1 processes⟩
      · rw [hself]
      · rw [hself, known]
    · rintro ⟨clean, cleanRest⟩
      obtain ⟨sends, hself⟩ := sends_of_clean (t := t) h known uuid.1 noInit.1 clean
      refine ⟨⟨conn, h⟩, sends, (ih ?_ ?_ uuid.2 noInit.2).2 cleanRest⟩
      · rw [hself]
      · rw [hself, known]

/-- An accepted socket of which no `session.init` was received. -/
def accepted (hub : ConnectionHub) (sessions : SessionManager) (conn : DeviceConnection) : Served :=
  ⟨hub, sessions, ⟨.str "unknown", .running conn .receiving⟩⟩

/-- The handler of an accepted socket does what it should for a sequence of frames without
`session.init` exactly when each of them is clean. -/
theorem processes_iff (srv : Server) (t : ℕ) (hub : ConnectionHub) (sessions : SessionManager)
    (conn : DeviceConnection) (turns : List Turn) (uuid : ∀ r ∈ turns, r.measured.amb.uuid ≠ "")
    (noInit : ∀ r ∈ turns, r.raw.type? ≠ some .sessionInit) :
    Processes srv t (accepted hub sessions conn) turns ↔ ∀ r ∈ turns, Clean srv r :=
  processes_iff_of_waiting rfl rfl uuid noInit

/-- A call of `echo` with an id, with what the interpreter supplies. -/
def echoTurn : Turn where
  raw := .json (.obj [("type", .str "rpc.call"), ("id", .int 7), ("method", .str "echo")])
  outcome := .returns (.dict [])
  measured := ⟨⟨"uuid", 0⟩, .finite 0, ""⟩

/-- A text that is not JSON. -/
def garbage : Turn := { echoTurn with raw := .notJson }

theorem processes_iff_echo :
    Processes ⟨plainText, .builtin⟩ 0 (accepted .init .empty ⟨0, .str "unknown", 0, 0⟩) [echoTurn] ↔
      ∀ r ∈ [echoTurn], Clean ⟨plainText, .builtin⟩ r :=
  processes_iff ⟨plainText, .builtin⟩ 0 .init .empty ⟨0, .str "unknown", 0, 0⟩ [echoTurn]
    (by simp [echoTurn]) (by simp; decide)

/-- No error frame is sent for a text that is not JSON. -/
theorem garbage_not_processed : ¬ ∀ (srv : Server) (t : ℕ) (hub : ConnectionHub)
    (sessions : SessionManager) (conn : DeviceConnection) (turns : List Turn),
    (∀ r ∈ turns, r.measured.amb.uuid ≠ "") →
    (∀ r ∈ turns, r.raw.type? ≠ some .sessionInit) →
    Processes srv t (accepted hub sessions conn) turns := by
  intro h
  have processes := h ⟨plainText, .builtin⟩ 0 .init .empty ⟨0, .str "unknown", 0, 0⟩ [garbage]
    (by simp [garbage, echoTurn]) (by simp [garbage, Frame.type?])
  obtain ⟨-, ⟨texts, hlog, text, rfl, -⟩, -⟩ := processes
  cases hlog

end Served

end Cpip
