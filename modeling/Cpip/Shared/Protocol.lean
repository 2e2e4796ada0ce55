import Cpip.Python.Json

/-!
# The RPC wire protocol (`shared/protocol.py`)

Message types, messages with their two encodings, and the helper constructors.  Nothing checks the
fields of an incoming message beyond its type, so they are arbitrary values.
-/

namespace Cpip

/-- `MessageType`. -/
inductive MessageType where
  | call | result | error
  | streamStart | streamChunk | streamEnd
  | heartbeat | heartbeatAck
  | sessionInit | sessionAck | sessionEnd
  | notify | log | progress
  deriving DecidableEq, Repr

namespace MessageType

def value : MessageType → String
  | call => "rpc.call"
  | result => "rpc.result"
  | error => "rpc.error"
  | streamStart => "rpc.stream.start"
  | streamChunk => "rpc.stream.chunk"
  | streamEnd => "rpc.stream.end"
  | heartbeat => "rpc.heartbeat"
  | heartbeatAck => "rpc.heartbeat.ack"
  | sessionInit => "session.init"
  | sessionAck => "session.ack"
  | sessionEnd => "session.end"
  | notify => "rpc.notify"
  | log => "rpc.log"
  | progress => "rpc.progress"

def all : List MessageType :=
  [call, result, error, streamStart, streamChunk, streamEnd, heartbeat, heartbeatAck, sessionInit,
    sessionAck, sessionEnd, notify, log, progress]

/-- `MessageType(v)`, when it does not raise. -/
def ofValue? (v : PyVal) : Option MessageType := all.find? fun t => v.asStr? = some t.value

end MessageType

theorem MessageType.ofValue?_value (t : MessageType) :
    MessageType.ofValue? (.str t.value) = some t := by
  cases t <;> rfl

/-- What the interpreter supplies while a message is built: the next `uuid.uuid4()` and
`time.time()`. -/
structure Ambient where
  uuid : String
  now : ℚ

/-- `RPCMessage`. -/
structure RPCMessage where
  type : MessageType
  id : PyVal
  method : PyVal
  params : PyVal
  result : PyVal
  error : PyVal
  timestamp : ℚ
  metadata : PyVal

namespace RPCMessage

variable (amb : Ambient)

/-- `RPCMessage.__init__`; an absent argument is `None`. -/
def init (type : MessageType) (method params result error id metadata : PyVal) : RPCMessage where
  type := type
  id := id.or (.str amb.uuid)
  method := method
  params := params.or (.dict [])
  result := result
  error := error
  timestamp := amb.now
  metadata := metadata.or (.dict [])

/-- The field, when the condition on it holds. -/
def fieldIf (c : Bool) (name : String) (v : PyVal) : List (PyKey × PyVal) :=
  if c then [(.str name, v)] else []

/-- The entries of `to_dict`. -/
def entries (msg : RPCMessage) : List (PyKey × PyVal) :=
  [(.str "jsonrpc", .str "2.0"), (.str "type", .str msg.type.value), (.str "id", msg.id),
      (.str "timestamp", .float (.finite msg.timestamp))] ++
    fieldIf msg.method.truthy "method" msg.method ++
    fieldIf msg.params.truthy "params" msg.params ++
    fieldIf (!msg.result.isNone) "result" msg.result ++
    fieldIf msg.error.truthy "error" msg.error ++
    fieldIf msg.metadata.truthy "metadata" msg.metadata

/-- `to_dict`. -/
def toDict (msg : RPCMessage) : PyVal := .dict msg.entries

/-- `to_json`. -/
def toJson (py : PyText) (msg : RPCMessage) : Except PyExc JsonText := py.dumps msg.toDict

/-- `from_dict`. -/
def fromDict : PyVal → Except PyExc RPCMessage
  | .dict data =>
    let get (name : String) : PyVal := (PyVal.getStr name data).getD .none
    match MessageType.ofValue? ((PyVal.getStr "type" data).getD (.str "rpc.call")) with
    | none => .error (.valueError "not a valid MessageType")
    | some type =>
      .ok (init amb type (get "method") (get "params") (get "result") (get "error") (get "id")
        (get "metadata"))
  | _ => .error (.attributeError "object has no attribute 'get'")

end RPCMessage

/-- The text of a WebSocket frame, as `json.loads` takes it: a JSON text, a text that is none, or
one on which `json.loads` raises another exception (a nesting too deep, an integer too long). -/
inductive Frame where
  | json (t : JsonText)
  | notJson
  | unloadable

/-- `json.loads(raw)`. -/
def Frame.loads : Frame → Except PyExc PyVal
  | .json t => .ok t.loads
  | .notJson => .error .jsonDecodeError
  | .unloadable => .error (.other "RecursionError")

/-- `RPCMessage.from_json`. -/
def RPCMessage.fromJson (amb : Ambient) (raw : Frame) : Except PyExc RPCMessage := do
  RPCMessage.fromDict amb (← raw.loads)

/-! ## Helper constructors -/

section

variable (amb : Ambient)

def makeCall (method : String) (params : PyVal) : RPCMessage :=
  .init amb .call (.str method) params .none .none .none .none

def makeResult (callId result : PyVal) : RPCMessage :=
  .init amb .result .none .none result .none callId .none

def makeError (callId code message data : PyVal) : RPCMessage :=
  .init amb .error .none .none .none
    (.dict [(.str "code", code), (.str "message", message), (.str "data", data)]) callId .none

def makeHeartbeat : RPCMessage := .init amb .heartbeat .none .none .none .none .none .none

def makeHeartbeatAck (pingId : PyVal) : RPCMessage :=
  .init amb .heartbeatAck .none .none .none .none pingId .none

def makeStreamStart (callId metadata : PyVal) : RPCMessage :=
  .init amb .streamStart .none .none .none .none callId metadata

def makeStreamChunk (callId data : PyVal) (index : ℤ) : RPCMessage :=
  .init amb .streamChunk .none .none data .none callId (.dict [(.str "index", .int index)])

def makeStreamEnd (callId : PyVal) : RPCMessage :=
  .init amb .streamEnd .none .none .none .none callId .none

def makeSessionInit (deviceInfo : PyVal) : RPCMessage :=
  .init amb .sessionInit .none deviceInfo .none .none .none .none

def makeNotification (method : String) (params : PyVal) : RPCMessage :=
  .init amb .notify (.str method) params .none .none .none .none

/-- `make_error(**kwargs)`, where the name is defined: the call raises `TypeError` on a keyword that
is not one of the parameters and when one of the three without a default is missing. -/
def makeErrorKw (kwargs : List (String × PyVal)) : Except PyExc RPCMessage :=
  match kwargs.find? fun e => e.1 ∉ ["call_id", "code", "message", "data"] with
  | some e => .error (.typeError ("make_error() got an unexpected keyword argument " ++ e.1))
  | none =>
    match kwargs.lookup "call_id", kwargs.lookup "code", kwargs.lookup "message" with
    | some callId, some code, some message =>
      .ok (makeError amb callId code message ((kwargs.lookup "data").getD .none))
    | _, _, _ => .error (.typeError "make_error() missing required positional arguments")

end

/-! ## Encoded messages -/

namespace RPCMessage

variable (py : PyText)

/-- The names of the fields of a message. -/
def fieldNames : List String :=
  ["jsonrpc", "type", "id", "timestamp", "method", "params", "result", "error", "metadata"]

theorem keys_fieldIf (c : Bool) (name : String) (v : PyVal) :
    ((fieldIf c name v).map Prod.fst).Sublist [.str name] := by
  cases c <;> simp [fieldIf]

theorem keys_entries (msg : RPCMessage) :
    (msg.entries.map Prod.fst).Sublist (fieldNames.map PyKey.str) := by
  simp only [entries, List.map_append]
  have fixed := List.Sublist.refl (["jsonrpc", "type", "id", "timestamp"].map PyKey.str)
  exact ((((fixed.append (keys_fieldIf _ "method" _)).append (keys_fieldIf _ "params" _)).append
    (keys_fieldIf _ "result" _)).append (keys_fieldIf _ "error" _)).append
    (keys_fieldIf _ "metadata" _)

theorem entries_strings (msg : RPCMessage) : ∀ k ∈ msg.entries.map Prod.fst, ∃ s, k = .str s := by
  intro k hk
  obtain ⟨s, -, rfl⟩ := List.mem_map.1 (msg.keys_entries.subset hk)
  exact ⟨s, rfl⟩

theorem entries_nodup (msg : RPCMessage) : (msg.entries.map Prod.fst).Nodup :=
  msg.keys_entries.nodup (by decide)

theorem getStr_fieldIf (c : Bool) (field name : String) (v : PyVal) :
    PyVal.getStr name (fieldIf c field v) = if c = true ∧ field = name then some v else none := by
  cases c
  · simp [fieldIf, PyVal.getItem]
  · simp [fieldIf, PyVal.getStr_cons, PyVal.getItem]

theorem getStr_entries_result {msg : RPCMessage} (h : msg.result.isNone = false) :
    PyVal.getStr "result" msg.entries = some msg.result := by
  simp only [entries, PyVal.getStr_append, PyVal.getStr_cons, getStr_fieldIf, h]
  simp [PyVal.getItem]

theorem getStr_entries_metadata {msg : RPCMessage} (h : msg.metadata.truthy = true) :
    PyVal.getStr "metadata" msg.entries = some msg.metadata := by
  simp only [entries, PyVal.getStr_append, PyVal.getStr_cons, getStr_fieldIf, h]
  simp [PyVal.getItem]

theorem toJson_isOk_iff (msg : RPCMessage) :
    (∃ t, msg.toJson py = .ok t) ↔ ∀ e ∈ msg.entries, ∃ t, py.dumps e.2 = .ok t := by
  refine (py.dumps_dict_isOk_iff msg.entries).trans (forall₂_congr fun e he => and_iff_right ?_)
  obtain ⟨s, hs⟩ := msg.entries_strings e.1 (List.mem_map_of_mem he)
  exact ⟨s, by rw [hs]; rfl⟩

/-- A message can be encoded when its fields can. -/
theorem toJson_isOk {msg : RPCMessage}
    (fields : ∀ v ∈ [msg.id, msg.method, msg.params, msg.result, msg.error, msg.metadata],
      ∃ t, py.dumps v = .ok t) : ∃ t, msg.toJson py = .ok t := by
  rw [toJson_isOk_iff]
  have mem_fieldIf {c : Bool} {name : String} {v : PyVal} {e : PyKey × PyVal}
      (h : e ∈ fieldIf c name v) : e.2 = v := by
    cases c
    · cases h
    · obtain rfl := List.mem_singleton.1 h
      rfl
  intro e he
  simp only [entries, List.mem_append, or_assoc] at he
  rcases he with he | he | he | he | he | he
  · simp only [List.mem_cons, List.not_mem_nil, or_false] at he
    rcases he with rfl | rfl | rfl | rfl
    · exact ⟨_, rfl⟩
    · exact ⟨_, rfl⟩
    · exact fields msg.id (by simp)
    · exact ⟨_, rfl⟩
  · exact mem_fieldIf he ▸ fields msg.method (by simp)
  · exact mem_fieldIf he ▸ fields msg.params (by simp)
  · exact mem_fieldIf he ▸ fields msg.result (by simp)
  · exact mem_fieldIf he ▸ fields msg.error (by simp)
  · exact mem_fieldIf he ▸ fields msg.metadata (by simp)

/-- A field of an encoded message reads back as the field does by itself. -/
theorem field_of_toJson {msg : RPCMessage} {t : JsonText} (ht : msg.toJson py = .ok t)
    {name : String} {v : PyVal} (hv : PyVal.getStr name msg.entries = some v) :
    ∃ u, py.dumps v = .ok u ∧ t.field name = some u.loads :=
  py.field_of_dumps msg.entries_strings msg.entries_nodup ht hv

/-- The type of an encoded message can be read from its text. -/
theorem field_type_of_toJson {msg : RPCMessage} {t : JsonText} (ht : msg.toJson py = .ok t) :
    t.field "type" = some (.str msg.type.value) := by
  have hget : PyVal.getStr "type" msg.entries = some (.str msg.type.value) := rfl
  obtain ⟨u, hu, hfield⟩ := field_of_toJson py ht hget
  obtain rfl := Except.ok.inj hu
  exact hfield

/-- So can its id, when it came from a text. -/
theorem field_id_of_toJson {msg : RPCMessage} {t : JsonText} (ht : msg.toJson py = .ok t)
    (id : msg.id.IsJson) : t.field "id" = some msg.id := by
  have hget : PyVal.getStr "id" msg.entries = some msg.id := rfl
  obtain ⟨u, hu, hfield⟩ := field_of_toJson py ht hget
  obtain ⟨u', hu', hloads⟩ := py.loads_dumps id
  obtain rfl := Except.ok.inj (hu.symm.trans hu')
  rw [hfield, hloads]

end RPCMessage

/-! ## Decoded frames -/

namespace Frame

/-- A field of the object in the frame. -/
def field (name : String) : Frame → Option PyVal
  | .json t => t.field name
  | _ => none

/-- The type of the message in the frame, when the frame can be decoded. -/
def type? : Frame → Option MessageType
  | .json t =>
    match t.loads with
    | .dict items => MessageType.ofValue? ((PyVal.getStr "type" items).getD (.str "rpc.call"))
    | _ => none
  | _ => none

theorem isJson_field {raw : Frame} {name : String} {v : PyVal} (h : raw.field name = some v) :
    v.IsJson := by
  cases raw with
  | json t => exact t.isJson_field h
  | notJson => cases h
  | unloadable => cases h

/-- Decoding fails exactly on frames without a type, and takes the fields as they are. -/
theorem fromJson_eq_ok_iff {amb : Ambient} {raw : Frame} {msg : RPCMessage} :
    RPCMessage.fromJson amb raw = .ok msg ↔ ∃ type, raw.type? = some type ∧
      msg = .init amb type ((raw.field "method").getD .none) ((raw.field "params").getD .none)
        ((raw.field "result").getD .none) ((raw.field "error").getD .none)
        ((raw.field "id").getD .none) ((raw.field "metadata").getD .none) := by
  unfold RPCMessage.fromJson Frame.loads type? field JsonText.field
  cases raw with
  | notJson => simp [bind, Except.bind]
  | unloadable => simp [bind, Except.bind]
  | json t =>
    simp only [bind, Except.bind]
    unfold RPCMessage.fromDict
    cases t.loads with
    | dict items =>
      dsimp only
      cases MessageType.ofValue? ((PyVal.getStr "type" items).getD (.str "rpc.call")) with
      | none => simp
      | some type => simp [eq_comm]
    | _ => simp

/-- The id of a decoded message came from its text or was supplied. -/
theorem isJson_id {amb : Ambient} {raw : Frame} {msg : RPCMessage}
    (h : RPCMessage.fromJson amb raw = .ok msg) : msg.id.IsJson := by
  obtain ⟨type, -, rfl⟩ := fromJson_eq_ok_iff.1 h
  show (((raw.field "id").getD .none).or (.str amb.uuid)).IsJson
  unfold PyVal.or
  split
  · cases found : raw.field "id" with
    | none => trivial
    | some id => exact isJson_field found
  · trivial

theorem truthy_id {amb : Ambient} {raw : Frame} {msg : RPCMessage}
    (h : RPCMessage.fromJson amb raw = .ok msg) (uuid : amb.uuid ≠ "") : msg.id.truthy = true := by
  obtain ⟨type, -, rfl⟩ := fromJson_eq_ok_iff.1 h
  show (((raw.field "id").getD .none).or (.str amb.uuid)).truthy = true
  unfold PyVal.or
  split_ifs with own
  · exact own
  · simpa [PyVal.truthy] using uuid

theorem type?_of_toJson {py : PyText} {msg : RPCMessage} {t : JsonText}
    (ht : msg.toJson py = .ok t) : (Frame.json t).type? = some msg.type := by
  have hfield := RPCMessage.field_type_of_toJson py ht
  unfold JsonText.field at hfield
  unfold type?
  cases hloads : t.loads with
  | dict items =>
    rw [hloads] at hfield
    simp only [hloads, hfield]
    exact MessageType.ofValue?_value msg.type
  | _ =>
    rw [hloads] at hfield
    cases hfield

end Frame

end Cpip
