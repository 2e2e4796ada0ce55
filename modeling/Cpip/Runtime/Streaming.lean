import Cpip.Lib.Slots
import Cpip.Python.Text
import Cpip.Shared.Protocol

/-!
# Result streaming (`runtime/streaming.py`)

A receiver is an object that the manager and its user share, so the manager keeps every receiver it
made, and its table of streams names them by their numbers.
-/

namespace Cpip

/-- `StreamReceiver`; `signalled` says that its event is set. -/
structure StreamReceiver where
  callId : String
  chunks : List PyVal
  metadata : PyVal
  complete : Bool
  signalled : Bool
  error : Option PyExc

namespace StreamReceiver

def init (callId : String) : StreamReceiver := ⟨callId, [], .dict [], false, false, none⟩

def onStart (r : StreamReceiver) (metadata : PyVal) : StreamReceiver :=
  { r with metadata := metadata }

/-- `while len(self.chunks) <= index: self.chunks.append(None)`. -/
def pad (r : StreamReceiver) (index : ℤ) : StreamReceiver :=
  { r with chunks := r.chunks ++ List.replicate (index + 1 - r.chunks.length).toNat PyVal.none }

/-- `on_chunk` for an integer; a negative index counts from the end of the list. -/
def onChunkInt (r : StreamReceiver) (data : PyVal) (index : ℤ) :
    Except PyExc Unit × StreamReceiver :=
  let r := r.pad index
  let i := if index < 0 then index + r.chunks.length else index
  if i < 0 then (.error (.other "IndexError"), r)
  else (.ok (), { r with chunks := r.chunks.set i.toNat data })

/-- `on_chunk`.  A finite float pads the list before it fails as an index; padding up to infinity
ends with the memory. -/
def onChunk (r : StreamReceiver) (data : PyVal) : PyVal → Except PyExc Unit × StreamReceiver
  | .int i => r.onChunkInt data i
  | .bool b => r.onChunkInt data (if b then 1 else 0)
  | .float (.finite q) =>
    (.error (.typeError "list indices must be integers or slices, not float"), r.pad q.floor)
  | .float (.inf false) => (.error (.other "MemoryError"), r)
  | .float _ => (.error (.typeError "list indices must be integers or slices, not float"), r)
  | _ => (.error (.typeError "'<=' not supported"), r)

def onEnd (r : StreamReceiver) : StreamReceiver := { r with complete := true, signalled := true }

def onError (r : StreamReceiver) (error : PyExc) : StreamReceiver :=
  { r with error := some error, signalled := true }

variable (py : PyText)

/-- `c if isinstance(c, bytes) else str(c).encode()`. -/
def chunkBytes : PyVal → Bytes
  | .bytes b => b
  | c => encodeUtf8 (py.toStr c)

/-- `metadata.get("content_type", "json")`. -/
def contentType (items : List (PyKey × PyVal)) : PyVal :=
  (PyVal.getStr "content_type" items).getD (.str "json")

/-- `_assemble`. -/
def assemble (r : StreamReceiver) : Except PyExc PyVal :=
  match r.metadata with
  | .dict items =>
    if (contentType items).asStr? = some "bytes" then
      .ok (.bytes (r.chunks.flatMap (chunkBytes py)))
    else if (contentType items).asStr? = some "text" then
      .ok (.str (String.join (r.chunks.map py.toStr)))
    else
      match r.chunks with
      | [c] => .ok c
      | chunks => .ok (.list chunks)
  | _ => .error (.attributeError "object has no attribute 'get'")

/-- What `wait` returns or raises once the event is set; before that it waits, and raises
`TimeoutError` in the end. -/
def wait (r : StreamReceiver) : Option (Except PyExc PyVal) :=
  if r.signalled then
    match r.error with
    | some e => some (.error e)
    | none => some (r.assemble py)
  else none

end StreamReceiver

/-- `StreamManager`, with every receiver that it made. -/
structure StreamManager where
  receivers : List StreamReceiver
  streams : Dict String ℕ

namespace StreamManager

def init : StreamManager := ⟨[], ∅⟩

/-- `create_stream`, which returns the receiver with the next number. -/
def createStream (m : StreamManager) (callId : String) : StreamManager :=
  ⟨m.receivers ++ [.init callId], m.streams.set callId m.receivers.length⟩

/-- `self._streams.get(id)`, which raises `TypeError` when the id has no hash. -/
def lookup (m : StreamManager) (id : PyVal) : Except PyExc (Option ℕ) :=
  match id.hash? with
  | none => .error (.typeError "unhashable type")
  | some (.str s) => .ok (m.streams.get? s)
  | some _ => .ok none

/-- What a method of the receiver with number `i` raises, and the manager after it. -/
def update (m : StreamManager) (i : ℕ) (f : StreamReceiver → Except PyExc Unit × StreamReceiver) :
    Except PyExc Unit × StreamManager :=
  match m.receivers[i]? with
  | some r => ((f r).1, { m with receivers := m.receivers.set i (f r).2 })
  | none => (.ok (), m)

/-- `del self._streams[msg.id]`. -/
def delete (m : StreamManager) (id : PyVal) : StreamManager :=
  match id.asStr? with
  | some s => { m with streams := m.streams.pop s }
  | none => m

end StreamManager

namespace RPCMessage

/-- `msg.metadata.get("index", 0)`. -/
def index (msg : RPCMessage) : Except PyExc PyVal :=
  match msg.metadata with
  | .dict items => .ok ((PyVal.getStr "index" items).getD (.int 0))
  | _ => .error (.attributeError "object has no attribute 'get'")

end RPCMessage

/-- What `handle_message` does to the receiver of the message. -/
def StreamReceiver.receive (msg : RPCMessage) (r : StreamReceiver) :
    Except PyExc Unit × StreamReceiver :=
  match msg.type with
  | .streamStart => (.ok (), r.onStart msg.metadata)
  | .streamChunk =>
    match msg.index with
    | .ok index => r.onChunk msg.result index
    | .error e => (.error e, r)
  | .streamEnd => (.ok (), r.onEnd)
  | _ => (.ok (), r)

namespace StreamManager

/-- `handle_message`. -/
def handleMessage (m : StreamManager) (msg : RPCMessage) : Except PyExc Unit × StreamManager :=
  match m.lookup msg.id with
  | .error e => (.error e, m)
  | .ok none => (.ok (), m)
  | .ok (some i) =>
    let (out, m) := m.update i (StreamReceiver.receive msg)
    if msg.type = .streamEnd then (out, m.delete msg.id) else (out, m)

/-- `get_stream`. -/
def getStream (m : StreamManager) (callId : String) : Option StreamReceiver :=
  (m.streams.get? callId).bind fun i => m.receivers[i]?

/-! ## Runs -/

/-- The calls of the two methods that change a manager. -/
inductive Op where
  | create (callId : String)
  | frame (msg : RPCMessage)

/-- One call; what it raises goes to its caller. -/
def step (m : StreamManager) : Op → StreamManager
  | .create callId => m.createStream callId
  | .frame msg => (m.handleMessage msg).2

def run (m : StreamManager) (ops : List Op) : StreamManager := ops.foldl step m

end StreamManager

end Cpip
