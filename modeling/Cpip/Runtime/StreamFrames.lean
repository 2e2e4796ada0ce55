import Cpip.Runtime.Reassembly

/-!
# Streams sent as JSON frames

The frames that `make_stream_start`, `make_stream_chunk` and `make_stream_end` make, encoded and
decoded on the way to a manager.  Text comes through; a byte string turns into the text of its
`repr`, which the receiver then takes for the data.
-/

namespace Cpip

/-- A message as the other side decodes it. -/
def RPCMessage.transmit (py : PyText) (amb : Ambient) (msg : RPCMessage) :
    Except PyExc RPCMessage := do
  RPCMessage.fromJson amb (.json (← msg.toJson py))

/-- The message may arrive as `msg'`. -/
def Transmits (py : PyText) (msg msg' : RPCMessage) : Prop :=
  ∃ amb, msg.transmit py amb = .ok msg'

/-- The chunks of one stream. -/
inductive StreamData where
  | bytes (parts : List Bytes)
  | text (parts : List String)

namespace StreamData

def contentType : StreamData → String
  | bytes _ => "bytes"
  | text _ => "text"

def chunks : StreamData → List PyVal
  | bytes parts => parts.map PyVal.bytes
  | text parts => parts.map PyVal.str

/-- The concatenation of the chunks. -/
def joined : StreamData → PyVal
  | bytes parts => .bytes parts.flatten
  | text parts => .str (String.join parts)

/-- The frames of the stream but for its end; the ambient values are those of each frame. -/
def frames (amb : ℕ → Ambient) (callId : PyVal) (metadata : PyVal) (d : StreamData) :
    List RPCMessage :=
  makeStreamStart (amb 0) callId metadata ::
    d.chunks.mapIdx fun i c => makeStreamChunk (amb (i + 1)) callId c i

/-- What comes through: text, and streams without chunks. -/
def Lossless (d : StreamData) : Prop := d = bytes [] ∨ ∃ parts, d = text parts

end StreamData

section Transmission

variable {py : PyText} {amb : Ambient} {msg msg' : RPCMessage}

theorem transmit_eq_ok_iff : msg.transmit py amb = .ok msg' ↔ ∃ t, msg.toJson py = .ok t ∧
    msg' = .init amb msg.type ((t.field "method").getD .none) ((t.field "params").getD .none)
      ((t.field "result").getD .none) ((t.field "error").getD .none) ((t.field "id").getD .none)
      ((t.field "metadata").getD .none) := by
  unfold RPCMessage.transmit
  rw [except_bind_eq_ok]
  refine exists_congr fun t => and_congr_right fun ht => ?_
  have typed := Frame.type?_of_toJson ht
  rw [Frame.fromJson_eq_ok_iff]
  constructor
  · rintro ⟨type, htype, hmsg⟩
    obtain rfl := Option.some.inj (typed.symm.trans htype)
    exact hmsg
  · intro hmsg
    exact ⟨msg.type, typed, hmsg⟩

theorem Transmits.type (h : Transmits py msg msg') : msg'.type = msg.type := by
  obtain ⟨amb, h⟩ := h
  obtain ⟨t, -, rfl⟩ := transmit_eq_ok_iff.1 h
  rfl

theorem Transmits.id (h : Transmits py msg msg') {s : String} (hid : msg.id = .str s)
    (hs : s ≠ "") : msg'.id = .str s := by
  obtain ⟨amb, h⟩ := h
  obtain ⟨t, ht, rfl⟩ := transmit_eq_ok_iff.1 h
  have hfield := RPCMessage.field_id_of_toJson py ht (by rw [hid]; trivial)
  rw [hid] at hfield
  simp only [RPCMessage.init, hfield, Option.getD_some, PyVal.str_or hs]

/-- A result reads back as it does by itself. -/
theorem Transmits.result (h : Transmits py msg msg')
    (given : msg.result.isNone = false) :
    ∃ u, py.dumps msg.result = .ok u ∧ msg'.result = u.loads := by
  obtain ⟨amb, h⟩ := h
  obtain ⟨t, ht, rfl⟩ := transmit_eq_ok_iff.1 h
  obtain ⟨u, hu, hfield⟩ :=
    RPCMessage.field_of_toJson py ht (RPCMessage.getStr_entries_result given)
  exact ⟨u, hu, by simp [RPCMessage.init, hfield]⟩

/-- Metadata that JSON can represent reads back. -/
theorem Transmits.metadata (h : Transmits py msg msg') (json : msg.metadata.IsJson)
    (given : msg.metadata.truthy = true) : msg'.metadata = msg.metadata := by
  obtain ⟨amb, h⟩ := h
  obtain ⟨t, ht, rfl⟩ := transmit_eq_ok_iff.1 h
  obtain ⟨u, hu, hfield⟩ :=
    RPCMessage.field_of_toJson py ht (RPCMessage.getStr_entries_metadata given)
  obtain ⟨u', hu', hloads⟩ := py.loads_dumps json
  obtain rfl := Except.ok.inj (hu.symm.trans hu')
  simp only [RPCMessage.init, hfield, Option.getD_some, hloads, PyVal.or, given, if_true]

/-! ## The frames of a stream -/

/-- A chunk as it arrives. -/
def arrived : PyVal → PyVal
  | .bytes b => .str (bytesRepr b)
  | v => v

theorem isJson_index (i : ℤ) : (PyVal.dict [(.str "index", .int i)]).IsJson := by
  refine (PyVal.everywhere_dict_iff _).2 ⟨⟨by simp, by simp⟩, ?_⟩
  intro e he
  obtain rfl := List.mem_singleton.1 he
  trivial

variable {callId : String} {items : List (PyKey × PyVal)}

theorem transmits_start (h : Transmits py (makeStreamStart amb (.str callId) (.dict items)) msg')
    (named : callId ≠ "") (json : (PyVal.dict items).IsJson) (given : items ≠ []) :
    IsStart msg' ∧ msg'.id = .str callId ∧ msg'.metadata = .dict items := by
  have truthy : (PyVal.dict items).truthy = true := by
    cases items with
    | nil => exact absurd rfl given
    | cons e rest => rfl
  have same : (makeStreamStart amb (.str callId) (.dict items)).metadata = .dict items :=
    if_pos truthy
  refine ⟨h.type, h.id (PyVal.str_or named _) named, ?_⟩
  rw [← same] at json truthy ⊢
  exact h.metadata json truthy

theorem transmits_chunk {c : PyVal} {i : ℕ}
    (h : Transmits py.withBytesRepr (makeStreamChunk amb (.str callId) c i) msg')
    (named : callId ≠ "") (hc : (∃ b, c = .bytes b) ∨ ∃ s, c = .str s) :
    IsChunk i msg' ∧ msg'.id = .str callId ∧ msg'.result = arrived c := by
  have metadata := h.metadata (isJson_index i) rfl
  refine ⟨⟨h.type, ?_⟩, h.id (PyVal.str_or named _) named, ?_⟩
  · rw [RPCMessage.index, metadata]
    rfl
  · rcases hc with ⟨b, rfl⟩ | ⟨s, rfl⟩
    · obtain ⟨u, hu, hresult⟩ := h.result rfl
      obtain rfl := Except.ok.inj hu
      exact hresult
    · obtain ⟨u, hu, hresult⟩ := h.result rfl
      obtain rfl := Except.ok.inj hu
      exact hresult

theorem StreamData.chunks_cases {d : StreamData} {c : PyVal} (h : c ∈ d.chunks) :
    (∃ b, c = .bytes b) ∨ ∃ s, c = .str s := by
  cases d with
  | bytes parts =>
    obtain ⟨b, -, rfl⟩ := List.mem_map.1 h
    exact Or.inl ⟨b, rfl⟩
  | text parts =>
    obtain ⟨s, -, rfl⟩ := List.mem_map.1 h
    exact Or.inr ⟨s, rfl⟩

/-- The chunk frames as they arrive: in their places, with what became of the chunks. -/
theorem transmits_chunks {ambs : ℕ → Ambient} {d : StreamData} {received : List RPCMessage}
    (h : List.Forall₂ (Transmits py.withBytesRepr)
      (d.chunks.mapIdx fun i c => makeStreamChunk (ambs (i + 1)) (.str callId) c i) received)
    (named : callId ≠ "") :
    (∀ i msg, received[i]? = some msg → IsChunk i msg ∧ msg.id = .str callId) ∧
      received.map RPCMessage.result = d.chunks.map arrived := by
  have length : d.chunks.length = received.length := by simpa using h.length_eq
  have each : ∀ i c msg, d.chunks[i]? = some c → received[i]? = some msg →
      IsChunk i msg ∧ msg.id = .str callId ∧ msg.result = arrived c := by
    intro i c msg hc hmsg
    obtain ⟨hi, rfl⟩ := List.getElem?_eq_some_iff.1 hc
    obtain ⟨hi', rfl⟩ := List.getElem?_eq_some_iff.1 hmsg
    have hframe := h.get (by simpa using hi) hi'
    simp only [List.get_eq_getElem, List.getElem_mapIdx] at hframe
    exact transmits_chunk hframe named (StreamData.chunks_cases (List.getElem_mem hi))
  constructor
  · intro i msg hmsg
    have hi := (List.getElem?_eq_some_iff.1 hmsg).1
    obtain ⟨hchunk, hid, -⟩ := each i _ msg (List.getElem?_eq_getElem (by omega)) hmsg
    exact ⟨hchunk, hid⟩
  · apply List.ext_getElem (by simpa using length.symm)
    intro i hi hi'
    simp only [List.length_map] at hi hi'
    simp only [List.getElem_map]
    exact (each i _ _ (List.getElem?_eq_getElem hi') (List.getElem?_eq_getElem hi)).2.2

end Transmission

/-! ## What `wait` returns -/

theorem length_flatten_le (parts : List Bytes) :
    parts.flatten.length ≤ (parts.flatMap fun b => encodeUtf8 (bytesRepr b)).length := by
  induction parts with
  | nil => simp
  | cons b parts ih =>
    have := length_lt_length_bytesRepr b
    rw [List.flatten_cons, List.flatMap_cons, List.length_append, List.length_append]
    omega

/-- The texts of byte strings are not the byte strings. -/
theorem flatMap_bytesRepr_eq_flatten_iff (parts : List Bytes) :
    (parts.flatMap fun b => encodeUtf8 (bytesRepr b)) = parts.flatten ↔ parts = [] := by
  constructor
  · intro same
    cases parts with
    | nil => rfl
    | cons b parts =>
      have length := congrArg List.length same
      have longer := length_lt_length_bytesRepr b
      have rest := length_flatten_le parts
      rw [List.flatten_cons, List.flatMap_cons, List.length_append, List.length_append] at length
      omega
  · rintro rfl
    rfl

theorem wait_arrived_iff (py : PyText) (callId : String) {items : List (PyKey × PyVal)}
    {d : StreamData} (kind : StreamReceiver.contentType items = .str d.contentType) :
    { StreamReceiver.init callId with
        metadata := .dict items, chunks := d.chunks.map arrived }.onEnd.wait py =
      some (.ok d.joined) ↔ d.Lossless := by
  show some (StreamReceiver.assemble py _) = _ ↔ _
  cases d with
  | text parts =>
    have lossless : (StreamData.text parts).Lossless := Or.inr ⟨parts, rfl⟩
    have text : ¬ (StreamReceiver.contentType items).asStr? = some "bytes" := by
      simp [kind, StreamData.contentType, PyVal.asStr?]
    refine iff_of_true ?_ lossless
    simp [StreamReceiver.assemble, StreamReceiver.onEnd, kind, StreamData.contentType, PyVal.asStr?,
      StreamData.chunks, StreamData.joined, Function.comp_def, arrived, PyText.toStr]
  | bytes parts =>
    have assembled : StreamReceiver.assemble py { StreamReceiver.init callId with
          metadata := .dict items, chunks := (StreamData.bytes parts).chunks.map arrived }.onEnd =
        .ok (.bytes (parts.flatMap fun b => encodeUtf8 (bytesRepr b))) := by
      simp [StreamReceiver.assemble, StreamReceiver.onEnd, kind, StreamData.contentType,
        PyVal.asStr?, StreamData.chunks, List.flatMap_map, StreamReceiver.chunkBytes, arrived,
        PyText.toStr]
    rw [assembled]
    have lossless : (StreamData.bytes parts).Lossless ↔ parts = [] := by
      simp [StreamData.Lossless]
    rw [lossless, ← flatMap_bytesRepr_eq_flatten_iff]
    simp [StreamData.joined]

/-! ## Whole streams -/

theorem dumps_or {py : PyText} {v w : PyVal} (hv : ∃ t, py.dumps v = .ok t)
    (hw : ∃ t, py.dumps w = .ok t) : ∃ t, py.dumps (v.or w) = .ok t := by
  unfold PyVal.or
  split_ifs
  · exact hv
  · exact hw

/-- A message made by `RPCMessage.__init__` from parts that can be encoded arrives. -/
theorem transmit_init_isOk {py : PyText} (amb : Ambient) {type : MessageType}
    {result id metadata : PyVal} (hresult : ∃ t, py.dumps result = .ok t)
    (hid : ∃ t, py.dumps id = .ok t) (hmetadata : ∃ t, py.dumps metadata = .ok t) (amb' : Ambient) :
    ∃ msg', (RPCMessage.init amb type .none .none result .none id metadata).transmit py amb' =
      .ok msg' := by
  have encodes : ∃ t, (RPCMessage.init amb type .none .none result .none id metadata).toJson py =
      .ok t := by
    apply RPCMessage.toJson_isOk
    intro v hv
    simp only [List.mem_cons, List.not_mem_nil, or_false] at hv
    rcases hv with rfl | rfl | rfl | rfl | rfl | rfl
    · exact dumps_or hid ⟨_, rfl⟩
    · exact ⟨_, rfl⟩
    · exact ⟨_, rfl⟩
    · exact hresult
    · exact ⟨_, rfl⟩
    · exact dumps_or hmetadata ⟨_, rfl⟩
  obtain ⟨t, ht⟩ := encodes
  exact ⟨_, transmit_eq_ok_iff.2 ⟨t, ht, rfl⟩⟩

theorem dumps_chunk {py : PyText} {d : StreamData} {c : PyVal} (h : c ∈ d.chunks) :
    ∃ t, py.dumps c = .ok t := by
  rcases StreamData.chunks_cases h with ⟨b, rfl⟩ | ⟨s, rfl⟩
  · exact ⟨_, rfl⟩
  · exact ⟨_, rfl⟩

theorem mem_frames {ambs : ℕ → Ambient} {callId metadata : PyVal} {d : StreamData}
    {msg : RPCMessage} (h : msg ∈ d.frames ambs callId metadata) :
    msg = makeStreamStart (ambs 0) callId metadata ∨
      ∃ i c, c ∈ d.chunks ∧ msg = makeStreamChunk (ambs (i + 1)) callId c i := by
  rcases List.mem_cons.1 h with rfl | h
  · exact Or.inl rfl
  · obtain ⟨i, hi, rfl⟩ := List.mem_mapIdx.1 h
    exact Or.inr ⟨i, _, List.getElem_mem hi, rfl⟩

/-- Under the empty id, the frames of a stream carry other ids. -/
theorem id_of_empty {py : PyText} {amb : Ambient} (fresh : amb.uuid ≠ "") {type : MessageType}
    {result metadata : PyVal} {msg' : RPCMessage}
    (h : Transmits py (.init amb type .none .none result .none (.str "") metadata) msg') :
    msg'.id.asStr? ≠ some "" := by
  rw [h.id (s := amb.uuid) rfl fresh]
  exact fun e => fresh (Option.some.inj e)

theorem filterMap_own_of_id {order : List RPCMessage} {k : String}
    (h : ∀ msg ∈ order, msg.id = .str k) :
    (order.map StreamManager.Op.frame).filterMap (StreamManager.Op.own k) = order := by
  rw [List.filterMap_map]
  refine (List.filterMap_congr fun msg hmsg => ?_).trans List.filterMap_some
  exact if_pos (PyVal.asStr?_eq_some_iff.2 (h msg hmsg))

theorem filterMap_own_of_id_ne {order : List RPCMessage} {k : String}
    (h : ∀ msg ∈ order, msg.id.asStr? ≠ some k) :
    (order.map StreamManager.Op.frame).filterMap (StreamManager.Op.own k) = [] := by
  rw [List.filterMap_map, List.filterMap_eq_nil_iff]
  exact fun msg hmsg => if_neg (h msg hmsg)

theorem exists_received {py : PyText} {msgs : List RPCMessage}
    (total : ∀ msg ∈ msgs, ∀ amb, ∃ msg', msg.transmit py amb = .ok msg') :
    ∃ received, List.Forall₂ (Transmits py) msgs received := by
  induction msgs with
  | nil => exact ⟨[], .nil⟩
  | cons msg msgs ih =>
    obtain ⟨msg', hmsg'⟩ := total msg (List.mem_cons_self ..) ⟨"", 0⟩
    obtain ⟨received, rest⟩ := ih fun m hm => total m (List.mem_cons_of_mem _ hm)
    exact ⟨msg' :: received, .cons ⟨_, hmsg'⟩ rest⟩

theorem isJson_contentType (s : String) : (PyVal.dict [(.str "content_type", .str s)]).IsJson := by
  refine (PyVal.everywhere_dict_iff _).2 ⟨⟨by simp, by simp⟩, ?_⟩
  intro e he
  obtain rfl := List.mem_singleton.1 he
  trivial

section Delivery

variable {py : PyText} {ambs : ℕ → Ambient} {ambEnd : Ambient} {callId : String}
  {items : List (PyKey × PyVal)} {d : StreamData} {received order : List RPCMessage}
  {fin : RPCMessage}

/-- Every frame of a stream can be encoded and decoded. -/
theorem frames_transmit (py : PyText) (ambs : ℕ → Ambient) (ambEnd : Ambient) (callId : String)
    (json : (PyVal.dict items).IsJson) (d : StreamData) :
    ∀ msg ∈ makeStreamEnd ambEnd (.str callId) :: d.frames ambs (.str callId) (.dict items),
      ∀ amb, ∃ msg', msg.transmit py amb = .ok msg' := by
  intro msg hmsg amb
  rcases List.mem_cons.1 hmsg with rfl | hmsg
  · exact transmit_init_isOk _ ⟨_, rfl⟩ ⟨_, rfl⟩ ⟨_, rfl⟩ amb
  · rcases mem_frames hmsg with rfl | ⟨i, c, hc, rfl⟩
    · obtain ⟨t, ht, -⟩ := py.loads_dumps json
      exact transmit_init_isOk _ ⟨_, rfl⟩ ⟨_, rfl⟩ ⟨t, ht⟩ amb
    · exact transmit_init_isOk _ (dumps_chunk hc) ⟨_, rfl⟩ ⟨_, rfl⟩ amb

/-- What the frames of a stream under a proper id leave of it. -/
theorem receiver_of_transmitted (named : callId ≠ "") (json : (PyVal.dict items).IsJson)
    (given : items ≠ []) (before : List StreamManager.Op)
    (frames : List.Forall₂ (Transmits py.withBytesRepr)
      (d.frames ambs (.str callId) (.dict items)) received)
    (ending : Transmits py.withBytesRepr (makeStreamEnd ambEnd (.str callId)) fin)
    (perm : order.Perm received) :
    (StreamManager.init.run (before ++ .create callId :: order.map StreamManager.Op.frame ++
        [.frame fin])).receivers[(StreamManager.init.run before).receivers.length]? =
      some { StreamReceiver.init callId with
        metadata := .dict items, chunks := d.chunks.map arrived }.onEnd := by
  cases frames with
  | @cons _ start _ chunks hstart hchunks =>
    obtain ⟨isStart, startId, metadata⟩ := transmits_start hstart named json given
    obtain ⟨isChunk, results⟩ := transmits_chunks hchunks named
    have ids : ∀ msg ∈ order, msg.id = .str callId := by
      intro msg hmsg
      rcases List.mem_cons.1 (perm.mem_iff.1 hmsg) with rfl | hmsg
      · exact startId
      · obtain ⟨i, hi⟩ := List.mem_iff_getElem?.1 hmsg
        exact (isChunk i msg hi).2
    have own := filterMap_own_of_id ids
    rw [← results, ← metadata]
    exact (StreamManager.receiver_of_frames before (order.map StreamManager.Op.frame) [] isStart
      (fun i msg hi => (isChunk i msg hi).1) ending.type
      (ending.id (PyVal.str_or named _) named) (by simp) (own.symm ▸ perm)).2

/-- Under the empty id, nothing reaches the receiver. -/
theorem receiver_of_empty (fresh : ∀ n, (ambs n).uuid ≠ "") (freshEnd : ambEnd.uuid ≠ "")
    (before : List StreamManager.Op)
    (frames : List.Forall₂ (Transmits py) (d.frames ambs (.str "") (.dict items)) received)
    (ending : Transmits py (makeStreamEnd ambEnd (.str "")) fin) (perm : order.Perm received) :
    (StreamManager.init.run (before ++ .create "" :: order.map StreamManager.Op.frame ++
        [.frame fin])).receivers[(StreamManager.init.run before).receivers.length]? =
      some (.init "") := by
  have others : ∀ msg ∈ order ++ [fin], msg.id.asStr? ≠ some "" := by
    intro msg hmsg
    rcases List.mem_append.1 hmsg with hmsg | hmsg
    · obtain ⟨n, hn, rfl⟩ := List.mem_iff_getElem.1 (perm.mem_iff.1 hmsg)
      have hn' := frames.length_eq ▸ hn
      have transmits := frames.get hn' hn
      rcases mem_frames (List.get_mem _ ⟨n, hn'⟩) with sent | ⟨i, c, -, sent⟩
      · rw [sent] at transmits
        exact id_of_empty (fresh 0) transmits
      · rw [sent] at transmits
        exact id_of_empty (fresh (i + 1)) transmits
    · obtain rfl := List.mem_singleton.1 hmsg
      exact id_of_empty freshEnd ending
  have own := filterMap_own_of_id_ne others
  have named := StreamManager.named_run StreamManager.named_init before
  have going : ∀ msg ∈ ((order ++ [fin]).map StreamManager.Op.frame).filterMap
      (StreamManager.Op.own ""), msg.type ≠ .streamEnd := by
    rw [own]
    simp
  have attached := StreamManager.attached_run (StreamManager.named_step named (.create ""))
    (StreamManager.attached_create _ "") (by simp) going
  rw [own] at attached
  have split : before ++ .create "" :: order.map StreamManager.Op.frame ++ [.frame fin] =
      before ++ .create "" :: (order ++ [fin]).map StreamManager.Op.frame := by simp
  rw [split, StreamManager.run_append]
  exact attached.2

end Delivery

/-- After the frames that arrived, `wait` on the stream's receiver returns the concatenation of its
chunks. -/
def Returned (py : PyText) (before : List StreamManager.Op) (callId : String)
    (order : List RPCMessage) (fin : RPCMessage) (d : StreamData) : Prop :=
  ∃ r, (StreamManager.init.run (before ++ .create callId :: order.map StreamManager.Op.frame ++
      [.frame fin])).receivers[(StreamManager.init.run before).receivers.length]? = some r ∧
    r.wait py = some (.ok d.joined)

/-- Every frame of a stream is encoded and decoded, and when they arrive in any order with the end
last, `wait` returns the concatenation of the chunks exactly for text and for no chunks at all, and
only under an id that is not empty. -/
theorem stream_received_iff (py : PyText) (ambs : ℕ → Ambient)
    (fresh : ∀ n, (ambs n).uuid ≠ "") (ambEnd : Ambient) (freshEnd : ambEnd.uuid ≠ "")
    (callId : String) (items : List (PyKey × PyVal)) (json : (PyVal.dict items).IsJson)
    (d : StreamData) (kind : StreamReceiver.contentType items = .str d.contentType) :
    (∀ msg ∈ makeStreamEnd ambEnd (.str callId) :: d.frames ambs (.str callId) (.dict items),
      ∀ amb, ∃ msg', msg.transmit py.withBytesRepr amb = .ok msg') ∧
    ∀ (before : List StreamManager.Op) (received order : List RPCMessage) (fin : RPCMessage),
      List.Forall₂ (Transmits py.withBytesRepr) (d.frames ambs (.str callId) (.dict items))
        received →
      Transmits py.withBytesRepr (makeStreamEnd ambEnd (.str callId)) fin → order.Perm received →
      (Returned py.withBytesRepr before callId order fin d ↔ callId ≠ "" ∧ d.Lossless) := by
  have given : items ≠ [] := by
    rintro rfl
    cases d <;> simp [StreamReceiver.contentType, PyVal.getItem, StreamData.contentType] at kind
  refine ⟨frames_transmit py.withBytesRepr ambs ambEnd callId json d, ?_⟩
  intro before received order fin frames ending perm
  unfold Returned
  by_cases named : callId = ""
  · subst named
    rw [receiver_of_empty fresh freshEnd before frames ending perm]
    refine iff_of_false ?_ fun h => h.1 rfl
    rintro ⟨r, hr, hwait⟩
    obtain rfl := Option.some.inj hr
    cases hwait
  · rw [receiver_of_transmitted named json given before frames ending perm]
    rw [← wait_arrived_iff py.withBytesRepr callId kind]
    constructor
    · rintro ⟨r, hr, hwait⟩
      obtain rfl := Option.some.inj hr
      exact ⟨named, hwait⟩
    · exact fun h => ⟨_, rfl, h.2⟩

/-- A text of two chunks whose frames arrive in reverse. -/
theorem stream_received_iff_reversed : ∃ received fin,
    List.Forall₂ (Transmits plainText.withBytesRepr)
      ((StreamData.text ["hello ", "world"]).frames (fun _ => ⟨"u", 0⟩) (.str "a")
        (.dict [(.str "content_type", .str "text")])) received ∧
    Transmits plainText.withBytesRepr (makeStreamEnd ⟨"u", 0⟩ (.str "a")) fin ∧
    Returned plainText.withBytesRepr [] "a" received.reverse fin (.text ["hello ", "world"]) := by
  obtain ⟨total, returned_iff⟩ := stream_received_iff plainText (fun _ => ⟨"u", 0⟩) (by simp)
    ⟨"u", 0⟩ (by simp) "a" [(.str "content_type", .str "text")] (isJson_contentType "text")
    (.text ["hello ", "world"]) rfl
  obtain ⟨fin, ending⟩ := total _ (List.mem_cons_self ..) ⟨"v", 1⟩
  obtain ⟨received, frames⟩ :=
    exists_received fun msg hmsg => total msg (List.mem_cons_of_mem _ hmsg)
  have returned := (returned_iff [] received received.reverse fin frames ⟨_, ending⟩
    (List.reverse_perm received)).2 ⟨by simp, Or.inr ⟨_, rfl⟩⟩
  exact ⟨received, fin, frames, ⟨_, ending⟩, returned⟩

/-- The two bytes `hi` come out as the five bytes `b'hi'`. -/
theorem bytes_not_returned : ¬ ∀ (py : PyText) (ambs : ℕ → Ambient) (ambEnd : Ambient)
    (callId : String) (items : List (PyKey × PyVal)) (d : StreamData)
    (received order : List RPCMessage) (fin : RPCMessage),
    (∀ n, (ambs n).uuid ≠ "") → ambEnd.uuid ≠ "" → callId ≠ "" → (PyVal.dict items).IsJson →
    StreamReceiver.contentType items = .str d.contentType →
    List.Forall₂ (Transmits py.withBytesRepr) (d.frames ambs (.str callId) (.dict items))
      received →
    Transmits py.withBytesRepr (makeStreamEnd ambEnd (.str callId)) fin → order.Perm received →
    Returned py.withBytesRepr [] callId order fin d := by
  intro returned
  let ambs : ℕ → Ambient := fun _ => ⟨"u", 0⟩
  let data : StreamData := .bytes [[104, 105]]
  have json := isJson_contentType "bytes"
  have total := frames_transmit plainText.withBytesRepr ambs ⟨"u", 0⟩ "a" json data
  obtain ⟨fin, ending⟩ := total _ (List.mem_cons_self ..) ⟨"v", 1⟩
  obtain ⟨received, frames⟩ :=
    exists_received fun msg hmsg => total msg (List.mem_cons_of_mem _ hmsg)
  obtain ⟨r, hr, hwait⟩ := returned plainText ambs ⟨"u", 0⟩ "a" _ data received received fin
    (by simp [ambs]) (by simp) (by simp) json rfl frames ⟨_, ending⟩ (List.Perm.refl received)
  rw [receiver_of_transmitted (by simp) json (by simp) [] frames ⟨_, ending⟩
    (List.Perm.refl received)] at hr
  obtain rfl := Option.some.inj hr
  have lossless := (wait_arrived_iff plainText.withBytesRepr "a" rfl).1 hwait
  simp [data, StreamData.Lossless] at lossless

end Cpip
