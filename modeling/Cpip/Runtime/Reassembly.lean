import Cpip.Runtime.Streaming

/-!
# Reassembly of interleaved streams

The frames of one stream commute as far as its receiver goes, and the frames of other streams do not
reach it.  So a receiver ends up with its chunks in index order, whatever the interleaving.
-/

namespace Cpip

/-- The frame starts a stream. -/
def IsStart (msg : RPCMessage) : Prop := msg.type = .streamStart

/-- The frame carries the chunk with the index `i`. -/
def IsChunk (i : ℕ) (msg : RPCMessage) : Prop :=
  msg.type = .streamChunk ∧ msg.index = .ok (.int i)

namespace StreamReceiver

/-! ## One receiver -/

/-- The receiver after frames of its stream. -/
def receiveAll (r : StreamReceiver) (msgs : List RPCMessage) : StreamReceiver :=
  msgs.foldl (fun r msg => (r.receive msg).2) r

theorem onChunkInt_natCast (r : StreamReceiver) (data : PyVal) (i : ℕ) :
    r.onChunkInt data i =
      (.ok (), { r with chunks := Slots.place PyVal.none r.chunks i data }) := by
  have room : ((i : ℤ) + 1 - r.chunks.length).toNat = i + 1 - r.chunks.length := by omega
  have nonneg : ¬ (i : ℤ) < 0 := by omega
  simp [onChunkInt, pad, Slots.place, room, nonneg]

theorem receive_start {msg : RPCMessage} (h : IsStart msg) (r : StreamReceiver) :
    (r.receive msg).2 = { r with metadata := msg.metadata } := by
  unfold receive
  rw [h]
  rfl

theorem receive_chunk {i : ℕ} {msg : RPCMessage} (h : IsChunk i msg) (r : StreamReceiver) :
    (r.receive msg).2 = { r with chunks := Slots.place PyVal.none r.chunks i msg.result } := by
  unfold receive
  rw [h.1, h.2]
  simp only [onChunk, onChunkInt_natCast]

theorem receive_end {msg : RPCMessage} (h : msg.type = .streamEnd) (r : StreamReceiver) :
    (r.receive msg).2 = r.onEnd := by
  unfold receive
  rw [h]

/-- Chunks that arrive in index order are appended. -/
theorem receiveAll_chunks (r : StreamReceiver) {msgs : List RPCMessage}
    (chunks : ∀ i msg, msgs[i]? = some msg → IsChunk (r.chunks.length + i) msg) :
    r.receiveAll msgs = { r with chunks := r.chunks ++ msgs.map RPCMessage.result } := by
  induction msgs generalizing r with
  | nil => simp [receiveAll]
  | cons msg msgs ih =>
    have hfirst := receive_chunk (chunks 0 msg rfl) r
    rw [Nat.add_zero, Slots.place_length] at hfirst
    have hrest := ih (r.receive msg).2 fun i msg' hmsg' => by
      rw [hfirst, List.length_append, List.length_singleton, Nat.add_assoc, Nat.add_comm 1]
      exact chunks (i + 1) msg' hmsg'
    calc r.receiveAll (msg :: msgs) = (r.receive msg).2.receiveAll msgs := rfl
      _ = { r with chunks := r.chunks ++ (msg :: msgs).map RPCMessage.result } := by
        rw [hrest, hfirst]
        simp

/-- The frames of one stream commute. -/
theorem receive_comm {start : RPCMessage} {msgs : List RPCMessage} (isStart : IsStart start)
    (chunks : ∀ i msg, msgs[i]? = some msg → IsChunk i msg) :
    ∀ x ∈ start :: msgs, ∀ y ∈ start :: msgs, ∀ r : StreamReceiver,
      ((r.receive x).2.receive y).2 = ((r.receive y).2.receive x).2 := by
  have chunk : ∀ x ∈ msgs, ∃ i, msgs[i]? = some x ∧ IsChunk i x := by
    intro x hx
    obtain ⟨i, hi⟩ := List.mem_iff_getElem?.1 hx
    exact ⟨i, hi, chunks i x hi⟩
  intro x hx y hy r
  rcases List.mem_cons.1 hx with rfl | hx
  · rcases List.mem_cons.1 hy with rfl | hy
    · rfl
    · obtain ⟨j, -, isChunk⟩ := chunk y hy
      simp only [receive_start isStart, receive_chunk isChunk]
  · obtain ⟨i, hi, isChunk⟩ := chunk x hx
    rcases List.mem_cons.1 hy with rfl | hy
    · simp only [receive_start isStart, receive_chunk isChunk]
    · obtain ⟨j, hj, isChunk'⟩ := chunk y hy
      by_cases hij : i = j
      · subst hij
        obtain rfl := Option.some.inj (hi.symm.trans hj)
        rfl
      · simp only [receive_chunk isChunk, receive_chunk isChunk', Slots.place_comm _ _ hij]

/-- A new receiver after the frames of its stream, in any order. -/
theorem receiveAll_of_perm {callId : String} {frames msgs : List RPCMessage} {start : RPCMessage}
    (isStart : IsStart start) (chunks : ∀ i msg, msgs[i]? = some msg → IsChunk i msg)
    (perm : frames.Perm (start :: msgs)) :
    (init callId).receiveAll frames =
      { init callId with metadata := start.metadata, chunks := msgs.map RPCMessage.result } := by
  have comm := receive_comm isStart chunks
  have inOrder : (init callId).receiveAll frames = (init callId).receiveAll (start :: msgs) :=
    perm.foldl_eq' (fun x hx y hy r => comm x (perm.mem_iff.1 hx) y (perm.mem_iff.1 hy) r) _
  have hstart := receive_start isStart (init callId)
  calc (init callId).receiveAll frames = ((init callId).receive start).2.receiveAll msgs := inOrder
    _ = { init callId with metadata := start.metadata, chunks := msgs.map RPCMessage.result } := by
      rw [hstart, receiveAll_chunks]
      · rfl
      · intro i msg hmsg
        have := chunks i msg hmsg
        simpa [init] using this

theorem receive_callId (msg : RPCMessage) (r : StreamReceiver) :
    (r.receive msg).2.callId = r.callId := by
  unfold receive
  cases msg.type with
  | streamChunk =>
    dsimp only
    cases msg.index with
    | error e => rfl
    | ok index =>
      dsimp only
      unfold onChunk
      split <;> first | rfl | (unfold onChunkInt; dsimp only; split_ifs <;> rfl)
  | _ => rfl

end StreamReceiver

namespace StreamManager

/-! ## Many receivers -/

/-- The table of streams names each receiver by its own id. -/
def Named (m : StreamManager) : Prop :=
  ∀ k i, m.streams.get? k = some i → ∃ r, m.receivers[i]? = some r ∧ r.callId = k

/-- The receiver `i` is `r`, and the stream `k` leads to it. -/
def Attached (m : StreamManager) (k : String) (i : ℕ) (r : StreamReceiver) : Prop :=
  m.streams.get? k = some i ∧ m.receivers[i]? = some r

/-- The receiver `i` is `r`, and no stream leads to it. -/
def Detached (m : StreamManager) (i : ℕ) (r : StreamReceiver) : Prop :=
  m.receivers[i]? = some r ∧ ∀ k, m.streams.get? k ≠ some i

/-- A frame reaches the receiver that its id names, if there is one. -/
theorem handleMessage_cases {m : StreamManager} (named : m.Named) (msg : RPCMessage) :
    ((m.handleMessage msg).2 = m ∧ ∀ k i, msg.id = .str k → m.streams.get? k ≠ some i) ∨
    ∃ k i r, msg.id = .str k ∧ m.Attached k i r ∧ (m.handleMessage msg).2 =
      ⟨m.receivers.set i (r.receive msg).2,
        if msg.type = .streamEnd then m.streams.pop k else m.streams⟩ := by
  unfold handleMessage
  cases hlookup : m.lookup msg.id with
  | error e =>
    refine Or.inl ⟨rfl, ?_⟩
    rintro k i hid -
    rw [hid] at hlookup
    cases hlookup
  | ok found =>
    unfold lookup at hlookup
    cases found with
    | none =>
      refine Or.inl ⟨rfl, ?_⟩
      rintro k i hid hk
      rw [hid] at hlookup
      exact absurd (hk.symm.trans (Except.ok.inj hlookup)) (by simp)
    | some i =>
      split at hlookup
      · cases hlookup
      · rename_i k hid
        rw [PyVal.hash?_eq_str_iff] at hid
        have hk := Except.ok.inj hlookup
        obtain ⟨r, hr, -⟩ := named k i hk
        refine Or.inr ⟨k, i, r, hid, ⟨hk, hr⟩, ?_⟩
        simp only [update, hr, delete, hid, PyVal.asStr?]
        split_ifs <;> rfl
      · cases hlookup

theorem named_init : init.Named := by
  intro k i h
  cases h

theorem named_step {m : StreamManager} (named : m.Named) (op : Op) : (m.step op).Named := by
  cases op with
  | create callId =>
    intro k i hk
    change (m.streams.set callId m.receivers.length).get? k = some i at hk
    change ∃ r, (m.receivers ++ [StreamReceiver.init callId])[i]? = some r ∧ r.callId = k
    rw [Dict.get?_set] at hk
    split_ifs at hk with same
    · obtain rfl := Option.some.inj hk
      exact ⟨.init callId, by simp, same⟩
    · obtain ⟨r, hr, hid⟩ := named k i hk
      have bound := (List.getElem?_eq_some_iff.1 hr).1
      exact ⟨r, by rw [List.getElem?_append_left bound, hr], hid⟩
  | frame msg =>
    rcases handleMessage_cases named msg with ⟨same, -⟩ | ⟨k', j, r', -, ⟨-, hr'⟩, hnext⟩
    · change (m.handleMessage msg).2.Named
      rw [same]
      exact named
    · change (m.handleMessage msg).2.Named
      rw [hnext]
      intro k i hk
      have hk : m.streams.get? k = some i := by
        dsimp only at hk
        split_ifs at hk
        · exact (Dict.get?_of_get?_pop hk).1
        · exact hk
      obtain ⟨r, hr, hid⟩ := named k i hk
      by_cases hij : j = i
      · subst hij
        obtain rfl := Option.some.inj (hr.symm.trans hr')
        exact ⟨_, List.getElem?_set_self (List.getElem?_eq_some_iff.1 hr).1,
          (r.receive_callId msg).trans hid⟩
      · exact ⟨r, (List.getElem?_set_ne hij).trans hr, hid⟩

theorem named_run {m : StreamManager} (named : m.Named) (ops : List Op) : (m.run ops).Named := by
  induction ops generalizing m with
  | nil => exact named
  | cons op ops ih => exact ih (named_step named op)

theorem run_append (m : StreamManager) (ops ops' : List Op) :
    m.run (ops ++ ops') = (m.run ops).run ops' := List.foldl_append

/-- A new receiver is attached to its stream. -/
theorem attached_create (m : StreamManager) (k : String) :
    (m.step (.create k)).Attached k m.receivers.length (.init k) := by
  constructor
  · exact Dict.get?_set_self ..
  · change (m.receivers ++ [StreamReceiver.init k])[m.receivers.length]? = _
    simp

/-- The frame of the stream `k`, when the call is one that delivers it. -/
def Op.own (k : String) : Op → Option RPCMessage
  | .create _ => none
  | .frame msg => if msg.id.asStr? = some k then some msg else none

/-- An attached receiver sees the frames of its stream and nothing else. -/
theorem attached_step {m : StreamManager} (named : m.Named) {k : String} {i : ℕ}
    {r : StreamReceiver} (h : m.Attached k i r) {op : Op} (kept : op ≠ .create k)
    (going : ∀ msg, op.own k = some msg → msg.type ≠ .streamEnd) :
    (m.step op).Attached k i (r.receiveAll (op.own k).toList) := by
  obtain ⟨hk, hr⟩ := h
  have bound := (List.getElem?_eq_some_iff.1 hr).1
  cases op with
  | create k' =>
    have different : k' ≠ k := fun e => kept (congrArg Op.create e)
    constructor
    · exact (Dict.get?_set ..).trans ((if_neg different).trans hk)
    · exact (List.getElem?_append_left bound).trans hr
  | frame msg =>
    change (m.handleMessage msg).2.Attached k i _
    rcases handleMessage_cases named msg with ⟨same, nobody⟩ | ⟨k', j, r', hid, ⟨hk', hr'⟩, hnext⟩
    · have own : (Op.frame msg).own k = none := by
        refine if_neg fun e => nobody k i ?_ hk
        exact PyVal.asStr?_eq_some_iff.1 e
      rw [same, own]
      exact ⟨hk, hr⟩
    · rw [hnext]
      by_cases different : k' = k
      · subst different
        obtain rfl := Option.some.inj (hk.symm.trans hk')
        obtain rfl := Option.some.inj (hr.symm.trans hr')
        have own : (Op.frame msg).own k' = some msg := if_pos (by rw [hid]; rfl)
        rw [own, if_neg (going msg own)]
        exact ⟨hk, List.getElem?_set_self bound⟩
      · have own : (Op.frame msg).own k = none := by
          refine if_neg fun e => different ?_
          rw [hid] at e
          exact Option.some.inj e
        have apart : j ≠ i := by
          rintro rfl
          obtain ⟨_, h₁, name⟩ := named k j hk
          obtain ⟨_, h₂, name'⟩ := named k' j hk'
          obtain rfl := Option.some.inj (h₁.symm.trans h₂)
          exact different (name'.symm.trans name)
        rw [own]
        refine ⟨?_, (List.getElem?_set_ne apart).trans hr⟩
        dsimp only
        split_ifs
        · rw [Dict.get?_pop, if_neg different, hk]
        · exact hk

theorem attached_run {m : StreamManager} (named : m.Named) {k : String} {i : ℕ}
    {r : StreamReceiver} (h : m.Attached k i r) {ops : List Op} (kept : .create k ∉ ops)
    (going : ∀ msg ∈ ops.filterMap (Op.own k), msg.type ≠ .streamEnd) :
    (m.run ops).Attached k i (r.receiveAll (ops.filterMap (Op.own k))) := by
  induction ops generalizing m r with
  | nil => exact h
  | cons op ops ih =>
    have hstep : (m.step op).Attached k i (r.receiveAll (op.own k).toList) :=
      attached_step named h (fun e => kept (e ▸ List.mem_cons_self ..)) fun msg hmsg =>
        going msg (List.mem_filterMap.2 ⟨op, List.mem_cons_self .., hmsg⟩)
    have hrest := ih (named_step named op) hstep (fun e => kept (List.mem_cons_of_mem _ e))
      fun msg hmsg => by
        obtain ⟨op', hop', hown⟩ := List.mem_filterMap.1 hmsg
        exact going msg (List.mem_filterMap.2 ⟨op', List.mem_cons_of_mem _ hop', hown⟩)
    have frames : (r.receiveAll (op.own k).toList).receiveAll (ops.filterMap (Op.own k)) =
        r.receiveAll ((op :: ops).filterMap (Op.own k)) := by
      rw [List.filterMap_cons]
      cases op.own k with
      | none => rfl
      | some msg => rfl
    rw [← frames]
    exact hrest

/-- The end frame of a stream completes its receiver and removes its entry. -/
theorem detached_end {m : StreamManager} (named : m.Named) {k : String} {i : ℕ}
    {r : StreamReceiver} (h : m.Attached k i r) {msg : RPCMessage} (isEnd : msg.type = .streamEnd)
    (hid : msg.id = .str k) :
    (m.step (.frame msg)).streams.get? k = none ∧ (m.step (.frame msg)).Detached i r.onEnd := by
  obtain ⟨hk, hr⟩ := h
  change (m.handleMessage msg).2.streams.get? k = none ∧ (m.handleMessage msg).2.Detached i _
  rcases handleMessage_cases named msg with ⟨-, nobody⟩ | ⟨k', j, r', hid', ⟨hk', hr'⟩, hnext⟩
  · exact absurd hk (nobody k i hid)
  · obtain rfl : k' = k := by
      rw [hid] at hid'
      cases hid'
      rfl
    obtain rfl := Option.some.inj (hk.symm.trans hk')
    obtain rfl := Option.some.inj (hr.symm.trans hr')
    rw [hnext, if_pos isEnd, StreamReceiver.receive_end isEnd]
    refine ⟨Dict.get?_pop_self .., List.getElem?_set_self (List.getElem?_eq_some_iff.1 hr).1, ?_⟩
    intro k hleft
    obtain ⟨hleft, different⟩ := Dict.get?_of_get?_pop hleft
    obtain ⟨_, h₁, name⟩ := named k i hleft
    obtain ⟨_, h₂, name'⟩ := named k' i hk
    obtain rfl := Option.some.inj (h₁.symm.trans h₂)
    exact different (name'.symm.trans name)

/-- Nothing reaches a detached receiver. -/
theorem detached_step {m : StreamManager} (named : m.Named) {i : ℕ} {r : StreamReceiver}
    (h : m.Detached i r) (op : Op) : (m.step op).Detached i r := by
  obtain ⟨hr, nobody⟩ := h
  have bound := (List.getElem?_eq_some_iff.1 hr).1
  cases op with
  | create k' =>
    refine ⟨(List.getElem?_append_left bound).trans hr, fun k hk => ?_⟩
    change (m.streams.set k' m.receivers.length).get? k = some i at hk
    rw [Dict.get?_set] at hk
    split_ifs at hk with same
    · have := Option.some.inj hk
      omega
    · exact nobody k hk
  | frame msg =>
    change (m.handleMessage msg).2.Detached i r
    rcases handleMessage_cases named msg with ⟨same, -⟩ | ⟨k', j, r', -, ⟨hk', -⟩, hnext⟩
    · rw [same]
      exact ⟨hr, nobody⟩
    · have apart : j ≠ i := fun e => nobody k' (e ▸ hk')
      rw [hnext]
      refine ⟨(List.getElem?_set_ne apart).trans hr, fun k hk => ?_⟩
      dsimp only at hk
      split_ifs at hk
      · exact nobody k (Dict.get?_of_get?_pop hk).1
      · exact nobody k hk

theorem detached_run {m : StreamManager} (named : m.Named) {i : ℕ} {r : StreamReceiver}
    (h : m.Detached i r) (ops : List Op) : (m.run ops).Detached i r := by
  induction ops generalizing m with
  | nil => exact h
  | cons op ops ih => exact ih (named_step named op) (detached_step named h op)

/-- What is left of a stream that got its start, its chunks in any order and then its end, whatever
else the manager was given. -/
theorem receiver_of_frames (pre mid post : List Op) {callId : String} {start fin : RPCMessage}
    {chunks : List RPCMessage} (isStart : IsStart start)
    (isChunk : ∀ i msg, chunks[i]? = some msg → IsChunk i msg)
    (isEnd : fin.type = .streamEnd) (endId : fin.id = .str callId) (kept : .create callId ∉ mid)
    (frames : (mid.filterMap (Op.own callId)).Perm (start :: chunks)) :
    (init.run (pre ++ .create callId :: mid ++ [.frame fin])).streams.get? callId = none ∧
      (init.run (pre ++ .create callId :: mid ++ .frame fin :: post)).receivers[
          (init.run pre).receivers.length]? =
        some { StreamReceiver.init callId with
          metadata := start.metadata, chunks := chunks.map RPCMessage.result }.onEnd := by
  have named := named_run named_init pre
  have namedCreate := named_step named (.create callId)
  have going : ∀ msg ∈ mid.filterMap (Op.own callId), msg.type ≠ .streamEnd := by
    intro msg hmsg
    rcases List.mem_cons.1 (frames.mem_iff.1 hmsg) with rfl | hchunk
    · rw [isStart]
      decide
    · obtain ⟨i, hi⟩ := List.mem_iff_getElem?.1 hchunk
      rw [(isChunk i msg hi).1]
      decide
  have attached := attached_run namedCreate (attached_create _ callId) kept going
  rw [StreamReceiver.receiveAll_of_perm isStart isChunk frames] at attached
  have namedMid := named_run namedCreate mid
  obtain ⟨removed, detached⟩ := detached_end namedMid attached isEnd endId
  have final := detached_run (named_step namedMid (.frame fin)) detached post
  have hmid : init.run (pre ++ .create callId :: mid) =
      ((init.run pre).step (.create callId)).run mid := run_append ..
  constructor
  · rw [run_append, hmid]
    exact removed
  · rw [run_append, hmid]
    exact final.1

/-! ## What the receivers return -/

/-- The receiver is complete, and `wait` returns what its chunks make. -/
structure Reassembled (py : PyText) (items : List (PyKey × PyVal)) (results : List PyVal)
    (r : StreamReceiver) : Prop where
  complete : r.complete = true
  bytes : StreamReceiver.contentType items = .str "bytes" → ∀ parts : List Bytes,
    results = parts.map PyVal.bytes → r.wait py = some (.ok (.bytes parts.flatten))
  text : StreamReceiver.contentType items = .str "text" → ∀ parts : List String,
    results = parts.map PyVal.str → r.wait py = some (.ok (.str (String.join parts)))
  single : StreamReceiver.contentType items ≠ .str "bytes" →
    StreamReceiver.contentType items ≠ .str "text" → ∀ c, results = [c] →
      r.wait py = some (.ok c)
  list : StreamReceiver.contentType items ≠ .str "bytes" →
    StreamReceiver.contentType items ≠ .str "text" → results.length ≠ 1 →
      r.wait py = some (.ok (.list results))

theorem reassembled_onEnd (py : PyText) (callId : String) (items : List (PyKey × PyVal))
    (results : List PyVal) : Reassembled py items results
      { StreamReceiver.init callId with metadata := .dict items, chunks := results }.onEnd := by
  have other {t : PyVal} {s : String} (h : t ≠ .str s) : ¬ t.asStr? = some s :=
    fun e => h (PyVal.asStr?_eq_some_iff.1 e)
  refine ⟨rfl, ?_, ?_, ?_, ?_⟩
  · rintro hct parts rfl
    show some (StreamReceiver.assemble py _) = _
    simp [StreamReceiver.assemble, StreamReceiver.onEnd, hct, PyVal.asStr?, List.flatMap_map,
      StreamReceiver.chunkBytes, List.flatMap_id']
  · rintro hct parts rfl
    show some (StreamReceiver.assemble py _) = _
    simp [StreamReceiver.assemble, StreamReceiver.onEnd, hct, PyVal.asStr?, Function.comp_def,
      PyText.toStr]
  · rintro hbytes htext c rfl
    show some (StreamReceiver.assemble py _) = _
    simp [StreamReceiver.assemble, StreamReceiver.onEnd, other hbytes, other htext]
  · intro hbytes htext hlength
    show some (StreamReceiver.assemble py _) = _
    simp only [StreamReceiver.assemble, StreamReceiver.onEnd, other hbytes, other htext, if_false]
    split
    · rename_i c
      exact absurd rfl hlength
    · rfl

/-- Whatever else the manager is given, a stream that got its start, its chunks in any order and
then its end is complete, its entry is gone, and `wait` returns its own chunks in index order. -/
theorem streams_reassembled (py : PyText) (pre mid post : List Op) (callId : String)
    (start fin : RPCMessage) (chunks : List RPCMessage) (items : List (PyKey × PyVal))
    (isStart : IsStart start) (described : start.metadata = .dict items)
    (isChunk : ∀ i msg, chunks[i]? = some msg → IsChunk i msg)
    (isEnd : fin.type = .streamEnd) (endId : fin.id = .str callId) (kept : .create callId ∉ mid)
    (frames : (mid.filterMap (Op.own callId)).Perm (start :: chunks)) :
    (init.run (pre ++ .create callId :: mid ++ [.frame fin])).streams.get? callId = none ∧
      ∃ r, (init.run (pre ++ .create callId :: mid ++ .frame fin :: post)).receivers[
          (init.run pre).receivers.length]? = some r ∧
        Reassembled py items (chunks.map RPCMessage.result) r := by
  obtain ⟨removed, receiver⟩ :=
    receiver_of_frames pre mid post isStart isChunk isEnd endId kept frames
  rw [described] at receiver
  exact ⟨removed, _, receiver, reassembled_onEnd py callId items (chunks.map RPCMessage.result)⟩

/-- Two streams whose frames cross; the chunks of the first one arrive in reverse. -/
def crossing (amb : Ambient) : List Op :=
  [.frame (makeStreamChunk amb (.str "a") (.str "world") 1),
    .frame (makeStreamChunk amb (.str "b") (.str "other") 0),
    .frame (makeStreamStart amb (.str "a") (.dict [(.str "content_type", .str "text")])),
    .frame (makeStreamEnd amb (.str "b")),
    .frame (makeStreamChunk amb (.str "a") (.str "hello ") 0)]

theorem streams_reassembled_crossing :
    ∃ r, (init.run (.create "b" :: .create "a" :: crossing ⟨"u", 0⟩ ++
        [.frame (makeStreamEnd ⟨"u", 0⟩ (.str "a"))])).receivers[1]? = some r ∧
      r.wait plainText = some (.ok (.str "hello world")) := by
  let amb : Ambient := ⟨"u", 0⟩
  let start := makeStreamStart amb (.str "a") (.dict [(.str "content_type", .str "text")])
  let first := makeStreamChunk amb (.str "a") (.str "hello ") 0
  let second := makeStreamChunk amb (.str "a") (.str "world") 1
  have isChunk : ∀ i msg, [first, second][i]? = some msg → IsChunk i msg := by
    intro i msg h
    match i with
    | 0 => obtain rfl := Option.some.inj h; exact ⟨rfl, rfl⟩
    | 1 => obtain rfl := Option.some.inj h; exact ⟨rfl, rfl⟩
    | i + 2 => cases h
  have frames : ([second] ++ [start, first]).Perm [start, first, second] := List.perm_append_comm
  obtain ⟨-, r, hr, done⟩ := streams_reassembled plainText [.create "b"] (crossing amb) [] "a" start
    (makeStreamEnd amb (.str "a")) [first, second] _ rfl rfl isChunk rfl rfl
    (by simp [crossing]) frames
  exact ⟨r, hr, done.text rfl ["hello ", "world"] rfl⟩

end StreamManager

end Cpip
