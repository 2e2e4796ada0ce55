import Cpip.Runtime.Reassembly

/-!
# Streams with gaps and streams that fail (`runtime/streaming.py`)

A receiver pads its list of chunks up to every index that it is given, and `wait` answers as soon as
the end frame is there.  Whether chunks are missing then is nowhere looked at, and an error frame
reaches nobody: `on_error` has no caller.
-/

namespace Cpip

/-! ## Frames of one stream -/

/-- The frame carries the chunk `j`; to Python a boolean is an integer. -/
def Carries (j : ℕ) (msg : RPCMessage) : Prop :=
  msg.type = .streamChunk ∧
    (msg.index = .ok (.int j) ∨ ∃ b : Bool, msg.index = .ok (.bool b) ∧ j = b.toNat)

/-- The value is a number that is `j` or more. -/
def AtLeast (j : ℕ) : PyVal → Prop
  | .int i => (j : ℤ) ≤ i
  | .bool b => j ≤ b.toNat
  | .float (.finite q) => (j : ℚ) ≤ q
  | .float (.inf false) => True
  | _ => False

/-- The frame has an index that is `j` or more. -/
def Reaches (j : ℕ) (msg : RPCMessage) : Prop :=
  msg.type = .streamChunk ∧ ∃ index, msg.index = .ok index ∧ AtLeast j index

def Ended (frames : List RPCMessage) : Prop := ∃ msg ∈ frames, msg.type = .streamEnd

def Failed (frames : List RPCMessage) : Prop := ∃ msg ∈ frames, msg.type = .error

def beforeEnd (frames : List RPCMessage) : List RPCMessage :=
  frames.takeWhile fun msg => msg.type ≠ .streamEnd

/-- Every index up to the largest one of the stream came before its end. -/
def Gapless (frames : List RPCMessage) : Prop :=
  ∀ j, (∃ msg ∈ frames, Reaches j msg) → ∃ msg ∈ beforeEnd frames, Carries j msg

/-- The metadata of the last start frame. -/
def startMetadata (frames : List RPCMessage) : PyVal :=
  frames.foldl (fun v msg => if msg.type = .streamStart then msg.metadata else v) (.dict [])

/-- The last start frame before the end had an object for its metadata. -/
def Legible (frames : List RPCMessage) : Prop :=
  ∃ items, startMetadata (beforeEnd frames) = .dict items

theorem beforeEnd_of_end {msg : RPCMessage} (h : msg.type = .streamEnd) (frames : List RPCMessage) :
    beforeEnd (msg :: frames) = [] := by
  simp [beforeEnd, h]

theorem beforeEnd_of_ne {msg : RPCMessage} (h : msg.type ≠ .streamEnd) (frames : List RPCMessage) :
    beforeEnd (msg :: frames) = msg :: beforeEnd frames := by
  simp [beforeEnd, h]

namespace StreamReceiver

/-! ## What a receiver makes of them -/

/-- The receiver after the frames of its stream, of which it sees none after the end. -/
def settle (r : StreamReceiver) : List RPCMessage → StreamReceiver
  | [] => r
  | msg :: frames => if msg.type = .streamEnd then r.onEnd else (r.receive msg).2.settle frames

/-- An integer pads the list up to itself, and a natural number then gets the chunk. -/
theorem onChunkInt_cases (r : StreamReceiver) (data : PyVal) (i : ℤ) : ∃ n k,
    (r.onChunkInt data i).2 =
      { r with chunks := (r.chunks ++ List.replicate n PyVal.none).set k data } ∧
    (∀ j < r.chunks.length + n, j < r.chunks.length ∨ (j : ℤ) ≤ i) ∧
    ∀ j : ℕ, i = j → k = j ∧ j < r.chunks.length + n := by
  have padded : (r.pad i).chunks.length =
      r.chunks.length + (i + 1 - r.chunks.length).toNat := by
    simp [pad]
  have room : ∀ j < r.chunks.length + (i + 1 - r.chunks.length).toNat,
      j < r.chunks.length ∨ (j : ℤ) ≤ i := by
    intro j hj
    omega
  unfold onChunkInt
  dsimp only
  by_cases negative : (if i < 0 then i + (r.pad i).chunks.length else i) < 0
  · rw [if_pos negative]
    refine ⟨_, (r.pad i).chunks.length, ?_, room, ?_⟩
    · rw [padded, List.set_eq_of_length_le (by simp)]
      rfl
    · rintro j rfl
      rw [if_neg (by omega)] at negative
      omega
  · rw [if_neg negative]
    refine ⟨_, _, rfl, room, ?_⟩
    rintro j rfl
    rw [if_neg (by omega)]
    omega

/-- A chunk pads the list at most up to its index. -/
theorem onChunk_cases (r : StreamReceiver) (data index : PyVal) : ∃ n k,
    (r.onChunk data index).2 =
      { r with chunks := (r.chunks ++ List.replicate n PyVal.none).set k data } ∧
    (∀ j < r.chunks.length + n, j < r.chunks.length ∨ AtLeast j index) ∧
    ∀ j : ℕ, (index = .int j ∨ ∃ b : Bool, index = .bool b ∧ j = b.toNat) →
      k = j ∧ j < r.chunks.length + n := by
  have unset (chunks : List PyVal) : chunks.set chunks.length data = chunks :=
    List.set_eq_of_length_le le_rfl
  have same : r = { r with
      chunks := (r.chunks ++ List.replicate 0 PyVal.none).set r.chunks.length data } := by
    rw [List.replicate_zero, List.append_nil, unset]
  have short : ∀ j < r.chunks.length + 0, j < r.chunks.length ∨ AtLeast j index :=
    fun j hj => Or.inl hj
  unfold onChunk
  split
  · rename_i i
    obtain ⟨n, k, chunks, room, placed⟩ := r.onChunkInt_cases data i
    refine ⟨n, k, chunks, room, ?_⟩
    rintro j (h | ⟨b, h, -⟩)
    · cases h
      exact placed j rfl
    · cases h
  · rename_i b
    obtain ⟨n, k, chunks, room, placed⟩ := r.onChunkInt_cases data (if b then 1 else 0)
    refine ⟨n, k, chunks, fun j hj => (room j hj).imp_right ?_, ?_⟩
    · intro below
      have value : (if b = true then 1 else 0 : ℤ) = b.toNat := by cases b <;> rfl
      rw [value] at below
      exact Int.ofNat_le.1 below
    · rintro j (h | ⟨b', h, rfl⟩)
      · cases h
      · cases h
        refine placed _ ?_
        cases b <;> rfl
  · rename_i q
    refine ⟨(q.floor + 1 - r.chunks.length).toNat, (r.pad q.floor).chunks.length, ?_, ?_, ?_⟩
    · exact congrArg (fun chunks => { r with chunks := chunks }) (unset _).symm
    · intro j hj
      refine or_iff_not_imp_left.2 fun far => ?_
      have : (j : ℤ) ≤ q.floor := by omega
      exact Rat.le_floor_iff.1 this
    · rintro j (h | ⟨b, h, -⟩) <;> cases h
  · refine ⟨0, _, same, short, ?_⟩
    rintro j (h | ⟨b, h, -⟩) <;> cases h
  · refine ⟨0, _, same, short, ?_⟩
    rintro j (h | ⟨b, h, -⟩) <;> cases h
  · rename_i noInt noBool _ _ _
    refine ⟨0, _, same, short, ?_⟩
    rintro j (h | ⟨b, h, -⟩)
    · exact absurd h (noInt _)
    · exact absurd h (noBool _)

theorem receive_chunk_cases {msg : RPCMessage} (isChunk : msg.type = .streamChunk)
    (r : StreamReceiver) : ∃ n k,
    (r.receive msg).2 =
      { r with chunks := (r.chunks ++ List.replicate n PyVal.none).set k msg.result } ∧
    (∀ j < r.chunks.length + n, j < r.chunks.length ∨ Reaches j msg) ∧
    ∀ j, Carries j msg → k = j ∧ j < r.chunks.length + n := by
  unfold receive
  rw [isChunk]
  dsimp only
  cases hindex : msg.index with
  | error e =>
    refine ⟨0, r.chunks.length, ?_, fun j hj => Or.inl hj, ?_⟩
    · rw [List.replicate_zero, List.append_nil, List.set_eq_of_length_le le_rfl]
    · rintro j ⟨-, h | ⟨b, h, -⟩⟩ <;> rw [hindex] at h <;> cases h
  | ok index =>
    obtain ⟨n, k, chunks, room, placed⟩ := r.onChunk_cases msg.result index
    refine ⟨n, k, chunks, fun j hj => (room j hj).imp_right fun h =>
      ⟨isChunk, index, hindex, h⟩, ?_⟩
    rintro j ⟨-, h⟩
    rw [hindex] at h
    exact placed j (by simpa using h)

/-- Apart from the end frame, a frame changes the chunks or the metadata. -/
theorem receive_eq {msg : RPCMessage} (going : msg.type ≠ .streamEnd) (r : StreamReceiver) :
    (r.receive msg).2 = { r with
      chunks := (r.receive msg).2.chunks
      metadata := if msg.type = .streamStart then msg.metadata else r.metadata } := by
  by_cases isChunk : msg.type = .streamChunk
  · obtain ⟨n, k, chunks, -⟩ := receive_chunk_cases isChunk r
    rw [chunks, isChunk]
    rfl
  · unfold receive
    cases htype : msg.type with
    | streamEnd => exact absurd htype going
    | streamChunk => exact absurd htype isChunk
    | _ => rfl

theorem settle_eq (r : StreamReceiver) (frames : List RPCMessage) :
    r.settle frames = { r with
      chunks := (r.settle frames).chunks
      metadata := (beforeEnd frames).foldl
        (fun v msg => if msg.type = .streamStart then msg.metadata else v) r.metadata
      complete := (r.settle frames).complete
      signalled := (r.settle frames).signalled } := by
  induction frames generalizing r with
  | nil => rfl
  | cons msg frames ih =>
    by_cases h : msg.type = .streamEnd
    · rw [beforeEnd_of_end h, settle, if_pos h]
      rfl
    · rw [beforeEnd_of_ne h, settle, if_neg h, List.foldl_cons, ih, receive_eq h]

theorem signalled_settle (r : StreamReceiver) (waiting : r.signalled = false)
    (frames : List RPCMessage) : (r.settle frames).signalled = true ↔ Ended frames := by
  induction frames generalizing r with
  | nil => simp [settle, waiting, Ended]
  | cons msg frames ih =>
    by_cases h : msg.type = .streamEnd
    · rw [settle, if_pos h]
      exact iff_of_true rfl ⟨msg, List.mem_cons_self .., h⟩
    · rw [settle, if_neg h, ih _ (by rw [receive_eq h]; exact waiting)]
      simp [Ended, h]

/-- `wait` returns a value once the end frame is there, and only the metadata can keep it. -/
theorem wait_settle (py : PyText) (callId : String) (frames : List RPCMessage) :
    ((∃ v, ((init callId).settle frames).wait py = some (.ok v)) ↔ Ended frames ∧ Legible frames) ∧
      ((∃ e, ((init callId).settle frames).wait py = some (.error e)) ↔
        Ended frames ∧ ¬ Legible frames) := by
  have ended := signalled_settle (init callId) rfl frames
  have noError : ((init callId).settle frames).error = none := by
    rw [settle_eq]
    rfl
  have metadata : ((init callId).settle frames).metadata = startMetadata (beforeEnd frames) := by
    rw [settle_eq]
    rfl
  unfold wait
  rw [noError]
  by_cases h : Ended frames
  · rw [if_pos (ended.2 h)]
    unfold assemble Legible
    rw [metadata]
    cases startMetadata (beforeEnd frames) with
    | dict items =>
      dsimp only
      split_ifs
      · simp [h]
      · simp [h]
      · split <;> simp [h]
    | _ => simp [h]
  · rw [if_neg fun s => h (ended.1 s)]
    simp [h]

/-! ## Placeholders -/

/-- The list reaches no further than the frames that were seen, and their chunks are in place. -/
structure Accounted (seen : List RPCMessage) (chunks : List PyVal) : Prop where
  reached : ∀ j < chunks.length, ∃ msg ∈ seen, Reaches j msg
  filled : ∀ j, (∃ msg ∈ seen, Carries j msg) →
    ∃ c, chunks[j]? = some c ∧ ∃ msg ∈ seen, msg.type = .streamChunk ∧ c = msg.result

theorem accounted_receive {seen : List RPCMessage} {r : StreamReceiver}
    (before : Accounted seen r.chunks) {msg : RPCMessage} (going : msg.type ≠ .streamEnd) :
    Accounted (seen ++ [msg]) (r.receive msg).2.chunks := by
  have older {p : RPCMessage → Prop} (h : ∃ msg ∈ seen, p msg) : ∃ m ∈ seen ++ [msg], p m := by
    obtain ⟨m, seen, hm⟩ := h
    exact ⟨m, List.mem_append_left _ seen, hm⟩
  have newest : msg ∈ seen ++ [msg] := List.mem_append_right _ (List.mem_singleton_self _)
  by_cases isChunk : msg.type = .streamChunk
  · obtain ⟨n, k, chunks, room, placed⟩ := receive_chunk_cases isChunk r
    rw [chunks]
    constructor
    · intro j hj
      rw [List.length_set, List.length_append, List.length_replicate] at hj
      rcases room j hj with h | h
      · exact older (before.reached j h)
      · exact ⟨msg, newest, h⟩
    · rintro j ⟨m, hm, carries⟩
      dsimp only
      rw [List.getElem?_set]
      have inside : j < r.chunks.length + n := by
        rcases List.mem_append.1 hm with hm | hm
        · obtain ⟨c, hc, -⟩ := before.filled j ⟨m, hm, carries⟩
          have := (List.getElem?_eq_some_iff.1 hc).1
          omega
        · obtain rfl := List.mem_singleton.1 hm
          exact (placed j carries).2
      by_cases hk : k = j
      · rw [if_pos hk, if_pos (by simpa [hk] using inside)]
        exact ⟨_, rfl, msg, newest, isChunk, rfl⟩
      · rw [if_neg hk]
        rcases List.mem_append.1 hm with hm | hm
        · obtain ⟨c, hc, result⟩ := before.filled j ⟨m, hm, carries⟩
          refine ⟨c, ?_, older result⟩
          rw [List.getElem?_append_left (List.getElem?_eq_some_iff.1 hc).1, hc]
        · obtain rfl := List.mem_singleton.1 hm
          exact absurd (placed j carries).1 hk
  · have same : (r.receive msg).2.chunks = r.chunks := by
      unfold receive
      cases htype : msg.type with
      | streamChunk => exact absurd htype isChunk
      | _ => rfl
    rw [same]
    refine ⟨fun j hj => older (before.reached j hj), ?_⟩
    rintro j ⟨m, hm, carries⟩
    rcases List.mem_append.1 hm with hm | hm
    · obtain ⟨c, hc, result⟩ := before.filled j ⟨m, hm, carries⟩
      exact ⟨c, hc, older result⟩
    · obtain rfl := List.mem_singleton.1 hm
      exact absurd carries.1 isChunk

theorem accounted_settle {seen : List RPCMessage} {r : StreamReceiver}
    (before : Accounted seen r.chunks) (frames : List RPCMessage) :
    Accounted (seen ++ beforeEnd frames) (r.settle frames).chunks := by
  induction frames generalizing seen r with
  | nil => simpa [beforeEnd, settle] using before
  | cons msg frames ih =>
    by_cases h : msg.type = .streamEnd
    · rw [beforeEnd_of_end h, settle, if_pos h, List.append_nil]
      exact before
    · rw [beforeEnd_of_ne h, settle, if_neg h, List.append_cons]
      exact ih (accounted_receive before h)

/-- Without gaps no chunk is a placeholder. -/
theorem mem_chunks_settle {callId : String} {frames : List RPCMessage} (gapless : Gapless frames)
    {c : PyVal} (h : c ∈ ((init callId).settle frames).chunks) :
    ∃ msg ∈ beforeEnd frames, msg.type = .streamChunk ∧ c = msg.result := by
  have empty : Accounted [] (init callId).chunks := ⟨nofun, by simp⟩
  have accounted := accounted_settle empty frames
  rw [List.nil_append] at accounted
  obtain ⟨j, hj, hc⟩ := List.mem_iff_getElem.1 h
  obtain ⟨msg, hmsg, reaches⟩ := accounted.reached j hj
  have carried := gapless j ⟨msg, (List.takeWhile_sublist _).mem hmsg, reaches⟩
  obtain ⟨c', hc', result⟩ := accounted.filled j carried
  rw [List.getElem?_eq_getElem hj, hc] at hc'
  obtain rfl := Option.some.inj hc'
  exact result

end StreamReceiver

namespace StreamManager

/-! ## Runs -/

/-- The frames that the calls deliver to the stream `k`, which another stream of that id ends. -/
def framesOf (k : String) : List Op → List RPCMessage
  | [] => []
  | .create k' :: ops => if k' = k then [] else framesOf k ops
  | .frame msg :: ops =>
    if msg.id.asStr? = some k then msg :: framesOf k ops else framesOf k ops

/-- A new stream takes the entry of an older one with its id. -/
theorem detached_create {m : StreamManager} (named : m.Named) {k : String} {i : ℕ}
    {r : StreamReceiver} (h : m.Attached k i r) : (m.step (.create k)).Detached i r := by
  obtain ⟨hk, hr⟩ := h
  have bound := (List.getElem?_eq_some_iff.1 hr).1
  refine ⟨(List.getElem?_append_left bound).trans hr, fun k' hk' => ?_⟩
  change (m.streams.set k m.receivers.length).get? k' = some i at hk'
  rw [Dict.get?_set] at hk'
  split_ifs at hk' with same
  · have := Option.some.inj hk'
    omega
  · obtain ⟨_, h₁, name⟩ := named k i hk
    obtain ⟨_, h₂, name'⟩ := named k' i hk'
    obtain rfl := Option.some.inj (h₁.symm.trans h₂)
    exact same (name.symm.trans name')

/-- The receiver of a stream after any calls; its entry is gone once the end frame was there. -/
theorem settled_run {m : StreamManager} (named : m.Named) {k : String} {i : ℕ}
    {r : StreamReceiver} (h : m.Attached k i r) (ops : List Op) :
    (m.run ops).receivers[i]? = some (r.settle (framesOf k ops)) ∧
      (Ended (framesOf k ops) → ∀ k', (m.run ops).streams.get? k' ≠ some i) := by
  induction ops generalizing m r with
  | nil => exact ⟨h.2, fun ⟨_, hmsg, _⟩ => absurd hmsg List.not_mem_nil⟩
  | cons op ops ih =>
    have named' := named_step named op
    change ((m.step op).run ops).receivers[i]? = _ ∧
      (_ → ∀ k', ((m.step op).run ops).streams.get? k' ≠ _)
    cases op with
    | create k' =>
      unfold framesOf
      by_cases same : k' = k
      · subst same
        rw [if_pos rfl]
        have gone := detached_run named' (detached_create named h) ops
        exact ⟨gone.1, fun _ => gone.2⟩
      · rw [if_neg same]
        refine ih named' (attached_step named h (fun e => same (Op.create.inj e)) nofun)
    | frame msg =>
      unfold framesOf
      by_cases own : msg.id.asStr? = some k
      · rw [if_pos own]
        by_cases isEnd : msg.type = .streamEnd
        · obtain ⟨-, gone⟩ := detached_end named h isEnd (PyVal.asStr?_eq_some_iff.1 own)
          have gone := detached_run named' gone ops
          rw [StreamReceiver.settle, if_pos isEnd]
          exact ⟨gone.1, fun _ => gone.2⟩
        · have ownFrame : (Op.frame msg).own k = some msg := if_pos own
          have attached := attached_step named h (show Op.frame msg ≠ .create k from nofun) (by
            rintro msg' h'
            obtain rfl := Option.some.inj (ownFrame.symm.trans h')
            exact isEnd)
          rw [ownFrame] at attached
          have rest := ih named' attached
          rw [StreamReceiver.settle, if_neg isEnd]
          refine ⟨rest.1, fun ended => rest.2 ?_⟩
          obtain ⟨msg', hmem, hend⟩ := ended
          rcases List.mem_cons.1 hmem with rfl | hmem
          · exact absurd hend isEnd
          · exact ⟨msg', hmem, hend⟩
      · have ownFrame : (Op.frame msg).own k = none := if_neg own
        have attached := attached_step named h (show Op.frame msg ≠ .create k from nofun) (by
          rintro msg' h'
          cases ownFrame.symm.trans h')
        rw [ownFrame] at attached
        rw [if_neg own]
        exact ih named' attached

/-- What `wait` of the receiver `i` owes its caller after the frames of its stream: a value only
when nothing is missing, and the error when there was one. -/
structure Reported (py : PyText) (m : StreamManager) (i : ℕ) (frames : List RPCMessage) : Prop where
  complete : ∀ r v, m.receivers[i]? = some r → r.wait py = some (.ok v) →
    Ended frames ∧ Gapless frames
  filled : ∀ r v, m.receivers[i]? = some r → r.wait py = some (.ok v) →
    ∀ c ∈ r.chunks, ∃ msg ∈ beforeEnd frames, msg.type = .streamChunk ∧ c = msg.result
  failed : Failed frames → (∃ r e, m.receivers[i]? = some r ∧ r.wait py = some (.error e)) ∧
    ∀ k, m.streams.get? k ≠ some i

/-- That holds exactly of the streams without an error frame that have no gap if they end; apart
from that, metadata that is no object makes `wait` raise for a stream that ended. -/
theorem stream_reported_iff (py : PyText) (pre ops : List Op) (callId : String) :
    Reported py (init.run (pre ++ .create callId :: ops)) (init.run pre).receivers.length
        (framesOf callId ops) ↔
      (Ended (framesOf callId ops) → Legible (framesOf callId ops) →
        Gapless (framesOf callId ops)) ∧
      (Failed (framesOf callId ops) →
        Ended (framesOf callId ops) ∧ ¬ Legible (framesOf callId ops)) := by
  have named := named_run named_init pre
  obtain ⟨receiver, removed⟩ := settled_run (named_step named (.create callId))
    (attached_create _ callId) ops
  have split : init.run (pre ++ .create callId :: ops) =
      ((init.run pre).step (.create callId)).run ops := run_append ..
  rw [← split] at receiver removed
  obtain ⟨returns, raises⟩ := StreamReceiver.wait_settle py callId (framesOf callId ops)
  constructor
  · rintro ⟨complete, -, failed⟩
    constructor
    · intro ended legible
      obtain ⟨v, hv⟩ := returns.2 ⟨ended, legible⟩
      exact (complete _ v receiver hv).2
    · intro hfailed
      obtain ⟨⟨r, e, hr, he⟩, -⟩ := failed hfailed
      obtain rfl := Option.some.inj (receiver.symm.trans hr)
      exact raises.1 ⟨e, he⟩
  · rintro ⟨gapless, errors⟩
    refine ⟨?_, ?_, ?_⟩
    · intro r v hr hv
      obtain rfl := Option.some.inj (receiver.symm.trans hr)
      obtain ⟨ended, legible⟩ := returns.1 ⟨v, hv⟩
      exact ⟨ended, gapless ended legible⟩
    · intro r v hr hv c hc
      obtain rfl := Option.some.inj (receiver.symm.trans hr)
      obtain ⟨ended, legible⟩ := returns.1 ⟨v, hv⟩
      exact StreamReceiver.mem_chunks_settle (gapless ended legible) hc
    · intro hfailed
      obtain ⟨e, he⟩ := raises.2 (errors hfailed)
      exact ⟨⟨_, e, receiver, he⟩, removed (errors hfailed).1⟩

/-- A chunk that never came is `None` in the result. -/
theorem gap_not_reported : ¬ ∀ (py : PyText) (pre ops : List Op) (callId : String),
    Reported py (init.run (pre ++ .create callId :: ops)) (init.run pre).receivers.length
      (framesOf callId ops) := by
  intro claim
  have reported := claim plainText []
    [.frame (makeStreamChunk ⟨"u", 0⟩ (.str "a") (.str "end") 1),
      .frame (makeStreamEnd ⟨"u", 0⟩ (.str "a"))] "a"
  have gapless := (reported.complete _ (.list [.none, .str "end"]) rfl rfl).2
  obtain ⟨msg, hmsg, -, carried⟩ := gapless 0
    ⟨_, List.mem_cons_self .., rfl, .int 1, rfl, Int.zero_le_ofNat 1⟩
  obtain rfl := List.mem_singleton.1 hmsg
  rcases carried with h | ⟨b, h, -⟩ <;> cases h

end StreamManager

end Cpip
