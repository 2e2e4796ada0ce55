import Cpip.Shared.Protocol

/-!
# The RPC dispatcher (`server/ws/rpc.py`)

What a registered handler does with its parameters is the environment's choice (`Outcome`); the
dispatcher decides whether there is a handler and turns the outcome into a reply.
-/

namespace Cpip

/-- What a handler does: it returns a value or raises an exception with the given `str(e)`. -/
inductive Outcome where
  | returns (result : PyVal)
  | raises (message : String)

/-- `RPCDispatcher`: the methods that have a handler. -/
structure RPCDispatcher where
  handlers : List String

namespace RPCDispatcher

/-- The dispatcher with the built-in methods. -/
def builtin : RPCDispatcher := ⟨["ping", "echo"]⟩

/-- What the interpreter supplies to a dispatch: the ambient of the reply, the measured duration in
milliseconds and `traceback.format_exc()`. -/
structure Measured where
  amb : Ambient
  duration : PyFloat
  traceback : String

/-- `RPCDispatcher.dispatch`, given what the handler does if there is one. -/
def dispatch (d : RPCDispatcher) (py : PyText) (msg : RPCMessage) (outcome : Outcome)
    (m : Measured) : Except PyExc RPCMessage :=
  let method := msg.method.or (.str "")
  match method.hash? with
  | none => .error (.typeError "unhashable type")
  | some key =>
    if key ∈ d.handlers.map PyKey.str then
      match outcome with
      | .returns result =>
        .ok { makeResult m.amb msg.id result with
          metadata := .dict [(.str "duration_ms", .float m.duration)] }
      | .raises e =>
        .ok (makeError m.amb msg.id (.str "EXECUTION_ERROR") (.str e) (.str m.traceback))
    else .ok (makeError m.amb msg.id (.str "METHOD_NOT_FOUND")
      (.str ("Unknown method: " ++ py.toStr method)) .none)

/-! ## Replies -/

section Replies

variable {d : RPCDispatcher} {py : PyText} {msg response : RPCMessage} {outcome : Outcome}
  {m : Measured}

/-- The method has a hash, and its handler does not return a value that cannot be encoded. -/
def Answers (d : RPCDispatcher) (py : PyText) (method : PyVal) (outcome : Outcome) : Prop :=
  ∃ key, (method.or (.str "")).hash? = some key ∧ ∀ result, key ∈ d.handlers.map PyKey.str →
    outcome = .returns result → ∃ t, py.dumps result = .ok t

/-- A reply is a result or an error and carries the id of the call. -/
theorem dispatch_reply (h : d.dispatch py msg outcome m = .ok response) (id : msg.id.truthy) :
    response.id = msg.id ∧ (response.type = .result ∨ response.type = .error) := by
  have keep : msg.id.or (.str m.amb.uuid) = msg.id := if_pos id
  unfold dispatch at h
  dsimp only at h
  split at h
  · cases h
  · split at h
    · split at h <;> cases h
      · exact ⟨keep, Or.inl rfl⟩
      · exact ⟨keep, Or.inr rfl⟩
    · cases h
      exact ⟨keep, Or.inr rfl⟩

theorem makeError_encodes {amb : Ambient} {callId : PyVal} (code message : String) (data : PyVal)
    (id : ∃ t, py.dumps (callId.or (.str amb.uuid)) = .ok t) (hdata : ∃ t, py.dumps data = .ok t) :
    ∃ t, (makeError amb callId (.str code) (.str message) data).toJson py = .ok t := by
  have error : ∃ t, py.dumps (.dict [(.str "code", .str code), (.str "message", .str message),
      (.str "data", data)]) = .ok t := by
    obtain ⟨u, hu⟩ := hdata
    refine (py.dumps_dict_isOk_iff _).2 ?_
    simp [PyText.memberName, PyText.dumps, hu]
  have entries : (makeError amb callId (.str code) (.str message) data).entries =
      [(.str "jsonrpc", .str "2.0"), (.str "type", .str MessageType.error.value),
        (.str "id", callId.or (.str amb.uuid)), (.str "timestamp", .float (.finite amb.now)),
        (.str "error", .dict [(.str "code", .str code), (.str "message", .str message),
          (.str "data", data)])] := rfl
  rw [RPCMessage.toJson_isOk_iff, entries]
  simp only [List.forall_mem_cons]
  exact ⟨⟨_, rfl⟩, ⟨_, rfl⟩, id, ⟨_, rfl⟩, error, by simp⟩

theorem makeResult_encodes_iff {amb : Ambient} {callId : PyVal} (result : PyVal)
    (duration : PyFloat) (id : ∃ t, py.dumps (callId.or (.str amb.uuid)) = .ok t) :
    (∃ t, RPCMessage.toJson py { makeResult amb callId result with
        metadata := .dict [(.str "duration_ms", .float duration)] } = .ok t) ↔
      ∃ t, py.dumps result = .ok t := by
  have entries : RPCMessage.entries { makeResult amb callId result with
        metadata := .dict [(.str "duration_ms", .float duration)] } =
      [(.str "jsonrpc", .str "2.0"), (.str "type", .str MessageType.result.value),
        (.str "id", callId.or (.str amb.uuid)), (.str "timestamp", .float (.finite amb.now))] ++
        RPCMessage.fieldIf (!result.isNone) "result" result ++
        [(.str "metadata", .dict [(.str "duration_ms", .float duration)])] := by
    simp [makeResult, RPCMessage.init, RPCMessage.entries, RPCMessage.fieldIf, PyVal.truthy,
      PyVal.or]
  have metadata : ∃ t, py.dumps (.dict [(.str "duration_ms", .float duration)]) = .ok t :=
    ⟨_, rfl⟩
  rw [RPCMessage.toJson_isOk_iff, entries]
  simp only [List.forall_mem_append, List.forall_mem_cons]
  constructor
  · rintro ⟨⟨-, h⟩, -⟩
    by_cases hnone : result = .none
    · exact hnone ▸ ⟨_, rfl⟩
    · refine h (.str "result", result) ?_
      have : result.isNone = false := by
        unfold PyVal.isNone
        split <;> simp_all
      simp [RPCMessage.fieldIf, this]
  · intro h
    refine ⟨⟨⟨⟨_, rfl⟩, ⟨_, rfl⟩, id, ⟨_, rfl⟩, by simp⟩, ?_⟩, metadata, by simp⟩
    intro e he
    unfold RPCMessage.fieldIf at he
    split at he
    · rw [List.mem_singleton.1 he]
      exact h
    · cases he

/-- A call with an id that can be encoded gets a reply exactly when it is one that answers. -/
theorem reply_isOk_iff (truthy : msg.id.truthy) (id : ∃ t, py.dumps msg.id = .ok t) :
    (∃ response t, d.dispatch py msg outcome m = .ok response ∧ response.toJson py = .ok t) ↔
      Answers d py msg.method outcome := by
  have keep : msg.id.or (.str m.amb.uuid) = msg.id := if_pos truthy
  unfold dispatch Answers
  dsimp only
  cases hash : (msg.method.or (.str "")).hash? with
  | none => simp
  | some key =>
    dsimp only
    by_cases registered : key ∈ d.handlers.map PyKey.str
    · rw [if_pos registered]
      cases outcome with
      | returns result =>
        have encodes := makeResult_encodes_iff result m.duration (keep.symm ▸ id)
        constructor
        · rintro ⟨response, t, hr, ht⟩
          cases hr
          refine ⟨key, rfl, ?_⟩
          rintro result' - hr
          cases hr
          exact encodes.1 ⟨t, ht⟩
        · rintro ⟨key', hkey, hresult⟩
          cases hkey
          obtain ⟨t, ht⟩ := encodes.2 (hresult result registered rfl)
          exact ⟨_, t, rfl, ht⟩
      | raises e =>
        obtain ⟨t, ht⟩ := makeError_encodes "EXECUTION_ERROR" e (.str m.traceback)
          (keep.symm ▸ id) ⟨_, rfl⟩
        exact iff_of_true ⟨_, t, rfl, ht⟩ ⟨key, rfl, fun _ _ h => by cases h⟩
    · rw [if_neg registered]
      obtain ⟨t, ht⟩ := makeError_encodes "METHOD_NOT_FOUND"
        ("Unknown method: " ++ py.toStr (msg.method.or (.str ""))) .none (keep.symm ▸ id) ⟨_, rfl⟩
      exact iff_of_true ⟨_, t, rfl, ht⟩ ⟨key, rfl, fun _ h => absurd h registered⟩

end Replies

end RPCDispatcher

end Cpip
