import Cpip.Shared.Protocol

/-!
# Messages that are encoded and decoded again

A message keeps what it says on its way through a dictionary or a text, apart from its timestamp:
the decoded message has the time at which it was decoded.
-/

namespace Cpip

namespace RPCMessage

variable {amb : Ambient} {m : RPCMessage}

/-- A message that the constructor built from values that JSON has, with a non-empty string as its
id. -/
structure Encodable (m : RPCMessage) : Prop where
  built : ∃ amb method params result error id metadata,
    m = .init amb m.type method params result error id metadata
  id : ∃ s, s ≠ "" ∧ m.id = .str s
  json : ∀ v ∈ [m.method, m.params, m.result, m.error, m.metadata], v.IsJson

/-- The message, with an empty method or error as none. -/
def plain (m : RPCMessage) : RPCMessage :=
  { m with method := m.method.or .none, error := m.error.or .none }

/-- Decoding the encoded message gives the message, which is encoded as it was, both for
dictionaries and for texts. -/
def RoundTrips (py : PyText) (amb : Ambient) (m : RPCMessage) : Prop :=
  (∃ m', fromDict amb m.toDict = .ok m' ∧ m' = m.plain ∧ m'.toDict = m.toDict) ∧
  ∃ t m', m.toJson py = .ok t ∧ fromJson amb (.json t) = .ok m' ∧ m' = m.plain ∧
    m'.toJson py = .ok t

/-! ## Encoded fields -/

theorem truthy_or_none (v : PyVal) : (v.or .none).truthy = v.truthy := by
  unfold PyVal.or
  split_ifs with h
  · rfl
  · rw [Bool.not_eq_true] at h
    rw [h]
    rfl

theorem or_none_of_truthy {v : PyVal} (h : v.truthy) : v.or .none = v := if_pos h

/-- A value that is left out when it is empty is read as the one or as `None`. -/
theorem getD_fieldIf_truthy (v : PyVal) :
    (if v.truthy = true then some v else none).getD PyVal.none = v.or .none := by
  unfold PyVal.or
  split_ifs <;> rfl

theorem getD_fieldIf_isNone (v : PyVal) :
    (if (!v.isNone) = true then some v else none).getD PyVal.none = v := by
  split_ifs with h
  · rfl
  · cases v with
    | atom a => cases a <;> first | rfl | exact absurd rfl h
    | _ => exact absurd rfl h

/-- What an argument that may be absent becomes does not change when it is passed on. -/
theorem or_none_or_dict {v v' : PyVal} (h : v = v'.or (.dict [])) :
    (v.or .none).or (.dict []) = v := by
  subst h
  unfold PyVal.or
  split_ifs <;> simp_all [PyVal.truthy]

/-- The fields of the dictionary of a message. -/
theorem getD_entries (m : RPCMessage) :
    (PyVal.getStr "method" m.entries).getD .none = m.method.or .none ∧
      (PyVal.getStr "params" m.entries).getD .none = m.params.or .none ∧
      (PyVal.getStr "result" m.entries).getD .none = m.result ∧
      (PyVal.getStr "error" m.entries).getD .none = m.error.or .none ∧
      (PyVal.getStr "metadata" m.entries).getD .none = m.metadata.or .none := by
  refine ⟨?_, ?_, ?_, ?_, ?_⟩
  · rw [← getD_fieldIf_truthy]
    simp [entries, PyVal.getStr_append, PyVal.getStr_cons, getStr_fieldIf]
  · rw [← getD_fieldIf_truthy]
    simp [entries, PyVal.getStr_append, PyVal.getStr_cons, getStr_fieldIf]
  · refine Eq.trans ?_ (getD_fieldIf_isNone m.result)
    simp [entries, PyVal.getStr_append, PyVal.getStr_cons, getStr_fieldIf]
  · rw [← getD_fieldIf_truthy]
    simp [entries, PyVal.getStr_append, PyVal.getStr_cons, getStr_fieldIf]
  · rw [← getD_fieldIf_truthy]
    simp [entries, PyVal.getStr_append, PyVal.getStr_cons, getStr_fieldIf]

/-- The decoded message has the time of the decoding. -/
theorem fromDict_toDict (h : m.Encodable) :
    fromDict amb m.toDict = .ok { m.plain with timestamp := amb.now } := by
  obtain ⟨amb', method, params, result, error, id, metadata, built⟩ := h.built
  obtain ⟨s, nonempty, hid⟩ := h.id
  have hparams := or_none_or_dict (congrArg RPCMessage.params built)
  have hmetadata := or_none_or_dict (congrArg RPCMessage.metadata built)
  obtain ⟨getMethod, getParams, getResult, getError, getMetadata⟩ := getD_entries m
  have getId : (PyVal.getStr "id" m.entries).getD .none = m.id := rfl
  have getType : MessageType.ofValue? ((PyVal.getStr "type" m.entries).getD (.str "rpc.call")) =
      some m.type := MessageType.ofValue?_value m.type
  rw [toDict, fromDict, getType]
  dsimp only
  rw [getMethod, getParams, getResult, getError, getMetadata, getId, init, hparams, hmetadata, hid,
    PyVal.str_or nonempty, ← hid]
  rfl

/-- An empty method or error is left out anyway. -/
theorem toDict_plain (m : RPCMessage) : m.plain.toDict = m.toDict := by
  have same (name : String) (v : PyVal) :
      fieldIf (v.or .none).truthy name (v.or .none) = fieldIf v.truthy name v := by
    rw [truthy_or_none]
    cases h : v.truthy with
    | false => rfl
    | true => rw [or_none_of_truthy h]
  simp only [toDict, entries, plain, same]

theorem isJson_toDict (h : m.Encodable) : m.toDict.IsJson := by
  have field {c : Bool} {name : String} {v : PyVal} {e : PyKey × PyVal} (json : v.IsJson)
      (he : e ∈ fieldIf c name v) : e.2.IsJson := by
    cases c
    · cases he
    · obtain rfl := List.mem_singleton.1 he
      exact json
  obtain ⟨s, -, id⟩ := h.id
  refine (PyVal.everywhere_dict_iff _).2 ⟨⟨m.entries_strings, m.entries_nodup⟩, fun e he => ?_⟩
  simp only [entries, List.mem_append, or_assoc] at he
  rcases he with he | he | he | he | he | he
  · simp only [List.mem_cons, List.not_mem_nil, or_false] at he
    rcases he with rfl | rfl | rfl | rfl
    · trivial
    · trivial
    · dsimp only
      rw [id]
      trivial
    · trivial
  · exact field (h.json m.method (by simp)) he
  · exact field (h.json m.params (by simp)) he
  · exact field (h.json m.result (by simp)) he
  · exact field (h.json m.error (by simp)) he
  · exact field (h.json m.metadata (by simp)) he

/-- The text of a message is decoded as its dictionary is. -/
theorem exists_toJson (amb : Ambient) (py : PyText) (h : m.Encodable) :
    ∃ t, m.toJson py = .ok t ∧ fromJson amb (.json t) = fromDict amb m.toDict := by
  obtain ⟨t, encoded, loads⟩ := py.loads_dumps (isJson_toDict h)
  refine ⟨t, encoded, ?_⟩
  show fromDict amb t.loads = _
  rw [loads]

/-! ## Round trips -/

/-- A message is what it was before it was encoded exactly when it is decoded at the time at which
it was made. -/
theorem roundTrips_iff (amb : Ambient) (py : PyText) (h : m.Encodable) :
    m.RoundTrips py amb ↔ amb.now = m.timestamp := by
  have decoded : fromDict amb m.toDict = .ok { m.plain with timestamp := amb.now } :=
    fromDict_toDict h
  constructor
  · rintro ⟨⟨m', from_dict, same, -⟩, -⟩
    have equal := Except.ok.inj (decoded.symm.trans from_dict)
    rw [same] at equal
    exact congrArg RPCMessage.timestamp equal
  · intro now
    have whole : fromDict amb m.toDict = .ok m.plain := by
      rw [decoded, now]
      rfl
    obtain ⟨t, encoded, read⟩ := exists_toJson amb py h
    refine ⟨⟨m.plain, whole, rfl, toDict_plain m⟩, t, m.plain, encoded, read.trans whole, rfl, ?_⟩
    rw [toJson, toDict_plain]
    exact encoded

/-- A call that is decoded in the moment in which it was made. -/
theorem roundTrips_iff_call :
    (makeCall ⟨"1c8f", 5⟩ "status" (.dict [(.str "verbose", .bool true)])).RoundTrips plainText
      ⟨"9a2b", 5⟩ ↔ (5 : ℚ) = 5 := by
  refine roundTrips_iff ⟨"9a2b", 5⟩ plainText
    ⟨⟨⟨"1c8f", 5⟩, .str "status", .dict [(.str "verbose", .bool true)], .none, .none, .none, .none,
      rfl⟩, ⟨"1c8f", by decide, rfl⟩, ?_⟩
  have params : (PyVal.dict [(.str "verbose", .bool true)]).IsJson := by
    refine (PyVal.everywhere_dict_iff _).2 ⟨⟨by simp, by simp⟩, ?_⟩
    rw [List.forall_mem_singleton]
    trivial
  have metadata : (PyVal.dict []).IsJson :=
    (PyVal.everywhere_dict_iff _).2 ⟨⟨by simp, by simp⟩, by simp⟩
  intro v hv
  simp only [makeCall, init, List.mem_cons, List.not_mem_nil, or_false] at hv
  rcases hv with rfl | rfl | rfl | rfl | rfl
  · trivial
  · exact params
  · trivial
  · trivial
  · exact metadata

/-- A heartbeat that is decoded one second after it was made. -/
theorem heartbeat_not_roundTrips :
    ¬ (makeHeartbeat ⟨"1c8f", 5⟩).RoundTrips plainText ⟨"9a2b", 6⟩ := by
  rintro ⟨⟨m', decoded, same, -⟩, -⟩
  have read : fromDict ⟨"9a2b", 6⟩ (makeHeartbeat ⟨"1c8f", 5⟩).toDict =
      .ok { makeHeartbeat ⟨"1c8f", 5⟩ with timestamp := 6 } := rfl
  have equal := Except.ok.inj (read.symm.trans decoded)
  rw [same] at equal
  have times : (6 : ℚ) = 5 := congrArg RPCMessage.timestamp equal
  exact absurd times (by decide)

end RPCMessage

end Cpip
