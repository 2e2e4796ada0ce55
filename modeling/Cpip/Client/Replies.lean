import Cpip.Client.Calls

/-!
# What the steps of calls do

A frame answers an id when it is a RESULT or an ERROR that carries it.  Ids from the supply are
never mistaken: a frame pops a stored future only if it answers its id (`Calls.receive_cases`),
whatever id decoding gives a frame without one.
-/

namespace Cpip

/-- The frame is a RESULT or an ERROR with this id. -/
def Frame.Answers (raw : Frame) (id : PyVal) : Prop :=
  (raw.type? = some .result ∨ raw.type? = some .error) ∧ raw.field "id" = some id

namespace Client

variable (cl : Client)

/-- What a reply settles a future with. -/
def settlement (raw : Frame) : Except PyExc Future :=
  match raw.type? with
  | some .error => (cl.errorMessage ((raw.field "error").getD .none)).map .exception
  | _ => .ok (.result ((raw.field "result").getD .none))

end Client

namespace Calls

variable {cl : Client}

/-- A reply with an id pops the future stored under it. -/
theorem receive_of_answers {s : Calls} {raw : Frame} {id : String} (h : raw.Answers (.str id))
    (ne : id ≠ "") (now : ℚ) :
    s.receive cl raw now =
      (s.draw.record (.received raw)).settle (.str id) (cl.settlement raw) := by
  obtain ⟨htype, hid⟩ := h
  rcases htype with htype | htype
  · have hmsg : RPCMessage.fromJson (s.ambient cl now) raw = .ok _ :=
      Frame.fromJson_eq_ok_iff.2 ⟨_, htype, rfl⟩
    simp only [receive, hmsg, handleReply, RPCMessage.init, Client.settlement, htype, hid,
      Option.getD_some, PyVal.str_or ne]
  · have hmsg : RPCMessage.fromJson (s.ambient cl now) raw = .ok _ :=
      Frame.fromJson_eq_ok_iff.2 ⟨_, htype, rfl⟩
    simp only [receive, hmsg, handleReply, RPCMessage.init, Client.settlement, htype, hid,
      Option.getD_some, PyVal.str_or ne]

/-- An id supplied before can only be the frame's own. -/
theorem field_id_of_older {raw : Frame} {n m : ℕ} (older : n < m)
    (h : ((raw.field "id").getD .none).or (.str (cl.ids.of m)) = .str (cl.ids.of n)) :
    raw.field "id" = some (.str (cl.ids.of n)) := by
  have ne : cl.ids.of m ≠ cl.ids.of n := fun hid => by
    have heq := cl.ids.injective hid
    omega
  cases hfield : raw.field "id" with
  | none => exact absurd (by simpa [hfield, PyVal.or, PyVal.truthy] using h) ne
  | some id =>
    simp only [hfield, Option.getD_some, PyVal.or] at h
    split at h
    · rw [h]
    · exact absurd (by simpa using h) ne

theorem settle_of_absent {s : Calls} {id : PyVal} (value : Except PyExc Future)
    (absent : ∀ key c, id.hash? = some key → s.pending.get? key ≠ some c) :
    s.settle id value = s := by
  unfold settle
  split
  · rfl
  · rename_i key hkey
    split
    · rfl
    · rename_i c hc
      exact absurd hc (absent key c hkey)

/-- Every id in `_pending` was supplied before. -/
def Older (cl : Client) (s : Calls) : Prop :=
  ∀ key c, s.pending.get? key = some c → ∃ n < s.nextId, key = .str (cl.ids.of n)

/-- A frame that is no reply to a stored id changes nothing. -/
theorem receive_of_not_answers {s : Calls} {raw : Frame} (older : s.Older cl)
    (none : ∀ n c, s.pending.get? (.str (cl.ids.of n)) = some c →
      ¬ raw.Answers (.str (cl.ids.of n))) (now : ℚ) :
    s.receive cl raw now = s.draw.record (.received raw) := by
  have absent : (raw.type? = some .result ∨ raw.type? = some .error) → ∀ key c,
      (((raw.field "id").getD .none).or (.str (cl.ids.of s.nextId))).hash? = some key →
      s.pending.get? key ≠ some c := by
    intro htype key c hkey hc
    obtain ⟨n, hn, rfl⟩ := older key c hc
    exact none n c hc ⟨htype, field_id_of_older hn (PyVal.hash?_eq_str_iff.1 hkey)⟩
  unfold receive
  cases hmsg : RPCMessage.fromJson (s.ambient cl now) raw with
  | error e => rfl
  | ok msg =>
    obtain ⟨type, htype, rfl⟩ := Frame.fromJson_eq_ok_iff.1 hmsg
    cases type with
    | result => exact settle_of_absent _ (absent (.inl htype))
    | error => exact settle_of_absent _ (absent (.inr htype))
    | _ => rfl

/-- A reply to a stored id pops the future and settles it. -/
theorem receive_of_stored {s : Calls} {raw : Frame} {n c : ℕ}
    (stored : s.pending.get? (.str (cl.ids.of n)) = some c)
    (answers : raw.Answers (.str (cl.ids.of n))) (now : ℚ) :
    s.receive cl raw now =
      ((s.draw.record (.received raw)).pop (.str (cl.ids.of n))).setFuture c
        (cl.settlement raw) := by
  rw [receive_of_answers answers (cl.ids.nonempty n)]
  have hget : (s.draw.record (.received raw)).pending.get? (.str (cl.ids.of n)) = some c := stored
  have hkey : (PyVal.str (cl.ids.of n)).hash? = some (.str (cl.ids.of n)) := rfl
  simp only [settle, hkey, hget]

/-- What a frame does: nothing, or it is a reply that pops and settles a stored future. -/
theorem receive_cases {s : Calls} (older : s.Older cl) (raw : Frame) (now : ℚ) :
    (s.receive cl raw now = s.draw.record (.received raw) ∧
      ∀ n c, s.pending.get? (.str (cl.ids.of n)) = some c → ¬ raw.Answers (.str (cl.ids.of n))) ∨
    ∃ n c, s.pending.get? (.str (cl.ids.of n)) = some c ∧ raw.Answers (.str (cl.ids.of n)) ∧
      s.receive cl raw now = ((s.draw.record (.received raw)).pop (.str (cl.ids.of n))).setFuture c
        (cl.settlement raw) := by
  by_cases h : ∃ n c, s.pending.get? (.str (cl.ids.of n)) = some c ∧
      raw.Answers (.str (cl.ids.of n))
  · obtain ⟨n, c, hc, answers⟩ := h
    exact .inr ⟨n, c, hc, answers, receive_of_stored hc answers now⟩
  · have none : ∀ n c, s.pending.get? (.str (cl.ids.of n)) = some c →
        ¬ raw.Answers (.str (cl.ids.of n)) := fun n c hc answers => h ⟨n, c, hc, answers⟩
    exact .inl ⟨receive_of_not_answers older none now, none⟩

/-- Settling a future changes at most the state of its own call, which was waiting for it. -/
theorem setFuture_cases (s : Calls) (c : ℕ) (value : Except PyExc Future) :
    s.setFuture c value = s ∧ (∀ request pc future, s.calls c = some (.active request .pending pc) →
      value ≠ .ok future) ∨
    ∃ request pc future, s.calls c = some (.active request .pending pc) ∧ value = .ok future ∧
      s.setFuture c value = s.put c (.active request future pc) := by
  unfold setFuture
  split
  · rename_i request pc future hc
    exact .inr ⟨request, pc, future, hc, rfl, rfl⟩
  · rename_i other
    exact .inl ⟨rfl, fun request pc future hc hvalue => other request pc future hc hvalue⟩

/-! ### The coroutines of calls -/

section Request

variable {s : Calls} {c : ℕ} {method : String} {params : PyVal} {now : ℚ} {socket : Bool}
  {answer : SendAnswer}

theorem request_pending : (s.request cl c method params now socket answer).pending =
    s.pending.set (.str (cl.ids.of s.nextId)) c := by
  unfold request
  dsimp only
  split
  · split
    · cases answer <;> rfl
    · rfl
  · rfl

theorem request_calls_of_ne {c' : ℕ} (ne : c' ≠ c) :
    (s.request cl c method params now socket answer).calls c' = s.calls c' := by
  have registered : ∀ msg, (s.draw.register c msg (cl.ids.of s.nextId)).calls c' = s.calls c' :=
    fun msg => s.draw.register_calls_of_ne c ne _ _
  unfold request
  dsimp only
  split
  · split
    · cases answer with
      | completes => rw [send, put_calls_of_ne _ _ ne, registered]
      | suspends => rw [send, put_calls_of_ne _ _ ne, registered]
      | raises e => rw [send, complete_calls_of_ne _ _ ne, registered]
    · rw [complete_calls_of_ne _ _ ne, registered]
  · rw [put_calls_of_ne _ _ ne, registered]

theorem request_nextId :
    (s.request cl c method params now socket answer).nextId = s.nextId + 1 := by
  unfold request
  dsimp only
  split
  · split
    · cases answer <;> rfl
    · rfl
  · rfl

end Request

theorem begin?_eq_some {s next s' : Calls} {c : ℕ} :
    s.begin? c next = some s' ↔ s.calls c = none ∧ next = s' := by
  unfold begin?
  cases s.calls c <;> simp

theorem sent?_eq_some {s s' : Calls} {c : ℕ} {answer : SendAnswer} :
    s.sent? c answer = some s' ↔ ∃ request future,
      s.calls c = some (.active request future .sending) ∧ s.send c request future answer = s' := by
  unfold sent?
  split <;> simp_all

theorem wake?_eq_some {s s' : Calls} {c : ℕ} :
    s.wake? cl c = some s' ↔ ∃ request future sent o,
      s.calls c = some (.active request future (.waiting sent)) ∧ cl.outcome future = some o ∧
        s.complete c o = s' := by
  unfold wake?
  split <;> simp_all

theorem timeOut?_eq_some {s s' : Calls} {c : ℕ} :
    s.timeOut? c = some s' ↔ ∃ request future sent,
      s.calls c = some (.active request future (.waiting sent)) ∧ s.complete c .timeout = s' := by
  unfold timeOut?
  split <;> simp_all

end Calls

/-! ### Concrete ids and frames -/

/-- The ids `"1"`, `"11"`, `"111"` and so on. -/
def tallyIds : IdSupply where
  of n := String.ofList (List.replicate (n + 1) '1')
  injective := by
    intro n m h
    have hlist := congrArg (fun s => s.toList.length) h
    simpa using hlist
  nonempty n h := by simpa using congrArg (fun s => s.toList.length) h

/-- A frame that answers the id. -/
def resultFrame (id : String) : Frame :=
  .json (.obj [("type", .str "rpc.result"), ("id", .str id), ("result", .int 7)])

end Cpip
