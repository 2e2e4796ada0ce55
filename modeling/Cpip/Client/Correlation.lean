import Cpip.Client.Daemon
import Cpip.Client.Replies
import Cpip.Runtime.Session

/-!
# Calls and their replies

Each call completes at most once, and what a reply makes it complete with is the content of the
first RESULT or ERROR frame with the id of its own message that arrived since it was registered
(`Correlated`).  The invariant says of every active call what arrived for it so far (`Calls.Since`),
and the daemon and the session inherit it because their steps are steps of `Calls`.
-/

namespace Cpip

/-! ## Correlated histories -/

def CallEvent.Answers (id : PyVal) : CallEvent → Prop
  | received raw => raw.Answers id
  | _ => False

/-- The call whose step the event is. -/
def CallEvent.call? : CallEvent → Option ℕ
  | registered c _ | completed c _ => some c
  | received _ => none

/-- `raw` is the first reply to the id among the events. -/
def FirstReply (id : PyVal) (raw : Frame) (events : List CallEvent) : Prop :=
  History.First (CallEvent.Answers id) (.received raw) events

/-- The call ended with what a reply says. -/
def CallOutcome.FromReply : CallOutcome → Prop
  | value _ | remoteError _ | unreadable _ => True
  | timeout | notConnected | notSent _ => False

/-- What a call completes with that a reply ends. -/
def Client.content (cl : Client) (raw : Frame) : Option CallOutcome :=
  (cl.settlement raw).toOption.bind cl.outcome

/-- A call registers one message, under an id of its own.  When it completes it has not completed
before, and if it completes with what a reply says, this is the first reply to its message. -/
def CallEvent.Explained (cl : Client) (past : List CallEvent) : CallEvent → Prop
  | registered c request => ∀ c' request', .registered c' request' ∈ past →
    c' ≠ c ∧ request'.id ≠ request.id
  | completed c o => (∀ o', .completed c o' ∉ past) ∧
    (o.FromReply → ∃ earlier request during raw,
      past = earlier ++ .registered c request :: during ∧ FirstReply request.id raw during ∧
        cl.content raw = some o)
  | received _ => True

/-- The history of a client's calls is as it should be. -/
def Correlated (cl : Client) (log : List CallEvent) : Prop :=
  History.Each (CallEvent.Explained cl) log

namespace Calls

variable {cl : Client}

/-! ### The invariant -/

/-- What is known of an active call, since it was registered under the `n`-th id: while its future
is stored no reply came, and when it is done it holds the first one. -/
structure Since (cl : Client) (s : Calls) (c : ℕ) (request : RPCMessage) (future : Future) (n : ℕ)
    (earlier during : List CallEvent) : Prop where
  older : n < s.nextId
  id : request.id = .str (cl.ids.of n)
  log : s.log = earlier ++ .registered c request :: during
  active : ∀ o, .completed c o ∉ s.log
  stored : ∀ key, s.pending.get? key = some c → key = .str (cl.ids.of n) ∧
    ∀ e ∈ during, ¬ e.Answers request.id
  answered : ∀ o, cl.outcome future = some o →
    ∃ raw, FirstReply request.id raw during ∧ cl.content raw = some o

/-- What the invariant says of one call. -/
structure Tracked (cl : Client) (s : Calls) (c : ℕ) : Prop where
  older : ∀ key, s.pending.get? key = some c → ∃ n < s.nextId, key = .str (cl.ids.of n)
  registered : ∀ request, .registered c request ∈ s.log →
    s.calls c ≠ none ∧ ∃ n < s.nextId, request.id = .str (cl.ids.of n)
  fresh : s.calls c = none → (∀ o, .completed c o ∉ s.log) ∧ ∀ key, s.pending.get? key ≠ some c
  since : ∀ request future pc, s.calls c = some (.active request future pc) →
    ∃ n earlier during, s.Since cl c request future n earlier during

structure Inv (cl : Client) (s : Calls) : Prop where
  correlated : Correlated cl s.log
  tracked : ∀ c, s.Tracked cl c

theorem Inv.older {s : Calls} (inv : s.Inv cl) : s.Older cl := fun key c =>
  (inv.tracked c).older key

theorem inv_init : init.Inv cl := by
  refine ⟨History.each_nil, fun c => ⟨?_, ?_, ?_, ?_⟩⟩
  · intro key h
    cases h
  · intro request h
    cases h
  · intro _
    exact ⟨fun o => List.not_mem_nil, fun key h => by cases h⟩
  · intro request future pc h
    cases h

/-- What is known of a call stays true of a later state, in which its future is not stored anew and
nothing came that it does not know of. -/
theorem Since.grow {s s' : Calls} {c : ℕ} {request : RPCMessage} {future : Future} {n : ℕ}
    {earlier during events : List CallEvent}
    (since : s.Since cl c request future n earlier during)
    (nextId : s.nextId ≤ s'.nextId) (log : s'.log = s.log ++ events)
    (active : ∀ o, .completed c o ∉ events)
    (stored : ∀ key, s'.pending.get? key = some c → s.pending.get? key = some c ∧
      ∀ e ∈ events, ¬ e.Answers request.id) :
    s'.Since cl c request future n earlier (during ++ events) := by
  refine ⟨Nat.lt_of_lt_of_le since.older nextId, since.id, ?_, ?_, ?_, ?_⟩
  · rw [log, since.log]
    simp
  · intro o ho
    rw [log, List.mem_append] at ho
    exact ho.elim (since.active o) (active o)
  · intro key hkey
    obtain ⟨hold, hnone⟩ := stored key hkey
    obtain ⟨hid, hduring⟩ := since.stored key hold
    refine ⟨hid, fun e he => ?_⟩
    exact (List.mem_append.1 he).elim (hduring e) (hnone e)
  · intro o ho
    obtain ⟨raw, hfirst, hcontent⟩ := since.answered o ho
    exact ⟨raw, hfirst.append events, hcontent⟩

/-- The states of the calls do not matter to what is known of one. -/
theorem Since.put {s : Calls} {c : ℕ} {request : RPCMessage} {future : Future} {n : ℕ}
    {earlier during : List CallEvent} (since : s.Since cl c request future n earlier during)
    (c' : ℕ) (state : CallState) : (s.put c' state).Since cl c request future n earlier during :=
  ⟨since.older, since.id, since.log, since.active, since.stored, since.answered⟩

/-- A step of another call, or a frame that does not answer what is stored for the call. -/
theorem Tracked.frame {s s' : Calls} {c : ℕ} (tracked : s.Tracked cl c) (events : List CallEvent)
    (calls : s'.calls c = s.calls c) (nextId : s.nextId ≤ s'.nextId)
    (log : s'.log = s.log ++ events) (silent : ∀ e ∈ events, e.call? ≠ some c)
    (stored : ∀ key, s'.pending.get? key = some c → s.pending.get? key = some c ∧
      ∀ e ∈ events, ∀ n, key = .str (cl.ids.of n) → ¬ e.Answers (.str (cl.ids.of n))) :
    s'.Tracked cl c := by
  refine ⟨?_, ?_, ?_, ?_⟩
  · intro key h
    obtain ⟨n, hn, hkey⟩ := tracked.older key (stored key h).1
    exact ⟨n, Nat.lt_of_lt_of_le hn nextId, hkey⟩
  · intro request h
    rw [log, List.mem_append] at h
    have hold := h.resolve_right fun h => silent _ h rfl
    obtain ⟨hc, n, hn, hid⟩ := tracked.registered request hold
    exact ⟨calls ▸ hc, n, Nat.lt_of_lt_of_le hn nextId, hid⟩
  · intro h
    obtain ⟨hlog, hpending⟩ := tracked.fresh (calls ▸ h)
    refine ⟨fun o ho => ?_, fun key hkey => hpending key (stored key hkey).1⟩
    rw [log, List.mem_append] at ho
    exact ho.elim (hlog o) fun ho => silent _ ho rfl
  · intro request future pc h
    obtain ⟨n, earlier, during, since⟩ := tracked.since request future pc (calls ▸ h)
    refine ⟨n, earlier, _, since.grow nextId log (fun o ho => silent _ ho rfl) fun key hkey => ?_⟩
    obtain ⟨hold, hnone⟩ := stored key hkey
    refine ⟨hold, fun e he => ?_⟩
    rw [since.id]
    exact hnone e he n (since.stored key hold).1

/-- Frames that answer nothing that stays stored. -/
theorem Inv.frames {s s' : Calls} (inv : s.Inv cl) (frames : List Frame)
    (calls : s'.calls = s.calls) (nextId : s.nextId ≤ s'.nextId)
    (log : s'.log = s.log ++ frames.map .received)
    (stored : ∀ key c, s'.pending.get? key = some c → s.pending.get? key = some c ∧
      ∀ raw ∈ frames, ∀ n, key = .str (cl.ids.of n) → ¬ raw.Answers (.str (cl.ids.of n))) :
    s'.Inv cl := by
  have correlated : Correlated cl s'.log := by
    rw [log]
    refine inv.correlated.append fun e he past => ?_
    obtain ⟨raw, -, rfl⟩ := List.mem_map.1 he
    trivial
  refine ⟨correlated, fun c => (inv.tracked c).frame _ (congrFun calls c) nextId log ?_ ?_⟩
  · intro e he
    obtain ⟨raw, -, rfl⟩ := List.mem_map.1 he
    simp [CallEvent.call?]
  · intro key hkey
    obtain ⟨hold, hnone⟩ := stored key c hkey
    refine ⟨hold, fun e he n hn => ?_⟩
    obtain ⟨raw, hraw, rfl⟩ := List.mem_map.1 he
    exact hnone raw hraw n hn

/-- An active call may complete with what its future says, or without a reply. -/
theorem Inv.explained {s : Calls} (inv : s.Inv cl) {c : ℕ} {request : RPCMessage}
    {future : Future} {pc : CallPc} (hc : s.calls c = some (.active request future pc))
    {o : CallOutcome} (holds : o.FromReply → cl.outcome future = some o) :
    (CallEvent.completed c o).Explained cl s.log := by
  obtain ⟨n, earlier, during, since⟩ := (inv.tracked c).since request future pc hc
  refine ⟨since.active, fun reply => ?_⟩
  obtain ⟨raw, hfirst, hcontent⟩ := since.answered o (holds reply)
  exact ⟨earlier, request, during, raw, since.log, hfirst, hcontent⟩

theorem Inv.complete {s : Calls} (inv : s.Inv cl) {c : ℕ} {o : CallOutcome}
    (explained : (CallEvent.completed c o).Explained cl s.log) : (s.complete c o).Inv cl := by
  refine ⟨inv.correlated.snoc explained, fun c' => ?_⟩
  by_cases hcc : c' = c
  · subst hcc
    refine ⟨(inv.tracked c').older, ?_, by simp, by simp⟩
    intro request h
    have hold : .registered c' request ∈ s.log := (List.mem_append.1 h).resolve_right (by simp)
    exact ⟨by simp, ((inv.tracked c').registered request hold).2⟩
  · refine (inv.tracked c').frame [.completed c o] (s.complete_calls_of_ne c hcc o)
      (Nat.le_refl _) rfl ?_ fun key hkey => ⟨hkey, by simp [CallEvent.Answers]⟩
    simpa [CallEvent.call?] using Ne.symm hcc

/-- A call may be put into a state of which the right things are known. -/
theorem Inv.put {s : Calls} (inv : s.Inv cl) {c : ℕ} {request : RPCMessage} {future : Future}
    (known : ∃ n earlier during, s.Since cl c request future n earlier during) (pc : CallPc) :
    (s.put c (.active request future pc)).Inv cl := by
  refine ⟨inv.correlated, fun c' => ?_⟩
  by_cases hcc : c' = c
  · subst hcc
    refine ⟨(inv.tracked c').older, ?_, by simp, ?_⟩
    · intro request' h
      exact ⟨by simp, ((inv.tracked c').registered request' h).2⟩
    · intro request' future' pc' h
      rw [put_calls_self] at h
      obtain ⟨rfl, rfl, rfl⟩ := CallState.active.inj (Option.some.inj h)
      obtain ⟨n, earlier, during, since⟩ := known
      exact ⟨n, earlier, during, since.put _ _⟩
  · exact (inv.tracked c').frame [] (s.put_calls_of_ne c hcc _) (Nat.le_refl _)
      (List.append_nil _).symm (by simp) fun key hkey => ⟨hkey, by simp⟩

theorem Inv.send {s : Calls} (inv : s.Inv cl) {c : ℕ} {request : RPCMessage} {future : Future}
    {pc : CallPc} (hc : s.calls c = some (.active request future pc)) (answer : SendAnswer) :
    (s.send c request future answer).Inv cl := by
  have known := (inv.tracked c).since request future pc hc
  cases answer with
  | completes => exact inv.put known _
  | suspends => exact inv.put known _
  | raises e => exact inv.complete (inv.explained hc False.elim)

/-- A call that begins stores its future under the next id. -/
theorem Inv.register {s : Calls} (inv : s.Inv cl) {c : ℕ} (fresh : s.calls c = none)
    {request : RPCMessage} (id : request.id = .str (cl.ids.of s.nextId)) :
    (s.draw.register c request (cl.ids.of s.nextId)).Inv cl := by
  obtain ⟨hlog, hpending⟩ := (inv.tracked c).fresh fresh
  have explained : (CallEvent.registered c request).Explained cl s.log := by
    intro c' request' h
    obtain ⟨hc', n, hn, hid⟩ := (inv.tracked c').registered request' h
    refine ⟨fun heq => hc' (heq ▸ fresh), fun heq => ?_⟩
    have hof : cl.ids.of n = cl.ids.of s.nextId := by simpa [hid, id] using heq
    have hnum := cl.ids.injective hof
    omega
  refine ⟨inv.correlated.snoc explained, fun c' => ?_⟩
  by_cases hcc : c' = c
  · subst hcc
    have stored : ∀ key, (s.draw.register c' request (cl.ids.of s.nextId)).pending.get? key =
        some c' → key = .str (cl.ids.of s.nextId) := by
      intro key h
      have h : (s.pending.set (.str (cl.ids.of s.nextId)) c').get? key = some c' := h
      rw [Dict.get?_set] at h
      split_ifs at h with hkey
      · exact hkey.symm
      · exact absurd h (hpending key)
    refine ⟨fun key h => ⟨s.nextId, Nat.lt_succ_self _, stored key h⟩, ?_, by simp, ?_⟩
    · intro request' h
      rcases List.mem_append.1 h with h | h
      · exact absurd fresh ((inv.tracked c').registered request' h).1
      · have same : request' = request := by simpa using h
        subst same
        exact ⟨by simp, s.nextId, Nat.lt_succ_self _, id⟩
    · intro request' future pc h
      rw [register_calls_self] at h
      obtain ⟨rfl, rfl, rfl⟩ := CallState.active.inj (Option.some.inj h)
      refine ⟨s.nextId, s.log, [], Nat.lt_succ_self _, id, rfl, ?_, ?_, ?_⟩
      · intro o ho
        exact hlog o ((List.mem_append.1 ho).resolve_right (by simp))
      · exact fun key hkey => ⟨stored key hkey, by simp⟩
      · intro o ho
        cases ho
  · refine (inv.tracked c').frame [.registered c request]
      (s.draw.register_calls_of_ne c hcc _ _) (Nat.le_succ _) rfl ?_ fun key hkey =>
        ⟨s.draw.get?_of_register c hcc hkey, by simp [CallEvent.Answers]⟩
    simpa [CallEvent.call?] using Ne.symm hcc

theorem Inv.draw {s : Calls} (inv : s.Inv cl) : s.draw.Inv cl :=
  inv.frames [] rfl (Nat.le_succ _) (List.append_nil _).symm fun key c h => ⟨h, by simp⟩

/-- A frame that answers no stored id. -/
theorem Inv.ignore {s : Calls} (inv : s.Inv cl) {raw : Frame}
    (none : ∀ n c, s.pending.get? (.str (cl.ids.of n)) = some c →
      ¬ raw.Answers (.str (cl.ids.of n))) : (s.draw.record (.received raw)).Inv cl := by
  refine inv.frames [raw] rfl (Nat.le_succ _) rfl fun key c h => ⟨h, ?_⟩
  rintro raw' hraw n rfl
  obtain rfl := List.mem_singleton.1 hraw
  exact none n c h

/-- A frame pops the id that it answers, and has one id. -/
theorem Inv.pop {s : Calls} (inv : s.Inv cl) {n : ℕ} {raw : Frame}
    (answers : raw.Answers (.str (cl.ids.of n))) :
    ((s.draw.record (.received raw)).pop (.str (cl.ids.of n))).Inv cl := by
  refine inv.frames [raw] rfl (Nat.le_succ _) rfl fun key c h => ?_
  obtain ⟨hold, ne⟩ := Dict.get?_of_get?_pop h
  refine ⟨hold, ?_⟩
  rintro raw' hraw m rfl answers'
  obtain rfl := List.mem_singleton.1 hraw
  have hid := Option.some.inj (answers.2.symm.trans answers'.2)
  exact ne (by simpa using hid)

/-- The call whose future a reply settles. -/
theorem Since.settle {s : Calls} {n c : ℕ} {request : RPCMessage} {future : Future}
    {earlier during : List CallEvent}
    (since : s.Since cl c request .pending n earlier during)
    {key : PyKey} (stored : s.pending.get? key = some c) {raw : Frame}
    (answers : raw.Answers request.id) (settled : cl.settlement raw = .ok future) :
    ((s.draw.record (.received raw)).pop key).Since cl c request future n earlier
      (during ++ [CallEvent.received raw]) := by
  obtain ⟨hkey, hnone⟩ := since.stored key stored
  refine ⟨Nat.lt_succ_of_lt since.older, since.id, ?_, ?_, ?_, ?_⟩
  · show s.log ++ [CallEvent.received raw] = _
    rw [since.log]
    simp
  · intro o ho
    rcases List.mem_append.1 ho with ho | ho
    · exact since.active o ho
    · simp at ho
  · intro key' hkey'
    obtain ⟨hold, ne⟩ := Dict.get?_of_get?_pop hkey'
    exact absurd (hkey.trans (since.stored key' hold).1.symm) ne
  · intro o ho
    have hraw : (CallEvent.received raw).Answers request.id := answers
    refine ⟨raw, History.first_snoc hnone hraw, ?_⟩
    rw [Client.content, settled]
    exact ho

theorem Inv.receive {s : Calls} (inv : s.Inv cl) (raw : Frame) (now : ℚ) :
    (s.receive cl raw now).Inv cl := by
  rcases receive_cases inv.older raw now with ⟨heq, none⟩ | ⟨n, c, stored, answers, heq⟩
  · rw [heq]
    exact inv.ignore none
  · rw [heq]
    rcases setFuture_cases _ c (cl.settlement raw) with
      ⟨hset, -⟩ | ⟨request, pc, future, hc, settled, hset⟩
    · rw [hset]
      exact inv.pop answers
    · rw [hset]
      obtain ⟨m, earlier, during, since⟩ := (inv.tracked c).since request .pending pc hc
      obtain ⟨hkey, -⟩ := since.stored _ stored
      have hanswers : raw.Answers request.id := by
        rw [since.id]
        simpa [show cl.ids.of n = cl.ids.of m by simpa using hkey] using answers
      exact (inv.pop answers).put ⟨m, earlier, _, since.settle stored hanswers settled⟩ pc

/-! ### Runs -/

theorem Inv.request {s : Calls} (inv : s.Inv cl) {c : ℕ} (fresh : s.calls c = none)
    (method : String) (params : PyVal) (now : ℚ) (socket : Bool) (answer : SendAnswer) :
    (s.request cl c method params now socket answer).Inv cl := by
  let msg := makeCall (s.ambient cl now) method params
  have registered : (s.draw.register c msg (cl.ids.of s.nextId)).Inv cl := inv.register fresh rfl
  have hc : (s.draw.register c msg (cl.ids.of s.nextId)).calls c =
      some (.active msg .pending .sending) := Function.update_self ..
  unfold Calls.request
  dsimp only
  split
  · split
    · exact registered.send hc answer
    · exact registered.complete (registered.explained hc False.elim)
  · exact registered.put ((registered.tracked c).since _ _ _ hc) _

theorem inv_step (s : Calls) (a : Action) (s' : Calls) (inv : s.Inv cl)
    (hs : s.step cl a = some s') : s'.Inv cl := by
  cases a with
  | refuse c =>
    obtain ⟨hc, rfl⟩ := begin?_eq_some.1 hs
    exact inv.complete ⟨((inv.tracked c).fresh hc).1, False.elim⟩
  | request c method params now socket answer =>
    obtain ⟨hc, rfl⟩ := begin?_eq_some.1 hs
    exact inv.request hc method params now socket answer
  | sent c answer =>
    obtain ⟨request, future, hc, rfl⟩ := sent?_eq_some.1 hs
    exact inv.send hc answer
  | wake c =>
    obtain ⟨request, future, sent, o, hc, ho, rfl⟩ := wake?_eq_some.1 hs
    exact inv.complete (inv.explained hc fun _ => ho)
  | timeOut c =>
    obtain ⟨request, future, sent, hc, rfl⟩ := timeOut?_eq_some.1 hs
    exact inv.complete (inv.explained hc False.elim)
  | receive raw now =>
    cases hs
    exact inv.receive raw now
  | draw =>
    cases hs
    exact inv.draw

theorem correlated_run {as : List Action} {s : Calls}
    (ran : Machine.run (step cl) init as = some s) : Correlated cl s.log :=
  (Machine.invariant_run inv_step inv_init ran).correlated

end Calls

/-- Whatever the calls of a daemon, or of a cloud session, and the frames and the connections do:
every call completes at most once, and with a value or a remote error only if that is what the first
RESULT or ERROR frame says that carries the id of the call's own message and came after the call was
registered. -/
theorem replies_correlated (py : PyText) (ids : IdSupply) (env : Serialization.Env)
    (sessionId : String) :
    (∀ as d, Machine.run (Daemon.step py ids) .init as = some d →
      Correlated (Daemon.client py ids) d.calls.log) ∧
    ∀ as s, Machine.run (Session.step env py ids) (.init sessionId) as = some s →
      Correlated (Session.client env py ids) s.calls.log := by
  constructor
  · intro as d ran
    obtain ⟨bs, -, hbs⟩ := Machine.exists_run_of_simulates (f := Daemon.calls)
      (Q := fun _ _ => True) (fun d a d' _ hs => .inr ⟨_, trivial, Daemon.calls_of_step hs⟩)
      (Machine.along_true _ as) ran
    exact Calls.correlated_run hbs
  · intro as s ran
    have simulates : ∀ s a s', True → Session.step env py ids s a = some s' →
        s'.calls = s.calls ∨ ∃ b, True ∧
          s.calls.step (Session.client env py ids) b = some s'.calls := by
      intro s a s' _ hs
      rcases Session.calls_of_step hs with ⟨b, -, hb⟩ | ⟨-, same⟩
      · exact .inr ⟨b, trivial, hb⟩
      · exact .inl same
    obtain ⟨bs, -, hbs⟩ :=
      Machine.exists_run_of_simulates (Q := fun _ _ => True) simulates (Machine.along_true _ as) ran
    exact Calls.correlated_run hbs

/-- The daemon makes a call and gets its result, twice. -/
def answeredCall : List Daemon.Action :=
  [.connected, .rpcCall 0 "status" .none 0 .completes, .receive (resultFrame "11") 0,
    .receive (resultFrame "11") 0, .wake 0]

/-- A session connects for a call and gets its result. -/
def answeredExecute : List Session.Action :=
  [.execute 0 ⟨"numpy.zeros", [], []⟩ 0 .completes, .connectDone 0 true 0 .completes, .startLoop 0,
    .receive 0 (resultFrame "1") 0, .wake 0]

theorem replies_correlated_answered :
    (∃ d, Machine.run (Daemon.step plainText tallyIds) .init answeredCall = some d ∧
      Correlated (Daemon.client plainText tallyIds) d.calls.log) ∧
    ∃ s, Machine.run (Session.step ⟨fun _ => .ok .none, none, none⟩ plainText tallyIds) (.init "s")
        answeredExecute = some s ∧
      Correlated (Session.client ⟨fun _ => .ok .none, none, none⟩ plainText tallyIds)
        s.calls.log := by
  have correlated := replies_correlated plainText tallyIds ⟨fun _ => .ok .none, none, none⟩ "s"
  exact ⟨⟨_, rfl, correlated.1 answeredCall _ rfl⟩, ⟨_, rfl, correlated.2 answeredExecute _ rfl⟩⟩

end Cpip
