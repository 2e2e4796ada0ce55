import Cpip.Client.Daemon
import Cpip.Client.Replies
import Cpip.Runtime.Session

/-!
# What stays in `_pending`

A call stores its future before its message is sent, and only a frame takes it out again.  So
`_pending` holds just the calls that were sent and wait for their reply (`Calls.Exact`) as long as
every message is sent at once, no call times out before its reply came, and every ERROR frame can be
read (`Calls.Orderly`).  Any other step leaves a future without a waiting call, or a waiting call
without its future.
-/

namespace Cpip

/-- An ERROR frame carries an object or something falsy as its error. -/
def Frame.Readable (raw : Frame) : Prop :=
  raw.type? = some .error → ∀ error, raw.field "error" = some error → error.truthy = true →
    ∃ items, error = .dict items

namespace Calls

variable {cl : Client}

/-- The call has sent its message, whose id is `key`, and waits for the reply. -/
def AwaitsReply (s : Calls) (c : ℕ) (key : PyKey) : Prop :=
  ∃ request, s.calls c = some (.active request .pending (.waiting true)) ∧
    request.id.hash? = some key

/-- The keys of `_pending` are the ids of the calls whose message was sent and that still wait. -/
def Exact (s : Calls) : Prop := ∀ key, key ∈ s.pending.keys ↔ ∃ c, s.AwaitsReply c key

/-- The step sends what it registers, at once, leaves no call before its reply, and gets no error
that cannot be read for a stored id. -/
def Orderly (cl : Client) (s : Calls) : Action → Prop
  | .request _ method params now socket answer => socket = true ∧ answer = .completes ∧
    ∃ text, (makeCall (s.ambient cl now) method params).toJson cl.py = .ok text
  | .timeOut c => ∀ key, ¬ s.AwaitsReply c key
  | .receive raw _ =>
    (∃ id key, raw.field "id" = some id ∧ id.hash? = some key ∧ key ∈ s.pending.keys) → raw.Readable
  | _ => True

/-! ## The invariant -/

/-- The call is stored while it waits, under the id of its message, and only then. -/
structure Kept (cl : Client) (s : Calls) (c : ℕ) : Prop where
  older : ∀ request future pc, s.calls c = some (.active request future pc) →
    ∃ n < s.nextId, request.id = .str (cl.ids.of n)
  tracks : ∀ key, s.pending.get? key = some c ↔ s.AwaitsReply c key
  sent : ∀ request future, s.calls c ≠ some (.active request future .sending)

def Tidy (cl : Client) (s : Calls) : Prop := ∀ c, s.Kept cl c

theorem Tidy.exact {s : Calls} (tidy : s.Tidy cl) : s.Exact := by
  intro key
  rw [Dict.mem_keys_iff, Option.isSome_iff_exists]
  exact exists_congr fun c => (tidy c).tracks key

theorem tidy_init : init.Tidy cl := by
  refine fun c => ⟨?_, ?_, ?_⟩
  · intro request future pc h
    cases h
  · intro key
    refine iff_of_false (fun h => by cases h) ?_
    rintro ⟨request, h, -⟩
    cases h
  · intro request future h
    cases h

theorem awaitsReply_congr {s s' : Calls} {c : ℕ} (h : s'.calls c = s.calls c) (key : PyKey) :
    s'.AwaitsReply c key ↔ s.AwaitsReply c key := by
  unfold AwaitsReply
  rw [h]

/-- A step of another call. -/
theorem Kept.frame {s s' : Calls} {c : ℕ} (kept : s.Kept cl c) (calls : s'.calls c = s.calls c)
    (nextId : s.nextId ≤ s'.nextId)
    (pending : ∀ key, s'.pending.get? key = some c ↔ s.pending.get? key = some c) :
    s'.Kept cl c := by
  refine ⟨?_, ?_, ?_⟩
  · intro request future pc h
    obtain ⟨n, hn, hid⟩ := kept.older request future pc (calls ▸ h)
    exact ⟨n, Nat.lt_of_lt_of_le hn nextId, hid⟩
  · intro key
    rw [pending, awaitsReply_congr calls]
    exact kept.tracks key
  · intro request future
    rw [calls]
    exact kept.sent request future

theorem AwaitsReply.older {s : Calls} (tidy : s.Tidy cl) {c : ℕ} {key : PyKey}
    (h : s.AwaitsReply c key) : ∃ n < s.nextId, key = .str (cl.ids.of n) := by
  obtain ⟨request, hc, hkey⟩ := h
  obtain ⟨n, hn, hid⟩ := (tidy c).older request _ _ hc
  rw [hid] at hkey
  exact ⟨n, hn, (Option.some.inj hkey).symm⟩

theorem Tidy.olderKeys {s : Calls} (tidy : s.Tidy cl) : s.Older cl :=
  fun key c h => (((tidy c).tracks key).1 h).older tidy

/-- No call waits under an id that was not supplied yet. -/
theorem Tidy.not_awaits_next {s : Calls} (tidy : s.Tidy cl) (c : ℕ) :
    ¬ s.AwaitsReply c (.str (cl.ids.of s.nextId)) := by
  intro h
  obtain ⟨n, hn, hof⟩ := h.older tidy
  have hid : cl.ids.of s.nextId = cl.ids.of n := by simpa using hof
  have hnum := cl.ids.injective hid
  omega

/-- The call under an id, and the id of a call, are unique. -/
theorem Tidy.unique {s : Calls} (tidy : s.Tidy cl) {c c' : ℕ} {key : PyKey}
    (h : s.AwaitsReply c key) (h' : s.AwaitsReply c' key) : c = c' := by
  have hget := ((tidy c).tracks key).2 h
  rw [((tidy c').tracks key).2 h'] at hget
  exact (Option.some.inj hget).symm

theorem AwaitsReply.key_unique {s : Calls} {c : ℕ} {key key' : PyKey} (h : s.AwaitsReply c key)
    (h' : s.AwaitsReply c key') : key = key' := by
  obtain ⟨request, hc, hkey⟩ := h
  obtain ⟨request', hc', hkey'⟩ := h'
  have same := (CallState.active.inj (Option.some.inj (hc.symm.trans hc'))).1
  subst same
  exact Option.some.inj (hkey.symm.trans hkey')

/-! ### Calls that end -/

/-- A call that does not wait for a reply may end. -/
theorem Tidy.complete {s : Calls} (tidy : s.Tidy cl) {c : ℕ} (ends : ∀ key, ¬ s.AwaitsReply c key)
    (o : CallOutcome) : (s.complete c o).Tidy cl := by
  intro c'
  by_cases hcc : c' = c
  · subst hcc
    refine ⟨by simp, fun key => ?_, by simp⟩
    refine iff_of_false (fun h => ends key (((tidy c').tracks key).1 h)) ?_
    rintro ⟨request, h, -⟩
    simp at h
  · exact (tidy c').frame (s.complete_calls_of_ne c hcc o) (Nat.le_refl _) fun key => Iff.rfl

/-- A call that ends while it waits leaves its future. -/
theorem not_awaits_of_exact_complete {s : Calls} (tidy : s.Tidy cl) {c : ℕ} {o : CallOutcome}
    (exact' : (s.complete c o).Exact) (key : PyKey) : ¬ s.AwaitsReply c key := by
  intro h
  have hmem : key ∈ (s.complete c o).pending.keys := by
    rw [Dict.mem_keys_iff]
    have hget : (s.complete c o).pending.get? key = some c := ((tidy c).tracks key).2 h
    rw [hget]
    rfl
  obtain ⟨c', h'⟩ := (exact' key).1 hmem
  by_cases hcc : c' = c
  · subst hcc
    obtain ⟨request, hc, -⟩ := h'
    simp at hc
  · rw [awaitsReply_congr (s.complete_calls_of_ne c hcc o)] at h'
    exact hcc (tidy.unique h' h)

/-! ### Calls that begin -/

section Request

variable {s : Calls} {c : ℕ} {method : String} {params : PyVal} {now : ℚ} {socket : Bool}
  {answer : SendAnswer}

/-- A call waits for its reply after its first step exactly when its message was sent in it. -/
theorem request_calls_self_iff {request : RPCMessage} :
    (s.request cl c method params now socket answer).calls c =
        some (.active request .pending (.waiting true)) ↔
      request = makeCall (s.ambient cl now) method params ∧
        s.Orderly cl (.request c method params now socket answer) := by
  unfold Calls.request Orderly
  cases socket with
  | false => simp [put]
  | true =>
    simp only [if_true, true_and]
    cases (makeCall (s.ambient cl now) method params).toJson cl.py with
    | error e => simp
    | ok text =>
      cases answer with
      | completes => simp [send, put, eq_comm]
      | suspends => simp [send, put]
      | raises e => simp [send]

theorem Tidy.request (tidy : s.Tidy cl) (begins : s.calls c = none)
    (orderly : s.Orderly cl (.request c method params now socket answer)) :
    (s.request cl c method params now socket answer).Tidy cl := by
  have self : (s.request cl c method params now socket answer).calls c =
      some (.active (makeCall (s.ambient cl now) method params) .pending (.waiting true)) :=
    request_calls_self_iff.2 ⟨rfl, orderly⟩
  have id : (makeCall (s.ambient cl now) method params).id.hash? =
      some (.str (cl.ids.of s.nextId)) := rfl
  intro c'
  by_cases hcc : c' = c
  · subst hcc
    refine ⟨?_, fun key => ?_, ?_⟩
    · intro request future pc h
      have hrequest := (CallState.active.inj (Option.some.inj (self.symm.trans h))).1
      rw [request_nextId]
      exact ⟨s.nextId, Nat.lt_succ_self _, hrequest ▸ rfl⟩
    · rw [request_pending, Dict.get?_set]
      split_ifs with hkey
      · exact iff_of_true rfl ⟨_, self, hkey ▸ id⟩
      · refine iff_of_false (fun h => ?_) fun h => ?_
        · obtain ⟨request, hc, -⟩ := ((tidy c').tracks key).1 h
          cases begins.symm.trans hc
        · exact hkey (AwaitsReply.key_unique ⟨_, self, id⟩ h)
    · intro request future h
      have hpc := (CallState.active.inj (Option.some.inj (self.symm.trans h))).2.2
      cases hpc
  · refine (tidy c').frame (request_calls_of_ne hcc) ?_ fun key => ?_
    · rw [request_nextId]
      exact Nat.le_succ _
    · rw [request_pending, Dict.get?_set]
      split_ifs with hkey
      · subst hkey
        refine iff_of_false (fun h => hcc (Option.some.inj h).symm) fun h => ?_
        exact tidy.not_awaits_next c' (((tidy c').tracks _).1 h)
      · exact Iff.rfl

/-- A call that does not send its message leaves its future without a waiting call. -/
theorem orderly_of_exact_request (tidy : s.Tidy cl)
    (exact' : (s.request cl c method params now socket answer).Exact) :
    s.Orderly cl (.request c method params now socket answer) := by
  have hmem : PyKey.str (cl.ids.of s.nextId) ∈
      (s.request cl c method params now socket answer).pending.keys := by
    rw [Dict.mem_keys_iff, request_pending, Dict.get?_set_self]
    rfl
  obtain ⟨c', h⟩ := (exact' _).1 hmem
  by_cases hcc : c' = c
  · subst hcc
    obtain ⟨request, hc, -⟩ := h
    exact (request_calls_self_iff.1 hc).2
  · rw [awaitsReply_congr (request_calls_of_ne hcc)] at h
    exact absurd h (tidy.not_awaits_next c')

end Request

/-! ### Frames -/

/-- A reply settles a future exactly when its error, if it is an ERROR, can be read. -/
theorem settlement_isOk_iff {raw : Frame} :
    (∃ future, cl.settlement raw = .ok future) ↔ raw.Readable := by
  unfold Client.settlement Frame.Readable
  by_cases htype : raw.type? = some .error
  · simp only [htype, true_implies]
    cases hfield : raw.field "error" with
    | none => simp [Client.errorMessage, PyVal.truthy, Except.map]
    | some error =>
      simp only [Option.getD_some, Client.errorMessage, Option.some.injEq, forall_eq']
      by_cases htruthy : error.truthy = true
      · cases error <;> simp [htruthy, Except.map]
      · simp [htruthy, Except.map]
  · simp only [htype, false_implies, iff_true]
    exact ⟨_, rfl⟩

theorem settlement_ne_pending (raw : Frame) : cl.settlement raw ≠ .ok .pending := by
  unfold Client.settlement
  split
  · cases cl.errorMessage ((raw.field "error").getD .none) <;> simp [Except.map]
  · simp

/-- A frame whose id is stored is one that answers it, when it is a reply. -/
theorem answers_stored {s : Calls} (older : s.Older cl) {raw : Frame} {id : PyVal} {key : PyKey}
    (hid : raw.field "id" = some id) (hkey : id.hash? = some key) (stored : key ∈ s.pending.keys)
    (reply : raw.type? = some .result ∨ raw.type? = some .error) :
    ∃ n c, s.pending.get? (.str (cl.ids.of n)) = some c ∧ raw.Answers (.str (cl.ids.of n)) := by
  rw [Dict.mem_keys_iff, Option.isSome_iff_exists] at stored
  obtain ⟨c, hc⟩ := stored
  obtain ⟨n, -, rfl⟩ := older key c hc
  obtain rfl := PyVal.hash?_eq_str_iff.1 hkey
  exact ⟨n, c, hc, reply, hid⟩

/-- The reply to a waiting call takes its future out and lets it go on. -/
theorem Tidy.settle {s : Calls} (tidy : s.Tidy cl) {key : PyKey} {c : ℕ}
    (stored : s.pending.get? key = some c) {request : RPCMessage} {pc : CallPc}
    (hc : s.calls c = some (.active request .pending pc)) {future : Future}
    (done : future ≠ .pending) (raw : Frame) :
    (((s.draw.record (.received raw)).pop key).put c (.active request future pc)).Tidy cl := by
  have awaits := ((tidy c).tracks key).1 stored
  intro c'
  by_cases hcc : c' = c
  · subst hcc
    refine ⟨?_, fun key' => ?_, ?_⟩
    · intro request' future' pc' h
      rw [put_calls_self] at h
      obtain ⟨rfl, -, -⟩ := CallState.active.inj (Option.some.inj h)
      obtain ⟨n, hn, hid⟩ := (tidy c').older request .pending pc hc
      exact ⟨n, Nat.lt_succ_of_lt hn, hid⟩
    · refine iff_of_false (fun h => ?_) ?_
      · obtain ⟨hold, ne⟩ := Dict.get?_of_get?_pop h
        exact ne (awaits.key_unique (((tidy c').tracks key').1 hold))
      · rintro ⟨request', h, -⟩
        rw [put_calls_self] at h
        exact done (CallState.active.inj (Option.some.inj h)).2.1
    · intro request' future' h
      rw [put_calls_self] at h
      obtain ⟨-, -, rfl⟩ := CallState.active.inj (Option.some.inj h)
      exact (tidy c').sent request .pending hc
  · refine (tidy c').frame (put_calls_of_ne _ c hcc _) (Nat.le_succ _) fun key' => ?_
    show (s.pending.pop key).get? key' = some c' ↔ _
    rw [Dict.get?_pop]
    split_ifs with hkey
    · subst hkey
      refine iff_of_false (by simp) fun h => ?_
      exact hcc (tidy.unique (((tidy c').tracks key).1 h) awaits)
    · exact Iff.rfl

/-- Ids taken from the supply and frames that are recorded do not matter. -/
theorem Tidy.draw {s : Calls} (tidy : s.Tidy cl) : s.draw.Tidy cl := fun c =>
  (tidy c).frame rfl (Nat.le_succ _) fun _ => Iff.rfl

theorem Tidy.ignore {s : Calls} (tidy : s.Tidy cl) (raw : Frame) :
    (s.draw.record (.received raw)).Tidy cl := fun c =>
  (tidy c).frame rfl (Nat.le_succ _) fun _ => Iff.rfl

theorem Tidy.receive {s : Calls} (tidy : s.Tidy cl) {raw : Frame} {now : ℚ}
    (orderly : s.Orderly cl (.receive raw now)) : (s.receive cl raw now).Tidy cl := by
  rcases receive_cases tidy.olderKeys raw now with ⟨heq, -⟩ | ⟨n, c, stored, answers, heq⟩
  · rw [heq]
    exact tidy.ignore raw
  · rw [heq]
    have awaits := ((tidy c).tracks _).1 stored
    have mem : PyKey.str (cl.ids.of n) ∈ s.pending.keys := by
      rw [Dict.mem_keys_iff, stored]
      rfl
    obtain ⟨future, settled⟩ : ∃ future, cl.settlement raw = .ok future :=
      settlement_isOk_iff.2 (orderly ⟨_, _, answers.2, rfl, mem⟩)
    obtain ⟨request, hc, -⟩ := awaits
    rcases setFuture_cases ((s.draw.record (.received raw)).pop (.str (cl.ids.of n))) c
      (cl.settlement raw) with ⟨-, other⟩ | ⟨request', pc, future', hc', settled', hset⟩
    · exact absurd settled (other request _ future hc)
    · rw [hset]
      refine tidy.settle stored hc' (fun hpending => ?_) raw
      exact settlement_ne_pending raw (hpending ▸ settled')

/-- An ERROR that cannot be read takes out the future of a call that goes on waiting. -/
theorem orderly_of_exact_receive {s : Calls} (tidy : s.Tidy cl) {raw : Frame} {now : ℚ}
    (exact' : (s.receive cl raw now).Exact) : s.Orderly cl (.receive raw now) := by
  rintro ⟨id, key, hid, hkey, hstored⟩ htype
  obtain ⟨n, c, stored, answers⟩ := answers_stored tidy.olderKeys hid hkey hstored (.inr htype)
  obtain ⟨request, hc, hhash⟩ := ((tidy c).tracks _).1 stored
  by_contra unreadable
  have unsettled : ∀ future, cl.settlement raw ≠ .ok future := fun future settled =>
    unreadable (settlement_isOk_iff.1 ⟨future, settled⟩ htype)
  have pops : s.receive cl raw now = (s.draw.record (.received raw)).pop (.str (cl.ids.of n)) := by
    rw [receive_of_stored stored answers]
    rcases setFuture_cases ((s.draw.record (.received raw)).pop (.str (cl.ids.of n))) c
      (cl.settlement raw) with ⟨same, -⟩ | ⟨_, _, future, -, settled, -⟩
    · exact same
    · exact absurd settled (unsettled future)
  rw [pops] at exact'
  have mem := (exact' (.str (cl.ids.of n))).2 ⟨c, request, hc, hhash⟩
  rw [Dict.mem_keys_iff] at mem
  have popped : ((s.draw.record (.received raw)).pop (.str (cl.ids.of n))).pending.get?
      (.str (cl.ids.of n)) = none := Dict.get?_pop_self ..
  rw [popped] at mem
  cases mem

/-! ## Runs -/

theorem tidy_step (s : Calls) (a : Action) (s' : Calls) (orderly : s.Orderly cl a)
    (tidy : s.Tidy cl) (hs : s.step cl a = some s') : s'.Tidy cl := by
  cases a with
  | refuse c =>
    obtain ⟨hc, rfl⟩ := begin?_eq_some.1 hs
    refine tidy.complete ?_ _
    rintro key ⟨request, h, -⟩
    cases hc.symm.trans h
  | request c method params now socket answer =>
    obtain ⟨hc, rfl⟩ := begin?_eq_some.1 hs
    exact tidy.request hc orderly
  | sent c answer =>
    obtain ⟨request, future, hc, -⟩ := sent?_eq_some.1 hs
    exact absurd hc ((tidy c).sent request future)
  | wake c =>
    obtain ⟨request, future, sent, o, hc, ho, rfl⟩ := wake?_eq_some.1 hs
    refine tidy.complete ?_ o
    rintro key ⟨request', h, -⟩
    have hfuture := (CallState.active.inj (Option.some.inj (hc.symm.trans h))).2.1
    rw [hfuture] at ho
    cases ho
  | timeOut c =>
    obtain ⟨request, future, sent, hc, rfl⟩ := timeOut?_eq_some.1 hs
    exact tidy.complete orderly _
  | receive raw now =>
    cases hs
    exact tidy.receive orderly
  | draw =>
    cases hs
    exact tidy.draw

/-- A step that leaves `_pending` as it should be is orderly. -/
theorem orderly_of_exact (s : Calls) (a : Action) (s' : Calls) (tidy : s.Tidy cl)
    (hs : s.step cl a = some s') (exact' : s'.Exact) : s.Orderly cl a := by
  cases a with
  | request c method params now socket answer =>
    obtain ⟨-, rfl⟩ := begin?_eq_some.1 hs
    exact orderly_of_exact_request tidy exact'
  | timeOut c =>
    obtain ⟨request, future, sent, hc, rfl⟩ := timeOut?_eq_some.1 hs
    exact not_awaits_of_exact_complete tidy exact'
  | receive raw now =>
    cases hs
    exact orderly_of_exact_receive tidy exact'
  | _ => trivial

end Calls

/-- The step of the daemon is orderly for its calls. -/
def Daemon.Orderly (py : PyText) (ids : IdSupply) (d : Daemon) (a : Daemon.Action) : Prop :=
  d.calls.Orderly (Daemon.client py ids) (a.onCalls d)

/-- The step of the session is orderly for its calls, if it concerns them. -/
def Session.Orderly (env : Serialization.Env) (py : PyText) (ids : IdSupply) (s : Session)
    (a : Session.Action) : Prop :=
  ∀ b, a.onCalls s = some b → s.calls.Orderly (Session.client env py ids) b

/-- In a run of the daemon, or of a session, the keys of `_pending` are at every point the ids of
the calls whose message was sent and that still wait, exactly when every step is orderly. -/
theorem pending_exact_iff (py : PyText) (ids : IdSupply) (env : Serialization.Env)
    (sessionId : String) :
    (∀ as d, Machine.run (Daemon.step py ids) .init as = some d →
      (Machine.Throughout (Daemon.step py ids) (fun d => d.calls.Exact) .init as ↔
        Machine.Along (Daemon.step py ids) (Daemon.Orderly py ids) .init as)) ∧
    ∀ as s, Machine.run (Session.step env py ids) (.init sessionId) as = some s →
      (Machine.Throughout (Session.step env py ids) (fun s => s.calls.Exact) (.init sessionId) as ↔
        Machine.Along (Session.step env py ids) (Session.Orderly env py ids) (.init sessionId)
          as) := by
  constructor
  · intro as d ran
    refine (Machine.along_iff_throughout (I := fun d => d.calls.Tidy (Daemon.client py ids))
      (fun d tidy => tidy.exact) ?_ ?_ Calls.tidy_init ran).symm
    · intro d a d' orderly tidy hs
      exact Calls.tidy_step _ _ _ orderly tidy (Daemon.calls_of_step hs)
    · intro d a d' tidy hs exact'
      exact Calls.orderly_of_exact _ _ _ tidy (Daemon.calls_of_step hs) exact'
  · intro as s ran
    refine (Machine.along_iff_throughout (I := fun s => s.calls.Tidy (Session.client env py ids))
      (fun s tidy => tidy.exact) ?_ ?_ Calls.tidy_init ran).symm
    · intro s a s' orderly tidy hs
      rcases Session.calls_of_step hs with ⟨b, hb, hstep⟩ | ⟨-, same⟩
      · exact Calls.tidy_step _ _ _ (orderly b hb) tidy hstep
      · rwa [same]
    · intro s a s' tidy hs exact' b hb
      rcases Session.calls_of_step hs with ⟨b', hb', hstep⟩ | ⟨none, -⟩
      · obtain rfl := Option.some.inj (hb.symm.trans hb')
        exact Calls.orderly_of_exact _ _ _ tidy hstep exact'
      · cases hb.symm.trans none

/-- The daemon makes a call and gets its result. -/
def promptCall : List Daemon.Action :=
  [.connected, .rpcCall 0 "status" .none 0 .completes, .receive (resultFrame "11") 0, .wake 0]

/-- A session connects for a call and gets its result. -/
def promptExecute : List Session.Action :=
  [.execute 0 ⟨"numpy.zeros", [], []⟩ 0 .completes, .connectDone 0 true 0 .completes, .startLoop 0,
    .receive 0 (resultFrame "1") 0, .wake 0]

theorem pending_exact_iff_prompt :
    Machine.Throughout (Daemon.step plainText tallyIds) (fun d => d.calls.Exact) .init promptCall ∧
    Machine.Throughout (Session.step ⟨fun _ => .ok .none, none, none⟩ plainText tallyIds)
      (fun s => s.calls.Exact) (.init "s") promptExecute := by
  have exact_iff := pending_exact_iff plainText tallyIds ⟨fun _ => .ok .none, none, none⟩ "s"
  constructor
  · refine (exact_iff.1 promptCall _ rfl).2 (.cons trivial rfl (.cons ?_ rfl (.cons ?_ rfl
      (.cons trivial rfl trivial))))
    · exact ⟨rfl, rfl, _, rfl⟩
    · exact fun _ htype => by cases htype
  · refine (exact_iff.2 promptExecute _ rfl).2 (.cons ?_ rfl (.cons ?_ rfl (.cons ?_ rfl
      (.cons ?_ rfl (.cons ?_ rfl trivial)))))
    · exact fun b hb => by cases hb
    · rintro b hb
      cases hb
      exact ⟨rfl, rfl, _, rfl⟩
    · exact fun b hb => by cases hb
    · rintro b hb
      cases hb
      exact fun _ htype => by cases htype
    · rintro b hb
      cases hb
      trivial

/-- A call of the daemon that times out. -/
def timedOutCall : List Daemon.Action :=
  [.connected, .rpcCall 0 "status" .none 0 .completes, .timeOut 0]

/-- A call of a session that cannot connect. -/
def unconnectedExecute : List Session.Action :=
  [.execute 0 ⟨"numpy.zeros", [], []⟩ 0 .completes, .connectDone 0 false 0 .completes]

/-- A call that timed out stays in `_pending`, and so does one that was never sent. -/
theorem pending_leaks :
    (¬ ∀ (py : PyText) (ids : IdSupply) (as : List Daemon.Action) (d : Daemon),
      Machine.run (Daemon.step py ids) .init as = some d →
        Machine.Throughout (Daemon.step py ids) (fun d => d.calls.Exact) .init as) ∧
    ¬ ∀ (env : Serialization.Env) (py : PyText) (ids : IdSupply) (sessionId : String)
      (as : List Session.Action) (s : Session),
      Machine.run (Session.step env py ids) (.init sessionId) as = some s →
        Machine.Throughout (Session.step env py ids) (fun s => s.calls.Exact) (.init sessionId)
          as := by
  constructor
  · intro h
    have exact' := (h plainText tallyIds timedOutCall _ rfl).last rfl
    obtain ⟨c, request, hc, -⟩ := (exact' (.str "11")).1 (by decide)
    cases c with
    | zero => cases hc
    | succ c => cases hc
  · intro h
    have exact' :=
      (h ⟨fun _ => .ok .none, none, none⟩ plainText tallyIds "s" unconnectedExecute _ rfl).last rfl
    obtain ⟨c, request, hc, -⟩ := (exact' (.str "1")).1 (by decide)
    cases c with
    | zero => cases hc
    | succ c => cases hc

end Cpip
