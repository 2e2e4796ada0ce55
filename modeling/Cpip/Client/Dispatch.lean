import Cpip.Client.Daemon
import Cpip.Client.Replies
import Cpip.Client.Sync

/-!
# Calls from the server (`client/daemon.py`)

The message loop of the daemon with all that `_handle_message` does: heartbeats are acknowledged,
replies settle the calls that wait for them, and a CALL is dispatched to one of three handlers.  Its
result is always sent as a RESULT, also when it says that the method is unknown, and what a handler
raises is dropped by the loop, together with the reply.
-/

namespace Cpip

/-- The environment of a daemon.  `refuses` are the paths that the system takes in no state of the
files: one with a NUL in it, one that is too long. -/
structure DaemonEnv extends SyncEnv where
  ids : IdSupply
  refuses : PyPath → Bool

/-- `CpipDaemon`, with its sync manager and the texts that it sent on the connection. -/
structure CpipDaemon where
  daemon : Daemon
  sync : SyncManager
  syncRunning : Bool
  sent : List JsonText

namespace CpipDaemon

abbrev DaemonProc (α : Type) := Proc CpipDaemon PyExc α

variable (env : DaemonEnv)

/-! ## Handlers -/

/-- `_handle_cache_invalidate`, for parameters that are a dictionary. -/
def handleCacheInvalidate (d : CacheDisk) (params : List (PyKey × PyVal))
    (s : CacheManager) : Except PyExc PyVal × CacheManager :=
  let package := (PyVal.getStr "package" params).getD (.str "")
  if package.truthy then
    match (CacheManager.metaFile d.toCacheEnv (d.py.toStr package)).unlink d.cwd s.tree with
    | .error _ => (.error (.other "OSError"), s)
    | .ok tree => (.ok (.dict [(.str "status", .str "ok")]), { s with tree := tree })
  else (.ok (.dict [(.str "status", .str "ok")]), s)

/-- The path that `_handle_cache_invalidate` unlinks, if it unlinks one. -/
def metaPath? (params : List (PyKey × PyVal)) : Option PyPath :=
  let package := (PyVal.getStr "package" params).getD (.str "")
  if package.truthy then some (CacheManager.metaFile env.toCacheEnv (env.py.toStr package))
  else none

/-- `_handle_cache_invalidate`; what is no dictionary has no `get`. -/
def cacheInvalidate (params : PyVal) : DaemonProc PyVal := fun s =>
  match params with
  | .dict items =>
    if (metaPath? env items).any env.refuses then (.error (.other "OSError"), s)
    else
      let (result, cache) := handleCacheInvalidate env.toCacheDisk items s.sync.cache
      (result, { s with sync := { s.sync with cache := cache } })
  | _ => (.error (.attributeError "get"), s)

/-- `self.sync.sync_now()`. -/
def syncNow : DaemonProc SyncResults := fun s =>
  let (result, sync) := SyncManager.doSync env.toSyncEnv s.sync
  (result, { s with sync := sync })

/-- `_handle_sync_trigger`. -/
def handleSyncTrigger (_params : PyVal) : DaemonProc PyVal := do
  let result ← syncNow env
  return .dict [(.str "status", .str "ok"), (.str "updated", .int result.metadataUpdated)]

/-- `_handle_status`. -/
def handleStatus (_params : PyVal) : DaemonProc PyVal := fun s =>
  let stats := CacheManager.stats env.toCacheDisk s.sync.cache
  (.ok (.dict [(.str "status", .str "running"),
    (.str "cache_size_mb", .float (.finite stats.totalSizeMb)),
    (.str "sync_running", .bool s.syncRunning)]), s)

/-! ## Messages -/

/-- The handlers by their methods. -/
def handlers : List (String × (PyVal → DaemonProc PyVal)) :=
  [("cache.invalidate", cacheInvalidate env),
    ("sync.trigger", handleSyncTrigger env),
    ("status", handleStatus env)]

/-- `_dispatch`; a method that cannot be hashed is no key to look up. -/
def dispatch (method params : PyVal) : DaemonProc PyVal :=
  match method.hash? with
  | none => Proc.raise (.typeError "unhashable type")
  | some key =>
    match (handlers env).find? fun h => key = .str h.1 with
    | some (_, handler) => handler params
    | none => pure (.dict [(.str "error", .str ("Unknown method: " ++ env.py.toStr method))])

/-- `self._ws.send(msg.to_json())`, which succeeds when there is a text to send. -/
def send (msg : RPCMessage) : DaemonProc Unit := fun s =>
  match msg.toJson env.py with
  | .error e => (.error e, s)
  | .ok t => (.ok (), { s with sent := s.sent ++ [t] })

/-- What the interpreter supplies to the next message. -/
def ambient (s : CpipDaemon) (now : ℚ) : Ambient := ⟨env.ids.of s.daemon.calls.nextId, now⟩

/-- `if self._ws: await self._ws.send(...)`. -/
def reply (now : ℚ) (msg : Ambient → RPCMessage) : DaemonProc Unit := fun s =>
  if s.daemon.ws then send env (msg (s.ambient env now)) s else (.ok (), s)

/-- `_handle_message`, for an answer that is made at the time `now`. -/
def handleMessage (msg : RPCMessage) (now : ℚ) : DaemonProc Unit :=
  match msg.type with
  | .heartbeat => reply env now fun amb => makeHeartbeatAck amb msg.id
  | .call => do
    let result ← dispatch env (msg.method.or (.str "")) msg.params
    reply env now fun amb => makeResult amb msg.id result
  | _ => Proc.modify fun s => { s with daemon := { s.daemon with
      calls := Daemon.handleMessage env.py env.ids s.daemon.calls msg } }

/-- A frame is there; an id is drawn for it, in case it has none. -/
def take (s : CpipDaemon) (raw : Frame) : CpipDaemon :=
  { s with daemon := { s.daemon with calls := s.daemon.calls.draw.record (.received raw) } }

/-- A frame in the message loop, received at `now` and answered at `later`. -/
def receive (s : CpipDaemon) (raw : Frame) (now later : ℚ) : CpipDaemon :=
  match RPCMessage.fromJson (s.ambient env now) raw with
  | .error _ => s.take raw
  | .ok msg => (handleMessage env msg later (s.take raw)).2

/-- On an open connection: a frame is received, or other coroutines and programs run, and leave the
calls, the files and the sync manager in another state. -/
inductive Action where
  | frame (raw : Frame) (now later : ℚ)
  | elsewhere (calls : Calls) (sync : SyncManager) (syncRunning : Bool)

def step (s : CpipDaemon) : Action → Option CpipDaemon
  | .frame raw now later => if s.daemon.ws then some (s.receive env raw now later) else none
  | .elsewhere calls sync syncRunning =>
    some ⟨{ s.daemon with calls := calls }, sync, syncRunning, s.sent⟩

/-! ## When a handler returns -/

/-- A handler is registered for the method, and returns. -/
def Returns (method params : PyVal) (s : CpipDaemon) : Prop :=
  ∃ name handler, (name, handler) ∈ handlers env ∧ method = .str name ∧
    ∃ v, (handler params s).1 = .ok v

/-- The metadata file of the package that the parameters name, if they name one, is missing or a
file that can be removed. -/
def Invalidatable (params : PyVal) (tree : FileTree Bytes) : Prop :=
  ∃ items, params = .dict items ∧ ∀ metaPath, metaPath? env items = some metaPath →
    env.refuses metaPath = false ∧ ∃ tree', metaPath.unlink env.cwd tree = .ok tree'

/-- The call names one of the three methods, and nothing stands in the way of it. -/
def Answerable (method params : PyVal) (s : CpipDaemon) : Prop :=
  method = .str "cache.invalidate" ∧ Invalidatable env params s.sync.cache.tree ∨
    method = .str "sync.trigger" ∧ SyncManager.Recordable env.toSyncEnv s.sync.cache.tree ∨
    method = .str "status"

variable {env}

theorem handleCacheInvalidate_isOk_iff {items : List (PyKey × PyVal)} {s : CacheManager} :
    (∃ v, (handleCacheInvalidate env.toCacheDisk items s).1 = .ok v) ↔
      ∀ metaPath, metaPath? env items = some metaPath →
        ∃ tree', metaPath.unlink env.cwd s.tree = .ok tree' := by
  unfold handleCacheInvalidate metaPath?
  dsimp only
  split_ifs
  · simp only [Option.some.injEq, forall_eq']
    cases PyPath.unlink env.cwd s.tree (CacheManager.metaFile env.toCacheEnv
        (env.py.toStr ((PyVal.getStr "package" items).getD (.str "")))) with
    | error e => simp
    | ok tree => simp
  · simp

theorem cacheInvalidate_isOk_iff {params : PyVal} {s : CpipDaemon} :
    (∃ v, (cacheInvalidate env params s).1 = .ok v) ↔
      Invalidatable env params s.sync.cache.tree := by
  cases params with
  | dict items =>
    simp only [Invalidatable, PyVal.dict.injEq, exists_eq_left', imp_and, forall_and]
    rw [← handleCacheInvalidate_isOk_iff]
    unfold cacheInvalidate
    dsimp only
    cases metaPath? env items with
    | none => simp
    | some metaPath => cases refused : env.refuses metaPath <;> simp [refused]
  | _ => simp [cacheInvalidate, Invalidatable]

theorem handleSyncTrigger_isOk_iff {params : PyVal} {s : CpipDaemon} :
    (∃ v, (handleSyncTrigger env params s).1 = .ok v) ↔
      SyncManager.Recordable env.toSyncEnv s.sync.cache.tree := by
  have synced : (SyncManager.doSync env.toSyncEnv s.sync).1 = (syncNow env s).1 := rfl
  rw [← SyncManager.isOk_doSync_iff, synced]
  unfold handleSyncTrigger
  rw [Proc.bind_apply]
  rcases syncNow env s with ⟨_ | _, s'⟩
  · simp
  · simp

theorem returns_iff {method params : PyVal} {s : CpipDaemon} :
    Returns env method params s ↔ Answerable env method params s := by
  unfold Returns Answerable handlers
  simp only [List.mem_cons, Prod.mk.injEq, List.not_mem_nil, or_false]
  constructor
  · rintro ⟨name, handler, ⟨rfl, rfl⟩ | ⟨rfl, rfl⟩ | ⟨rfl, rfl⟩, rfl, ok⟩
    · exact .inl ⟨rfl, cacheInvalidate_isOk_iff.1 ok⟩
    · exact .inr (.inl ⟨rfl, handleSyncTrigger_isOk_iff.1 ok⟩)
    · exact .inr (.inr rfl)
  · rintro (⟨rfl, ok⟩ | ⟨rfl, ok⟩ | rfl)
    · exact ⟨_, _, .inl ⟨rfl, rfl⟩, rfl, cacheInvalidate_isOk_iff.2 ok⟩
    · exact ⟨_, _, .inr (.inl ⟨rfl, rfl⟩), rfl, handleSyncTrigger_isOk_iff.2 ok⟩
    · exact ⟨_, _, .inr (.inr ⟨rfl, rfl⟩), rfl, _, rfl⟩

/-! ## What is sent -/

/-- The text is a RESULT or an ERROR. -/
def isReply (t : JsonText) : Bool :=
  (Frame.json t).type? = some .result ∨ (Frame.json t).type? = some .error

/-- The replies among the texts that were sent. -/
def replies (s : CpipDaemon) : List JsonText := s.sent.filter isReply

theorem replies_of_sent {s s' : CpipDaemon} {t : JsonText} (sent : s'.sent = s.sent ++ [t]) :
    s'.replies = if isReply t then s.replies ++ [t] else s.replies := by
  unfold replies
  rw [sent, List.filter_append]
  split_ifs with h <;> simp [h]

section Sent

variable {sent : List JsonText} {daemon : Daemon}

/-- No handler sends anything. -/
theorem keeps_dispatch (method params : PyVal) :
    Proc.Keeps (fun s : CpipDaemon => s.sent = sent ∧ s.daemon = daemon)
      (dispatch env method params) := by
  unfold dispatch
  split
  · exact Proc.keeps_raise _
  · split
    · next name handler found =>
      have registered := List.mem_of_find?_eq_some found
      simp only [handlers, List.mem_cons, Prod.mk.injEq, List.not_mem_nil, or_false] at registered
      rcases registered with ⟨-, rfl⟩ | ⟨-, rfl⟩ | ⟨-, rfl⟩
      · intro s h
        unfold cacheInvalidate
        cases params with
        | dict items =>
          dsimp only
          split_ifs
          · exact h
          · exact h
        | _ => exact h
      · exact Proc.Keeps.bind (fun s h => h) fun _ => Proc.keeps_pure _
      · exact fun s h => h
    · exact Proc.keeps_pure _

/-- What can be encoded is sent. -/
theorem sent_reply {s : CpipDaemon} (open_ : s.daemon.ws = true) (now : ℚ)
    (msg : Ambient → RPCMessage) :
    (∃ t, (msg (s.ambient env now)).toJson env.py = .ok t ∧
      (reply env now msg s).2.sent = s.sent ++ [t]) ∨
    (∃ e, (msg (s.ambient env now)).toJson env.py = .error e) ∧
      (reply env now msg s).2.sent = s.sent := by
  unfold reply send
  rw [if_pos open_]
  cases (msg (s.ambient env now)).toJson env.py with
  | ok t => exact .inl ⟨t, rfl, rfl⟩
  | error e => exact .inr ⟨⟨e, rfl⟩, rfl⟩

end Sent

/-- What a handler returns can be written in JSON. -/
theorem isJson_of_returned {method params v : PyVal} {s s' : CpipDaemon}
    (ran : dispatch env method params s = (.ok v, s')) : v.IsJson := by
  have pairs (items : List (PyKey × PyVal)) (names : ∀ k ∈ items.map Prod.fst, ∃ s, k = .str s)
      (nodup : (items.map Prod.fst).Nodup) (json : ∀ e ∈ items, e.2.IsJson) :
      (PyVal.dict items).IsJson :=
    (PyVal.everywhere_dict_iff _).2 ⟨⟨names, nodup⟩, json⟩
  have status (text : String) : (PyVal.dict [(.str "status", .str text)]).IsJson :=
    pairs _ (by simp) (by simp) (by simp [PyVal.IsJson, PyVal.Everywhere, PyVal.IsJsonNode])
  unfold dispatch at ran
  cases hash : method.hash? with
  | none =>
    rw [hash] at ran
    cases ran
  | some key =>
    rw [hash] at ran
    dsimp only at ran
    cases found : (handlers env).find? fun h => key = .str h.1 with
    | none =>
      rw [found] at ran
      rw [← Proc.eq_of_pure_eq_ok ran]
      exact pairs _ (by simp) (by simp) (by
        simp [PyVal.IsJson, PyVal.Everywhere, PyVal.IsJsonNode])
    | some h =>
      rw [found] at ran
      have registered := List.mem_of_find?_eq_some found
      simp only [handlers, List.mem_cons, List.not_mem_nil, or_false] at registered
      rcases registered with rfl | rfl | rfl
      · have ran : cacheInvalidate env params s = (.ok v, s') := ran
        unfold cacheInvalidate at ran
        cases params with
        | dict items =>
          dsimp only at ran
          split_ifs at ran
          · cases ran
          · have result := (Prod.mk.inj ran).1
            unfold handleCacheInvalidate at result
            dsimp only at result
            split_ifs at result
            · split at result
              · cases result
              · rw [← Except.ok.inj result]
                exact status "ok"
            · rw [← Except.ok.inj result]
              exact status "ok"
        | _ => cases ran
      · obtain ⟨_, _, -, last⟩ := Proc.exists_of_bind_eq_ok ran
        rw [← Proc.eq_of_pure_eq_ok last]
        exact pairs _ (by simp) (by simp) (by
          simp [PyVal.IsJson, PyVal.Everywhere, PyVal.IsJsonNode])
      · rw [← Except.ok.inj (Prod.mk.inj ran).1]
        exact pairs _ (by simp) (by simp) (by
          simp [PyVal.IsJson, PyVal.Everywhere, PyVal.IsJsonNode])

/-- A registered handler is what the method is dispatched to. -/
theorem exists_dispatch_of_returns {method params : PyVal} {s : CpipDaemon}
    (h : Returns env method params s) : ∃ v s', dispatch env method params s = (.ok v, s') := by
  obtain ⟨name, handler, registered, rfl, v, ran⟩ := h
  have hash : (PyVal.str name).hash? = some (.str name) := PyVal.hash?_eq_str_iff.2 rfl
  have dispatched : dispatch env (.str name) params = handler params := by
    unfold dispatch
    rw [hash]
    simp only [handlers, List.mem_cons, Prod.mk.injEq, List.not_mem_nil, or_false] at registered
    rcases registered with ⟨rfl, rfl⟩ | ⟨rfl, rfl⟩ | ⟨rfl, rfl⟩
    · rfl
    · rfl
    · rfl
  rw [dispatched]
  exact ⟨v, _, Prod.ext ran rfl⟩

/-! ## Every call gets a reply -/

/-- What is asked of a step: a CALL gets one reply, which has its id and the type that the outcome
of its handler asks for, and no other frame gets a reply. -/
def Answered (env : DaemonEnv) (s : CpipDaemon) : Action → Prop
  | .frame raw now later =>
    match RPCMessage.fromJson (s.ambient env now) raw with
    | .error _ => (s.receive env raw now later).replies = s.replies
    | .ok msg =>
      if msg.type = .call then
        ∃ t, (s.receive env raw now later).replies = s.replies ++ [t] ∧
          (Frame.json t).field "id" = some msg.id ∧
          (Returns env (msg.method.or (.str "")) msg.params (s.take raw) →
            (Frame.json t).type? = some .result) ∧
          (¬ Returns env (msg.method.or (.str "")) msg.params (s.take raw) →
            (Frame.json t).type? = some .error)
      else (s.receive env raw now later).replies = s.replies
  | .elsewhere .. => True

/-- A CALL is one that its handler can answer. -/
def Manageable (env : DaemonEnv) (s : CpipDaemon) : Action → Prop
  | .frame raw now _ => ∀ msg, RPCMessage.fromJson (s.ambient env now) raw = .ok msg →
      msg.type = .call → Answerable env (msg.method.or (.str "")) msg.params s
  | .elsewhere .. => True

/-- What a CALL with a handler that returns is sent. -/
theorem exists_result {s : CpipDaemon} (connected : s.daemon.ws = true) {raw : Frame} {now : ℚ}
    {msg : RPCMessage} (decoded : RPCMessage.fromJson (s.ambient env now) raw = .ok msg)
    (call : msg.type = .call) {v : PyVal} {s' : CpipDaemon}
    (ran : dispatch env (msg.method.or (.str "")) msg.params (s.take raw) = (.ok v, s'))
    (later : ℚ) : ∃ t, (s.receive env raw now later).replies = s.replies ++ [t] ∧
      (Frame.json t).field "id" = some msg.id ∧ (Frame.json t).type? = some .result := by
  have kept : s'.sent = s.sent ∧ s'.daemon = (s.take raw).daemon := by
    have kept := @keeps_dispatch env s.sent (s.take raw).daemon (msg.method.or (.str ""))
      msg.params (s.take raw) ⟨rfl, rfl⟩
    rwa [ran] at kept
  obtain ⟨same, daemon⟩ := kept
  have received : s.receive env raw now later =
      (reply env later (fun amb => makeResult amb msg.id v) s').2 := by
    rw [receive, decoded]
    dsimp only
    unfold handleMessage
    rw [call]
    dsimp only
    rw [Proc.bind_of_ok ran]
  have truthy : msg.id.truthy = true := Frame.truthy_id decoded (env.ids.nonempty _)
  have id (amb : Ambient) : (makeResult amb msg.id v).id = msg.id := if_pos truthy
  have json : msg.id.IsJson := Frame.isJson_id decoded
  have encodable (amb : Ambient) : ∃ t, (makeResult amb msg.id v).toJson env.py = .ok t := by
    refine RPCMessage.toJson_isOk env.py fun x hx => ?_
    simp only [List.mem_cons, List.not_mem_nil, or_false] at hx
    rcases hx with rfl | rfl | rfl | rfl | rfl | rfl
    · rw [id]
      exact (env.py.loads_dumps json).imp fun _ h => h.1
    · exact ⟨_, rfl⟩
    · exact ⟨_, rfl⟩
    · exact (env.py.loads_dumps (isJson_of_returned ran)).imp fun _ h => h.1
    · exact ⟨_, rfl⟩
    · exact ⟨_, rfl⟩
  have ws : s'.daemon.ws = true := by
    rw [daemon]
    exact connected
  rcases sent_reply ws later (fun amb => makeResult amb msg.id v) with
    ⟨t, encoded, sent⟩ | ⟨⟨e, failed⟩, -⟩
  · have type : (Frame.json t).type? = some .result := Frame.type?_of_toJson encoded
    rw [← received, same] at sent
    refine ⟨t, ?_, ?_, type⟩
    · rw [replies_of_sent sent]
      simp [isReply, type]
    · have field := RPCMessage.field_id_of_toJson env.py encoded (by rw [id]; exact json)
      rwa [id] at field
  · obtain ⟨t, encoded⟩ := encodable (s'.ambient env later)
    rw [encoded] at failed
    cases failed

/-- The only replies that are ever sent are RESULTs. -/
theorem sent_call {s : CpipDaemon} (connected : s.daemon.ws = true) {raw : Frame} {now : ℚ}
    {msg : RPCMessage} (decoded : RPCMessage.fromJson (s.ambient env now) raw = .ok msg)
    (call : msg.type = .call) (later : ℚ) :
    (s.receive env raw now later).sent = s.sent ∨ ∃ t,
      (s.receive env raw now later).sent = s.sent ++ [t] ∧
        (Frame.json t).type? = some .result := by
  have kept := @keeps_dispatch env s.sent (s.take raw).daemon (msg.method.or (.str ""))
    msg.params (s.take raw) ⟨rfl, rfl⟩
  rw [receive, decoded]
  dsimp only
  unfold handleMessage
  rw [call]
  dsimp only
  cases ran : dispatch env (msg.method.or (.str "")) msg.params (s.take raw) with
  | mk result s' =>
    rw [ran] at kept
    obtain ⟨same, daemon⟩ := kept
    cases result with
    | error e =>
      rw [Proc.bind_of_error ran]
      exact .inl same
    | ok v =>
      rw [Proc.bind_of_ok ran]
      have ws : s'.daemon.ws = true := by
        rw [daemon]
        exact connected
      rcases sent_reply ws later (fun amb => makeResult amb msg.id v) with
        ⟨t, encoded, sent⟩ | ⟨-, sent⟩
      · exact .inr ⟨t, sent.trans (by rw [same]), Frame.type?_of_toJson encoded⟩
      · exact .inl (sent.trans same)

/-- A frame that is no CALL gets no reply. -/
theorem replies_of_not_call {s : CpipDaemon} (connected : s.daemon.ws = true) {raw : Frame}
    {now : ℚ} {msg : RPCMessage} (decoded : RPCMessage.fromJson (s.ambient env now) raw = .ok msg)
    (other : msg.type ≠ .call) (later : ℚ) :
    (s.receive env raw now later).replies = s.replies := by
  rw [receive, decoded]
  dsimp only
  cases type : msg.type with
  | call => exact absurd type other
  | heartbeat =>
    unfold handleMessage
    rw [type]
    dsimp only
    rcases @sent_reply env (s.take raw) connected later
      (fun amb => makeHeartbeatAck amb msg.id) with ⟨t, encoded, sent⟩ | ⟨-, sent⟩
    · have ack : (Frame.json t).type? = some .heartbeatAck := Frame.type?_of_toJson encoded
      rw [replies_of_sent sent, if_neg (by simp [isReply, ack])]
      rfl
    · exact congrArg (List.filter isReply) sent
  | _ =>
    unfold handleMessage
    rw [type]
    rfl

theorem answered_iff {s : CpipDaemon} (connected : s.daemon.ws = true) (a : Action) :
    Answered env s a ↔ Manageable env s a := by
  cases a with
  | elsewhere calls sync syncRunning => exact Iff.rfl
  | frame raw now later =>
    unfold Answered Manageable
    cases decoded : RPCMessage.fromJson (s.ambient env now) raw with
    | error e =>
      have same : (s.receive env raw now later).replies = s.replies := by
        rw [receive, decoded]
        rfl
      simp [decoded, same]
    | ok msg =>
      simp only [decoded, Except.ok.injEq, forall_eq']
      by_cases call : msg.type = .call
      · rw [if_pos call]
        simp only [call, forall_const]
        have answerable : Answerable env (msg.method.or (.str "")) msg.params s ↔
            Returns env (msg.method.or (.str "")) msg.params (s.take raw) := by
          show Answerable env _ _ (s.take raw) ↔ _
          exact returns_iff.symm
        rw [answerable]
        constructor
        · rintro ⟨t, replied, -, -, refused⟩
          by_contra fails
          rcases sent_call connected decoded call later with same | ⟨t', sent, type⟩
          · unfold replies at replied
            rw [same] at replied
            simp at replied
          · rw [replies_of_sent sent, if_pos (by simp [isReply, type])] at replied
            have same := List.append_cancel_left replied
            rw [List.singleton_inj] at same
            rw [same, refused fails] at type
            cases type
        · intro returned
          obtain ⟨v, s', ran⟩ := exists_dispatch_of_returns returned
          obtain ⟨t, replied, id, type⟩ := exists_result connected decoded call ran later
          exact ⟨t, replied, id, fun _ => type, fun fails => absurd returned fails⟩
      · rw [if_neg call]
        simp [call, replies_of_not_call connected decoded call later]

/-! ## Runs -/

theorem keeps_ws_reply (connected : Bool) (now : ℚ) (msg : Ambient → RPCMessage) :
    Proc.Keeps (fun s : CpipDaemon => s.daemon.ws = connected) (reply env now msg) := by
  intro s h
  unfold reply send
  split_ifs
  · split
    · exact h
    · exact h
  · exact h

theorem keeps_ws_handleMessage (connected : Bool) (msg : RPCMessage) (now : ℚ) :
    Proc.Keeps (fun s : CpipDaemon => s.daemon.ws = connected) (handleMessage env msg now) := by
  have dispatched : Proc.Keeps (fun s : CpipDaemon => s.daemon.ws = connected)
      (dispatch env (msg.method.or (.str "")) msg.params) := fun s h =>
    (congrArg Daemon.ws
      (keeps_dispatch (msg.method.or (.str "")) msg.params s ⟨rfl, rfl⟩).2).trans h
  unfold handleMessage
  cases msg.type with
  | heartbeat => exact keeps_ws_reply connected now _
  | call => exact dispatched.bind fun _ => keeps_ws_reply connected now _
  | _ => exact fun s h => h

theorem ws_receive {s : CpipDaemon} (raw : Frame) (now later : ℚ) :
    (s.receive env raw now later).daemon.ws = s.daemon.ws := by
  unfold receive
  split
  · rfl
  · next msg decoded => exact keeps_ws_handleMessage s.daemon.ws msg later (s.take raw) rfl

theorem exists_step {s : CpipDaemon} (connected : s.daemon.ws = true) (a : Action) :
    ∃ s', step env s a = some s' ∧ s'.daemon.ws = true := by
  cases a with
  | frame raw now later => exact ⟨_, if_pos connected, (ws_receive raw now later).trans connected⟩
  | elsewhere calls sync syncRunning => exact ⟨_, rfl, connected⟩

/-- On an open connection every frame is handled, whatever the frames before it did, and every CALL
gets the reply that it asks for exactly when every CALL is one that its handler can answer. -/
theorem calls_answered_iff (env : DaemonEnv) (s : CpipDaemon) (connected : s.daemon.ws = true)
    (actions : List Action) :
    (∃ t, Machine.run (step env) s actions = some t) ∧
      (Machine.Along (step env) (Answered env) s actions ↔
        Machine.Along (step env) (Manageable env) s actions) := by
  induction actions generalizing s with
  | nil => exact ⟨⟨s, rfl⟩, Iff.rfl⟩
  | cons a rest ih =>
    obtain ⟨s', next, connected'⟩ := @exists_step env s connected a
    obtain ⟨⟨t, ran⟩, runs⟩ := ih s' connected'
    refine ⟨⟨t, (Machine.run_cons_eq_some _).2 ⟨s', next, ran⟩⟩, ?_⟩
    refine and_congr (answered_iff connected a) ?_
    rw [next]
    simpa using runs

/-- A daemon with a new cache. -/
def sampleEnv : DaemonEnv where
  toSyncEnv := SyncManager.sampleSyncEnv ∅
  ids := tallyIds
  refuses _ := false

/-- It is connected. -/
def sample : CpipDaemon := ⟨⟨true, .init⟩, SyncManager.sampleSync, true, []⟩

/-- A CALL of a method without parameters. -/
def callFrame (id method : String) : Frame :=
  .json (.obj [("type", .str "rpc.call"), ("id", .str id), ("method", .str method)])

theorem method_callFrame {amb : Ambient} {id method : String} {msg : RPCMessage}
    (decoded : RPCMessage.fromJson amb (callFrame id method) = .ok msg) :
    msg.method = .str method := by
  obtain ⟨type, -, rfl⟩ := Frame.fromJson_eq_ok_iff.1 decoded
  rfl

/-- The status is asked for twice, with a heartbeat between. -/
theorem calls_answered_iff_status :
    Machine.Along (step sampleEnv) (Answered sampleEnv) sample
      [.frame (callFrame "7" "status") 0 0,
        .frame (.json (.obj [("type", .str "rpc.heartbeat")])) 1 1,
        .frame (callFrame "8" "status") 2 2] := by
  refine (calls_answered_iff sampleEnv sample rfl _).2.2 ?_
  have status (id : String) (now later : ℚ) (s : CpipDaemon) :
      Manageable sampleEnv s (.frame (callFrame id "status") now later) := by
    intro msg decoded _
    rw [method_callFrame decoded]
    exact .inr (.inr rfl)
  refine ⟨status _ _ _ _, fun _ _ => ⟨fun msg decoded call => ?_, fun _ _ => ⟨status _ _ _ _,
    fun _ _ => trivial⟩⟩⟩
  obtain ⟨type, htype, rfl⟩ := Frame.fromJson_eq_ok_iff.1 decoded
  obtain rfl := Option.some.inj htype
  cases call

/-- A method that nobody knows gets no ERROR. -/
theorem unknown_method_not_refused :
    ¬ ∀ (env : DaemonEnv) (s : CpipDaemon), s.daemon.ws = true → ∀ actions : List Action,
      Machine.Along (step env) (Answered env) s actions := by
  intro claim
  have answered := (claim sampleEnv sample rfl [.frame (callFrame "7" "shutdown") 0 0]).1
  rw [answered_iff rfl] at answered
  obtain ⟨msg, decoded⟩ : ∃ msg, RPCMessage.fromJson (sample.ambient sampleEnv 0)
      (callFrame "7" "shutdown") = .ok msg := ⟨_, rfl⟩
  have call : msg.type = .call := by
    obtain ⟨type, htype, rfl⟩ := Frame.fromJson_eq_ok_iff.1 decoded
    exact (Option.some.inj htype).symm
  have answerable := answered msg decoded call
  rw [method_callFrame decoded] at answerable
  have method : (PyVal.str "shutdown").or (.str "") = .str "shutdown" := PyVal.str_or (by decide) _
  rw [method] at answerable
  rcases answerable with ⟨same, -⟩ | ⟨same, -⟩ | same
  · simp at same
  · simp at same
  · simp at same

end CpipDaemon

end Cpip
