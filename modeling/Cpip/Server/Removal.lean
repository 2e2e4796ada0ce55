import Cpip.Server.Registry

/-!
# Why connections are closed and unregistered

`disconnect` is told a device id, not a connection.  It does what its caller meant as long as no
other connection was registered under the id after the one that the caller has in hand (`Fit`);
otherwise it removes a connection that replaced that one (`replacement_removed`).

The causes are stated on the state in which the step is taken and on the states before it, so the
statements are about a server with its past (`Chronicle`).
-/

namespace Cpip

open ConnectionHub (ConnectPc DisconnectPc SendPc Broadcast HeartbeatPc Calm Connects Disconnects
  Sound Finds)

/-! ## The last registration -/

/-- `conn` was registered after `held`. -/
def RegisteredAfter (log : List Event) (held conn : DeviceConnection) : Prop :=
  ∃ before after, log = before ++ .registers held :: after ∧ .registers conn ∈ after

theorem RegisteredAfter.append {log : List Event} {held conn : DeviceConnection}
    (h : RegisteredAfter log held conn) (events : List Event) :
    RegisteredAfter (log ++ events) held conn := by
  obtain ⟨before, after, rfl, later⟩ := h
  exact ⟨before, after ++ events, by simp, List.mem_append_left _ later⟩

theorem registeredAfter_append {log events : List Event} {held conn : DeviceConnection}
    (earlier : .registers held ∈ log) (later : .registers conn ∈ events) :
    RegisteredAfter (log ++ events) held conn := by
  obtain ⟨before, after, rfl⟩ := List.append_of_mem earlier
  exact ⟨before, after ++ events, by simp, List.mem_append_right _ later⟩

namespace ConnectionHub

/-- The connection stored under a key is, of those whose id has the key, the last that was
registered. -/
def Latest (hub : ConnectionHub) : Prop :=
  ∀ key conn, hub.connections.get? key = some conn → ∀ held, .registers held ∈ hub.log →
    held.deviceId.hash? = some key → conn = held ∨ RegisteredAfter hub.log held conn

/-- Nothing new is stored or registered. -/
theorem Latest.of_sub {hub hub' : ConnectionHub} (latest : Latest hub) {events : List Event}
    (sub : ∀ key conn, hub'.connections.get? key = some conn →
      hub.connections.get? key = some conn)
    (hlog : hub'.log = hub.log ++ events) (plain : ∀ conn, .registers conn ∉ events) :
    Latest hub' := by
  intro key conn stored held registered hash
  rw [hlog] at registered ⊢
  have before := (List.mem_append.1 registered).resolve_right (plain held)
  exact (latest key conn (sub key conn stored) held before hash).imp id fun h => h.append events

theorem latest_register {hub : ConnectionHub} {key : PyKey} {conn : DeviceConnection}
    (hash : conn.deviceId.hash? = some key) (latest : Latest hub) :
    Latest (hub.register key conn) := by
  intro k c stored held registered hk
  simp only [register, Dict.get?_set] at stored
  rcases registers_mem_register.1 registered with before | rfl
  · split at stored
    · cases stored
      exact .inr (registeredAfter_append before (by simp))
    · exact (latest k c stored held before hk).imp id fun h => h.append _
  · rw [if_pos (Option.some.inj (hash.symm.trans hk))] at stored
    exact .inl (Option.some.inj stored).symm

end ConnectionHub

theorem Effect.latest {hub hub' : ConnectionHub} {t : ℕ} {task : Task}
    (effect : Effect hub t task hub') (valid : task.Valid hub t) (sound : Sound hub)
    (latest : hub.Latest) : hub'.Latest := by
  have same {events : List Event} (plain : ∀ conn, Event.registers conn ∉ events)
      (kept : hub'.connections = hub.connections) (log : hub'.log = hub.log ++ events) :
      hub'.Latest := latest.of_sub (fun _ _ h => kept ▸ h) log plain
  cases effect with
  | calm calm =>
    obtain ⟨events, hlog, traffic⟩ := calm.log
    exact same (fun conn h => traffic _ h) calm.connections hlog
  | connects before step =>
    have pending := fun conn => valid.pending _ _ conn before
    cases step with
    | refused e => exact latest
    | accepted => exact latest
    | unhashable conn answer e hash => exact latest
    | displaces answer free hash stored =>
      exact @same [_] (by simp) rfl rfl
    | registers answer free hash stored =>
      have id := (pending _ rfl).deviceId
      exact ConnectionHub.latest_register (id ▸ hash) latest
    | replaces answer hash =>
      have id := (pending _ rfl).deviceId
      have closed (u : ℕ) (answer : Answer) : (hub.closed u answer).Latest := by
        simpa [ConnectionHub.Latest] using latest
      exact ConnectionHub.latest_register (id ▸ hash) (closed _ _)
  | disconnects before step =>
    obtain ⟨-, grows, sub⟩ := step.keeps sound
    cases step with
    | absent answer r stored => exact latest
    | removes answer free hash stored => exact latest.of_sub sub rfl (by simp)
    | closes conn answer => exact @ConnectionHub.Latest.of_sub _ _ latest [] sub (by simp) (by simp)

/-! ## A server with its past -/

/-- The server, and the states it went through before. -/
structure Chronicle where
  world : World
  past : List World

namespace Chronicle

def start : Chronicle := ⟨.init, []⟩

def step (srv : Server) (s : Chronicle) (a : Action) : Option Chronicle :=
  (World.step srv s.world a).map fun w => ⟨w, s.past ++ [s.world]⟩

variable {srv : Server}

theorem step_eq_some_iff {s s' : Chronicle} {a : Action} :
    step srv s a = some s' ↔
      World.step srv s.world a = some s'.world ∧ s'.past = s.past ++ [s.world] := by
  obtain ⟨w', past'⟩ := s'
  simp only [step, Option.map_eq_some_iff, Chronicle.mk.injEq]
  constructor
  · rintro ⟨w, hw, rfl, rfl⟩
    exact ⟨hw, rfl⟩
  · rintro ⟨hw, hpast⟩
    exact ⟨w', hw, rfl, hpast.symm⟩

/-- Keeping the past changes no run. -/
theorem run_world (s : Chronicle) (as : List Action) :
    (Machine.run (step srv) s as).map world = Machine.run (World.step srv) s.world as := by
  induction as generalizing s with
  | nil => rfl
  | cons a as ih =>
    simp only [Machine.run, step]
    cases World.step srv s.world a with
    | none => rfl
    | some w => exact ih ⟨w, s.past ++ [s.world]⟩

end Chronicle

/-! ## Causes -/

/-- In an earlier state the pass of task `t` that began at `now` came to `conn`, whose last
heartbeat, at `last`, was more than three intervals old. -/
def FoundTooOld (past : List World) (t : ℕ) (conn : DeviceConnection)
    (now last interval : ℚ) : Prop :=
  ∃ w ∈ past, ∃ key rest dead,
    w.tasks t = some (.heartbeatLoop interval (.scanning now (key :: rest) dead)) ∧
    w.hub.connections.get? key = some conn ∧ w.hub.lastHeartbeat conn.ref = last ∧
    now - last > interval * 3

/-- In state `w`, after the states `past`, task `t` has this reason to remove `conn`: it is the
handler of that very socket and ends, or is about to register it anew; a send on that very socket
failed; or the pass of `t` found that very connection too old. -/
def Reason.Justifies (past : List World) (w : World) (t : ℕ) (conn : DeviceConnection) :
    Reason → Prop
  | .handlerEnded u => u = t ∧ conn.websocket = t ∧
    ∃ deviceId held, w.tasks t = some (.endpoint ⟨deviceId, .closing held .locking⟩)
  | .reRegistered u => u = t ∧ conn.websocket = t ∧ ∃ deviceId held params,
    w.tasks t = some (.endpoint ⟨deviceId, .running held (.disconnecting params .locking)⟩)
  | .sendFailed held => held.websocket = conn.websocket ∧ .sendFailed conn.websocket ∈ w.hub.log
  | .heartbeatTimeout held now last interval =>
    held = conn ∧ FoundTooOld past t conn now last interval

/-- The same for any cause: `conn` is stored, and task `t` is about to register a new connection of
its own socket, with the same id. -/
def Cause.Justifies (past : List World) (w : World) (t : ℕ) (conn : DeviceConnection) :
    Cause → Prop
  | .replacedBy new => .registers conn ∈ w.hub.log ∧ .registers new ∉ w.hub.log ∧
    new.websocket = t ∧ ∃ key, conn.deviceId.hash? = some key ∧ new.deviceId.hash? = some key
  | .disconnect reason => reason.Justifies past w t conn

def Event.Justified (past : List World) (w : World) (t : ℕ) : Event → Prop
  | closes conn cause | unregisters conn cause => cause.Justifies past w t conn
  | _ => True

/-- The task that an action starts or steps. -/
def Action.task : Action → ℕ
  | .start t _ | .step t _ => t

/-- Whatever the action closes or unregisters, it has a cause to. -/
def Chronicle.Justly (srv : Server) (s : Chronicle) (a : Action) : Prop :=
  ∀ w', World.step srv s.world a = some w' →
    ∀ e ∈ w'.hub.log.drop s.world.hub.log.length, e.Justified s.past s.world a.task

/-! ## What a task has in hand -/

namespace ConnectionHub

/-- `conn` was registered under the id. -/
def Held (hub : ConnectionHub) (deviceId : PyVal) (conn : DeviceConnection) : Prop :=
  .registers conn ∈ hub.log ∧ conn.deviceId.hash? = deviceId.hash?

theorem Stores.held {hub : ConnectionHub} {deviceId : PyVal} {conn : DeviceConnection}
    (stored : hub.Stores deviceId conn) (sound : Sound hub) : hub.Held deviceId conn := by
  obtain ⟨key, hash, stored⟩ := stored
  exact ⟨sound.registered key conn stored, (sound.keyed key conn stored).trans hash.symm⟩

theorem stores_ofKey {hub : ConnectionHub} {key : PyKey} {conn : DeviceConnection}
    (stored : hub.connections.get? key = some conn) (sound : Sound hub) :
    hub.Stores (.ofKey key) conn :=
  ⟨key, PyVal.hash?_ofKey (sound.keyed key conn stored), stored⟩

end ConnectionHub

/-- The connection that a reason names. -/
def Reason.conn? : Reason → Option DeviceConnection
  | .sendFailed conn | .heartbeatTimeout conn _ _ _ => some conn
  | .handlerEnded _ | .reRegistered _ => none

namespace Task

/-- The connection for which the task is in `disconnect`. -/
def held : Task → Option DeviceConnection
  | .endpoint ⟨_, .running conn _⟩ | .endpoint ⟨_, .closing conn _⟩ => some conn
  | .sendToDevice _ _ (.disconnecting conn _) => some conn
  | .broadcast ⟨_, _, _, some (_, .disconnecting conn _)⟩ => some conn
  | .heartbeatLoop _ (.disconnecting _ reason _ _) => reason.conn?
  | _ => none

end Task

/-- A `disconnect` for this reason may remove `conn`, though it was registered after `held`. -/
def Reason.Covers (held conn : DeviceConnection) : Reason → Prop
  | .heartbeatTimeout _ _ _ _ => False
  | _ => conn.websocket = held.websocket

/-- When the step is one in which a `disconnect` takes the lock, no connection of another socket,
and if it is for the age of a connection no other at all, was registered under the id after the one
that the task has in hand. -/
def World.Fit (w : World) : Action → Prop
  | .start _ _ => True
  | .step t _ => ∀ task deviceId reason held conn, w.tasks t = some task →
    task.disconnecting t = some (deviceId, reason, .locking) → task.held = some held →
    w.hub.lock = none → w.hub.Stores deviceId conn → conn ≠ held →
    RegisteredAfter w.hub.log held conn → reason.Covers held conn

section Knows

variable (past : List World) (hub : ConnectionHub) (t : ℕ)

/-- A send has a connection in hand that was registered under the id, and if it failed, then on
that socket. -/
def SendPc.Knows (deviceId : PyVal) : SendPc → Prop
  | .sending conn => hub.Held deviceId conn
  | .disconnecting conn _ => hub.Held deviceId conn ∧ .sendFailed conn.websocket ∈ hub.log

/-- What a pass found is true. -/
def Reason.Knows (key : PyKey) : Reason → Prop
  | .sendFailed conn => hub.Held (.ofKey key) conn ∧ .sendFailed conn.websocket ∈ hub.log
  | .heartbeatTimeout conn now last interval =>
    hub.Held (.ofKey key) conn ∧ FoundTooOld past t conn now last interval
  | .handlerEnded _ | .reRegistered _ => False

/-- What task `t` has in hand is true of the hub and of the states before. -/
def Task.Knows : Task → Prop
  | .endpoint self => ∀ conn, self.pc.conn? = some conn →
    conn.websocket = t ∧ hub.Held conn.deviceId conn
  | .sendToDevice deviceId _ pc => SendPc.Knows hub deviceId pc
  | .broadcast self => ∀ key pc, self.current = some (key, pc) → SendPc.Knows hub (.ofKey key) pc
  | .heartbeatLoop _ pc =>
    (∀ key conn, pc.current = some (key, conn) → hub.Held (.ofKey key) conn) ∧
      ∀ d ∈ pc.dead, d.2.Knows past hub t d.1
  | .done => True

end Knows

theorem ConnectionHub.Held.mono {hub hub' : ConnectionHub} {deviceId : PyVal}
    {conn : DeviceConnection} (held : hub.Held deviceId conn) (log : hub.log ⊆ hub'.log) :
    hub'.Held deviceId conn := ⟨log held.1, held.2⟩

theorem FoundTooOld.mono {past past' : List World} {t : ℕ} {conn : DeviceConnection}
    {now last interval : ℚ} (h : FoundTooOld past t conn now last interval)
    (sub : past ⊆ past') : FoundTooOld past' t conn now last interval := by
  obtain ⟨w, hw, rest⟩ := h
  exact ⟨w, sub hw, rest⟩

theorem SendPc.Knows.mono {hub hub' : ConnectionHub} {deviceId : PyVal} {pc : SendPc}
    (knows : SendPc.Knows hub deviceId pc) (log : hub.log ⊆ hub'.log) :
    SendPc.Knows hub' deviceId pc := by
  cases pc with
  | sending conn => exact ConnectionHub.Held.mono knows log
  | disconnecting conn pc => exact ⟨knows.1.mono log, log knows.2⟩

theorem Reason.Knows.mono {past past' : List World} {hub hub' : ConnectionHub} {t : ℕ}
    {key : PyKey} {reason : Reason} (knows : reason.Knows past hub t key)
    (sub : past ⊆ past') (log : hub.log ⊆ hub'.log) : reason.Knows past' hub' t key := by
  cases reason with
  | handlerEnded u => exact knows
  | reRegistered u => exact knows
  | sendFailed conn => exact ⟨knows.1.mono log, log knows.2⟩
  | heartbeatTimeout conn now last interval => exact ⟨knows.1.mono log, knows.2.mono sub⟩

theorem Task.Knows.mono {past past' : List World} {hub hub' : ConnectionHub} {t : ℕ} {task : Task}
    (knows : task.Knows past hub t) (sub : past ⊆ past') (log : hub.log ⊆ hub'.log) :
    task.Knows past' hub' t := by
  cases task with
  | endpoint self => exact fun conn has => (knows conn has).imp id fun held => held.mono log
  | sendToDevice deviceId message pc => exact SendPc.Knows.mono knows log
  | broadcast self => exact fun key pc same => (knows key pc same).mono log
  | heartbeatLoop interval pc =>
    exact ⟨fun key conn same => (knows.1 key conn same).mono log,
      fun d hd => (knows.2 d hd).mono sub log⟩
  | done => trivial

/-- What a task that is about to take the lock knows: a connection that it has in hand under the id,
and that its reason justifies removing this one, and which others besides. -/
theorem Task.Knows.justifies_iff {past : List World} {w : World} {t : ℕ} {task : Task}
    {deviceId : PyVal} {reason : Reason} (knows : task.Knows past w.hub t)
    (here : w.tasks t = some task)
    (locking : task.disconnecting t = some (deviceId, reason, .locking)) :
    ∃ held, task.held = some held ∧ w.hub.Held deviceId held ∧
      ∀ conn, reason.Justifies past w t conn ↔ conn = held ∨ reason.Covers held conn := by
  have sends {held : DeviceConnection} (failed : .sendFailed held.websocket ∈ w.hub.log)
      (conn : DeviceConnection) : (Reason.sendFailed held).Justifies past w t conn ↔
        conn = held ∨ (Reason.sendFailed held).Covers held conn := by
    constructor
    · exact fun h => .inr h.1.symm
    · rintro (rfl | same)
      · exact ⟨rfl, failed⟩
      · exact ⟨same.symm, same ▸ failed⟩
  unfold disconnecting at locking
  split at locking <;> cases locking
  · rename_i id held params
    obtain ⟨own, registered⟩ := knows held rfl
    refine ⟨held, rfl, registered, fun conn => ⟨fun h => .inr (h.2.1.trans own.symm), fun h => ?_⟩⟩
    have same : conn.websocket = t := by
      rcases h with rfl | same
      · exact own
      · exact same.trans own
    exact ⟨rfl, same, id, held, params, here⟩
  · rename_i id held
    obtain ⟨own, registered⟩ := knows held rfl
    refine ⟨held, rfl, registered, fun conn => ⟨fun h => .inr (h.2.1.trans own.symm), fun h => ?_⟩⟩
    have same : conn.websocket = t := by
      rcases h with rfl | same
      · exact own
      · exact same.trans own
    exact ⟨rfl, same, id, held, here⟩
  · exact ⟨_, rfl, knows.1, sends knows.2⟩
  · obtain ⟨registered, failed⟩ := knows _ _ rfl
    exact ⟨_, rfl, registered, sends failed⟩
  · rename_i interval key dead
    have found := knows.2 _ (List.mem_cons_self ..)
    cases reason with
    | handlerEnded u => exact found.elim
    | reRegistered u => exact found.elim
    | sendFailed held => exact ⟨held, rfl, found.1, sends found.2⟩
    | heartbeatTimeout held now last interval =>
      refine ⟨held, rfl, found.1, fun conn => ⟨fun h => .inl h.1.symm, ?_⟩⟩
      rintro (rfl | covers)
      · exact ⟨rfl, found.2⟩
      · exact covers.elim

/-! ## Steps of one task -/

namespace World

variable {srv : Server}

/-- A step that registers a connection for handler `t`. -/
theorem registered_of_connects {hub hub' : ConnectionHub} {t : ℕ} {deviceId metadata : PyVal}
    {now : ℚ} {pc : ConnectPc} {answer : Answer} {conn : DeviceConnection}
    (step : Connects hub t deviceId t metadata now pc answer hub' (.returned (.ok conn)))
    (sound : Sound hub)
    (pending : ∀ conn, pc.conn? = some conn → ConnectionHub.Pending hub t deviceId conn) :
    conn.websocket = t ∧ hub'.Held conn.deviceId conn := by
  obtain ⟨sound', -, own, key, -, stored⟩ := step.keeps sound pending
  refine ⟨own, sound'.registered key conn ?_, rfl⟩
  rw [stored, Dict.get?_set_self]

/-- The connection of a handler is the one it had, or was registered for it in the step. -/
theorem conn?_of_serves {s s' : Served} {t : ℕ} {input : Input} (h : Served.Serves s t input s')
    (sound : Sound s.hub) (valid : (Task.endpoint s.self).Valid s.hub t) {conn : DeviceConnection}
    (has : s'.self.pc.conn? = some conn) :
    s.self.pc.conn? = some conn ∨ conn.websocket = t ∧ s'.hub.Held conn.deviceId conn := by
  obtain ⟨hub, sessions, deviceId, pc⟩ := s
  cases h with
  | quiet before quiet =>
    rw [quiet.settled.conn_eq] at has
    exact .inl (before.conn_eq.trans has)
  | connects now before step => cases has
  | connected now before step =>
    dsimp only at before
    subst before
    cases has
    exact .inr (registered_of_connects step sound fun conn => valid.pending _ _ conn rfl)
  | failed now before step => cases has
  | disconnects before step | reconnects now before step | closes before step =>
    dsimp only at before
    subst before
    exact .inl has
  | disconnected before step after =>
    dsimp only at before
    subst before
    rcases after with rfl | rests
    · exact .inl has
    · rw [rests.settled.conn_eq] at has
      exact .inl has
  | reconnected now before step rests =>
    dsimp only at before
    subst before
    rw [rests.settled.conn_eq] at has
    cases has
    rw [rests.hub]
    exact .inr (registered_of_connects step sound fun conn => valid.pending _ _ conn rfl)
  | reconnectFailed now before step rests =>
    dsimp only at before
    subst before
    rw [rests.settled.conn_eq] at has
    exact .inl has
  | finishes before step => cases has

theorem knows_of_sends {hub hub' : ConnectionHub} {t : ℕ} {deviceId : PyVal} {pc pc' : SendPc}
    {answer : Answer} (h : ConnectionHub.Sends hub t deviceId pc answer hub' (.suspended pc'))
    (log : hub.log ⊆ hub'.log) (knows : SendPc.Knows hub deviceId pc) :
    SendPc.Knows hub' deviceId pc' := by
  cases h with
  | failed conn answer =>
    exact ⟨ConnectionHub.Held.mono knows log,
      List.mem_append_right _ (List.mem_singleton_self _)⟩
  | disconnects step => exact ⟨knows.1.mono log, log knows.2⟩

/-- What the task that takes the step has in hand after it. -/
theorem knows_of_runTask {past : List World} {w w' : World} {t : ℕ} {input : Input} {task : Task}
    (inv : w.Inv) (here : w.tasks t = some task) (log : w.hub.log ⊆ w'.hub.log)
    (h : w.runTask srv t input task = some w') (knows : task.Knows past w.hub t) :
    ∃ task', w'.tasks t = some task' ∧ task'.Knows (past ++ [w]) w'.hub t := by
  cases task with
  | endpoint self =>
    obtain ⟨s, hs, rfl⟩ := runTask_endpoint h
    refine ⟨.endpoint s.self, by rw [tasks_setTask, if_pos rfl], fun conn has => ?_⟩
    rcases conn?_of_serves (Served.serves_of_step hs) inv.sound (inv.valid t _ here) has with
      had | registered
    · exact (knows conn had).imp id fun held => held.mono log
    · exact registered
  | sendToDevice deviceId message pc =>
    obtain ⟨⟨hub, p⟩, hs, rfl⟩ := Option.map_eq_some_iff.1 h
    cases p with
    | returned r => exact ⟨.done, by rw [tasks_setTask, if_pos rfl], trivial⟩
    | suspended pc' =>
      refine ⟨.sendToDevice deviceId message pc', by rw [tasks_setTask, if_pos rfl], ?_⟩
      exact knows_of_sends (ConnectionHub.sends_of_step hs) log knows
  | broadcast self =>
    obtain ⟨⟨hub, p⟩, hs, rfl⟩ := Option.map_eq_some_iff.1 h
    cases p with
    | returned n => exact ⟨.done, by rw [tasks_setTask, if_pos rfl], trivial⟩
    | suspended b =>
      refine ⟨.broadcast b, by rw [tasks_setTask, if_pos rfl], fun key pc same => ?_⟩
      cases ConnectionHub.broadcasts_of_step hs with
      | turns current =>
        obtain ⟨conn, rfl, stored⟩ := current key pc same
        exact stored.held inv.sound
      | sends current step current' =>
        cases current'.symm.trans same
        exact knows_of_sends step log (knows _ _ current)
      | returns current step current' => cases current'.symm.trans same
  | heartbeatLoop interval pc =>
    obtain ⟨⟨hub, pc'⟩, hs, rfl⟩ := Option.map_eq_some_iff.1 h
    refine ⟨.heartbeatLoop interval pc', by rw [tasks_setTask, if_pos rfl], ?_⟩
    have kept : ∀ d ∈ pc.dead, d.2.Knows (past ++ [w]) hub t d.1 :=
      fun d hd => (knows.2 d hd).mono (List.subset_append_left ..) log
    cases ConnectionHub.beats_of_step hs with
    | calm answer calm dead current =>
      refine ⟨fun key conn same => ?_, fun d hd => ?_⟩
      · have stored := ConnectionHub.stores_ofKey (current key conn same) inv.sound
        exact (stored.held inv.sound).mono log
      · rcases dead d hd with hd | found
        · exact kept d hd
        · cases found with
          | tooOld stored late =>
            have held := (ConnectionHub.stores_ofKey stored inv.sound).held inv.sound
            exact ⟨held.mono log, w, by simp, _, _, _, here, stored, rfl, late⟩
          | failed logged => exact ⟨(knows.1 _ _ rfl).mono log, logged⟩
    | disconnects dead step => exact ⟨fun _ _ same => (by cases same), kept⟩
    | returns dead step =>
      exact ⟨fun _ _ same => (by cases same), fun d hd => kept d (List.mem_cons_of_mem _ hd)⟩
  | done => cases h

theorem knows_launch {hub : ConnectionHub} (sound : Sound hub) (past : List World) (t : ℕ)
    (call : Call) : (launch hub call).Knows past hub t := by
  cases call with
  | endpoint => exact fun conn has => by cases has
  | sendToDevice deviceId message =>
    unfold launch
    dsimp only
    split
    · rename_i hsend
      obtain ⟨conn, rfl, stored⟩ := ConnectionHub.sendToDevice_eq_suspended hsend
      exact stored.held sound
    · trivial
  | broadcast message => exact fun key pc same => by cases same
  | heartbeatLoop interval =>
    exact ⟨fun _ _ same => (by cases same), fun d hd => (by cases hd)⟩

/-- A task that is in `disconnect` takes a step of it. -/
theorem disconnects_of_runTask {w w' : World} {t : ℕ} {input : Input} {task : Task}
    {deviceId : PyVal} {reason : Reason} {pc : DisconnectPc}
    (here : task.disconnecting t = some (deviceId, reason, pc))
    (h : w.runTask srv t input task = some w') :
    ∃ p, Disconnects w.hub t deviceId reason pc input.answer w'.hub p := by
  unfold Task.disconnecting at here
  split at here <;> cases here
  · obtain ⟨s, hs, rfl⟩ := runTask_endpoint h
    simp only [Served.step, Served.loopStep] at hs
    split at hs <;> cases hs <;> rename_i hstep
    · exact ⟨_, ConnectionHub.disconnects_of_step hstep⟩
    · exact ⟨_, ConnectionHub.disconnects_of_step hstep⟩
    · rename_i hub e
      refine ⟨.returned (.error e), ?_⟩
      rw [setTask_hub]
      dsimp only
      rw [(Served.rests_internalError (.refl _) _).hub]
      exact ConnectionHub.disconnects_of_step hstep
  · obtain ⟨s, hs, rfl⟩ := runTask_endpoint h
    simp only [Served.step] at hs
    split at hs <;> cases hs <;> rename_i hstep
    · exact ⟨_, ConnectionHub.disconnects_of_step hstep⟩
    · exact ⟨_, ConnectionHub.disconnects_of_step hstep⟩
  · obtain ⟨⟨hub, p⟩, hs, rfl⟩ := Option.map_eq_some_iff.1 h
    cases ConnectionHub.sends_of_step hs with
    | disconnects step => exact ⟨_, step⟩
    | returns r step => exact ⟨_, step⟩
  · obtain ⟨⟨hub, p⟩, hs, rfl⟩ := Option.map_eq_some_iff.1 h
    simp only [ConnectionHub.broadcastStep] at hs
    split at hs <;> cases hs <;> rename_i hstep
    · cases ConnectionHub.sends_of_step hstep with
      | disconnects step => exact ⟨_, step⟩
    · cases ConnectionHub.sends_of_step hstep with
      | returns r step => exact ⟨_, step⟩
  · obtain ⟨⟨hub, pc'⟩, hs, rfl⟩ := Option.map_eq_some_iff.1 h
    simp only [ConnectionHub.heartbeatStep] at hs
    split at hs <;> cases hs <;> rename_i hstep
    · exact ⟨_, ConnectionHub.disconnects_of_step hstep⟩
    · exact ⟨_, ConnectionHub.disconnects_of_step hstep⟩

end World

/-! ## Runs -/

namespace Chronicle

variable {srv : Server}

/-- The registry is consistent, what it stores was registered last, and what the tasks have in hand
is true. -/
structure Inv (s : Chronicle) : Prop where
  world : s.world.Inv
  latest : s.world.hub.Latest
  knows : ∀ t task, s.world.tasks t = some task → task.Knows s.past s.world.hub t

theorem inv_start : start.Inv where
  world := World.inv_init
  latest _ _ stored := by cases stored
  knows _ _ here := by cases here

theorem inv_step (s : Chronicle) (a : Action) (s' : Chronicle) (inv : s.Inv)
    (hs : step srv s a = some s') : s'.Inv := by
  obtain ⟨w', past'⟩ := s'
  obtain ⟨hs, rfl⟩ := step_eq_some_iff.1 hs
  have world := World.inv_step _ a _ inv.world hs
  cases a with
  | start t call =>
    simp only [World.step] at hs
    split at hs
    · cases hs
      refine ⟨world, inv.latest, fun u task here => ?_⟩
      dsimp only at here
      rw [World.tasks_setTask] at here
      split at here
      · cases here
        exact World.knows_launch inv.world.sound _ _ _
      · exact (inv.knows u task here).mono (List.subset_append_left ..) (List.Subset.refl _)
    · cases hs
  | step t input =>
    obtain ⟨task, here, hs⟩ := Option.bind_eq_some_iff.1 hs
    have effect := World.effect_of_runTask hs
    have valid := inv.world.valid t task here
    obtain ⟨events, hlog, -⟩ := (effect.keeps inv.world.sound valid).2.log
    have log : s.world.hub.log ⊆ w'.hub.log := hlog ▸ List.subset_append_left ..
    obtain ⟨task', here', knows⟩ :=
      World.knows_of_runTask inv.world here log hs (inv.knows t task here)
    refine ⟨world, effect.latest valid inv.world.sound inv.latest, fun u other hu => ?_⟩
    by_cases same : u = t
    · subst same
      cases here'.symm.trans hu
      exact knows
    · have before := (World.tasks_of_runTask hs same).symm.trans hu
      exact (inv.knows u other before).mono (List.subset_append_left ..) log

/-- A step of `connect` removes a connection only to replace it. -/
theorem justified_of_connects {past : List World} {w : World} {hub' : ConnectionHub} {t : ℕ}
    {deviceId metadata : PyVal} {now : ℚ} {pc : ConnectPc} {answer : Answer}
    {p : Progress ConnectPc (Except PyExc DeviceConnection)}
    (step : Connects w.hub t deviceId t metadata now pc answer hub' p) (sound : Sound w.hub)
    (pending : ∀ conn, pc.conn? = some conn → ConnectionHub.Pending w.hub t deviceId conn) :
    ∀ e ∈ hub'.log.drop w.hub.log.length, e.Justified past w t := by
  have replaces {conn old : DeviceConnection} {key : PyKey} (here : pc.conn? = some conn)
      (hash : deviceId.hash? = some key) (stored : w.hub.connections.get? key = some old) :
      (Cause.replacedBy conn).Justifies past w t old := by
    have own := pending conn here
    exact ⟨sound.registered key old stored, own.fresh, own.websocket, key,
      sound.keyed key old stored, by rw [own.deviceId, hash]⟩
  have registers {conn : DeviceConnection} {key : PyKey} (here : pc.conn? = some conn)
      (hash : deviceId.hash? = some key) :
      ∀ e ∈ (w.hub.register key conn).log.drop w.hub.log.length, e.Justified past w t := by
    intro e he
    simp only [ConnectionHub.register, ConnectionHub.record, List.drop_left] at he
    rcases List.mem_append.1 he with he | he
    · obtain ⟨old, stored, rfl⟩ := List.mem_map.1 he
      exact replaces here hash (Option.mem_toList.1 stored)
    · obtain rfl := List.mem_singleton.1 he
      trivial
  cases step with
  | refused e | unhashable conn answer e hash => simp
  | accepted => simp [ConnectionHub.accepted, ConnectionHub.setSocket]
  | displaces answer free hash stored =>
    intro e he
    simp only [ConnectionHub.record, List.drop_left] at he
    obtain rfl := List.mem_singleton.1 he
    exact replaces rfl hash stored
  | registers answer free hash stored => exact registers rfl hash
  | replaces answer hash =>
    rename_i conn old key
    have hlog : ((w.hub.closed old.websocket answer).register key conn).log =
        (w.hub.register key conn).log := by simp [ConnectionHub.register, ConnectionHub.record]
    show ∀ e ∈ ((w.hub.closed old.websocket answer).register key conn).log.drop _, _
    rw [hlog]
    exact registers rfl hash

theorem justly_of_fit {s : Chronicle} {a : Action} (inv : s.Inv) (fit : s.world.Fit a) :
    Justly srv s a := by
  intro w' hs e he
  cases a with
  | start t call =>
    simp only [World.step] at hs
    split at hs
    · cases hs
      simp at he
    · cases hs
  | step t input =>
    obtain ⟨task, here, hs⟩ := Option.bind_eq_some_iff.1 hs
    have valid := inv.world.valid t task here
    have effect := World.effect_of_runTask hs
    obtain ⟨hub', sessions', tasks'⟩ := w'
    dsimp only at he effect
    cases effect with
    | calm calm =>
      obtain ⟨events, hlog, traffic⟩ := calm.log
      rw [hlog, List.drop_left] at he
      have plain := traffic e he
      cases e with
      | received u raw | sent u text | sendFailed u => trivial
      | registers conn | closes conn cause | unregisters conn cause => exact plain.elim
    | connects before step =>
      exact justified_of_connects step inv.world.sound (fun conn => valid.pending _ _ conn before)
        e he
    | disconnects before step =>
      cases step with
      | absent answer r stored => simp at he
      | closes conn answer => simp at he
      | removes answer free hash stored =>
        rename_i reason _ conn key _
        obtain ⟨held, has, registered, justifies⟩ :=
          (inv.knows t task here).justifies_iff here before
        have why : reason.Justifies s.past s.world t conn := by
          refine (justifies conn).2 (or_iff_not_imp_left.2 fun other => ?_)
          have after := (inv.latest key conn stored held registered.1
            (registered.2.trans hash)).resolve_left other
          exact fit task _ _ held conn here before has free ⟨key, hash, stored⟩ other after
        simp only [ConnectionHub.record, List.drop_left, List.mem_cons, List.not_mem_nil,
          or_false] at he
        rcases he with rfl | rfl
        · exact why
        · exact why

theorem fit_of_justly {s : Chronicle} {a : Action} {w' : World} (inv : s.Inv)
    (hs : World.step srv s.world a = some w') (justly : Justly srv s a) : s.world.Fit a := by
  cases a with
  | start t call => trivial
  | step t input =>
    intro task deviceId reason held conn here locking has free stores other after
    obtain ⟨key, hash, stored⟩ := stores
    obtain ⟨task', here', ran⟩ := Option.bind_eq_some_iff.1 hs
    obtain rfl := Option.some.inj (here.symm.trans here')
    obtain ⟨hub', sessions', tasks'⟩ := w'
    obtain ⟨p, step⟩ := World.disconnects_of_runTask locking ran
    have removed := justly _ hs (.unregisters conn (.disconnect reason))
    cases step with
    | absent answer r nothing => simp [nothing key hash] at stored
    | removes answer free hash' stored' =>
      obtain rfl := Option.some.inj (hash.symm.trans hash')
      obtain rfl := Option.some.inj (stored.symm.trans stored')
      obtain ⟨held', has', -, justifies⟩ := (inv.knows t task here).justifies_iff here locking
      obtain rfl := Option.some.inj (has.symm.trans has')
      exact ((justifies conn).1 (removed (by simp [ConnectionHub.record]))).resolve_left other

/-- In every run, each step closes and unregisters connections only because a later connection with
the same id replaced them, the handler of that very socket ended or re-registers it, a send on that
very socket failed, or that very connection was found too old, exactly when no step in which a
`disconnect` takes the lock finds another connection registered after the one in hand. -/
theorem removals_justified_iff (srv : Server) (as : List Action)
    (possible : (Machine.run (World.step srv) .init as).isSome) :
    Machine.Along (step srv) (Justly srv) start as ↔
      Machine.Along (step srv) (fun s a => s.world.Fit a) start as := by
  obtain ⟨s, ran⟩ : ∃ s, Machine.run (step srv) start as = some s := by
    have same := @run_world srv start as
    rw [show start.world = .init from rfl] at same
    rw [← same, Option.isSome_map] at possible
    exact Option.isSome_iff_exists.1 possible
  have always : Machine.Throughout (step srv) Inv start as :=
    Machine.throughout_of_along (fun _ h => h) (fun s a s' _ => inv_step s a s') inv_start
      (Machine.along_true start as)
  have exact_step (s : Chronicle) (a : Action) (s' : Chronicle) (inv : s.Inv)
      (hs : step srv s a = some s') : s.world.Fit a ↔ Justly srv s a ∧ s'.Inv := by
    refine ⟨fun fit => ⟨justly_of_fit inv fit, inv_step s a s' inv hs⟩, fun both => ?_⟩
    exact fit_of_justly inv (step_eq_some_iff.1 hs).1 both.1
  have along := Machine.along_iff_along_and_throughout exact_step inv_start ran
  exact ⟨fun justly => along.2 ⟨justly, always⟩, fun fit => (along.1 fit).1⟩

end Chronicle

def Event.isRegistration : Event → Bool
  | registers _ => true
  | _ => false

/-- As long as one connection was registered, no other can be met. -/
theorem World.fit_of_once {w : World} {a : Action}
    (once : w.hub.log.countP Event.isRegistration ≤ 1) : w.Fit a := by
  cases a with
  | start t call => trivial
  | step t input =>
    rintro task deviceId reason held conn - - - - - - ⟨before, after, same, later⟩
    have second : 0 < after.countP Event.isRegistration := List.countP_pos_iff.2 ⟨_, later, rfl⟩
    rw [same, List.countP_append, List.countP_cons_of_pos rfl] at once
    omega

namespace Chronicle

/-- A server whose only handlers are those that are built in. -/
def sampleServer : Server := ⟨plainText, .builtin⟩

/-- A device registers and falls silent, and a pass of the heartbeat loop that begins at 10 finds
its connection too old and disconnects it. -/
def silence : List Action :=
  [.start 0 .endpoint, .step 0 (.io .ok), .step 0 (.io .ok), .start 1 (.heartbeatLoop 1)] ++
    List.replicate 6 (.step 1 { Input.io .ok with measured := ⟨⟨"", 10⟩, .finite 0, ""⟩ })

theorem removals_justified_iff_silence :
    (Machine.run (World.step sampleServer) .init silence).isSome ∧
      Machine.Along (step sampleServer) (Justly sampleServer) start silence :=
  ⟨by decide +kernel, (removals_justified_iff sampleServer silence (by decide +kernel)).2
    (Machine.Along.imp (P := fun s _ => s.world.hub.log.countP Event.isRegistration ≤ 1)
      (fun _ _ once => World.fit_of_once once) (by decide +kernel))⟩

/-- A client reconnects before the handler of its first socket has ended, and then that handler
ends. -/
def reconnection : List Action :=
  [.start 0 .endpoint, .step 0 (.io .ok), .step 0 (.io .ok),
    .start 1 .endpoint, .step 1 (.io .ok), .step 1 (.io .ok), .step 1 (.io .ok),
    .step 0 (.io .ok), .step 0 (.io .ok)]

/-- A handler that ends removes a connection of another socket. -/
def evicts : Event → Bool
  | .unregisters conn (.disconnect (.handlerEnded t)) => conn.websocket ≠ t
  | _ => false

theorem not_justified_of_evicts {past : List World} {w : World} {t : ℕ} {e : Event}
    (h : evicts e) : ¬ e.Justified past w t := by
  intro justified
  unfold evicts at h
  split at h
  · obtain ⟨own, socket, -⟩ := justified
    exact of_decide_eq_true h (socket.trans own.symm)
  · cases h

/-- The handler of a replaced socket removes the connection that replaced it when it ends. -/
theorem replacement_removed : ¬ ∀ (srv : Server) (as : List Action),
    (Machine.run (World.step srv) .init as).isSome →
      Machine.Along (step srv) (Justly srv) start as := by
  intro claim
  have along := claim sampleServer reconnection (by decide +kernel)
  have last : reconnection = reconnection.take 8 ++ [.step 0 (.io .ok)] := rfl
  have removed : ((Machine.run (step sampleServer) start (reconnection.take 8)).bind fun s =>
      (World.step sampleServer s.world (.step 0 (.io .ok))).map fun w =>
        (w.hub.log.drop s.world.hub.log.length).any evicts) = some true := by decide +kernel
  obtain ⟨s, ran, removed⟩ := Option.bind_eq_some_iff.1 removed
  obtain ⟨w, hw, removed⟩ := Option.map_eq_some_iff.1 removed
  obtain ⟨e, he, evicted⟩ := List.any_eq_true.1 removed
  rw [last] at along
  exact not_justified_of_evicts evicted (along.last ran w hw e he)

end Chronicle

end Cpip
