import Cpip.Link.Heartbeat

/-!
# Steps of the server, seen from the link

What a step of any task keeps (`Link.Serving`), and that a step of a task other than the heartbeat
loop keeps the invariant.
-/

namespace Cpip

open ConnectionHub (HeartbeatPc)

namespace Link

variable {env : LinkEnv} {s s' : Link}

/-- What a step of the server does to the link. -/
structure Serving (env : LinkEnv) (s : Link) (u : ℕ) (input : Input) (s' : Link) : Prop where
  clock : s.clock ≤ input.measured.amb.now
  due : u = env.loop → s.world.beginsPass u = true → s.due env input.measured.amb.now = true
  ran : ∃ fed task, s.feed env u input = some (fed, s'.up) ∧ s.world.tasks u = some task ∧
    s.world.runTask env.srv u fed task = some s'.world
  peer : s'.peer = s.peer
  down : s'.down = s.down ++ (s'.world.hub.log.drop s.world.hub.log.length).filterMap
    (Event.sentOn env.socket)
  now : s'.clock = input.measured.amb.now
  lastPass : s'.lastPass = if u = env.loop ∧ s.world.beginsPass u = true
    then some input.measured.amb.now else s.lastPass
  beaten : s'.beaten = s.beaten ++ beat s.world env.loop u
    (s'.world.hub.log.drop s.world.hub.log.length)

theorem serving_of_step {u : ℕ} {input : Input} (h : s.step env (.serve u input) = some s') :
    s.Serving env u input s' := by
  unfold step serve at h
  dsimp only at h
  split at h
  swap
  · cases h
  next guards =>
  obtain ⟨⟨fed, up⟩, feeds, h⟩ := Option.bind_eq_some_iff.1 h
  obtain ⟨w, hw, rfl⟩ := Option.map_eq_some_iff.1 h
  obtain ⟨task, here, run⟩ := Option.bind_eq_some_iff.1 hw
  exact ⟨guards.1, fun loop begins => guards.2 ⟨loop, begins⟩, ⟨fed, task, feeds, here, run⟩, rfl,
    rfl, rfl, rfl, rfl⟩

theorem feed_measured {u : ℕ} {input fed : Input} {up : List Frame}
    (h : s.feed env u input = some (fed, up)) : fed.measured = input.measured := by
  unfold feed at h
  split at h
  · split at h <;> cases h
    rfl
  · cases h
    rfl

theorem receiving_cases {w : World} {t : ℕ} (h : w.receiving t = true) :
    ∃ deviceId conn, w.tasks t = some (.endpoint ⟨deviceId, .running conn .receiving⟩) := by
  unfold World.receiving at h
  split at h
  · next deviceId conn here => exact ⟨deviceId, conn, here⟩
  · cases h

theorem feed_cases {u : ℕ} {input fed : Input} {up : List Frame}
    (h : s.feed env u input = some (fed, up)) :
    up = s.up ∨ u = env.socket ∧ s.world.receiving u = true ∧
      ∃ raw, s.up = raw :: up ∧ fed.received = some raw := by
  unfold feed at h
  split at h
  · next takes =>
    split at h
    · cases h
    · next raw rest waiting =>
      cases h
      exact .inr ⟨takes.1, takes.2.1, raw, waiting, rfl⟩
  · cases h
    exact .inl rfl

theorem Inv.owns (inv : s.Inv env) {u : ℕ} {self : Endpoint}
    (here : s.world.tasks u = some (.endpoint self)) :
    Served.Owns u ⟨s.world.hub, s.world.sessions, self⟩ := by
  rintro key conn held rfl
  obtain ⟨self', here', holds⟩ := inv.world.owned key conn held
  cases Option.some.inj (here.symm.trans here')
  exact holds

section Served

variable {u : ℕ} {input : Input} (inv : s.Inv env) (serving : s.Serving env u input s')

include serving

theorem Serving.refreshed : ConnectionHub.Refreshed s'.clock s.world.hub s'.world.hub := by
  obtain ⟨fed, task, feeds, -, run⟩ := serving.ran
  have refreshed := World.refreshed_runTask run
  rwa [feed_measured feeds, ← serving.now] at refreshed

theorem Serving.later : s.clock ≤ s'.clock := by
  rw [serving.now]
  exact serving.clock

/-- A step of a task changes no other task, and this one stays what it is. -/
theorem Serving.tasks : ∃ task task', s.world.tasks u = some task ∧ s'.world.tasks u = some task' ∧
    task.Becomes task' ∧ ∀ v ≠ u, s'.world.tasks v = s.world.tasks v := by
  obtain ⟨fed, task, -, here, run⟩ := serving.ran
  obtain ⟨task', here', becomes⟩ := World.becomes_of_runTask run
  exact ⟨task, task', here, here', becomes, fun v other => World.tasks_of_runTask run other⟩

include inv

theorem Serving.world : s'.world.Inv := by
  obtain ⟨fed, task, -, here, run⟩ := serving.ran
  exact World.inv_runTask inv.world here run

theorem Serving.log : ∃ events, s'.world.hub.log = s.world.hub.log ++ events := by
  obtain ⟨fed, task, -, here, run⟩ := serving.ran
  have valid := inv.world.valid u task here
  obtain ⟨events, log, -⟩ := ((World.effect_of_runTask run).keeps inv.world.sound valid).2.log
  exact ⟨events, log⟩

theorem Serving.logged {e : Event} (mem : e ∈ s.world.hub.log) : e ∈ s'.world.hub.log := by
  obtain ⟨events, log⟩ := serving.log inv
  rw [log]
  exact List.mem_append_left _ mem

theorem Serving.mono {r : ℕ} (lt : r < s.world.hub.nextRef) :
    s.world.hub.lastHeartbeat r ≤ s'.world.hub.lastHeartbeat r := by
  rcases serving.refreshed.old r lt with same | now
  · exact same.ge
  · rw [now]
    exact (inv.times r lt).trans serving.later

theorem Serving.times (r : ℕ) (lt : r < s'.world.hub.nextRef) :
    s'.world.hub.lastHeartbeat r ≤ s'.clock := by
  by_cases old : r < s.world.hub.nextRef
  · rcases serving.refreshed.old r old with same | now
    · rw [same]
      exact (inv.times r old).trans serving.later
    · exact now.le
  · exact (serving.refreshed.new r lt (not_lt.1 old)).le

theorem Serving.loops {v : ℕ} {interval : ℚ} {pc : HeartbeatPc}
    (here : s'.world.tasks v = some (.heartbeatLoop interval pc)) :
    v = env.loop ∧ interval = env.interval := by
  obtain ⟨task, task', before, after, becomes, others⟩ := serving.tasks
  by_cases same : v = u
  · subst same
    obtain rfl := Option.some.inj (here.symm.trans after)
    cases becomes with
    | heartbeatLoop _ pc₀ _ => exact inv.loops v interval pc₀ before
    | sends _ _ other _ => exact absurd rfl (other interval pc)
  · rw [others v same] at here
    exact inv.loops v interval pc here

theorem Serving.handler {task : Task} (here : s'.world.tasks env.socket = some task) :
    ∃ self, task = .endpoint self := by
  obtain ⟨task₀, task', before, after, becomes, others⟩ := serving.tasks
  by_cases same : env.socket = u
  · subst same
    obtain rfl := Option.some.inj (here.symm.trans after)
    obtain ⟨self, rfl⟩ := inv.handler task₀ before
    cases becomes with
    | endpoint _ self' => exact ⟨self', rfl⟩
    | sends _ other _ _ => exact absurd rfl (other self)
  · rw [others _ same] at here
    exact inv.handler task here

theorem Serving.alone {task : Task} (here : s'.world.tasks env.loop = some task) :
    ∃ pc, task = .heartbeatLoop env.interval pc := by
  obtain ⟨task₀, task', before, after, becomes, others⟩ := serving.tasks
  by_cases same : env.loop = u
  · subst same
    obtain rfl := Option.some.inj (here.symm.trans after)
    obtain ⟨pc, rfl⟩ := inv.alone task₀ before
    cases becomes with
    | heartbeatLoop _ _ pc' => exact ⟨pc', rfl⟩
    | sends other _ _ _ => exact absurd rfl (other env.interval pc)
  · rw [others _ same] at here
    exact inv.alone task here

/-- The socket of another task is registered only if it was before. -/
theorem Serving.sub (other : u ≠ env.socket) {key : PyKey} {conn : DeviceConnection}
    (joins : s'.Joins env key conn) : s.Joins env key conn := by
  obtain ⟨fed, task, -, here, run⟩ := serving.ran
  obtain ⟨stored, own⟩ := joins
  refine ⟨?_, own⟩
  by_cases handler : ∀ self, task ≠ .endpoint self
  · exact World.sub_of_runTask handler inv.world run key conn stored
  · obtain ⟨self, rfl⟩ : ∃ self, task = .endpoint self := by simpa using handler
    obtain ⟨t, step, same⟩ := World.runTask_endpoint run
    have keeps := (Served.serves_of_step step).keeps inv.world.sound (inv.world.valid u _ here)
      (inv.owns here)
    rw [← same] at stored
    exact (keeps.sub key conn stored).resolve_right fun same => other (same.symm.trans own)

/-- The handler of the socket keeps the connection that it has, or registers a new one. -/
theorem Serving.has :
    (∀ self, s'.world.tasks env.socket = some (.endpoint self) →
      Served.Has env.socket ⟨s'.world.hub, s'.world.sessions, self⟩) ∧
      ∀ key conn, s'.Joins env key conn → s.Joins env key conn ∨
        u = env.socket ∧ ∃ task, s.world.tasks u = some task ∧ task.AboutTo key conn := by
  by_cases same : u = env.socket
  · subst same
    obtain ⟨fed, task, -, here, run⟩ := serving.ran
    obtain ⟨self, rfl⟩ := inv.handler task here
    have world := World.inv_runTask inv.world here run
    obtain ⟨t, step, same⟩ := World.runTask_endpoint run
    have valid := inv.world.valid _ _ here
    have serves := Served.serves_of_step step
    have owns := inv.owns here
    have keeps := serves.keeps inv.world.sound valid owns
    obtain ⟨has, registered⟩ := serves.has owns (inv.has self here) keeps.owns
    refine ⟨fun self' here' => ?_, fun key conn ⟨stored, own⟩ => ?_⟩
    · rw [← same, World.tasks_setTask, if_pos rfl] at here'
      obtain rfl := Task.endpoint.inj (Option.some.inj here')
      rw [← same]
      exact has
    · rw [← same] at stored
      exact (registered key conn stored own).imp (fun stored => ⟨stored, own⟩) fun about =>
        ⟨rfl, _, here, about⟩
  · obtain ⟨-, -, -, -, -, others⟩ := serving.tasks
    refine ⟨fun self here key conn stored own => ?_, fun key conn joins =>
      .inl (serving.sub inv same joins)⟩
    rw [others _ fun h => same h.symm] at here
    obtain ⟨stored', -⟩ := serving.sub inv same ⟨stored, own⟩
    exact inv.has self here key conn stored' own

/-- A connection that the handler of the socket is about to register, it was before, or it is
new. -/
theorem Serving.awaited {task : Task} {deviceId : PyVal} {pc : ConnectionHub.ConnectPc}
    {conn : DeviceConnection} (here : s'.world.tasks env.socket = some task)
    (connecting : task.connecting = some (deviceId, pc)) (about : pc.conn? = some conn) :
    conn.connectedAt ≤ s'.world.hub.lastHeartbeat conn.ref := by
  by_cases same : u = env.socket
  · subst same
    obtain ⟨fed, task₀, -, here₀, run⟩ := serving.ran
    obtain ⟨self, rfl⟩ := inv.handler task₀ here₀
    have valid := inv.world.valid _ _ here₀
    obtain ⟨t, step, same⟩ := World.runTask_endpoint run
    have mono {r : ℕ} := serving.mono inv (r := r)
    rw [← same] at here mono ⊢
    rw [World.tasks_setTask, if_pos rfl] at here
    obtain rfl := Option.some.inj here
    rcases (Served.serves_of_step step).pending connecting about with ⟨id, pc₀, was, has⟩ | new
    · exact (inv.awaited _ id pc₀ conn here₀ was has).trans
        (mono (valid.pending id pc₀ conn was has).older)
    · exact new.ge
  · obtain ⟨-, -, -, -, -, others⟩ := serving.tasks
    rw [others _ fun h => same h.symm] at here
    have older := (inv.world.valid _ _ here).pending deviceId pc conn connecting about |>.older
    exact (inv.awaited task deviceId pc conn here connecting about).trans (serving.mono inv older)

theorem Serving.born {key : PyKey} {conn : DeviceConnection} (joins : s'.Joins env key conn) :
    conn.connectedAt ≤ s'.world.hub.lastHeartbeat conn.ref := by
  rcases (serving.has inv).2 key conn joins with joins | ⟨rfl, task, here, id, pc, was, has, -⟩
  · have older := inv.world.sound.older conn (inv.world.sound.registered key conn joins.1)
    exact (inv.born key conn joins).trans (serving.mono inv older)
  · have older := ((inv.world.valid _ _ here).pending id pc conn was has).older
    exact (inv.awaited task id pc conn here was has).trans (serving.mono inv older)

/-- A connection that was sent a heartbeat is not registered again. -/
theorem Serving.joined {key : PyKey} {conn : DeviceConnection} (joins : s'.Joins env key conn)
    (beaten : conn ∈ s.beaten) : s.Joins env key conn := by
  rcases (serving.has inv).2 key conn joins with joins | ⟨rfl, task, here, id, pc, was, has, -⟩
  · exact joins
  · have fresh := ((inv.world.valid _ _ here).pending id pc conn was has).fresh
    exact absurd (inv.beaten conn beaten) fresh

/-- What is on its way stays so until the acknowledgement sets the time of the connection. -/
theorem Serving.flight {key : PyKey} {conn : DeviceConnection} {last : ℚ}
    (joins : s.Joins env key conn) (past : last ≤ s.clock) (flight : s.InFlight) :
    last ≤ s'.world.hub.lastHeartbeat conn.ref ∨ s'.InFlight := by
  rcases flight with ⟨text, mem, heartbeat⟩ | ⟨raw, mem, ack⟩
  · refine .inr (.inl ⟨text, ?_, heartbeat⟩)
    rw [serving.down]
    exact List.mem_append_left _ mem
  · obtain ⟨fed, task, feeds, here, run⟩ := serving.ran
    rcases feed_cases feeds with same | ⟨rfl, receiving, raw', waiting, received⟩
    · exact .inr (.inr ⟨raw, same ▸ mem, ack⟩)
    · rw [waiting] at mem
      rcases List.mem_cons.1 mem with rfl | mem
      · obtain ⟨deviceId, conn', here'⟩ := receiving_cases receiving
        obtain rfl := Option.some.inj (here.symm.trans here')
        obtain rfl : conn' = conn :=
          Option.some.inj (inv.has _ here' key conn joins.1 joins.2)
        obtain ⟨t, step, same⟩ := World.runTask_endpoint run
        have now := Served.lastHeartbeat_of_ack rfl received ack step
        rw [feed_measured feeds, ← serving.now] at now
        rw [← same]
        exact .inl ((past.trans serving.later).trans now.ge)
      · exact .inr (.inr ⟨raw, mem, ack⟩)

/-- What was known about a connection stays true, if the pass does not go back and what it passes
by was answered. -/
theorem Serving.heard {key : PyKey} {conn : DeviceConnection} {last : ℚ}
    (joins : s.Joins env key conn) (past : last ≤ s.clock)
    (forward : Ahead (s'.world.loopPc env.loop) key conn → Ahead (s.world.loopPc env.loop) key conn)
    (answers : Ahead (s.world.loopPc env.loop) key conn ∨
      key ∈ (s.world.loopPc env.loop).doomed.map Prod.fst →
        Ahead (s'.world.loopPc env.loop) key conn ∨ s'.InFlight ∨
          key ∈ (s'.world.loopPc env.loop).doomed.map Prod.fst)
    (heard : s.Heard env key conn last) : s'.Heard env key conn last := by
  have older := inv.world.sound.older conn (inv.world.sound.registered key conn joins.1)
  have mono := serving.mono inv older
  refine ⟨fun ahead => (heard.recent (forward ahead)).trans mono, ?_⟩
  rcases heard.answers with fresh | ahead | flight | doomed
  · exact .inl (fresh.trans mono)
  · exact .inr (answers (.inl ahead))
  · exact (serving.flight inv joins past flight).imp_right fun flight => .inr (.inl flight)
  · exact .inr (answers (.inr doomed))

theorem inv_serve_of_ne (other : u ≠ env.loop) (fit : s.Fit env (.serve u input)) :
    s'.Inv env := by
  obtain ⟨fed, task, -, here, run⟩ := serving.ran
  have loopTask : s'.world.tasks env.loop = s.world.tasks env.loop :=
    World.tasks_of_runTask run fun h => other h.symm
  have loopPc : s'.world.loopPc env.loop = s.world.loopPc env.loop := by
    unfold World.loopPc
    rw [loopTask]
  have lastPass : s'.lastPass = s.lastPass := by
    rw [serving.lastPass, if_neg fun h => other h.1]
  have beaten : s'.beaten = s.beaten := by
    rw [serving.beaten]
    unfold beat
    split
    · rw [if_neg fun h => other h.1, List.append_nil]
    · rw [List.append_nil]
  refine ⟨serving.world inv, fun v interval pc => serving.loops inv,
    fun task => serving.handler inv, fun task => serving.alone inv, ?_, (serving.has inv).1, ?_, ?_,
    serving.times inv, fun key conn => serving.born inv,
    fun task deviceId pc conn => serving.awaited inv, ?_, ?_, ?_, ?_, ?_⟩
  · rw [loopPc]
    exact inv.keyed
  · refine World.undisturbed_of_runTask (fun interval pc same => ?_) run inv.spared
    subst same
    exact other (inv.loops u interval pc here).1
  · rw [loopPc]
    intro key reason conn doomed timeout joins
    rcases (serving.has inv).2 key conn joins with joins | ⟨same, task', here', about⟩
    · exact inv.doomed key reason conn doomed timeout joins
    · rw [fit.2 same task' key conn here' about reason doomed] at timeout
      cases timeout
  · rw [beaten]
    exact fun conn mem => serving.logged inv (inv.beaten conn mem)
  · rw [beaten, lastPass]
    exact inv.passed
  · rw [lastPass]
    exact fun last passed => (inv.past last passed).trans serving.later
  · have passing := inv.passing
    rw [loopPc]
    unfold Passing at passing ⊢
    split
    · next scanning =>
      rw [scanning] at passing
      rw [lastPass]
      exact passing
    · next conn _ _ sending =>
      rw [sending] at passing
      obtain ⟨last, registered, young⟩ := passing
      rw [lastPass]
      exact ⟨last, serving.logged inv registered,
        young.trans (serving.mono inv (inv.world.sound.older conn registered))⟩
    · trivial
  · intro daemon key conn last joins mem passed
    rw [beaten] at mem
    rw [lastPass] at passed
    have joined := serving.joined inv joins mem
    rw [serving.peer] at daemon
    refine serving.heard inv joined (inv.past last passed) ?_ ?_
      (inv.heard daemon key conn last joined mem passed)
    · rw [loopPc]
      exact id
    · rw [loopPc]
      exact fun before => before.imp_right .inr

end Served

end Link

end Cpip
