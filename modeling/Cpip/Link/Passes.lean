import Cpip.Link.Serving

/-!
# Heartbeat passes, seen from the link

A step of the heartbeat loop keeps the invariant where it is `Link.Fit`, so that the client is
spared in runs of any length.
-/

namespace Cpip

open ConnectionHub (HeartbeatPc)

namespace Link

variable {env : LinkEnv} {s s' : Link}

/-! ## Steps of the heartbeat loop -/

/-- Where the loop is before and after its step, and what it did to the hub. -/
structure Passes (env : LinkEnv) (s : Link) (answer : Answer) (s' : Link)
    (pc : HeartbeatPc) (hub' : ConnectionHub) (pc' : HeartbeatPc) : Prop where
  here : s.world.tasks env.loop = some (.heartbeatLoop env.interval pc)
  before : s.world.loopPc env.loop = pc
  after : s'.world.loopPc env.loop = pc'
  hub : s'.world.hub = hub'
  pulses : ConnectionHub.Pulses s.world.hub env.loop env.interval s'.clock answer pc hub' pc'

theorem passes_of_serving {input : Input} (inv : s.Inv env)
    (serving : s.Serving env env.loop input s') :
    ∃ answer pc hub' pc', Passes env s answer s' pc hub' pc' := by
  obtain ⟨fed, task, feeds, here, run⟩ := serving.ran
  obtain ⟨pc, rfl⟩ := inv.alone task here
  obtain ⟨⟨hub', pc'⟩, step, same⟩ := Option.map_eq_some_iff.1 run
  have pulses := ConnectionHub.pulses_of_step step
  rw [feed_measured feeds, ← serving.now] at pulses
  refine ⟨fed.answer, pc, hub', pc', here, ?_, ?_, ?_, pulses⟩
  · unfold World.loopPc
    rw [here]
  · unfold World.loopPc
    rw [← same, World.tasks_setTask, if_pos rfl]
  · rw [← same]
    rfl

section Passes

variable {answer : Answer} {pc pc' : HeartbeatPc} {hub' : ConnectionHub}

/-- The loop looks up hashes only. -/
theorem keyed_of_pulses {hub : ConnectionHub} {t : ℕ} {interval now : ℚ}
    (pulses : ConnectionHub.Pulses hub t interval now answer pc hub' pc') (stored : hub.Keyed)
    (keyed : ∀ key ∈ keys pc, (PyVal.ofKey key).hash? = some key) :
    ∀ key ∈ keys pc', (PyVal.ofKey key).hash? = some key := by
  intro key mem
  cases pulses with
  | wakes =>
    unfold keys at mem
    simp only [HeartbeatPc.ahead, HeartbeatPc.doomed, List.map_nil, List.append_nil] at mem
    exact stored key mem
  | disconnects dead step =>
    refine keyed key ?_
    cases step with
    | removes _ free hash found => exact List.mem_cons_of_mem _ mem
  | returns dead step =>
    refine keyed key ?_
    cases step with
    | absent _ r absent => exact List.mem_cons_of_mem _ mem
    | closes old _ => exact mem
  | sleeps => exact absurd mem List.not_mem_nil
  | scanned | gone | late | beats | sent | failed | cleans =>
    refine keyed key ?_
    simp only [keys, HeartbeatPc.ahead, HeartbeatPc.doomed, List.map_append, List.map_cons,
      List.map_nil, List.cons_append, List.nil_append, List.mem_append, List.mem_cons,
      List.not_mem_nil] at mem ⊢
    tauto

/-- A pass does not find the connection of the client too old. -/
theorem young_of_fit {input : Input} {start : ℚ} {key : PyKey} {rest : List PyKey}
    {dead : List (PyKey × Reason)} {conn : DeviceConnection} (inv : s.Inv env)
    (fit : s.Fit env (.serve env.loop input))
    (here : s.world.tasks env.loop =
      some (.heartbeatLoop env.interval (.scanning start (key :: rest) dead)))
    (before : s.world.loopPc env.loop = .scanning start (key :: rest) dead)
    (joins : s.Joins env key conn) :
    start - s.world.hub.lastHeartbeat conn.ref ≤ env.interval * 3 := by
  have looks : s.world.looksAt env.loop = some ⟨env.interval, start, conn⟩ := by
    unfold World.looksAt
    rw [here]
    dsimp only
    rw [joins.1]
    rfl
  rcases fit.1 _ looks joins.2 with young | ⟨daemon, beaten⟩
  · have born := inv.born key conn joins
    linarith
  · have passing := inv.passing
    rw [before] at passing
    have recent := (inv.heard daemon key conn start joins beaten passing).recent (by
      rw [before]
      exact .inl (List.mem_cons_self ..))
    linarith

/-- When a pass begins, the channels of a registered client are empty. -/
theorem quiet_of_due {key : PyKey} {conn : DeviceConnection} (inv : s.Inv env)
    (joins : s.Joins env key conn) {now : ℚ} (due : s.due env now = true) : ¬ s.InFlight := by
  obtain ⟨self, here, holds⟩ := inv.world.owned key conn joins.1
  rw [joins.2] at here
  have has := inv.has self here key conn joins.1 joins.2
  obtain ⟨deviceId, pc⟩ := self
  have handled : s.handled env = true := (Bool.and_eq_true_iff.1 due).1
  unfold Link.handled at handled
  rw [here] at handled
  have empty : (s.down.isEmpty && s.up.isEmpty) = true := by
    cases pc with
    | connecting pc => cases holds
    | running conn pc =>
      cases pc with
      | receiving => exact handled
      | disconnecting _ _ | reconnecting _ _ | dispatching _ | sending _ | sendingParseError _
      | sendingInternalError _ => cases handled
    | closing conn pc => exact handled
    | finished => cases holds
  obtain ⟨down, up⟩ := Bool.and_eq_true_iff.1 empty
  rw [List.isEmpty_iff] at down up
  rintro (⟨text, mem, -⟩ | ⟨raw, mem, -⟩)
  · rw [down] at mem
    cases mem
  · rw [up] at mem
    cases mem

variable {input : Input} (inv : s.Inv env) (serving : s.Serving env env.loop input s')
  (passes : Passes env s answer s' pc hub' pc')

include inv passes

omit serving in
theorem spared_of_passes : s'.Spared env := by
  have spared := inv.spared
  have keyed := inv.keyed
  have doomed := inv.doomed
  rw [passes.before] at keyed doomed
  unfold Spared at spared ⊢
  rw [passes.hub]
  have other {key : PyKey} {reason : Reason} {dead : List (PyKey × Reason)}
      (at_ : pc = .disconnecting key reason .locking dead) (timeout : reason.isTimeout = true)
      (key' : PyKey) (conn : DeviceConnection) (hash : (PyVal.ofKey key).hash? = some key')
      (stored : s.world.hub.connections.get? key' = some conn) : conn.websocket ≠ env.socket := by
    subst at_
    obtain rfl : key = key' := Option.some.inj
      ((keyed key (List.mem_append_right _ (List.mem_cons_self ..))).symm.trans hash)
    exact fun own => doomed key reason conn (List.mem_cons_self ..) timeout ⟨stored, own⟩
  cases passes.pulses with
  | disconnects dead step | returns dead step =>
    exact step.undisturbed (fun locking => by subst locking; exact other rfl) spared
  | sent start key conn rest dead text heartbeat =>
    refine spared.append fun e mem => ?_
    obtain rfl := List.mem_singleton.1 mem
    exact id
  | failed start key conn rest dead =>
    refine spared.append fun e mem => ?_
    obtain rfl := List.mem_singleton.1 mem
    exact id
  | wakes | scanned start dead | gone start rest dead stored | late start rest dead stored old
  | beats start rest dead stored young | sleeps | cleans key reason dead => exact spared

include serving

theorem doomed_of_passes (fit : s.Fit env (.serve env.loop input)) {key : PyKey} {reason : Reason}
    {conn : DeviceConnection} (mem : (key, reason) ∈ (s'.world.loopPc env.loop).doomed)
    (timeout : reason.isTimeout = true) : ¬ s'.Joins env key conn := by
  intro joins
  replace joins := serving.sub inv env.apart.symm joins
  have doomed := inv.doomed key reason conn
  rw [passes.before] at doomed
  rw [passes.after] at mem
  have here := passes.here
  have before := passes.before
  cases passes.pulses with
  | wakes | sleeps => cases mem
  | scanned start dead | gone start rest dead stored | beats start rest dead stored young
  | sent start key conn rest dead text heartbeat | cleans key' reason' dead =>
    exact doomed mem timeout joins
  | @late key' conn' start rest dead stored old =>
    rcases List.mem_append.1 mem with mem | mem
    · exact doomed mem timeout joins
    · obtain ⟨rfl, -⟩ := Prod.mk.inj (List.mem_singleton.1 mem)
      have young := young_of_fit inv fit here before joins
      obtain rfl := Option.some.inj (joins.1.symm.trans stored)
      exact absurd old (not_lt.2 young)
  | failed start key' conn' rest dead =>
    rcases List.mem_append.1 mem with mem | mem
    · exact doomed mem timeout joins
    · obtain ⟨-, rfl⟩ := Prod.mk.inj (List.mem_singleton.1 mem)
      cases timeout
  | disconnects dead step =>
    cases step with
    | removes _ free hash found => exact doomed (List.mem_cons_of_mem _ mem) timeout joins
  | returns dead step =>
    cases step with
    | absent _ r absent => exact doomed (List.mem_cons_of_mem _ mem) timeout joins
    | closes old _ => exact doomed mem timeout joins

omit inv in
theorem lastPass_of_wakes (wakes : pc = .sleeping) : s'.lastPass = some s'.clock := by
  have begins : s.world.beginsPass env.loop = true := by
    unfold World.beginsPass
    rw [passes.here, wakes]
  rw [serving.lastPass, if_pos ⟨rfl, begins⟩, serving.now]

omit inv in
theorem lastPass_of_awake (awake : pc ≠ .sleeping) : s'.lastPass = s.lastPass := by
  rw [serving.lastPass, if_neg]
  rintro ⟨-, begins⟩
  unfold World.beginsPass at begins
  rw [passes.here] at begins
  split at begins
  · next sleeping => exact awake (Task.heartbeatLoop.inj (Option.some.inj sleeping)).2
  · cases begins

omit inv in
theorem beaten_of_quiet
    (quiet : ∀ start key conn rest dead, pc ≠ .sending start key conn rest dead) :
    s'.beaten = s.beaten := by
  rw [serving.beaten]
  unfold beat
  rw [passes.before]
  split
  · exact (quiet _ _ _ _ _ rfl).elim
  · exact List.append_nil _

omit inv in
theorem beaten_of_sending {start : ℚ} {key : PyKey} {conn : DeviceConnection} {rest : List PyKey}
    {dead : List (PyKey × Reason)} (sending : pc = .sending start key conn rest dead) {e : Event}
    (log : hub'.log = s.world.hub.log ++ [e]) :
    s'.beaten = if e.isSent = true then s.beaten ++ [conn] else s.beaten := by
  rw [serving.beaten]
  unfold beat
  rw [passes.before, sending, passes.hub, log, List.drop_left]
  dsimp only
  by_cases sends : e.isSent = true
  · rw [if_pos sends, if_pos ⟨rfl, by simpa using sends⟩]
  · rw [if_neg sends, if_neg fun h => sends (by simpa using h.2), List.append_nil]

theorem passing_of_passes : s'.Passing env (s'.world.loopPc env.loop) := by
  have passing := inv.passing
  rw [passes.before] at passing
  rw [passes.after]
  have registered {key : PyKey} {conn : DeviceConnection}
      (stored : s.world.hub.connections.get? key = some conn) :
      .registers conn ∈ s'.world.hub.log :=
    serving.logged inv (inv.world.sound.registered key conn stored)
  have older {key : PyKey} {conn : DeviceConnection}
      (stored : s.world.hub.connections.get? key = some conn) :
      s.world.hub.lastHeartbeat conn.ref ≤ s'.world.hub.lastHeartbeat conn.ref :=
    serving.mono inv (inv.world.sound.older conn (inv.world.sound.registered key conn stored))
  have awake := lastPass_of_awake serving passes
  cases passes.pulses with
  | wakes => exact lastPass_of_wakes serving passes rfl
  | gone start rest dead stored | late start rest dead stored old =>
    exact (awake nofun).trans passing
  | beats start rest dead stored young =>
    refine ⟨(awake nofun).trans passing, registered stored, ?_⟩
    have mono := older stored
    linarith
  | sent start key conn rest dead text heartbeat | failed start key conn rest dead =>
    exact (awake nofun).trans passing.1
  | scanned start dead | sleeps | cleans key reason dead | disconnects dead step
  | returns dead step => trivial

/-- A step of the loop that neither begins a pass nor ends a call of `send`. -/
theorem heard_of_quiet (awake : pc ≠ .sleeping) {key : PyKey} {conn : DeviceConnection} {last : ℚ}
    (quiet : conn ∈ s'.beaten → conn ∈ s.beaten)
    (forward : Ahead pc' key conn → Ahead pc key conn)
    (answers : s.Joins env key conn → Ahead pc key conn ∨ key ∈ pc.doomed.map Prod.fst →
      Ahead pc' key conn ∨ s'.InFlight ∨ key ∈ pc'.doomed.map Prod.fst)
    (daemon : s'.peer.isDaemon = true) (joins : s'.Joins env key conn) (mem : conn ∈ s'.beaten)
    (passed : s'.lastPass = some last) : s'.Heard env key conn last := by
  have joined := serving.sub inv env.apart.symm joins
  rw [lastPass_of_awake serving passes awake] at passed
  rw [serving.peer] at daemon
  refine serving.heard inv joined (inv.past last passed) ?_ ?_
    (inv.heard daemon key conn last joined (quiet mem) passed)
  · rw [passes.before, passes.after]
    exact forward
  · rw [passes.before, passes.after]
    exact answers joined

/-- Such a step where no connection lies ahead, neither before it nor after it. -/
theorem heard_of_idle (awake : pc ≠ .sleeping) {key : PyKey} {conn : DeviceConnection} {last : ℚ}
    (quiet : conn ∈ s'.beaten → conn ∈ s.beaten) (before : ¬ Ahead pc key conn)
    (after : ¬ Ahead pc' key conn)
    (answers : s.Joins env key conn → key ∈ pc.doomed.map Prod.fst →
      key ∈ pc'.doomed.map Prod.fst)
    (daemon : s'.peer.isDaemon = true) (joins : s'.Joins env key conn) (mem : conn ∈ s'.beaten)
    (passed : s'.lastPass = some last) : s'.Heard env key conn last := by
  refine heard_of_quiet inv serving passes awake quiet (fun ahead => absurd ahead after) ?_ daemon
    joins mem passed
  exact fun joined front => .inr (.inr (answers joined (front.resolve_left before)))

/-- When a pass begins, every connection that was sent a heartbeat has been heard of since the last
pass began. -/
theorem heard_of_wakes (wakes : pc = .sleeping)
    (after : pc' = .scanning s'.clock s.world.hub.connections.keys [])
    (due : s.due env s'.clock = true) {key : PyKey} {conn : DeviceConnection} {last : ℚ}
    (daemon : s.peer.isDaemon = true) (joins : s.Joins env key conn) (mem : conn ∈ s.beaten)
    (passed : s'.lastPass = some last) : s'.Heard env key conn last := by
  have older := inv.world.sound.older conn (inv.world.sound.registered key conn joins.1)
  have mono := serving.mono inv older
  obtain rfl : s'.clock = last :=
    Option.some.inj ((lastPass_of_wakes serving passes wakes).symm.trans passed)
  have listed : key ∈ s.world.hub.connections.keys :=
    (Dict.mem_keys_iff _ key).2 (Option.isSome_iff_exists.2 ⟨conn, joins.1⟩)
  obtain ⟨before, was⟩ := Option.ne_none_iff_exists'.1 (inv.passed conn mem)
  have soon : s'.clock - before < env.interval * 3 := by
    have soon := (Bool.and_eq_true_iff.1 due).2
    rw [was] at soon
    exact of_decide_eq_true soon
  have heard := inv.heard daemon key conn before joins mem was
  have answers := heard.answers
  rw [passes.before, wakes] at answers
  have fresh : before ≤ s.world.hub.lastHeartbeat conn.ref := by
    rcases answers with fresh | ahead | flight | doomed
    · exact fresh
    · exact absurd ahead (not_ahead nofun nofun)
    · exact absurd flight (quiet_of_due inv joins due)
    · cases doomed
  refine ⟨fun _ => ?_, .inr (.inl ?_)⟩
  · linarith
  · rw [passes.after, after]
    exact ahead_scanning.2 listed

/-- When a heartbeat was sent, it is on its way, and the connection was not too old. -/
theorem heard_of_sent {start : ℚ} {key' : PyKey} {conn' : DeviceConnection} {rest : List PyKey}
    {dead : List (PyKey × Reason)} {text : JsonText}
    (sending : pc = .sending start key' conn' rest dead) (after : pc' = .scanning start rest dead)
    (log : hub' = s.world.hub.record [.sent conn'.websocket text])
    (heartbeat : (Frame.json text).type? = some .heartbeat) {key : PyKey}
    {conn : DeviceConnection} {last : ℚ} (daemon : s'.peer.isDaemon = true)
    (joins : s'.Joins env key conn) (mem : conn ∈ s'.beaten) (passed : s'.lastPass = some last) :
    s'.Heard env key conn last := by
  have flight (own : conn'.websocket = env.socket) : s'.InFlight := by
    refine .inl ⟨text, ?_, heartbeat⟩
    rw [serving.down, passes.hub, log]
    refine List.mem_append_right _ (List.mem_filterMap.2 ⟨.sent conn'.websocket text, ?_, ?_⟩)
    · show Event.sent conn'.websocket text ∈ (s.world.hub.log ++ [_]).drop s.world.hub.log.length
      rw [List.drop_left]
      exact List.mem_singleton_self _
    · exact if_pos own
  by_cases old : conn ∈ s.beaten
  · refine heard_of_quiet inv serving passes (sending ▸ nofun) (fun _ => old) ?_ ?_ daemon joins mem
      passed
    · rw [sending, after, ahead_scanning, ahead_sending]
      exact .inl
    · rw [sending, after, ahead_scanning, ahead_sending]
      rintro joined ((ahead | ⟨-, rfl⟩) | doomed)
      · exact .inl ahead
      · exact .inr (.inl (flight joined.2))
      · exact .inr (.inr doomed)
  · obtain rfl : conn = conn' := by
      rw [beaten_of_sending serving passes sending (congrArg ConnectionHub.log log)] at mem
      exact List.mem_singleton.1 ((List.mem_append.1 mem).resolve_left old)
    have passing := inv.passing
    rw [passes.before, sending] at passing
    obtain ⟨was, registered, young⟩ := passing
    obtain rfl : start = last := by
      rw [lastPass_of_awake serving passes (sending ▸ nofun), was] at passed
      exact Option.some.inj passed
    exact ⟨fun _ => young.trans (serving.mono inv (inv.world.sound.older conn registered)),
      .inr (.inr (.inl (flight joins.2)))⟩

omit inv in
theorem due_of_wakes (wakes : pc = .sleeping) : s.due env s'.clock = true := by
  rw [serving.now]
  refine serving.due rfl ?_
  unfold World.beginsPass
  rw [passes.here, wakes]

theorem heard_of_passes (fit : s.Fit env (.serve env.loop input)) {key : PyKey}
    {conn : DeviceConnection} {last : ℚ} (daemon : s'.peer.isDaemon = true)
    (joins : s'.Joins env key conn) (mem : conn ∈ s'.beaten) (passed : s'.lastPass = some last) :
    s'.Heard env key conn last := by
  have joined := serving.sub inv env.apart.symm joins
  have quiet := beaten_of_quiet serving passes
  have keyed := inv.keyed
  have here := passes.here
  have before := passes.before
  rw [before] at keyed
  cases passes.pulses with
  | wakes =>
    rw [serving.peer] at daemon
    rw [quiet (by simp)] at mem
    exact heard_of_wakes inv serving passes rfl rfl (due_of_wakes serving passes rfl) daemon
      joined mem passed
  | sent start key' conn' rest dead text heartbeat =>
    exact heard_of_sent inv serving passes rfl rfl rfl heartbeat daemon joins mem passed
  | failed start key' conn' rest dead =>
    have same : s'.beaten = s.beaten := beaten_of_sending serving passes rfl rfl
    refine heard_of_quiet inv serving passes (by simp) (same ▸ id) ?_ ?_ daemon joins mem passed
    · rw [ahead_scanning, ahead_sending]
      exact .inl
    · rw [ahead_scanning, ahead_sending]
      simp only [HeartbeatPc.doomed, List.map_append, List.map_cons, List.map_nil, List.mem_append,
        List.mem_singleton]
      rintro - ((ahead | ⟨rfl, -⟩) | doomed)
      · exact .inl ahead
      · exact .inr (.inr (.inr rfl))
      · exact .inr (.inr (.inl doomed))
  | scanned start dead =>
    refine heard_of_idle inv serving passes (by simp) (quiet (by simp) ▸ id) ?_
      (not_ahead (by simp) (by simp)) (fun _ doomed => doomed) daemon joins mem passed
    rw [ahead_scanning]
    exact List.not_mem_nil
  | @gone key' start rest dead stored =>
    refine heard_of_quiet inv serving passes (by simp) (quiet (by simp) ▸ id) ?_ ?_ daemon joins
      mem passed
    · rw [ahead_scanning, ahead_scanning]
      exact List.mem_cons_of_mem _
    · rw [ahead_scanning, ahead_scanning]
      rintro - (ahead | doomed)
      · rcases List.mem_cons.1 ahead with rfl | ahead
        · cases joined.1.symm.trans stored
        · exact .inl ahead
      · exact .inr (.inr doomed)
  | @late key' conn' start rest dead stored old =>
    refine heard_of_quiet inv serving passes (by simp) (quiet (by simp) ▸ id) ?_ ?_ daemon joins
      mem passed
    · rw [ahead_scanning, ahead_scanning]
      exact List.mem_cons_of_mem _
    · rw [ahead_scanning, ahead_scanning]
      rintro - (ahead | doomed)
      · rcases List.mem_cons.1 ahead with rfl | ahead
        · obtain rfl := Option.some.inj (joined.1.symm.trans stored)
          exact absurd old (not_lt.2 (young_of_fit inv fit here before joined))
        · exact .inl ahead
      · refine .inr (.inr ?_)
        rw [HeartbeatPc.doomed, List.map_append]
        exact List.mem_append_left _ doomed
  | @beats key' conn' start rest dead stored young =>
    refine heard_of_quiet inv serving passes (by simp) (quiet (by simp) ▸ id) ?_ ?_ daemon joins
      mem passed
    · rw [ahead_scanning, ahead_sending]
      rintro (ahead | ⟨rfl, -⟩)
      · exact List.mem_cons_of_mem _ ahead
      · exact List.mem_cons_self ..
    · rw [ahead_scanning, ahead_sending]
      rintro - (ahead | doomed)
      · rcases List.mem_cons.1 ahead with rfl | ahead
        · exact .inl (.inr ⟨rfl, Option.some.inj (stored.symm.trans joined.1)⟩)
        · exact .inl (.inl ahead)
      · exact .inr (.inr doomed)
  | sleeps =>
    exact heard_of_idle inv serving passes (by simp) (quiet (by simp) ▸ id)
      (not_ahead (by simp) (by simp)) (not_ahead (by simp) (by simp)) (fun _ doomed => doomed)
      daemon joins mem passed
  | cleans key' reason dead =>
    exact heard_of_idle inv serving passes (by simp) (quiet (by simp) ▸ id)
      (not_ahead (by simp) (by simp)) (not_ahead (by simp) (by simp)) (fun _ doomed => doomed)
      daemon joins mem passed
  | @disconnects key' reason _ _ _ dead step =>
    refine heard_of_idle inv serving passes (by simp) (quiet (by simp) ▸ id)
      (not_ahead (by simp) (by simp)) (not_ahead (by simp) (by simp)) (fun _ doomed => ?_) daemon
      joins mem passed
    have left : hub'.connections.get? key = some conn := passes.hub ▸ joins.1
    cases step with
    | removes answer free hash found =>
      rcases List.mem_cons.1 doomed with rfl | doomed
      · -- The connection that was registered under the id is not any more.
        obtain rfl := Option.some.inj ((keyed _ (List.mem_cons_self ..)).symm.trans hash)
        cases (Dict.get?_pop_self _ _).symm.trans left
      · exact doomed
  | @returns key' reason _ _ r dead step =>
    refine heard_of_idle inv serving passes (by simp) (quiet (by simp) ▸ id)
      (not_ahead (by simp) (by simp)) (not_ahead (by simp) (by simp)) (fun _ doomed => ?_) daemon
      joins mem passed
    cases step with
    | absent _ r absent =>
      rcases List.mem_cons.1 doomed with rfl | doomed
      · cases (absent _ (keyed _ (List.mem_cons_self ..))).symm.trans joined.1
      · exact doomed
    | closes old _ => exact doomed

theorem beaten_of_passes {conn : DeviceConnection} (mem : conn ∈ s'.beaten) :
    .registers conn ∈ s'.world.hub.log ∧ s'.lastPass ≠ none := by
  have quiet := beaten_of_quiet serving passes
  have kept (same : s'.beaten = s.beaten) (awake : pc ≠ .sleeping) :
      .registers conn ∈ s'.world.hub.log ∧ s'.lastPass ≠ none := by
    rw [same] at mem
    refine ⟨serving.logged inv (inv.beaten conn mem), ?_⟩
    rw [lastPass_of_awake serving passes awake]
    exact inv.passed conn mem
  cases passes.pulses with
  | wakes =>
    rw [quiet (by simp)] at mem
    refine ⟨serving.logged inv (inv.beaten conn mem), ?_⟩
    rw [lastPass_of_wakes serving passes rfl]
    exact Option.some_ne_none _
  | sent start key conn' rest dead text heartbeat =>
    have passing := inv.passing
    rw [passes.before] at passing
    rw [beaten_of_sending serving passes rfl rfl] at mem
    refine ⟨serving.logged inv ?_, ?_⟩
    · rcases List.mem_append.1 mem with mem | mem
      · exact inv.beaten conn mem
      · obtain rfl := List.mem_singleton.1 mem
        exact passing.2.1
    · rw [lastPass_of_awake serving passes (by simp), passing.1]
      exact Option.some_ne_none _
  | failed start key conn' rest dead =>
    exact kept (beaten_of_sending serving passes rfl rfl) (by simp)
  | scanned start dead | gone start rest dead stored | late start rest dead stored old
  | beats start rest dead stored young | sleeps | cleans key reason dead | disconnects dead step
  | returns dead step => exact kept (quiet (by simp)) (by simp)

theorem inv_serve_of_loop (fit : s.Fit env (.serve env.loop input)) : s'.Inv env where
  world := serving.world inv
  loops _ _ _ := serving.loops inv
  handler _ := serving.handler inv
  alone _ := serving.alone inv
  keyed := by
    have keyed := inv.keyed
    rw [passes.before] at keyed
    rw [passes.after]
    exact keyed_of_pulses passes.pulses inv.world.sound.keys keyed
  has := (serving.has inv).1
  spared := spared_of_passes inv passes
  doomed _ _ _ := doomed_of_passes inv serving passes fit
  times := serving.times inv
  born _ _ := serving.born inv
  awaited _ _ _ _ := serving.awaited inv
  beaten _ mem := (beaten_of_passes inv serving passes mem).1
  passed _ mem := (beaten_of_passes inv serving passes mem).2
  past last passed := by
    by_cases wakes : pc = .sleeping
    · rw [lastPass_of_wakes serving passes wakes] at passed
      exact (Option.some.inj passed).ge
    · rw [lastPass_of_awake serving passes wakes] at passed
      exact (inv.past last passed).trans serving.later
  passing := passing_of_passes inv serving passes
  heard daemon _ _ _ := heard_of_passes inv serving passes fit daemon

end Passes

/-! ## Runs -/

theorem inv_step (inv : s.Inv env) {a : LinkAction} (fit : s.Fit env a)
    (h : s.step env a = some s') : s'.Inv env := by
  cases a with
  | start u call => exact inv_start inv h
  | deliver l now later => exact inv_deliver inv h
  | elsewhere peer frames => exact inv_elsewhere inv h
  | serve u input =>
    have serving := serving_of_step h
    by_cases loop : u = env.loop
    · subst loop
      obtain ⟨answer, pc, hub', pc', passes⟩ := passes_of_serving inv serving
      exact inv_serve_of_loop inv serving passes fit
    · exact inv_serve_of_ne inv serving loop fit

/-- However long a run whose steps are `Fit` is, the client is not disconnected for a timeout. -/
theorem spared_of_fit (env : LinkEnv) (peer : Peer) (clock : ℚ) (as : List LinkAction)
    (fit : Machine.Along (step env) (Fit env) (init peer clock) as) :
    Machine.Throughout (step env) (Spared env) (init peer clock) as :=
  Machine.throughout_of_along (fun _ inv => inv.spared) (fun _ _ _ fit inv => inv_step inv fit)
    (inv_init env peer clock) fit

/-- A server and a client at the socket `0`. -/
def sampleLink : LinkEnv where
  srv := ⟨plainText, .builtin⟩
  daemon := CpipDaemon.sampleEnv
  runtime := ⟨fun _ => .ok .none, none, none⟩
  py := plainText
  ids := tallyIds
  socket := 0
  loop := 1
  interval := 30
  apart := by decide
  positive := by decide

/-- The input at an awaited call that returns at `now`. -/
def input (now : ℚ) : Input := { Input.io .ok with measured := ⟨⟨"", now⟩, .finite 0, ""⟩ }

/-- The client connects. -/
def opening : List LinkAction :=
  [.start 0 .endpoint, .serve 0 (input 0), .serve 0 (input 0), .start 1 (.heartbeatLoop 30)]

/-- A pass sends a heartbeat, which the client gets. -/
def pass (now : ℚ) : List LinkAction :=
  [.serve 1 (input now), .serve 1 (input now), .serve 1 (input now), .deliver 0 now now,
    .serve 1 (input now), .serve 1 (input now)]

/-- The connections are the same, and registered under a text. -/
def sameConn (a b : DeviceConnection) : Bool :=
  a.deviceId.asStr?.isSome && decide (a.deviceId.asStr? = b.deviceId.asStr?) &&
    decide ((a.ref, a.websocket, a.connectedAt) = (b.ref, b.websocket, b.connectedAt))

theorem eq_of_sameConn {a b : DeviceConnection} (same : sameConn a b = true) : a = b := by
  obtain ⟨named, rest⟩ := Bool.and_eq_true_iff.1 same
  obtain ⟨text, ids⟩ := Bool.and_eq_true_iff.1 named
  obtain ⟨id, here⟩ := Option.isSome_iff_exists.1 text
  have there : b.deviceId.asStr? = some id := (of_decide_eq_true ids).symm.trans here
  have fields := of_decide_eq_true rest
  cases a
  cases b
  simp_all [PyVal.asStr?_eq_some_iff]

/-- Only young connections are looked at, or those of a daemon that were sent a heartbeat before,
and none were found too old. -/
def Fresh (s : Link) : LinkAction → Prop
  | .serve u _ =>
    (∀ look ∈ s.world.looksAt u, look.start - look.conn.connectedAt ≤ look.interval * 3 ∨
      s.peer.isDaemon = true ∧ (s.beaten.any (sameConn look.conn)) = true) ∧
      ((s.world.loopPc 1).doomed.isEmpty = true)
  | _ => True

instance (s : Link) (a : LinkAction) : Decidable (s.Fresh a) :=
  match a with
  | .serve _ _ => inferInstanceAs (Decidable (_ ∧ _))
  | .start _ _ | .deliver _ _ _ | .elsewhere _ _ => inferInstanceAs (Decidable True)

theorem fit_of_fresh (s : Link) (a : LinkAction) (fresh : s.Fresh a) : s.Fit sampleLink a := by
  cases a with
  | serve u input =>
    refine ⟨fun look looks _ => (fresh.1 look looks).imp_right fun h => ⟨h.1, ?_⟩,
      fun _ _ _ _ _ _ _ doomed => ?_⟩
    · obtain ⟨conn, mem, same⟩ := List.any_eq_true.1 h.2
      exact eq_of_sameConn same ▸ mem
    · have none : (s.world.loopPc 1).doomed = [] := List.isEmpty_iff.1 fresh.2
      exact absurd (none ▸ doomed) List.not_mem_nil
  | start u call | deliver l now later | elsewhere peer frames => trivial

/-- A pass, after which the handler reads the frame that the client answered with. -/
def heard (now : ℚ) : List LinkAction :=
  pass now ++ [.serve 0 { input (now + 1) with received := some .notJson }]

/-- The daemon gets heartbeats and acknowledges them, for five intervals. -/
theorem spared_of_fit_daemon :
    (Machine.run (step sampleLink) (init (.daemon .sample) 0)
      (opening ++ heard 30 ++ heard 60 ++ heard 90 ++ heard 120 ++ pass 150)).isSome = true ∧
    Machine.Throughout (step sampleLink) (Spared sampleLink) (init (.daemon .sample) 0)
      (opening ++ heard 30 ++ heard 60 ++ heard 90 ++ heard 120 ++ pass 150) :=
  ⟨by decide +kernel,
    spared_of_fit sampleLink (.daemon .sample) 0 _ (.imp fit_of_fresh (by decide +kernel))⟩

/-- A session that is connected and reads its socket. -/
def listening : Session := (Session.init "session").opens.setLoop 0 (.iterating 0)

/-- The session gets three heartbeats, and the next pass disconnects it. -/
def silentRun : List LinkAction :=
  opening ++ pass 30 ++ pass 60 ++ pass 90 ++ List.replicate 5 (.serve 1 (input 120))

def timedOut (s : Link) : Bool := s.world.hub.log.any fun
  | .unregisters conn (.disconnect reason) => reason.isTimeout && conn.websocket = 0
  | _ => false

theorem session_not_spared : ¬ ∀ (env : LinkEnv) (peer : Peer) (clock : ℚ) (as : List LinkAction),
    Machine.Throughout (step env) (Spared env) (init peer clock) as := by
  intro claim
  have disconnected : (Machine.run (step sampleLink) (init (.session listening) 0) silentRun).map
      timedOut = some true := by decide +kernel
  obtain ⟨s, ran, timedOut⟩ := Option.map_eq_some_iff.1 disconnected
  have spared : s.Spared sampleLink := (claim sampleLink _ _ silentRun).last ran
  obtain ⟨e, mem, timesOut⟩ := List.any_eq_true.1 timedOut
  refine spared e mem ?_
  split at timesOut
  · next conn reason =>
    obtain ⟨timeout, own⟩ := Bool.and_eq_true_iff.1 timesOut
    exact ⟨timeout, of_decide_eq_true own⟩
  · cases timesOut

end Link

end Cpip
