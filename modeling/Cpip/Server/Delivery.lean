import Cpip.Server.Turns

/-!
# What a broadcast delivers (`server/ws/hub.py`)

Each id that the hub has when the broadcast starts has its turn once, and is sent the message when
the hub still has a connection for it then.  Other tasks run between any two steps, and a failed
send removes whatever connection the id has by the time the lock is free.
-/

namespace Cpip

open ConnectionHub (Broadcast SendPc)

namespace Noted

variable {srv : Server} {t : ℕ} {s s' : Noted} {a : Action}

/-! ## Turns along a run -/

/-- How far the broadcast is agrees with what was seen of it. -/
inductive Stage (s : Noted) : Task → Prop
  | running {b : Broadcast} (keyed : b.Keyed) (counted : s.succeeded.length = b.sent)
    (returned : s.returned = []) : Stage s (.broadcast b)
  | done (returned : s.returned = [s.succeeded.length]) : Stage s .done

def Follows (t : ℕ) (s : Noted) : Prop := ∃ task, s.world.tasks t = some task ∧ Stage s task

/-- From `s` to `s'` the ids `turned` have their turns, and those in `sent` are sent to. -/
structure Advanced (t : ℕ) (turned sent : List PyKey) (s s' : Noted) : Prop where
  pending : s.world.pending t = turned ++ s'.world.pending t
  attempted : s'.attempted = s.attempted ++ sent
  sublist : sent.Sublist turned

theorem Advanced.refl (t : ℕ) (s : Noted) : Advanced t [] [] s s :=
  ⟨rfl, (List.append_nil _).symm, List.Sublist.refl _⟩

theorem Advanced.trans {s₁ s₂ s₃ : Noted} {turned sent turned' sent' : List PyKey}
    (first : Advanced t turned sent s₁ s₂) (second : Advanced t turned' sent' s₂ s₃) :
    Advanced t (turned ++ turned') (sent ++ sent') s₁ s₃ where
  pending := by rw [first.pending, second.pending, List.append_assoc]
  attempted := by rw [second.attempted, first.attempted, List.append_assoc]
  sublist := first.sublist.append second.sublist

/-- The turns that a step has: one, at the id that the broadcast comes to, which is sent to when the
hub has a connection for it; or none. -/
inductive Came (t : ℕ) (s : Noted) : Action → List PyKey → List PyKey → Prop
  | turn {key : PyKey} {input : Input} (here : s.world.ComesTo t key) :
    Came t s (.step t input) [key]
      (if (s.world.hub.connections.get? key).isSome then [key] else [])
  | none {a : Action} (away : ∀ input key, a = .step t input → ¬ s.world.ComesTo t key) :
    Came t s a [] []

theorem Stage.congr {task : Task} (same : s'.notes = s.notes) (h : Stage s task) :
    Stage s' task := by
  obtain ⟨w, notes⟩ := s
  obtain ⟨w', notes'⟩ := s'
  obtain rfl : notes' = notes := same
  cases h with
  | running keyed counted returned => exact .running keyed counted returned
  | done returned => exact .done returned

theorem not_comesTo_of_current {w : World} {b : Broadcast} (here : w.tasks t = some (.broadcast b))
    (busy : b.current ≠ none) (key : PyKey) : ¬ w.ComesTo t key := by
  rintro ⟨b', rest, here', current, -⟩
  cases here.symm.trans here'
  exact busy current

/-- A step in which the broadcast neither comes to an id nor calls `send_text`. -/
theorem Advanced.of_still {notes : List Note} (seen : s'.notes = s.notes ++ notes)
    (quiet : notes.filterMap Note.attempted = [])
    (pending : s'.world.pending t = s.world.pending t) : Advanced t [] [] s s' where
  pending := pending.symm
  attempted := by
    unfold Noted.attempted
    rw [seen, List.filterMap_append, quiet]
  sublist := List.Sublist.refl _

/-- What a turn of the broadcast keeps. -/
theorem Stage.turns {b : Broadcast} {notes : List Note} {hub : ConnectionHub}
    {p : Progress Broadcast ℕ} (stage : Stage s (.broadcast b))
    (turns : ConnectionHub.Turns s.world.hub t b notes hub p) (seen : s'.notes = s.notes ++ notes) :
    Stage s' (.ofProgress p) := by
  cases stage with
  | running keyed counted returned =>
    have counted' : s'.succeeded = s.succeeded ++ notes.filterMap Note.succeeded := by
      unfold Noted.succeeded
      rw [seen, List.filterMap_append]
    have returned' : s'.returned = notes.filterMap Note.returned := by
      unfold Noted.returned at returned ⊢
      rw [seen, List.filterMap_append, returned, List.nil_append]
    have still (silent : notes.filterMap Note.succeeded = []) :
        s'.succeeded.length = b.sent := by
      rw [counted', silent, List.append_nil, counted]
    have keep {key : PyKey} {pc : SendPc} (current : b.current = some (key, pc)) (pc' : SendPc) :
        Broadcast.Keyed { b with current := some (key, pc') } := by
      refine ⟨keyed.1, fun k pc'' same => ?_⟩
      cases same
      exact keyed.2 _ pc current
    cases turns with
    | returns current rest =>
      refine .done (returned'.trans ?_)
      rw [still rfl]
      rfl
    | skips current next stored =>
      exact .running ⟨fun k mem => keyed.1 k (next ▸ List.mem_cons_of_mem _ mem), nofun⟩
        (still rfl) returned'
    | @attempts key rest conn current next stored =>
      refine .running ⟨fun k mem => keyed.1 k (next ▸ List.mem_cons_of_mem _ mem), ?_⟩
        (still rfl) returned'
      intro k pc same
      cases same
      exact keyed.1 key (next ▸ List.mem_cons_self ..)
    | succeeds text current =>
      refine .running ⟨keyed.1, nofun⟩ ?_ returned'
      rw [counted', List.length_append, counted]
      rfl
    | fails current => exact .running (keep current _) (still rfl) returned'
    | gone current stored => exact .running ⟨keyed.1, nofun⟩ (still rfl) returned'
    | removes current stored => exact .running (keep current _) (still rfl) returned'
    | closes answer current => exact .running ⟨keyed.1, nofun⟩ (still rfl) returned'

/-- The id whose turn it is, if it is a turn, and whether it is sent to. -/
theorem advanced_turns {b : Broadcast} {notes : List Note} {hub : ConnectionHub}
    {p : Progress Broadcast ℕ} {input : Input} (here : s.world.tasks t = some (.broadcast b))
    (turns : ConnectionHub.Turns s.world.hub t b notes hub p)
    (here' : s'.world.tasks t = some (.ofProgress p)) (seen : s'.notes = s.notes ++ notes) :
    ∃ turned sent, Advanced t turned sent s s' ∧ Came t s (.step t input) turned sent := by
  have pending : s.world.pending t = b.rest := World.pending_of_broadcast here
  have busy (current : b.current ≠ none) : Came t s (.step t input) [] [] :=
    .none fun _ key _ => not_comesTo_of_current here current key
  cases turns with
  | returns current rest =>
    refine ⟨[], [], .of_still seen rfl ?_, .none ?_⟩
    · rw [pending, rest]
      exact World.pending_of_done here'
    · rintro _ key - ⟨b', rest', same, -, next⟩
      cases here.symm.trans same
      rw [rest] at next
      cases next
  | @skips key rest current next stored =>
    refine ⟨[key], _, ⟨?_, ?_, ?_⟩, .turn ⟨b, rest, here, current, next⟩⟩
    · rw [pending, next]
      exact congrArg _ (World.pending_of_broadcast here').symm
    · rw [stored]
      unfold attempted
      rw [seen, List.filterMap_append]
      rfl
    · rw [stored]
      exact List.nil_sublist _
  | @attempts key rest conn current next stored =>
    refine ⟨[key], _, ⟨?_, ?_, ?_⟩, .turn ⟨b, rest, here, current, next⟩⟩
    · rw [pending, next]
      exact congrArg _ (World.pending_of_broadcast here').symm
    · rw [stored]
      unfold attempted
      rw [seen, List.filterMap_append]
      rfl
    · rw [stored]
      exact List.Sublist.refl _
  | succeeds text current | fails current | gone current stored | removes current stored
  | closes answer current =>
    have same : s'.world.pending t = s.world.pending t :=
      (World.pending_of_broadcast here').trans pending.symm
    exact ⟨[], [], .of_still seen rfl same, busy (by rw [current]; exact nofun)⟩

theorem advanced_step (follows : Follows t s) (h : step srv t s a = some s') :
    Follows t s' ∧ ∃ turned sent, Advanced t turned sent s s' ∧ Came t s a turned sent := by
  obtain ⟨task, here, stage⟩ := follows
  by_cases own : ∃ input, a = .step t input
  · obtain ⟨input, rfl⟩ := own
    cases stage with
    | @running b keyed counted returned =>
      obtain ⟨notes, p, turns, here', seen⟩ := step_own here keyed h
      exact ⟨⟨_, here', (Stage.running keyed counted returned).turns turns seen⟩,
        advanced_turns here turns here' seen⟩
    | done returned => exact absurd h (by rw [step_done here]; exact nofun)
  · have other : ∀ input, a ≠ .step t input := fun input same => own ⟨input, same⟩
    obtain ⟨same, unseen⟩ := step_other here other h
    have pending : s'.world.pending t = s.world.pending t := by
      unfold World.pending
      rw [same]
    exact ⟨⟨task, same.trans here, stage.congr unseen⟩, [], [],
      .of_still (unseen.trans (List.append_nil _).symm) rfl pending,
      .none fun input _ step => absurd step (other input)⟩

/-- The broadcast comes to the id in the course of the actions. -/
def HasTurn (srv : Server) (t : ℕ) (s : Noted) (actions : List Action) (key : PyKey) : Prop :=
  ∃ before input after s₁, actions = before ++ .step t input :: after ∧
    Machine.run (step srv t) s before = some s₁ ∧ s₁.world.ComesTo t key

theorem HasTurn.cons {actions : List Action} {key : PyKey} (next : step srv t s a = some s')
    (h : HasTurn srv t s' actions key) : HasTurn srv t s (a :: actions) key := by
  obtain ⟨before, input, after, s₁, rfl, ran, comes⟩ := h
  exact ⟨a :: before, input, after, s₁, rfl, (Machine.run_cons_eq_some _).2 ⟨s', next, ran⟩, comes⟩

theorem advanced_run {actions : List Action} (follows : Follows t s)
    (ran : Machine.run (step srv t) s actions = some s') :
    Follows t s' ∧ ∃ turned sent, Advanced t turned sent s s' ∧
      ∀ key ∈ turned, HasTurn srv t s actions key := by
  induction actions generalizing s with
  | nil =>
    obtain rfl := Option.some.inj ran
    exact ⟨follows, [], [], .refl t s, nofun⟩
  | cons a actions ih =>
    obtain ⟨s₁, first, ran⟩ := (Machine.run_cons_eq_some _).1 ran
    obtain ⟨follows₁, turned, sent, advanced, came⟩ := advanced_step follows first
    obtain ⟨follows', turned', sent', advanced', turns⟩ := ih follows₁ ran
    refine ⟨follows', _, _, advanced.trans advanced', fun key mem => ?_⟩
    rcases List.mem_append.1 mem with mem | mem
    · cases came with
      | turn here =>
        obtain rfl := List.mem_singleton.1 mem
        exact ⟨[], _, actions, s, rfl, rfl, here⟩
      | none away => cases mem
    · exact (turns key mem).cons first

/-- The broadcast that starts has all ids before it. -/
theorem follows_start {w : World} {message : RPCMessage} {s : Noted}
    (keyed : ∀ key ∈ w.hub.connections.keys, (PyVal.ofKey key).hash? = some key)
    (h : step srv t ⟨w, []⟩ (.start t (.broadcast message)) = some s) :
    Follows t s ∧ s.notes = [] ∧ s.world.hub = w.hub ∧
      s.world.tasks t = some (.broadcast (w.hub.broadcast message)) := by
  obtain ⟨w', hw, rfl⟩ := Option.map_eq_some_iff.1 h
  unfold World.step at hw
  dsimp only at hw
  split at hw
  · cases hw
    have here := Function.update_self t (some (Task.broadcast (w.hub.broadcast message))) w.tasks
    exact ⟨⟨_, here, .running ⟨keyed, nofun⟩ rfl rfl⟩, rfl, rfl, here⟩
  · cases hw

/-! ## A broadcast without other tasks -/

/-- The `send_to_device` that the task is in. -/
def current : Task → Option (PyKey × SendPc)
  | .broadcast b => b.current
  | _ => none

/-- The id whose send failed and whose connection is still to be removed. -/
def failing : Option (PyKey × SendPc) → List PyKey
  | some (key, .disconnecting _ .locking) => [key]
  | _ => []

/-- The registry is the one at the start without the ids that failed. -/
def Reduced (start : Dict PyKey DeviceConnection) (s : Noted) (task : Task) : Prop :=
  ∃ out, s.failed = out ++ failing (current task) ∧
    s.world.hub.connections = start.filter (· ∉ out)

theorem Reduced.turns {start : Dict PyKey DeviceConnection} {b : Broadcast} {notes : List Note}
    {hub : ConnectionHub} {p : Progress Broadcast ℕ} (reduced : Reduced start s (.broadcast b))
    (turns : ConnectionHub.Turns s.world.hub t b notes hub p) (after : s'.world.hub = hub)
    (seen : s'.notes = s.notes ++ notes) : Reduced start s' (.ofProgress p) := by
  obtain ⟨out, failed, registry⟩ := reduced
  have failed' : s'.failed = s.failed ++ notes.filterMap Note.failed := by
    unfold Noted.failed
    rw [seen, List.filterMap_append]
  have keep {next : Task} (same : hub.connections = s.world.hub.connections)
      (silent : notes.filterMap Note.failed = [])
      (still : failing (current next) = failing b.current) : Reduced start s' next := by
    refine ⟨out, ?_, ?_⟩
    · rw [failed', silent, List.append_nil, failed, still]
      rfl
    · rw [after, same, registry]
  have remove {key : PyKey} {conn : DeviceConnection} {next : Task}
      (before : b.current = some (key, .disconnecting conn .locking))
      (popped : hub.connections = s.world.hub.connections.pop key)
      (silent : notes.filterMap Note.failed = [])
      (rests : failing (current next) = []) : Reduced start s' next := by
    refine ⟨out ++ [key], ?_, ?_⟩
    · rw [failed', silent, failed, rests, List.append_nil, List.append_nil]
      exact congrArg (fun c => out ++ failing c) before
    · rw [after, popped, registry, Dict.pop_filter]
      congr 1
      funext j
      simp [not_or]
  cases turns with
  | returns before rest => exact keep rfl rfl (congrArg failing before.symm)
  | skips before next stored => exact keep rfl rfl (congrArg failing before.symm)
  | attempts before next stored =>
    refine keep rfl rfl ?_
    rw [before]
    rfl
  | succeeds text before =>
    refine keep rfl rfl ?_
    rw [before]
    rfl
  | @fails key conn before =>
    refine ⟨out, ?_, after ▸ registry⟩
    rw [failed', failed]
    show (out ++ failing b.current) ++ [key] = out ++ [key]
    rw [before]
    exact congrArg (· ++ [key]) (List.append_nil out)
  | gone before stored => exact remove before (Dict.pop_of_get?_eq_none stored).symm rfl rfl
  | removes before stored => exact remove before rfl rfl rfl
  | closes answer before =>
    refine keep (ConnectionHub.closed_connections _ _ _) rfl ?_
    rw [before]
    rfl

theorem reduced_run {start : Dict PyKey DeviceConnection} {actions : List Action}
    (alone : ∀ a ∈ actions, ∃ input, a = .step t input) (follows : Follows t s)
    (reduced : ∀ task, s.world.tasks t = some task → Reduced start s task)
    (ran : Machine.run (step srv t) s actions = some s') :
    ∀ task, s'.world.tasks t = some task → Reduced start s' task := by
  refine (Machine.invariant_along (P := fun _ a => ∃ input, a = .step t input)
    (I := fun s => Follows t s ∧ ∀ task, s.world.tasks t = some task → Reduced start s task)
    ?_ ⟨follows, reduced⟩ (Machine.along_of_forall_mem alone s) ran).2
  rintro s a s' ⟨input, rfl⟩ ⟨follows, reduced⟩ h
  refine ⟨(advanced_step follows h).1, ?_⟩
  obtain ⟨task, here, stage⟩ := follows
  cases stage with
  | running keyed counted returned =>
    obtain ⟨notes, p, turns, here', seen⟩ := step_own here keyed h
    intro task same
    obtain rfl := Option.some.inj (here'.symm.trans same)
    exact (reduced _ here).turns turns rfl seen
  | done returned => exact absurd h (by rw [step_done here]; exact nofun)

/-- The broadcast can go on: the lock is free, or it has the lock. -/
def Ready (hub : ConnectionHub) (b : Broadcast) : Prop :=
  hub.lock = none ∨ ∃ key conn old, b.current = some (key, .disconnecting conn (.closing old))

theorem Ready.free {hub : ConnectionHub} {b : Broadcast} (ready : Ready hub b)
    (away : ∀ key conn old, b.current ≠ some (key, .disconnecting conn (.closing old))) :
    hub.lock = none :=
  ready.resolve_right fun ⟨key, conn, old, current⟩ => away key conn old current

theorem Ready.exists_step {hub : ConnectionHub} {b : Broadcast} (ready : Ready hub b)
    (keyed : b.Keyed) (py : PyText) (answer : Answer) :
    ∃ r, hub.broadcastStep py t b answer = some r := by
  obtain ⟨message, rest, sent, current⟩ := b
  unfold ConnectionHub.broadcastStep
  cases current with
  | none =>
    cases rest with
    | nil => exact ⟨_, rfl⟩
    | cons key rest =>
      dsimp only
      cases hub.sendToDevice (.ofKey key) <;> exact ⟨_, rfl⟩
  | some turn =>
    obtain ⟨key, pc⟩ := turn
    dsimp only
    unfold ConnectionHub.sendToDeviceStep
    cases pc with
    | sending conn =>
      dsimp only
      cases message.toJson py with
      | error e => exact ⟨_, rfl⟩
      | ok text => cases answer <;> exact ⟨_, rfl⟩
    | disconnecting conn pc =>
      cases pc with
      | closing old => exact ⟨_, rfl⟩
      | locking =>
        dsimp only
        rw [ConnectionHub.disconnectStep_locking_ofKey (keyed.2 key _ rfl),
          if_pos (ready.free fun _ _ _ => nofun)]
        cases hub.connections.get? key <;> exact ⟨_, rfl⟩

/-- The steps that a broadcast without other tasks still has to make. -/
def remaining (b : Broadcast) : ℕ :=
  4 * b.rest.length +
    match b.current with
    | none => 0
    | some (_, .disconnecting _ (.closing _)) => 1
    | some (_, .disconnecting _ .locking) => 2
    | some (_, .sending _) => 3

theorem Ready.turns {hub hub' : ConnectionHub} {b b' : Broadcast} {notes : List Note}
    (ready : Ready hub b) (turns : ConnectionHub.Turns hub t b notes hub' (.suspended b')) :
    Ready hub' b' ∧ remaining b' < remaining b := by
  have free (away : ∀ key conn old, b.current ≠ some (key, .disconnecting conn (.closing old))) :
      hub.lock = none := ready.free away
  unfold remaining
  cases turns with
  | skips before next stored | attempts before next stored =>
    refine ⟨.inl (free fun _ _ _ => by rw [before]; exact nofun), ?_⟩
    rw [before, next, List.length_cons]
    dsimp only
    omega
  | succeeds text before | fails before | gone before stored =>
    refine ⟨.inl (free fun _ _ _ => by rw [before]; exact nofun), ?_⟩
    rw [before]
    dsimp only
    omega
  | removes before stored =>
    refine ⟨.inr ⟨_, _, _, rfl⟩, ?_⟩
    rw [before]
    dsimp only
    omega
  | closes answer before =>
    refine ⟨.inl rfl, ?_⟩
    rw [before]
    dsimp only
    omega

theorem Ready.exists_next {b : Broadcast} (ready : Ready s.world.hub b)
    (here : s.world.tasks t = some (.broadcast b)) (keyed : b.Keyed) (input : Input) :
    ∃ s', step srv t s (.step t input) = some s' := by
  obtain ⟨r, hr⟩ := ready.exists_step keyed srv.py input.answer (t := t)
  unfold step World.step
  dsimp only
  rw [here]
  unfold Option.bind World.runTask
  dsimp only
  rw [hr]
  exact ⟨_, rfl⟩

/-- Without other tasks, the broadcast returns, whichever sends fail. -/
theorem returns_alone (srv : Server) {s : Noted} {b : Broadcast}
    (here : s.world.tasks t = some (.broadcast b)) (stage : Stage s (.broadcast b))
    (ready : Ready s.world.hub b) (inputs : ℕ → Input) :
    ∃ k s', Machine.run (step srv t) s ((List.range k).map fun i => .step t (inputs i)) = some s' ∧
      s'.world.tasks t = some .done := by
  induction n : remaining b using Nat.strong_induction_on generalizing s b inputs with
  | h n ih =>
    have keyed : b.Keyed := by
      cases stage with
      | running keyed counted returned => exact keyed
    obtain ⟨s₁, next⟩ := ready.exists_next here keyed (inputs 0)
    obtain ⟨notes, p, turns, here', seen⟩ := step_own here keyed next
    cases p with
    | returned r => exact ⟨1, s₁, (Machine.run_cons_eq_some _).2 ⟨s₁, next, rfl⟩, here'⟩
    | suspended b' =>
      obtain ⟨ready', fewer⟩ := ready.turns turns
      obtain ⟨k, s', ran, done⟩ :=
        ih _ (n ▸ fewer) here' (stage.turns turns seen) ready' (fun i => inputs (i + 1)) rfl
      refine ⟨k + 1, s', ?_, done⟩
      rw [List.range_succ_eq_map, List.map_cons, List.map_map]
      exact (Machine.run_cons_eq_some _).2 ⟨s₁, next, ran⟩

/-! ## A whole broadcast -/

theorem Came.of_comesTo {input : Input} {turned sent : List PyKey} {key : PyKey}
    (came : Came t s (.step t input) turned sent) (comes : s.world.ComesTo t key) :
    turned = [key] ∧
      sent = if (s.world.hub.connections.get? key).isSome then [key] else [] := by
  cases came with
  | turn here =>
    obtain ⟨b, rest, task, -, next⟩ := here
    obtain ⟨b', rest', task', -, next'⟩ := comes
    cases task.symm.trans task'
    obtain ⟨rfl, -⟩ := List.cons.inj (next.symm.trans next')
    exact ⟨rfl, rfl⟩
  | none away => exact absurd comes (away input key rfl)

/-- An id has one turn among distinct ids, so it is sent to as often as in that turn. -/
theorem count_of_turn {key : PyKey} {turned₁ turned₂ sent₁ sent₂ rest : List PyKey}
    (distinct : (turned₁ ++ [key] ++ turned₂ ++ rest).Nodup) (before : sent₁.Sublist turned₁)
    (after : sent₂.Sublist turned₂) (p : Bool) :
    (sent₁ ++ (if p then [key] else []) ++ sent₂).count key = if p then 1 else 0 := by
  obtain ⟨first, -, later⟩ := List.nodup_append.1 (List.nodup_append.1 distinct).1
  obtain ⟨-, -, earlier⟩ := List.nodup_append.1 first
  have not₁ : key ∉ sent₁ := fun mem =>
    earlier key (before.subset mem) key (List.mem_singleton_self key) rfl
  have not₂ : key ∉ sent₂ := fun mem =>
    later key (List.mem_append_right _ (List.mem_singleton_self key)) key (after.subset mem) rfl
  rw [List.count_append, List.count_append, List.count_eq_zero_of_not_mem not₁,
    List.count_eq_zero_of_not_mem not₂]
  cases p <;> simp

/-- From a hub whose lock is free a broadcast without other tasks returns. -/
theorem broadcast_returns (srv : Server) {w : World} (keyed : w.hub.Keyed)
    (free : w.hub.lock = Option.none) (unused : w.tasks t = Option.none) (message : RPCMessage)
    (inputs : ℕ → Input) : ∃ k s n, Machine.run (step srv t) ⟨w, []⟩
      (.start t (.broadcast message) :: (List.range k).map fun i => .step t (inputs i)) = some s ∧
        .returns n ∈ s.notes := by
  obtain ⟨s₀, first⟩ : ∃ s₀, step srv t ⟨w, []⟩ (.start t (.broadcast message)) = some s₀ := by
    unfold step World.step
    dsimp only
    rw [unused]
    exact ⟨_, rfl⟩
  obtain ⟨follows, -, hub, here⟩ := follows_start keyed first
  obtain ⟨task, same, stage⟩ := follows
  obtain rfl := Option.some.inj (here.symm.trans same)
  obtain ⟨k, s, ran, done⟩ :=
    returns_alone srv here stage (.inl ((congrArg ConnectionHub.lock hub).trans free)) inputs
  obtain ⟨⟨task, here', stage'⟩, -⟩ := advanced_run ⟨_, here, stage⟩ ran
  obtain rfl := Option.some.inj (done.symm.trans here')
  cases stage' with
  | done returned =>
    refine ⟨k, s, s.succeeded.length, (Machine.run_cons_eq_some _).2 ⟨s₀, first, ran⟩, ?_⟩
    exact mem_returned_iff.1 (returned ▸ List.mem_singleton_self _)

/-- A broadcast among any other tasks sends only to ids that were there when it started and to each
of them at most once; to the one whose turn it is exactly when the id is registered then; the number
that it returns is that of the sends that succeeded, all ids having had their turn; and without
other tasks it takes exactly the ids out of the registry whose send failed. -/
theorem broadcast_delivers {srv : Server} {t : ℕ} {message : RPCMessage} {w : World}
    {actions : List Action} {s : Noted} (keyed : w.hub.Keyed)
    (ran : Machine.run (step srv t) ⟨w, []⟩ (.start t (.broadcast message) :: actions) = some s) :
    (s.attempted.Nodup ∧ ∀ key ∈ s.attempted, key ∈ w.hub.connections.keys) ∧
      (∀ before input after s₁ key, actions = before ++ .step t input :: after →
        Machine.run (step srv t) ⟨w, []⟩ (.start t (.broadcast message) :: before) = some s₁ →
          s₁.world.ComesTo t key → s.attempted.count key =
            if (s₁.world.hub.connections.get? key).isSome then 1 else 0) ∧
      ∀ n, .returns n ∈ s.notes → n = s.succeeded.length ∧
        (∀ key ∈ w.hub.connections.keys, ∃ before input after s₁,
          actions = before ++ .step t input :: after ∧
            Machine.run (step srv t) ⟨w, []⟩ (.start t (.broadcast message) :: before) = some s₁ ∧
              s₁.world.ComesTo t key) ∧
        ((∀ a ∈ actions, ∃ input, a = .step t input) →
          s.world.hub.connections = w.hub.connections.filter (· ∉ s.failed)) := by
  obtain ⟨s₀, first, ran⟩ := (Machine.run_cons_eq_some _).1 ran
  obtain ⟨follows, unseen, hub, here⟩ := follows_start keyed first
  have pending : s₀.world.pending t = w.hub.connections.keys := World.pending_of_broadcast here
  have distinct : w.hub.connections.keys.Nodup := w.hub.connections.nodup
  have none : s₀.attempted = [] := by
    unfold attempted
    rw [unseen]
    rfl
  obtain ⟨follows', turned, sent, advanced, turns⟩ := advanced_run follows ran
  have all := pending.symm.trans advanced.pending
  have attempted : s.attempted = sent := advanced.attempted.trans (by rw [none, List.nil_append])
  have ahead : s.attempted.Sublist w.hub.connections.keys := by
    rw [attempted, all]
    exact advanced.sublist.trans (List.sublist_append_left _ _)
  refine ⟨⟨distinct.sublist ahead, fun key mem => ahead.subset mem⟩, ?_, fun n mem => ?_⟩
  · rintro before input after s₁ key rfl ran₁ comes
    obtain ⟨s₀', first', ran₁⟩ := (Machine.run_cons_eq_some _).1 ran₁
    obtain rfl := Option.some.inj (first.symm.trans first')
    rw [Machine.run_append, ran₁] at ran
    obtain ⟨s₂, next, ran₂⟩ := (Machine.run_cons_eq_some _).1 ran
    obtain ⟨follows₁, turned₁, sent₁, advanced₁, -⟩ := advanced_run follows ran₁
    obtain ⟨follows₂, turned₂, sent₂, advanced₂, came⟩ := advanced_step follows₁ next
    obtain ⟨-, turned₃, sent₃, advanced₃, -⟩ := advanced_run follows₂ ran₂
    obtain ⟨rfl, rfl⟩ := came.of_comesTo comes
    have whole := (advanced₁.trans advanced₂).trans advanced₃
    rw [whole.attempted, none, List.nil_append]
    rw [← pending, whole.pending] at distinct
    exact count_of_turn distinct advanced₁.sublist advanced₃.sublist _
  · have mem' := mem_returned_iff.2 mem
    obtain ⟨task, here', stage⟩ := follows'
    cases stage with
    | running keyed' counted returned =>
      rw [returned] at mem'
      cases mem'
    | done returned =>
      rw [returned] at mem'
      rw [World.pending_of_done here', List.append_nil] at all
      refine ⟨List.mem_singleton.1 mem', fun key mem => ?_, fun alone => ?_⟩
      · obtain ⟨before, input, after, s₁, split, ran₁, comes⟩ := turns key (all ▸ mem)
        exact ⟨before, input, after, s₁, split, (Machine.run_cons_eq_some _).2 ⟨s₀, first, ran₁⟩,
          comes⟩
      · have start : Reduced w.hub.connections s₀ (.broadcast (w.hub.broadcast message)) := by
          refine ⟨[], ?_, ?_⟩
          · unfold Noted.failed
            rw [unseen]
            rfl
          · rw [hub]
            exact Dict.ext (List.filter_true _).symm
        obtain ⟨out, failed, registry⟩ := reduced_run alone follows
          (fun task same => Option.some.inj (here.symm.trans same) ▸ start) ran _ here'
        rw [registry, failed]
        congr 1
        funext key
        rw [show failing (current Task.done) = [] from rfl, List.append_nil]

/-- Two devices, of which the first does not take the message. -/
def twoDevices : World :=
  { World.init with
    hub := { ConnectionHub.init with
      connections := (Dict.empty.set (.str "a") ⟨0, .str "a", 10, 0⟩).set (.str "b")
        ⟨1, .str "b", 11, 0⟩ } }

theorem broadcast_delivers_two : ∃ s : Noted,
    Machine.run (step ⟨plainText, .builtin⟩ 1) ⟨twoDevices, []⟩
      (.start 1 (.broadcast (makeHeartbeat ⟨"", 0⟩)) ::
        [.ok, .raises, .ok, .ok, .ok, .ok, .ok].map fun answer => .step 1 (.io answer)) = some s ∧
      s.attempted.Nodup ∧ 1 = s.succeeded.length ∧
        s.world.hub.connections = twoDevices.hub.connections.filter (· ∉ s.failed) := by
  have returned : (Machine.run (step ⟨plainText, .builtin⟩ 1) ⟨twoDevices, []⟩
      (.start 1 (.broadcast (makeHeartbeat ⟨"", 0⟩)) ::
        [.ok, .raises, .ok, .ok, .ok, .ok, .ok].map fun answer => .step 1 (.io answer))).map
      Noted.returned = some [1] := by decide +kernel
  obtain ⟨s, ran, one⟩ := Option.map_eq_some_iff.1 returned
  have keyed : twoDevices.hub.Keyed := by
    unfold ConnectionHub.Keyed
    decide +kernel
  have delivers := broadcast_delivers keyed ran
  obtain ⟨count, -, registry⟩ :=
    delivers.2.2 1 (mem_returned_iff.1 (one ▸ List.mem_singleton_self 1))
  refine ⟨s, ran, delivers.1.1, count, registry fun a mem => ?_⟩
  obtain ⟨answer, -, rfl⟩ := List.mem_map.1 mem
  exact ⟨_, rfl⟩

end Noted

end Cpip
