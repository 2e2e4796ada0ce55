import Cpip.Server.Registry

/-!
# The turns of a broadcast (`server/ws/hub.py`)

A broadcast goes through the ids that the hub has when it starts.  What is seen of it from outside
is noted along a run of the server (`Noted`), and every step of the broadcast is one of the cases of
`ConnectionHub.Turns`: another id has its turn, a call of `send_text` ends, or the connection that
an id has after a failed call is removed.
-/

namespace Cpip

open ConnectionHub (Broadcast SendPc)

/-! ## Watching a broadcast -/

/-- What a broadcast is seen to do: it calls `send_text` for an id, on the connection that the id
has; the call succeeds or it fails; the broadcast returns a number. -/
inductive Note where
  | attempts (key : PyKey) (conn : DeviceConnection)
  | succeeds (key : PyKey)
  | fails (key : PyKey)
  | returns (n : ℕ)

namespace Note

def attempted : Note → Option PyKey
  | attempts key _ => some key
  | _ => none

def succeeded : Note → Option PyKey
  | succeeds key => some key
  | _ => none

def failed : Note → Option PyKey
  | fails key => some key
  | _ => none

def returned : Note → Option ℕ
  | returns n => some n
  | _ => none

end Note

/-- A message went out. -/
def Event.isSent : Event → Bool
  | sent _ _ => true
  | _ => false

namespace ConnectionHub

/-- The id and the connection of the `send_text` that the broadcast is in. -/
def Broadcast.sending? (b : Broadcast) : Option (PyKey × DeviceConnection) :=
  match b.current with
  | some (key, .sending conn) => some (key, conn)
  | _ => none

/-- What is seen of a step of the broadcast: how the call it was in ended, and the call it is in
now. -/
def Broadcast.notes (b : Broadcast) (hub : ConnectionHub) :
    ConnectionHub × Progress Broadcast ℕ → List Note
  | (_, .returned n) => [.returns n]
  | (hub', .suspended b') =>
    (b.sending?.toList.map fun (key, _) =>
      if (hub'.log.drop hub.log.length).any Event.isSent then .succeeds key else .fails key) ++
    b'.sending?.toList.map fun (key, conn) => .attempts key conn

end ConnectionHub

namespace World

/-- What is seen of the broadcast `t` in a step of the server. -/
def notes (srv : Server) (t : ℕ) (w : World) : Action → List Note
  | .step u input =>
    match w.tasks u with
    | some (.broadcast b) =>
      if u = t then
        ((w.hub.broadcastStep srv.py t b input.answer).map (b.notes w.hub)).getD []
      else []
    | _ => []
  | .start _ _ => []

/-- The broadcast `t` is at the turn of the id. -/
def ComesTo (w : World) (t : ℕ) (key : PyKey) : Prop :=
  ∃ b rest, w.tasks t = some (.broadcast b) ∧ b.current = none ∧ b.rest = key :: rest

end World

/-- The server, and what was seen of one broadcast. -/
structure Noted where
  world : World
  notes : List Note

namespace Noted

def step (srv : Server) (t : ℕ) (s : Noted) (a : Action) : Option Noted :=
  (s.world.step srv a).map fun w => ⟨w, s.notes ++ s.world.notes srv t a⟩

/-- The ids that were sent to, each as often as that was tried. -/
def attempted (s : Noted) : List PyKey := s.notes.filterMap Note.attempted

def succeeded (s : Noted) : List PyKey := s.notes.filterMap Note.succeeded

def failed (s : Noted) : List PyKey := s.notes.filterMap Note.failed

def returned (s : Noted) : List ℕ := s.notes.filterMap Note.returned

theorem mem_returned_iff {s : Noted} {n : ℕ} : n ∈ s.returned ↔ .returns n ∈ s.notes := by
  constructor
  · intro h
    obtain ⟨note, mem, same⟩ := List.mem_filterMap.1 h
    cases note with
    | returns m =>
      obtain rfl := Option.some.inj same
      exact mem
    | attempts _ _ | succeeds _ | fails _ => cases same
  · exact fun mem => List.mem_filterMap.2 ⟨_, mem, rfl⟩

/-- The runs that are watched are the runs of the server. -/
theorem map_world_run (srv : Server) (t : ℕ) (s : Noted) (actions : List Action) :
    (Machine.run (step srv t) s actions).map world =
      Machine.run (World.step srv) s.world actions := by
  induction actions generalizing s with
  | nil => rfl
  | cons a actions ih =>
    unfold Machine.run step
    cases World.step srv s.world a with
    | none => rfl
    | some w => exact ih ⟨w, s.notes ++ s.world.notes srv t a⟩

end Noted

/-! ## One step of a broadcast -/

namespace ConnectionHub

/-- The broadcast looks its ids up as what they are. -/
def Broadcast.Keyed (b : Broadcast) : Prop :=
  (∀ key ∈ b.rest, (PyVal.ofKey key).hash? = some key) ∧
    ∀ key pc, b.current = some (key, pc) → (PyVal.ofKey key).hash? = some key

/-- The cases of a step of `broadcast`, with what is seen of it. -/
inductive Turns (hub : ConnectionHub) (t : ℕ) (b : Broadcast) :
    List Note → ConnectionHub → Progress Broadcast ℕ → Prop
  | returns (current : b.current = none) (rest : b.rest = []) :
    Turns hub t b [.returns b.sent] hub (.returned b.sent)
  | skips {key : PyKey} {rest : List PyKey} (current : b.current = none)
    (next : b.rest = key :: rest) (stored : hub.connections.get? key = none) :
    Turns hub t b [] hub (.suspended { b with rest := rest, current := none })
  | attempts {key : PyKey} {rest : List PyKey} {conn : DeviceConnection}
    (current : b.current = none) (next : b.rest = key :: rest)
    (stored : hub.connections.get? key = some conn) :
    Turns hub t b [.attempts key conn] hub
      (.suspended { b with rest := rest, current := some (key, .sending conn) })
  | succeeds {key : PyKey} {conn : DeviceConnection} (text : JsonText)
    (current : b.current = some (key, .sending conn)) :
    Turns hub t b [.succeeds key] (hub.sent conn.websocket text .ok)
      (.suspended { b with sent := b.sent + 1, current := none })
  | fails {key : PyKey} {conn : DeviceConnection}
      (current : b.current = some (key, .sending conn)) :
    Turns hub t b [.fails key] (hub.record [.sendFailed conn.websocket])
      (.suspended { b with current := some (key, .disconnecting conn .locking) })
  | gone {key : PyKey} {conn : DeviceConnection}
    (current : b.current = some (key, .disconnecting conn .locking))
    (stored : hub.connections.get? key = none) :
    Turns hub t b [] hub (.suspended { b with current := none })
  | removes {key : PyKey} {conn old : DeviceConnection}
    (current : b.current = some (key, .disconnecting conn .locking))
    (stored : hub.connections.get? key = some old) :
    Turns hub t b []
      { hub.record [.unregisters old (.disconnect (.sendFailed conn)),
          .closes old (.disconnect (.sendFailed conn))] with
        connections := hub.connections.pop key
        lock := some t }
      (.suspended { b with current := some (key, .disconnecting conn (.closing old)) })
  | closes {key : PyKey} {conn old : DeviceConnection} (answer : Answer)
    (current : b.current = some (key, .disconnecting conn (.closing old))) :
    Turns hub t b [] { hub.closed old.websocket answer with lock := none }
      (.suspended { b with current := none })

theorem sendToDevice_ofKey {hub : ConnectionHub} {key : PyKey}
    (keyed : (PyVal.ofKey key).hash? = some key) :
    hub.sendToDevice (.ofKey key) =
      match hub.connections.get? key with
      | none => .returned (.ok false)
      | some conn => .suspended (.sending conn) := by
  unfold sendToDevice
  generalize (PyVal.ofKey key).hash? = h at keyed ⊢
  subst keyed
  rfl

theorem disconnectStep_locking_ofKey {hub : ConnectionHub} {t : ℕ} {key : PyKey} {reason : Reason}
    {answer : Answer} (keyed : (PyVal.ofKey key).hash? = some key) :
    hub.disconnectStep t (.ofKey key) reason .locking answer =
      if hub.lock = none then
        match hub.connections.get? key with
        | none => some (hub, .returned (.ok ()))
        | some conn =>
          some ({ hub.record [.unregisters conn (.disconnect reason),
              .closes conn (.disconnect reason)] with
            connections := hub.connections.pop key
            lock := some t }, .suspended (.closing conn))
      else none := by
  unfold disconnectStep
  generalize (PyVal.ofKey key).hash? = h at keyed ⊢
  subst keyed
  rfl

/-- A call that ended is seen to have succeeded when the message went out. -/
theorem Broadcast.notes_of_sending {hub : ConnectionHub} {b b' : Broadcast} {key : PyKey}
    {conn : DeviceConnection} (current : b.current = some (key, .sending conn))
    (events : List Event) (next : b'.sending? = none) :
    b.notes hub (hub.record events, .suspended b') =
      [if events.any Event.isSent then .succeeds key else .fails key] := by
  have new : (hub.record events).log.drop hub.log.length = events := by
    unfold record
    exact List.drop_left
  unfold Broadcast.notes
  dsimp only
  rw [next, new]
  unfold Broadcast.sending?
  rw [current]
  rfl

theorem turns_of_step {hub hub' : ConnectionHub} {py : PyText} {t : ℕ} {b : Broadcast}
    {answer : Answer} {p : Progress Broadcast ℕ} (keyed : b.Keyed)
    (h : hub.broadcastStep py t b answer = some (hub', p)) :
    Turns hub t b (b.notes hub (hub', p)) hub' p := by
  obtain ⟨message, rest, sent, current⟩ := b
  unfold broadcastStep at h
  cases current with
  | none =>
    cases rest with
    | nil =>
      cases h
      exact .returns rfl rfl
    | cons key rest =>
      dsimp only at h
      rw [sendToDevice_ofKey (keyed.1 key (List.mem_cons_self ..))] at h
      cases stored : hub.connections.get? key with
      | none =>
        rw [stored] at h
        cases h
        exact .skips rfl rfl stored
      | some conn =>
        rw [stored] at h
        cases h
        exact .attempts rfl rfl stored
  | some turn =>
    obtain ⟨key, pc⟩ := turn
    dsimp only at h
    unfold sendToDeviceStep at h
    cases pc with
    | sending conn =>
      dsimp only at h
      cases encoded : message.toJson py with
      | error e =>
        rw [encoded] at h
        cases h
        rw [Broadcast.notes_of_sending rfl _ rfl]
        exact .fails rfl
      | ok text =>
        rw [encoded] at h
        cases answer with
        | ok =>
          cases h
          unfold ConnectionHub.sent
          rw [Broadcast.notes_of_sending rfl _ rfl]
          exact .succeeds text rfl
        | raises =>
          cases h
          unfold ConnectionHub.sent
          rw [Broadcast.notes_of_sending rfl _ rfl]
          exact .fails rfl
    | disconnecting conn pc =>
      dsimp only at h
      cases pc with
      | locking =>
        rw [disconnectStep_locking_ofKey (keyed.2 key _ rfl)] at h
        by_cases free : hub.lock = none
        · rw [if_pos free] at h
          cases stored : hub.connections.get? key with
          | none =>
            rw [stored] at h
            cases h
            exact .gone rfl stored
          | some old =>
            rw [stored] at h
            cases h
            exact .removes rfl stored
        · rw [if_neg free] at h
          cases h
      | closing old =>
        cases h
        exact .closes answer rfl

/-- The ids of the registry are hashes, so that they are looked up as what they are. -/
def Keyed (hub : ConnectionHub) : Prop :=
  ∀ key ∈ hub.connections.keys, (PyVal.ofKey key).hash? = some key

theorem Sound.keys {hub : ConnectionHub} (sound : hub.Sound) : hub.Keyed := by
  intro key mem
  obtain ⟨conn, stored⟩ := Option.isSome_iff_exists.1 ((Dict.mem_keys_iff _ key).1 mem)
  exact PyVal.hash?_ofKey (sound.keyed key conn stored)

end ConnectionHub

/-- The task after a step of a broadcast. -/
def Task.ofProgress : Progress Broadcast ℕ → Task
  | .suspended b => .broadcast b
  | .returned _ => .done

namespace World

/-- The ids whose turn in the broadcast `t` is still to come. -/
def pending (w : World) (t : ℕ) : List PyKey :=
  match w.tasks t with
  | some (.broadcast b) => b.rest
  | _ => []

theorem pending_of_broadcast {w : World} {t : ℕ} {b : Broadcast}
    (task : w.tasks t = some (.broadcast b)) : w.pending t = b.rest := by
  unfold pending
  rw [task]

theorem pending_of_done {w : World} {t : ℕ} (task : w.tasks t = some .done) :
    w.pending t = [] := by
  unfold pending
  rw [task]

end World

namespace Noted

variable {srv : Server} {t : ℕ} {s s' : Noted} {a : Action}

/-- A step of another task is not seen, and leaves the broadcast where it is. -/
theorem step_other {task : Task} (here : s.world.tasks t = some task)
    (other : ∀ input, a ≠ .step t input) (h : step srv t s a = some s') :
    s'.world.tasks t = s.world.tasks t ∧ s'.notes = s.notes := by
  obtain ⟨w, hw, rfl⟩ := Option.map_eq_some_iff.1 h
  cases a with
  | start u call =>
    unfold World.step at hw
    dsimp only at hw
    split at hw
    · next free =>
      cases hw
      have ne : t ≠ u := by
        rintro rfl
        rw [here] at free
        cases free
      exact ⟨Function.update_of_ne ne _ _, List.append_nil _⟩
    · cases hw
  | step u input =>
    have ne : u ≠ t := fun same => other input (same ▸ rfl)
    obtain ⟨task', -, hrun⟩ := Option.bind_eq_some_iff.1 hw
    refine ⟨World.tasks_of_runTask hrun ne.symm, ?_⟩
    have unseen : s.world.notes srv t (.step u input) = [] := by
      unfold World.notes
      dsimp only
      split
      · exact if_neg ne
      · rfl
    show s.notes ++ s.world.notes srv t (.step u input) = s.notes
    rw [unseen, List.append_nil]

/-- A step of the broadcast is one of its turns. -/
theorem step_own {input : Input} {b : Broadcast} (here : s.world.tasks t = some (.broadcast b))
    (keyed : b.Keyed) (h : step srv t s (.step t input) = some s') :
    ∃ notes p, ConnectionHub.Turns s.world.hub t b notes s'.world.hub p ∧
      s'.world.tasks t = some (.ofProgress p) ∧ s'.notes = s.notes ++ notes := by
  obtain ⟨w, hw, rfl⟩ := Option.map_eq_some_iff.1 h
  unfold World.step at hw
  dsimp only at hw
  rw [here] at hw
  obtain ⟨⟨hub, p⟩, hs, rfl⟩ := Option.map_eq_some_iff.1 hw
  have seen : s.world.notes srv t (.step t input) = b.notes s.world.hub (hub, p) := by
    unfold World.notes
    dsimp only
    rw [here]
    dsimp only
    rw [if_pos rfl, hs]
    rfl
  refine ⟨b.notes s.world.hub (hub, p), p, ?_, ?_, congrArg _ seen⟩
  · cases p <;> exact ConnectionHub.turns_of_step keyed hs
  · cases p <;> exact Function.update_self ..

/-- A broadcast that returned makes no step. -/
theorem step_done {input : Input} (here : s.world.tasks t = some .done) :
    step srv t s (.step t input) = none := by
  unfold step World.step
  dsimp only
  rw [here]
  rfl

end Noted

end Cpip
