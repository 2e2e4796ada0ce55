import Cpip.Server.WorldSteps

/-!
# The registry over whole runs

The invariant of the registry: what the hub stores (`ConnectionHub.Sound`), under which key the
socket of a handler may be stored (`Endpoint.holds`), and what every task carries along
(`Task.Valid`).  It is kept by every step, whatever the sockets do.
-/

namespace Cpip

open ConnectionHub (ConnectPc DisconnectPc SendPc Broadcast HeartbeatPc Calm Connects Disconnects)

/-! ## The hub -/

namespace ConnectionHub

/-- Connections are stored under their own id and were registered; registered connections are older
than the next one. -/
structure Sound (hub : ConnectionHub) : Prop where
  keyed : ∀ key conn, hub.connections.get? key = some conn → conn.deviceId.hash? = some key
  registered : ∀ key conn, hub.connections.get? key = some conn → .registers conn ∈ hub.log
  older : ∀ conn, .registers conn ∈ hub.log → conn.ref < hub.nextRef

/-- `conn` is about to be registered by the handler `t` under the id. -/
structure Pending (hub : ConnectionHub) (t : ℕ) (deviceId : PyVal) (conn : DeviceConnection) :
    Prop where
  deviceId : conn.deviceId = deviceId
  websocket : conn.websocket = t
  older : conn.ref < hub.nextRef
  fresh : .registers conn ∉ hub.log

/-- What task `t` may do to the hub, seen by the other tasks: connections are only registered for
the socket `t`. -/
structure Grows (t : ℕ) (hub hub' : ConnectionHub) : Prop where
  nextRef : hub.nextRef ≤ hub'.nextRef
  log : ∃ events, hub'.log = hub.log ++ events ∧
    ∀ conn, .registers conn ∈ events → conn.websocket = t

theorem Grows.rfl {t : ℕ} {hub : ConnectionHub} : Grows t hub hub :=
  ⟨Nat.le_refl _, [], by simp, by simp⟩

theorem Grows.pending {hub hub' : ConnectionHub} {t u : ℕ} {deviceId : PyVal}
    {conn : DeviceConnection} (grows : Grows t hub hub') (other : u ≠ t)
    (h : Pending hub u deviceId conn) : Pending hub' u deviceId conn := by
  obtain ⟨events, hlog, hreg⟩ := grows.log
  refine ⟨h.deviceId, h.websocket, Nat.lt_of_lt_of_le h.older grows.nextRef, ?_⟩
  rw [hlog, List.mem_append]
  rintro (hm | hm)
  · exact h.fresh hm
  · exact other (h.websocket.symm.trans (hreg conn hm))

theorem Calm.grows {on : ℕ → Prop} {hub hub' : ConnectionHub} (calm : Calm on hub hub') (t : ℕ) :
    Grows t hub hub' := by
  obtain ⟨events, hlog, htraffic⟩ := calm.log
  refine ⟨calm.nextRef.ge, events, hlog, fun conn hm => ?_⟩
  simpa [Event.TrafficOn] using htraffic _ hm

theorem Calm.sound {on : ℕ → Prop} {hub hub' : ConnectionHub} (calm : Calm on hub hub')
    (sound : Sound hub) : Sound hub' := by
  obtain ⟨events, hlog, htraffic⟩ := calm.log
  refine ⟨?_, ?_, ?_⟩
  · rw [calm.connections]
    exact sound.keyed
  · rw [calm.connections, hlog]
    exact fun key conn h => List.mem_append_left _ (sound.registered key conn h)
  · rw [calm.nextRef, hlog]
    intro conn h
    rcases List.mem_append.1 h with h | h
    · exact sound.older conn h
    · simpa [Event.TrafficOn] using htraffic _ h

/-! ### `connect` -/

/-- The connection that `connect` is about to register. -/
def ConnectPc.conn? : ConnectPc → Option DeviceConnection
  | .accepting => none
  | .locking conn | .closingOld conn _ => some conn

theorem registers_mem_register {hub : ConnectionHub} {key : PyKey} {conn c : DeviceConnection} :
    .registers c ∈ (hub.register key conn).log ↔ .registers c ∈ hub.log ∨ c = conn := by
  simp [register, record]

theorem Pending.sound_register {hub : ConnectionHub} {t : ℕ} {deviceId : PyVal}
    {conn : DeviceConnection} {key : PyKey} (pending : Pending hub t deviceId conn)
    (hash : deviceId.hash? = some key) (sound : Sound hub) : Sound (hub.register key conn) := by
  refine ⟨?_, ?_, ?_⟩
  · intro k c h
    simp only [register, Dict.get?_set] at h
    split at h
    · rename_i hk
      cases h
      rw [pending.deviceId, hash, hk]
    · exact sound.keyed k c h
  · intro k c h
    rw [registers_mem_register]
    simp only [register, Dict.get?_set] at h
    split at h
    · cases h
      exact .inr rfl
    · exact .inl (sound.registered k c h)
  · intro c h
    rcases registers_mem_register.1 h with h | rfl
    · exact sound.older c h
    · exact pending.older

theorem grows_register {hub : ConnectionHub} {key : PyKey} {conn : DeviceConnection} :
    Grows conn.websocket hub (hub.register key conn) := by
  refine ⟨Nat.le_refl _, _, rfl, fun c hc => ?_⟩
  have hc : c = conn := by simpa using hc
  rw [hc]

/-- What `connect` leaves, when it suspends or returns. -/
def AfterConnect (hub hub' : ConnectionHub) (t : ℕ) (deviceId : PyVal) :
    Progress ConnectPc (Except PyExc DeviceConnection) → Prop
  | .suspended pc => hub'.connections = hub.connections ∧
    ∀ conn, pc.conn? = some conn → Pending hub' t deviceId conn
  | .returned (.error _) => hub'.connections = hub.connections
  | .returned (.ok conn) => conn.websocket = t ∧
    ∃ key, conn.deviceId.hash? = some key ∧ hub'.connections = hub.connections.set key conn

theorem Connects.keeps {hub hub' : ConnectionHub} {t : ℕ} {deviceId metadata : PyVal} {now : ℚ}
    {pc : ConnectPc} {answer : Answer} {p : Progress ConnectPc (Except PyExc DeviceConnection)}
    (step : Connects hub t deviceId t metadata now pc answer hub' p) (sound : Sound hub)
    (pending : ∀ conn, pc.conn? = some conn → Pending hub t deviceId conn) :
    Sound hub' ∧ Grows t hub hub' ∧ AfterConnect hub hub' t deviceId p := by
  cases step with
  | refused e => exact ⟨sound, Grows.rfl, rfl⟩
  | unhashable conn answer e hash => exact ⟨sound, Grows.rfl, rfl⟩
  | accepted =>
    have fresh : ∀ c, .registers c ∈ hub.log → c.ref < hub.nextRef + 1 :=
      fun c h => Nat.lt_succ_of_lt (sound.older c h)
    refine ⟨⟨sound.keyed, sound.registered, fresh⟩, ⟨Nat.le_succ _, [], ?_, ?_⟩, rfl, ?_⟩
    · exact (List.append_nil _).symm
    · simp
    · intro conn h
      cases h
      -- an id that was never given out is in no entry of the log
      exact ⟨rfl, rfl, Nat.lt_succ_self _, fun h => Nat.lt_irrefl _ (sound.older _ h)⟩
  | displaces answer free hash stored =>
    rename_i conn old key
    have hpending := pending conn rfl
    have hmem : ∀ c, .registers c ∈ hub.log ++ [Event.closes old (.replacedBy conn)] ↔
        .registers c ∈ hub.log := by simp
    refine ⟨⟨sound.keyed, ?_, ?_⟩, ⟨Nat.le_refl _, _, rfl, by simp⟩, rfl, ?_⟩
    · exact fun k c h => (hmem c).2 (sound.registered k c h)
    · exact fun c h => sound.older c ((hmem c).1 h)
    · intro c h
      cases h
      exact ⟨hpending.deviceId, hpending.websocket, hpending.older,
        fun h => hpending.fresh ((hmem _).1 h)⟩
  | registers answer free hash stored =>
    rename_i conn key
    have hpending := pending conn rfl
    refine ⟨hpending.sound_register hash sound, ?_, hpending.websocket, key, ?_, rfl⟩
    · exact hpending.websocket ▸ grows_register
    · rw [hpending.deviceId, hash]
  | replaces answer hash =>
    rename_i conn old key
    have hpending := pending conn rfl
    have hclosed : Pending (hub.closed old.websocket answer) t deviceId conn :=
      ⟨hpending.deviceId, hpending.websocket, by simpa using hpending.older,
        by simpa using hpending.fresh⟩
    have hsound : Sound (hub.closed old.websocket answer) :=
      ⟨by simpa using sound.keyed, by simpa using sound.registered, by simpa using sound.older⟩
    have h := hclosed.sound_register hash hsound
    have grows : Grows conn.websocket (hub.closed old.websocket answer)
        ((hub.closed old.websocket answer).register key conn) := grows_register
    refine ⟨⟨h.keyed, h.registered, h.older⟩, ⟨?_, ?_⟩, hpending.websocket, key, ?_, ?_⟩
    · simpa using grows.nextRef
    · simpa [hpending.websocket] using grows.log
    · rw [hpending.deviceId, hash]
    · simp [register]

/-! ### `disconnect` -/

theorem Disconnects.keeps {hub hub' : ConnectionHub} {t : ℕ} {deviceId : PyVal} {reason : Reason}
    {pc : DisconnectPc} {answer : Answer} {p : Progress DisconnectPc (Except PyExc Unit)}
    (step : Disconnects hub t deviceId reason pc answer hub' p) (sound : Sound hub) :
    Sound hub' ∧ Grows t hub hub' ∧
      ∀ key conn, hub'.connections.get? key = some conn → hub.connections.get? key = some conn := by
  cases step with
  | absent answer r stored => exact ⟨sound, Grows.rfl, fun _ _ h => h⟩
  | removes answer free hash stored =>
    rename_i conn key
    have sub : ∀ k c, (hub.connections.pop key).get? k = some c →
        hub.connections.get? k = some c := fun k c h => (Dict.get?_of_get?_pop h).1
    have hmem : ∀ c, .registers c ∈ hub.log ++ [Event.unregisters conn (.disconnect reason),
        Event.closes conn (.disconnect reason)] ↔ .registers c ∈ hub.log := by simp
    refine ⟨⟨?_, ?_, ?_⟩, ⟨Nat.le_refl _, _, rfl, by simp⟩, sub⟩
    · exact fun k c h => sound.keyed k c (sub k c h)
    · exact fun k c h => (hmem c).2 (sound.registered k c (sub k c h))
    · exact fun c h => sound.older c ((hmem c).1 h)
  | closes conn answer =>
    refine ⟨⟨?_, ?_, ?_⟩, ⟨?_, [], ?_, ?_⟩, ?_⟩
    · simpa using sound.keyed
    · simpa using sound.registered
    · simpa using sound.older
    · simp
    · simp
    · simp
    · simp

/-- Once `disconnect` has had the lock, nothing is stored under the id. -/
theorem Disconnects.frees {hub hub' : ConnectionHub} {t : ℕ} {deviceId : PyVal} {reason : Reason}
    {answer : Answer} {p : Progress DisconnectPc (Except PyExc Unit)}
    (step : Disconnects hub t deviceId reason .locking answer hub' p) {key : PyKey}
    (hash : deviceId.hash? = some key) : hub'.connections.get? key = none := by
  cases step with
  | absent answer r stored => exact stored key hash
  | removes answer free hash' stored =>
    obtain rfl := Option.some.inj (hash.symm.trans hash')
    exact Dict.get?_pop_self _ _

end ConnectionHub

/-! ## The tasks -/

/-- The key under which the socket of the handler may be stored. -/
def EndpointPc.holds : EndpointPc → Option PyKey
  | .running _ (.disconnecting _ (.closing _)) | .running _ (.reconnecting _ _) => none
  | .running conn _ => conn.deviceId.hash?
  | .closing conn .locking => conn.deviceId.hash?
  | _ => none

theorem EndpointPc.Settled.holds_eq {pc : EndpointPc} {conn : DeviceConnection}
    (h : pc.Settled conn) : pc.holds = conn.deviceId.hash? := by
  unfold Settled at h
  unfold holds
  split at h <;> simp_all

/-- The connection that the handler has. -/
def EndpointPc.conn? : EndpointPc → Option DeviceConnection
  | .running conn _ | .closing conn _ => some conn
  | _ => none

theorem EndpointPc.Settled.conn_eq {pc : EndpointPc} {conn : DeviceConnection}
    (h : pc.Settled conn) : pc.conn? = some conn := by
  cases pc with
  | connecting pc => exact h.elim
  | running c pc =>
    obtain rfl : c = conn := by
      unfold Settled at h
      split at h <;> simp_all
    rfl
  | closing c pc =>
    obtain rfl : c = conn := by
      unfold Settled at h
      split at h <;> simp_all
    rfl
  | finished => exact h.elim

namespace Task

/-- What task `t` carries along is true of the hub. -/
structure Valid (hub : ConnectionHub) (t : ℕ) (task : Task) : Prop where
  pending : ∀ deviceId pc conn, task.connecting = some (deviceId, pc) → pc.conn? = some conn →
    ConnectionHub.Pending hub t deviceId conn

theorem Valid.grows {hub hub' : ConnectionHub} {t u : ℕ} {task : Task} (h : task.Valid hub u)
    (grows : ConnectionHub.Grows t hub hub') (other : u ≠ t) : task.Valid hub' u :=
  ⟨fun deviceId pc conn ht hpc => grows.pending other (h.pending deviceId pc conn ht hpc)⟩

end Task

theorem Effect.keeps {hub hub' : ConnectionHub} {t : ℕ} {task : Task}
    (effect : Effect hub t task hub') (sound : ConnectionHub.Sound hub) (valid : task.Valid hub t) :
    ConnectionHub.Sound hub' ∧ ConnectionHub.Grows t hub hub' := by
  cases effect with
  | calm calm => exact ⟨calm.sound sound, calm.grows t⟩
  | connects before step =>
    have keeps := step.keeps sound fun conn => valid.pending _ _ conn before
    exact ⟨keeps.1, keeps.2.1⟩
  | disconnects before step => exact ⟨(step.keeps sound).1, (step.keeps sound).2.1⟩

/-! ## The handlers -/

namespace Served

/-- The socket of handler `t` is stored under the key it holds only. -/
def Owns (t : ℕ) (s : Served) : Prop :=
  ∀ key conn, s.hub.connections.get? key = some conn → conn.websocket = t →
    s.self.pc.holds = some key

/-- What a step of handler `t` keeps: its pending connection, and where its socket may be stored;
nothing else is added to the registry. -/
structure Keeps (t : ℕ) (s s' : Served) : Prop where
  valid : (Task.endpoint s'.self).Valid s'.hub t
  owns : s'.Owns t
  sub : ∀ key conn, s'.hub.connections.get? key = some conn →
    s.hub.connections.get? key = some conn ∨ conn.websocket = t

/-- A handler that has no connection under way carries nothing along. -/
theorem valid_of_not_connecting {hub : ConnectionHub} {self : Endpoint} {t : ℕ}
    (h : (Task.endpoint self).connecting = none) : (Task.endpoint self).Valid hub t :=
  ⟨fun _ _ _ ht _ => absurd (h.symm.trans ht) (by simp)⟩

theorem valid_of_connecting {hub : ConnectionHub} {self : Endpoint} {t : ℕ} {deviceId : PyVal}
    {pc : ConnectPc} (h : (Task.endpoint self).connecting = some (deviceId, pc))
    (pending : ∀ conn, pc.conn? = some conn → ConnectionHub.Pending hub t deviceId conn) :
    (Task.endpoint self).Valid hub t := by
  refine ⟨fun deviceId' pc' conn ht hpc => ?_⟩
  cases h.symm.trans ht
  exact pending conn hpc

theorem valid_of_settled {s : Served} {conn : DeviceConnection} {t : ℕ}
    (h : s.self.pc.Settled conn) : (Task.endpoint s.self).Valid s.hub t := by
  apply valid_of_not_connecting
  obtain ⟨hub, sessions, deviceId, pc⟩ := s
  unfold Task.connecting
  split <;> simp_all [EndpointPc.Settled]

/-- A handler whose socket is stored nowhere owns it under any key. -/
theorem owns_of_sub {s s' : Served} {t : ℕ} (owns : s.Owns t) (free : s.self.pc.holds = none)
    (sub : ∀ key conn, s'.hub.connections.get? key = some conn →
      s.hub.connections.get? key = some conn) : s'.Owns t := by
  intro key conn h ht
  have hold := owns key conn (sub key conn h) ht
  simp [free] at hold

theorem owns_of_set {s s' : Served} {t : ℕ} {conn : DeviceConnection} {key : PyKey}
    (owns : s.Owns t) (free : s.self.pc.holds = none)
    (h : s'.hub.connections = s.hub.connections.set key conn)
    (holds : s'.self.pc.holds = some key) : s'.Owns t := by
  intro k c hc ht
  rw [h, Dict.get?_set] at hc
  split at hc
  · rename_i hk
    rw [holds, hk]
  · have hold := owns k c hc ht
    simp [free] at hold

theorem sub_of_set {hub hub' : ConnectionHub} {t : ℕ} {conn : DeviceConnection} {key : PyKey}
    (h : hub'.connections = hub.connections.set key conn) (ht : conn.websocket = t) :
    ∀ k c, hub'.connections.get? k = some c →
      hub.connections.get? k = some c ∨ c.websocket = t := by
  intro k c hc
  rw [h, Dict.get?_set] at hc
  split at hc
  · cases hc
    exact .inr ht
  · exact .inl hc

theorem sub_of_eq {hub hub' : ConnectionHub} {t : ℕ} (h : hub'.connections = hub.connections) :
    ∀ k c, hub'.connections.get? k = some c →
      hub.connections.get? k = some c ∨ c.websocket = t :=
  fun _ _ hc => .inl (h ▸ hc)

theorem Rests.of_set {s s' : Served} {hub : ConnectionHub} {t : ℕ} {conn : DeviceConnection}
    (rests : Rests conn hub s') (owns : s.Owns t) (free : s.self.pc.holds = none)
    (ht : conn.websocket = t) {key : PyKey} (hash : conn.deviceId.hash? = some key)
    (h : hub.connections = s.hub.connections.set key conn) : Keeps t s s' := by
  have h' : s'.hub.connections = s.hub.connections.set key conn := rests.hub ▸ h
  refine ⟨valid_of_settled rests.settled, owns_of_set owns free h' ?_, sub_of_set h' ht⟩
  rw [rests.settled.holds_eq, hash]

/-- After its `disconnect` has had the lock, the socket of a handler is stored nowhere. -/
theorem gone_of_disconnects {s : Served} {hub : ConnectionHub} {t : ℕ} {conn : DeviceConnection}
    {reason : Reason} {pc : DisconnectPc} {answer : Answer}
    {p : Progress DisconnectPc (Except PyExc Unit)}
    (step : Disconnects s.hub t conn.deviceId reason pc answer hub p)
    (sound : ConnectionHub.Sound s.hub) (owns : s.Owns t)
    (holds : s.self.pc.holds = match pc with
      | .locking => conn.deviceId.hash?
      | .closing _ => none) :
    ∀ key c, hub.connections.get? key = some c → c.websocket ≠ t := by
  intro key c hc ht
  have held := owns key c ((step.keeps sound).2.2 key c hc) ht
  rw [holds] at held
  cases pc with
  | locking =>
    have free := step.frees held
    simp [hc] at free
  | closing conn => cases held

/-- One step of a handler, whatever its socket does. -/
theorem Serves.keeps {s s' : Served} {t : ℕ} {input : Input} (h : Serves s t input s')
    (sound : ConnectionHub.Sound s.hub) (valid : (Task.endpoint s.self).Valid s.hub t)
    (owns : s.Owns t) : Keeps t s s' := by
  obtain ⟨hub, sessions, deviceId, pc⟩ := s
  cases h with
  | quiet before quiet =>
    refine ⟨valid_of_settled quiet.settled, ?_, sub_of_eq quiet.calm.connections⟩
    intro key conn hc ht
    rw [quiet.settled.holds_eq, ← before.holds_eq]
    exact owns key conn (quiet.calm.connections ▸ hc) ht
  | connects now before step =>
    dsimp only at before
    subst before
    have after := (step.keeps sound fun conn => valid.pending _ _ conn rfl).2.2
    exact ⟨valid_of_connecting rfl after.2, owns_of_sub owns rfl fun _ _ hc => after.1 ▸ hc,
      sub_of_eq after.1⟩
  | connected now before step =>
    dsimp only at before
    subst before
    obtain ⟨ht, key, hash, hset⟩ := (step.keeps sound fun conn => valid.pending _ _ conn rfl).2.2
    exact ⟨valid_of_not_connecting rfl, owns_of_set owns rfl hset hash, sub_of_set hset ht⟩
  | failed now before step =>
    dsimp only at before
    subst before
    have after := (step.keeps sound fun conn => valid.pending _ _ conn rfl).2.2
    exact ⟨valid_of_not_connecting rfl, owns_of_sub owns rfl fun _ _ hc => after ▸ hc,
      sub_of_eq after⟩
  | disconnects before step =>
    rename_i conn params pc pc' hub'
    dsimp only at before
    subst before
    have gone := gone_of_disconnects step sound owns (by cases pc <;> rfl)
    exact ⟨valid_of_not_connecting rfl, fun key c hc ht => absurd ht (gone key c hc),
      fun key c hc => .inl ((step.keeps sound).2.2 key c hc)⟩
  | disconnected before step after =>
    rename_i conn params pc hub' r
    dsimp only at before
    subst before
    have gone := gone_of_disconnects step sound owns (by cases pc <;> rfl)
    have sub := (step.keeps sound).2.2
    rcases after with rfl | rests
    · refine ⟨valid_of_connecting rfl (by simp [ConnectPc.conn?]), ?_, ?_⟩
      · exact fun key c hc ht => absurd ht (gone key c hc)
      · exact fun key c hc => .inl (sub key c hc)
    · obtain rfl := rests.hub
      exact ⟨valid_of_settled rests.settled, fun key c hc ht => absurd ht (gone key c hc),
        fun key c hc => .inl (sub key c hc)⟩
  | reconnects now before step =>
    dsimp only at before
    subst before
    have after := (step.keeps sound fun conn => valid.pending _ _ conn rfl).2.2
    exact ⟨valid_of_connecting rfl after.2, owns_of_sub owns rfl fun _ _ hc => after.1 ▸ hc,
      sub_of_eq after.1⟩
  | reconnected now before step rests =>
    dsimp only at before
    subst before
    obtain ⟨ht, key, hash, hset⟩ := (step.keeps sound fun conn => valid.pending _ _ conn rfl).2.2
    exact rests.of_set owns rfl ht hash hset
  | reconnectFailed now before step rests =>
    dsimp only at before
    subst before
    have after := (step.keeps sound fun conn => valid.pending _ _ conn rfl).2.2
    have after := rests.hub.symm ▸ after
    exact ⟨valid_of_settled rests.settled, owns_of_sub owns rfl fun _ _ hc => after ▸ hc,
      sub_of_eq after⟩
  | closes before step | finishes before step =>
    rename_i pc _ _
    dsimp only at before
    subst before
    have gone := gone_of_disconnects step sound owns (by cases pc <;> rfl)
    exact ⟨valid_of_not_connecting rfl, fun key c hc ht => absurd ht (gone key c hc),
      fun key c hc => .inl ((step.keeps sound).2.2 key c hc)⟩

end Served

/-- The registry is sound, every stored socket is that of a handler that holds the key, and the
tasks carry along what is true. -/
structure World.Inv (w : World) : Prop where
  sound : ConnectionHub.Sound w.hub
  owned : ∀ key conn, w.hub.connections.get? key = some conn →
    ∃ self, w.tasks conn.websocket = some (.endpoint self) ∧ self.pc.holds = some key
  valid : ∀ t task, w.tasks t = some task → task.Valid w.hub t

namespace World

variable {srv : Server}

theorem inv_init : init.Inv := by
  refine ⟨⟨?_, ?_, ?_⟩, ?_, ?_⟩ <;> intros <;> simp_all [init, ConnectionHub.init]

theorem tasks_setTask (w : World) (t u : ℕ) (task : Task) :
    (w.setTask t task).tasks u = if u = t then some task else w.tasks u := by
  simp [setTask, Function.update_apply]

@[simp]
theorem setTask_hub (w : World) (t : ℕ) (task : Task) : (w.setTask t task).hub = w.hub := rfl

/-- The registry is unchanged by a task other than a handler, but for what it removes. -/
theorem sub_of_runTask {w w' : World} {t : ℕ} {input : Input} {task : Task}
    (other : ∀ self, task ≠ .endpoint self) (inv : w.Inv)
    (h : w.runTask srv t input task = some w') :
    ∀ key conn, w'.hub.connections.get? key = some conn →
      w.hub.connections.get? key = some conn := by
  cases effect_of_runTask h with
  | calm calm => exact fun _ _ hc => calm.connections ▸ hc
  | connects before step =>
    cases task <;> simp [Task.connecting] at before
    exact absurd rfl (other _)
  | disconnects before step => exact (step.keeps inv.sound).2.2

/-- Only handlers carry something along. -/
theorem valid_of_other {hub : ConnectionHub} {t : ℕ} {task : Task}
    (other : ∀ self, task ≠ .endpoint self) : task.Valid hub t := by
  refine ⟨fun deviceId pc conn ht _ => ?_⟩
  cases task <;> simp [Task.connecting] at ht
  exact absurd rfl (other _)

/-- A step of a task other than a handler changes that task only, and makes no handler of it. -/
theorem tasks_of_other {w w' : World} {t : ℕ} {input : Input} {task : Task}
    (other : ∀ self, task ≠ .endpoint self) (h : w.runTask srv t input task = some w') :
    ∃ task', w'.tasks = Function.update w.tasks t (some task') ∧
      ∀ self, task' ≠ .endpoint self := by
  cases task with
  | endpoint self => exact absurd rfl (other self)
  | sendToDevice deviceId message pc =>
    obtain ⟨⟨hub, p⟩, -, rfl⟩ := Option.map_eq_some_iff.1 h
    cases p <;> exact ⟨_, rfl, by simp⟩
  | broadcast self =>
    obtain ⟨⟨hub, p⟩, -, rfl⟩ := Option.map_eq_some_iff.1 h
    cases p <;> exact ⟨_, rfl, by simp⟩
  | heartbeatLoop interval pc =>
    obtain ⟨⟨hub, pc'⟩, -, rfl⟩ := Option.map_eq_some_iff.1 h
    exact ⟨_, rfl, by simp⟩
  | done => cases h

theorem inv_runTask {w w' : World} {t : ℕ} {input : Input} {task : Task} (inv : w.Inv)
    (ht : w.tasks t = some task) (h : w.runTask srv t input task = some w') : w'.Inv := by
  have valid := inv.valid t task ht
  obtain ⟨sound, grows⟩ := (effect_of_runTask h).keeps inv.sound valid
  by_cases other : ∀ self, task ≠ .endpoint self
  · have sub := sub_of_runTask other inv h
    obtain ⟨task', htasks, other'⟩ := tasks_of_other other h
    refine ⟨sound, fun key conn hc => ?_, fun u task'' hu => ?_⟩
    · obtain ⟨self, hself, hholds⟩ := inv.owned key conn (sub key conn hc)
      have hne : conn.websocket ≠ t := by
        rintro rfl
        exact other self (Option.some.inj (ht.symm.trans hself))
      exact ⟨self, by rw [htasks, Function.update_of_ne hne, hself], hholds⟩
    · rw [htasks, Function.update_apply] at hu
      split at hu
      · rename_i hut
        cases hu
        exact valid_of_other other'
      · rename_i hut
        exact (inv.valid u task'' hu).grows grows hut
  · obtain ⟨self, rfl⟩ : ∃ self, task = .endpoint self := by simpa using other
    obtain ⟨s, hs, rfl⟩ := runTask_endpoint h
    have owns : Served.Owns t ⟨w.hub, w.sessions, self⟩ := by
      rintro key conn hc rfl
      obtain ⟨self', hself, hholds⟩ := inv.owned key conn hc
      cases Option.some.inj (ht.symm.trans hself)
      exact hholds
    have keeps := (Served.serves_of_step hs).keeps inv.sound valid owns
    refine ⟨sound, fun key conn hc => ?_, fun u task' hu => ?_⟩
    · rw [tasks_setTask]
      split
      · rename_i hconn
        exact ⟨s.self, rfl, keeps.owns key conn hc hconn⟩
      · rename_i hconn
        exact inv.owned key conn ((keeps.sub key conn hc).resolve_right hconn)
    · rw [tasks_setTask] at hu
      split at hu
      · rename_i hut
        cases hu
        exact hut ▸ keeps.valid
      · rename_i hut
        exact (inv.valid u task' hu).grows grows hut

theorem valid_launch (hub : ConnectionHub) (t : ℕ) (call : Call) :
    (launch hub call).Valid hub t := by
  cases call with
  | endpoint => exact Served.valid_of_connecting rfl (by simp [ConnectPc.conn?])
  | sendToDevice deviceId message =>
    refine valid_of_other fun self => ?_
    unfold launch
    dsimp only
    split <;> simp
  | broadcast message => exact valid_of_other fun self => by simp [launch]
  | heartbeatLoop interval => exact valid_of_other fun self => by simp [launch]

theorem inv_step (w : World) (a : Action) (w' : World) (inv : w.Inv)
    (h : step srv w a = some w') : w'.Inv := by
  cases a with
  | start t call =>
    simp only [step] at h
    split at h
    · rename_i hfree
      cases h
      refine ⟨inv.sound, fun key conn hc => ?_, fun u task hu => ?_⟩
      · obtain ⟨self, hself, hholds⟩ := inv.owned key conn hc
        have hne : conn.websocket ≠ t := by
          rintro rfl
          simp [hfree] at hself
        exact ⟨self, by rw [tasks_setTask, if_neg hne, hself], hholds⟩
      · rw [tasks_setTask] at hu
        split at hu
        · cases hu
          exact valid_launch _ _ _
        · exact inv.valid u task hu
    · cases h
  | step t input =>
    obtain ⟨task, ht, h⟩ := Option.bind_eq_some_iff.1 h
    exact inv_runTask inv ht h

theorem inv_run {w : World} {as : List Action} (ran : Machine.run (step srv) init as = some w) :
    w.Inv :=
  Machine.invariant_run inv_step inv_init ran

/-- In every reachable state, whatever the sockets and the clients do: a connection is stored under
its own device id, a socket is stored under at most one key, and the socket of a handler that has
finished is stored under none. -/
theorem registry_consistent (srv : Server) (as : List Action) :
    ∀ w, Machine.run (step srv) init as = some w →
      (∀ key conn, w.hub.connections.get? key = some conn → conn.deviceId.hash? = some key) ∧
      (∀ key key' conn conn', w.hub.connections.get? key = some conn →
        w.hub.connections.get? key' = some conn' → conn.websocket = conn'.websocket → key = key') ∧
      (∀ t deviceId, w.tasks t = some (.endpoint ⟨deviceId, .finished⟩) →
        ∀ key conn, w.hub.connections.get? key = some conn → conn.websocket ≠ t) := by
  intro w ran
  have inv := inv_run ran
  refine ⟨inv.sound.keyed, ?_, ?_⟩
  · intro key key' conn conn' h h' same
    obtain ⟨self, hself, hholds⟩ := inv.owned key conn h
    obtain ⟨self', hself', hholds'⟩ := inv.owned key' conn' h'
    rw [same, hself'] at hself
    cases hself
    exact Option.some.inj (hholds.symm.trans hholds')
  · rintro t deviceId ht key conn h rfl
    obtain ⟨self, hself, hholds⟩ := inv.owned key conn h
    cases ht.symm.trans hself
    cases hholds

/-- The first connection of a client. -/
def registration : List Action := [.start 0 .endpoint, .step 0 (.io .ok), .step 0 (.io .ok)]

theorem registry_consistent_registration :
    ∃ w, Machine.run (step ⟨plainText, .builtin⟩) init registration = some w ∧
      w.hub.connections.keys = [.str "unknown"] ∧
      ∀ key conn, w.hub.connections.get? key = some conn → conn.deviceId.hash? = some key :=
  ⟨_, rfl, rfl, (registry_consistent ⟨plainText, .builtin⟩ registration _ rfl).1⟩

end World

end Cpip
