import Cpip.Server.HubSteps

/-!
# What a step of the server can do

The cases of a step of a handler (`Serves`), and what a step of any task does to the hub (`Effect`):
traffic, a step of `connect`, or a step of `disconnect` with the reason of the task that makes it.
-/

namespace Cpip

open ConnectionHub (ConnectPc DisconnectPc SendPc Broadcast HeartbeatPc Calm Connects Disconnects)

/-- The handler has the connection `conn` and is not in the middle of `connect` or `disconnect`. -/
def EndpointPc.Settled (conn : DeviceConnection) : EndpointPc → Prop
  | .running _ (.disconnecting _ (.closing _)) | .running _ (.reconnecting _ _) => False
  | .running c _ => c = conn
  | .closing c .locking => c = conn
  | _ => False

namespace Served

variable {srv : Server} {amb : Ambient}

/-- The handler has the connection `conn`, and the hub is `hub`. -/
structure Rests (conn : DeviceConnection) (hub : ConnectionHub) (s : Served) : Prop where
  hub : s.hub = hub
  settled : s.self.pc.Settled conn

theorem rests_internalError {s : Served} {hub : ConnectionHub} (h : s.hub = hub)
    (conn : DeviceConnection) : Rests conn hub (s.internalError srv amb conn) := by
  unfold internalError
  split <;> exact ⟨h, rfl⟩

theorem rests_parseError {s : Served} {hub : ConnectionHub} (h : s.hub = hub)
    (conn : DeviceConnection) : Rests conn hub (s.parseError srv amb conn) := by
  unfold parseError
  split <;> exact ⟨h, rfl⟩

theorem rests_acknowledge {s : Served} {hub : ConnectionHub} (h : s.hub = hub)
    (conn : DeviceConnection) : Rests conn hub (s.acknowledge srv amb conn) := by
  unfold acknowledge
  dsimp only
  split
  · exact ⟨h, rfl⟩
  · exact rests_internalError h conn

/-- From `s` to `s'` the handler `t`, with the connection `conn`, produced traffic only. -/
structure Quiet (t : ℕ) (conn : DeviceConnection) (s s' : Served) : Prop where
  calm : Calm (· = t) s.hub s'.hub
  settled : s'.self.pc.Settled conn

theorem Quiet.of_rests {t : ℕ} {conn : DeviceConnection} {s s' : Served} {hub : ConnectionHub}
    (calm : Calm (· = t) s.hub hub) (rests : Rests conn hub s') : Quiet t conn s s' :=
  ⟨rests.hub ▸ calm, rests.settled⟩

theorem Quiet.of_calm {t : ℕ} {conn : DeviceConnection} {a b c : Served}
    (hab : Calm (· = t) a.hub b.hub) (hbc : Quiet t conn b c) : Quiet t conn a c :=
  ⟨hab.trans hbc.calm, hbc.settled⟩

/-- Changing the mutable fields of connections is no traffic at all. -/
theorem calm_fields {on : ℕ → Prop} (hub : ConnectionHub) (lastHeartbeat : ℕ → ℚ)
    (metadata : ℕ → PyVal) :
    Calm on hub { hub with lastHeartbeat := lastHeartbeat, metadata := metadata } :=
  ⟨rfl, rfl, rfl, rfl, [], by simp, by simp⟩

theorem quiet_sessionInit (s : Served) (t : ℕ) (conn : DeviceConnection) (msg : RPCMessage) :
    Quiet t conn s (s.sessionInit srv amb conn msg) := by
  unfold sessionInit
  split
  · dsimp only
    split
    · rename_i params _ _
      have calm : Calm (· = t) s.hub _ := calm_fields s.hub s.hub.lastHeartbeat
        (Function.update s.hub.metadata conn.ref (.dict params))
      exact .of_rests calm (by apply rests_acknowledge; rfl)
    · exact ⟨.rfl, rfl⟩
  · exact .of_rests .rfl (by apply rests_internalError; rfl)

theorem quiet_receive (s : Served) {conn : DeviceConnection} (t : ℕ) (raw : Frame)
    (settled : s.self.pc.Settled conn) : Quiet t conn s (s.receive srv amb conn t raw) := by
  have received : Calm (· = t) s.hub (s.hub.record [.received t raw]) := .record (.refl t)
  unfold receive
  dsimp only
  split
  · exact .of_rests received (by apply rests_parseError; rfl)
  · exact .of_rests received (by apply rests_internalError; rfl)
  · split
    · exact .of_calm received (quiet_sessionInit _ t conn _)
    · exact ⟨received.trans (calm_fields _ _ s.hub.metadata), settled⟩
    · split
      · exact ⟨received, rfl⟩
      · exact .of_rests received (by apply rests_internalError; rfl)
    · exact ⟨received, settled⟩

theorem quiet_sent (s : Served) (conn : DeviceConnection) (t : ℕ) (text : JsonText)
    (answer : Answer) : Quiet t conn s (s.sent srv amb conn t text answer) := by
  have sent : Calm (· = t) s.hub (s.hub.sent t text answer) :=
    ConnectionHub.calm_sent s.hub (.refl t) text answer
  unfold Served.sent
  cases answer with
  | ok => exact ⟨sent, rfl⟩
  | raises => exact .of_rests sent (by apply rests_internalError; rfl)

/-- The cases of a step of handler `t`. -/
inductive Serves (s : Served) (t : ℕ) (input : Input) : Served → Prop
  | quiet {conn : DeviceConnection} {s' : Served} (before : s.self.pc.Settled conn)
    (quiet : Quiet t conn s s') : Serves s t input s'
  | connects {pc pc' : ConnectPc} {hub : ConnectionHub} (now : ℚ)
    (before : s.self.pc = .connecting pc)
    (step : Connects s.hub t s.self.deviceId t .none now pc input.answer hub (.suspended pc')) :
    Serves s t input ({ s with hub := hub }.goto (.connecting pc'))
  | connected {pc : ConnectPc} {hub : ConnectionHub} {conn : DeviceConnection} (now : ℚ)
    (before : s.self.pc = .connecting pc)
    (step : Connects s.hub t s.self.deviceId t .none now pc input.answer hub
      (.returned (.ok conn))) :
    Serves s t input ({ s with hub := hub }.goto (.running conn .receiving))
  | failed {pc : ConnectPc} {hub : ConnectionHub} {e : PyExc} (now : ℚ)
    (before : s.self.pc = .connecting pc)
    (step : Connects s.hub t s.self.deviceId t .none now pc input.answer hub
      (.returned (.error e))) :
    Serves s t input ({ s with hub := hub }.goto .finished)
  | disconnects {conn : DeviceConnection} {params : List (PyKey × PyVal)} {pc pc' : DisconnectPc}
    {hub : ConnectionHub} (before : s.self.pc = .running conn (.disconnecting params pc))
    (step : Disconnects s.hub t conn.deviceId (.reRegistered t) pc input.answer hub
      (.suspended pc')) :
    Serves s t input ({ s with hub := hub }.goto (.running conn (.disconnecting params pc')))
  | disconnected {conn : DeviceConnection} {params : List (PyKey × PyVal)} {pc : DisconnectPc}
    {hub : ConnectionHub} {r : Except PyExc Unit} {s' : Served}
    (before : s.self.pc = .running conn (.disconnecting params pc))
    (step : Disconnects s.hub t conn.deviceId (.reRegistered t) pc input.answer hub (.returned r))
    (after : s' = { s with hub := hub }.goto (.running conn (.reconnecting params .accepting)) ∨
      Rests conn hub s') :
    Serves s t input s'
  | reconnects {conn : DeviceConnection} {params : List (PyKey × PyVal)} {pc pc' : ConnectPc}
    {hub : ConnectionHub} (now : ℚ) (before : s.self.pc = .running conn (.reconnecting params pc))
    (step : Connects s.hub t s.self.deviceId t (.dict params) now pc input.answer hub
      (.suspended pc')) :
    Serves s t input ({ s with hub := hub }.goto (.running conn (.reconnecting params pc')))
  | reconnected {conn new : DeviceConnection} {params : List (PyKey × PyVal)} {pc : ConnectPc}
    {hub : ConnectionHub} {s' : Served} (now : ℚ)
    (before : s.self.pc = .running conn (.reconnecting params pc))
    (step : Connects s.hub t s.self.deviceId t (.dict params) now pc input.answer hub
      (.returned (.ok new)))
    (rests : Rests new hub s') : Serves s t input s'
  | reconnectFailed {conn : DeviceConnection} {params : List (PyKey × PyVal)} {pc : ConnectPc}
    {hub : ConnectionHub} {e : PyExc} {s' : Served} (now : ℚ)
    (before : s.self.pc = .running conn (.reconnecting params pc))
    (step : Connects s.hub t s.self.deviceId t (.dict params) now pc input.answer hub
      (.returned (.error e)))
    (rests : Rests conn hub s') : Serves s t input s'
  | closes {conn : DeviceConnection} {pc pc' : DisconnectPc} {hub : ConnectionHub}
    (before : s.self.pc = .closing conn pc)
    (step : Disconnects s.hub t conn.deviceId (.handlerEnded t) pc input.answer hub
      (.suspended pc')) :
    Serves s t input ({ s with hub := hub }.goto (.closing conn pc'))
  | finishes {conn : DeviceConnection} {pc : DisconnectPc} {hub : ConnectionHub}
    {r : Except PyExc Unit} (before : s.self.pc = .closing conn pc)
    (step : Disconnects s.hub t conn.deviceId (.handlerEnded t) pc input.answer hub
      (.returned r)) :
    Serves s t input ({ s with hub := hub }.goto .finished)

theorem serves_of_loopStep {s s' : Served} {t : ℕ} {conn : DeviceConnection} {input : Input}
    {pc : LoopPc} (before : s.self.pc = .running conn pc)
    (h : s.loopStep srv amb t conn input pc = some s') : Serves s t input s' := by
  unfold loopStep at h
  split at h
  · have settled : s.self.pc.Settled conn := by rw [before]; rfl
    split at h <;> cases h
    · exact .quiet settled ⟨.rfl, rfl⟩
    · exact .quiet settled (quiet_receive s t _ settled)
  · split at h <;> cases h <;> rename_i hstep
    · exact .disconnects before (ConnectionHub.disconnects_of_step hstep)
    · exact .disconnected before (ConnectionHub.disconnects_of_step hstep) (.inl rfl)
    · exact .disconnected before (ConnectionHub.disconnects_of_step hstep)
        (.inr (by apply rests_internalError; rfl))
  · split at h <;> cases h <;> rename_i hstep
    · exact .reconnects _ before (ConnectionHub.connects_of_step hstep)
    · exact .reconnected _ before (ConnectionHub.connects_of_step hstep)
        (by apply rests_acknowledge; rfl)
    · exact .reconnectFailed _ before (ConnectionHub.connects_of_step hstep)
        (by apply rests_internalError; rfl)
  · have settled : s.self.pc.Settled conn := by rw [before]; rfl
    split at h
    · cases h
      exact .quiet settled (.of_rests .rfl (by apply rests_internalError; rfl))
    · split at h <;> cases h
      · exact .quiet settled ⟨.rfl, rfl⟩
      · exact .quiet settled (.of_rests .rfl (by apply rests_internalError; rfl))
  · have settled : s.self.pc.Settled conn := by rw [before]; rfl
    cases h
    exact .quiet settled (quiet_sent s conn t _ _)
  · have settled : s.self.pc.Settled conn := by rw [before]; rfl
    cases h
    exact .quiet settled ⟨ConnectionHub.calm_sent _ (.refl t) _ _, rfl⟩
  · have settled : s.self.pc.Settled conn := by rw [before]; rfl
    dsimp only at h
    split at h <;> cases h <;> exact .quiet settled ⟨ConnectionHub.calm_sent _ (.refl t) _ _, rfl⟩

theorem serves_of_step {s s' : Served} {t : ℕ} {input : Input}
    (h : s.step srv t input = some s') : Serves s t input s' := by
  unfold step at h
  dsimp only at h
  split at h
  · rename_i before
    split at h <;> cases h <;> rename_i hstep
    · exact .connects _ before (ConnectionHub.connects_of_step hstep)
    · exact .connected _ before (ConnectionHub.connects_of_step hstep)
    · exact .failed _ before (ConnectionHub.connects_of_step hstep)
  · rename_i before
    exact serves_of_loopStep before h
  · rename_i before
    split at h <;> cases h <;> rename_i hstep
    · exact .closes before (ConnectionHub.disconnects_of_step hstep)
    · exact .finishes before (ConnectionHub.disconnects_of_step hstep)
  · cases h

end Served

/-! ## The effect of a step on the hub -/

namespace Task

/-- The `connect` that the task is in, with its device id. -/
def connecting : Task → Option (PyVal × ConnectPc)
  | .endpoint ⟨deviceId, .connecting pc⟩ => some (deviceId, pc)
  | .endpoint ⟨deviceId, .running _ (.reconnecting _ pc)⟩ => some (deviceId, pc)
  | _ => none

/-- The `disconnect` that task `t` is in, with its device id and its reason. -/
def disconnecting (t : ℕ) : Task → Option (PyVal × Reason × DisconnectPc)
  | .endpoint ⟨_, .running conn (.disconnecting _ pc)⟩ => some (conn.deviceId, .reRegistered t, pc)
  | .endpoint ⟨_, .closing conn pc⟩ => some (conn.deviceId, .handlerEnded t, pc)
  | .sendToDevice deviceId _ (.disconnecting conn pc) => some (deviceId, .sendFailed conn, pc)
  | .broadcast ⟨_, _, _, some (key, .disconnecting conn pc)⟩ =>
    some (.ofKey key, .sendFailed conn, pc)
  | .heartbeatLoop _ (.disconnecting key reason pc _) => some (.ofKey key, reason, pc)
  | _ => none

end Task

/-- What a step of task `t` does to the hub. -/
inductive Effect (hub : ConnectionHub) (t : ℕ) (task : Task) : ConnectionHub → Prop
  | calm {hub' : ConnectionHub} (calm : Calm (fun _ => True) hub hub') : Effect hub t task hub'
  | connects {deviceId metadata : PyVal} {now : ℚ} {pc : ConnectPc} {answer : Answer}
    {hub' : ConnectionHub} {p : Progress ConnectPc (Except PyExc DeviceConnection)}
    (before : task.connecting = some (deviceId, pc))
    (step : Connects hub t deviceId t metadata now pc answer hub' p) : Effect hub t task hub'
  | disconnects {deviceId : PyVal} {reason : Reason} {pc : DisconnectPc} {answer : Answer}
    {hub' : ConnectionHub} {p : Progress DisconnectPc (Except PyExc Unit)}
    (before : task.disconnecting t = some (deviceId, reason, pc))
    (step : Disconnects hub t deviceId reason pc answer hub' p) : Effect hub t task hub'

theorem Served.Serves.effect {s s' : Served} {t : ℕ} {input : Input} (h : Serves s t input s') :
    Effect s.hub t (.endpoint s.self) s'.hub := by
  obtain ⟨hub, sessions, deviceId, pc⟩ := s
  cases h with
  | quiet _ quiet => exact .calm quiet.calm.any
  | connects now before step | connected now before step | failed now before step =>
    dsimp only at before
    subst before
    exact .connects rfl step
  | disconnects before step | closes before step | finishes before step =>
    dsimp only at before
    subst before
    exact .disconnects rfl step
  | reconnects now before step =>
    dsimp only at before
    subst before
    exact .connects rfl step
  | disconnected before step after =>
    dsimp only at before
    subst before
    rcases after with rfl | rests
    · exact .disconnects rfl step
    · exact rests.hub ▸ .disconnects rfl step
  | reconnected now before step rests | reconnectFailed now before step rests =>
    dsimp only at before
    subst before
    exact rests.hub ▸ .connects rfl step

namespace World

theorem effect_of_sends {hub hub' : ConnectionHub} {t : ℕ} {deviceId : PyVal} {pc : SendPc}
    {answer : Answer} {p : Progress SendPc (Except PyExc Bool)} {task : Task}
    (here : ∀ conn pc', pc = .disconnecting conn pc' →
      task.disconnecting t = some (deviceId, .sendFailed conn, pc'))
    (h : ConnectionHub.Sends hub t deviceId pc answer hub' p) : Effect hub t task hub' := by
  cases h with
  | sent conn text => exact .calm (.record trivial)
  | failed conn answer => exact .calm (.record trivial)
  | disconnects step => exact .disconnects (here _ _ rfl) step
  | returns r step => exact .disconnects (here _ _ rfl) step

theorem effect_of_runTask {srv : Server} {w w' : World} {t : ℕ} {input : Input} {task : Task}
    (h : w.runTask srv t input task = some w') : Effect w.hub t task w'.hub := by
  cases task with
  | endpoint self =>
    obtain ⟨s, hs, rfl⟩ := runTask_endpoint h
    exact (Served.serves_of_step hs).effect
  | sendToDevice deviceId message pc =>
    obtain ⟨⟨hub, p⟩, hs, rfl⟩ := Option.map_eq_some_iff.1 h
    have effect : Effect w.hub t (.sendToDevice deviceId message pc) hub :=
      effect_of_sends (by rintro conn pc' rfl; rfl) (ConnectionHub.sends_of_step hs)
    cases p <;> exact effect
  | broadcast self =>
    obtain ⟨⟨hub, p⟩, hs, rfl⟩ := Option.map_eq_some_iff.1 h
    obtain ⟨message, rest, sent, current⟩ := self
    have effect : Effect w.hub t (.broadcast ⟨message, rest, sent, current⟩) hub := by
      cases ConnectionHub.broadcasts_of_step hs with
      | done n => exact .calm .rfl
      | turns current => exact .calm .rfl
      | sends current step _ | returns current step _ =>
        dsimp only at current
        subst current
        exact effect_of_sends (by rintro conn pc' rfl; rfl) step
    cases p <;> exact effect
  | heartbeatLoop interval pc =>
    obtain ⟨⟨hub, pc'⟩, hs, rfl⟩ := Option.map_eq_some_iff.1 h
    show Effect w.hub t _ hub
    cases ConnectionHub.beats_of_step hs with
    | calm answer calm dead current => exact .calm calm
    | disconnects dead step => exact .disconnects rfl step
    | returns dead step => exact .disconnects rfl step
  | done => cases h

end World

end Cpip
