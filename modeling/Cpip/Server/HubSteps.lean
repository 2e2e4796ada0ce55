import Cpip.Server.World

/-!
# What a step of the hub can do

For each operation of the hub, the cases of its step, each with the state it leads to.  Later proofs
go by these cases and never unfold the operations.
-/

namespace Cpip

namespace Event

/-- Everything but the registration and the removal of connections, on some of the sockets. -/
def TrafficOn (on : ℕ → Prop) : Event → Prop
  | received w _ | sent w _ | sendFailed w => on w
  | registers _ | closes _ _ | unregisters _ _ => False

end Event

namespace ConnectionHub

@[simp]
theorem closed_connections (hub : ConnectionHub) (w : ℕ) (answer : Answer) :
    (hub.closed w answer).connections = hub.connections := by
  cases answer <;> rfl

@[simp]
theorem closed_log (hub : ConnectionHub) (w : ℕ) (answer : Answer) :
    (hub.closed w answer).log = hub.log := by
  cases answer <;> rfl

@[simp]
theorem closed_nextRef (hub : ConnectionHub) (w : ℕ) (answer : Answer) :
    (hub.closed w answer).nextRef = hub.nextRef := by
  cases answer <;> rfl

/-- `hub'` differs from `hub` at most in traffic on some of the sockets and in the mutable fields of
connections. -/
structure Calm (on : ℕ → Prop) (hub hub' : ConnectionHub) : Prop where
  connections : hub'.connections = hub.connections
  lock : hub'.lock = hub.lock
  nextRef : hub'.nextRef = hub.nextRef
  sockets : hub'.sockets = hub.sockets
  log : ∃ events, hub'.log = hub.log ++ events ∧ ∀ e ∈ events, e.TrafficOn on

namespace Calm

variable {on : ℕ → Prop}

theorem rfl {hub : ConnectionHub} : Calm on hub hub :=
  ⟨.refl _, .refl _, .refl _, .refl _, [], by simp, by simp⟩

theorem record {hub : ConnectionHub} {e : Event} (h : e.TrafficOn on) :
    Calm on hub (hub.record [e]) :=
  ⟨.refl _, .refl _, .refl _, .refl _, [e], .refl _, by simpa using h⟩

theorem trans {a b c : ConnectionHub} (hab : Calm on a b) (hbc : Calm on b c) : Calm on a c := by
  obtain ⟨es, hes, htes⟩ := hab.log
  obtain ⟨fs, hfs, htfs⟩ := hbc.log
  refine ⟨hbc.connections.trans hab.connections, hbc.lock.trans hab.lock,
    hbc.nextRef.trans hab.nextRef, hbc.sockets.trans hab.sockets, es ++ fs, ?_, ?_⟩
  · rw [hfs, hes, List.append_assoc]
  · intro e he
    exact (List.mem_append.1 he).elim (htes e) (htfs e)

/-- Traffic on some sockets is traffic. -/
theorem any {a b : ConnectionHub} (h : Calm on a b) : Calm (fun _ => True) a b := by
  obtain ⟨events, hlog, traffic⟩ := h.log
  refine ⟨h.connections, h.lock, h.nextRef, h.sockets, events, hlog, fun e he => ?_⟩
  have ht := traffic e he
  cases e <;> trivial

end Calm

theorem calm_sent {on : ℕ → Prop} (hub : ConnectionHub) {w : ℕ} (h : on w) (text : JsonText)
    (answer : Answer) : Calm on hub (hub.sent w text answer) := by
  cases answer <;> exact Calm.record h

/-! ## `connect` -/

/-- The hub after `accept`, with the new connection `conn`. -/
def accepted (hub : ConnectionHub) (conn : DeviceConnection) (metadata : PyVal) : ConnectionHub :=
  { hub.setSocket conn.websocket .connected with
    nextRef := hub.nextRef + 1
    lastHeartbeat := Function.update hub.lastHeartbeat conn.ref conn.connectedAt
    metadata := Function.update hub.metadata conn.ref (metadata.or (.dict [])) }

/-- The cases of a step of `connect`. -/
inductive Connects (hub : ConnectionHub) (t : ℕ) (deviceId : PyVal) (websocket : ℕ)
    (metadata : PyVal) (now : ℚ) :
    ConnectPc → Answer → ConnectionHub → Progress ConnectPc (Except PyExc DeviceConnection) → Prop
  | refused (e : PyExc) :
    Connects hub t deviceId websocket metadata now .accepting .raises hub (.returned (.error e))
  | accepted :
    Connects hub t deviceId websocket metadata now .accepting .ok
      (hub.accepted ⟨hub.nextRef, deviceId, websocket, now⟩ metadata)
      (.suspended (.locking ⟨hub.nextRef, deviceId, websocket, now⟩))
  | unhashable (conn : DeviceConnection) (answer : Answer) (e : PyExc)
    (hash : deviceId.hash? = none) :
    Connects hub t deviceId websocket metadata now (.locking conn) answer hub
      (.returned (.error e))
  | displaces {conn old : DeviceConnection} {key : PyKey} (answer : Answer) (free : hub.lock = none)
    (hash : deviceId.hash? = some key) (stored : hub.connections.get? key = some old) :
    Connects hub t deviceId websocket metadata now (.locking conn) answer
      { hub.record [.closes old (.replacedBy conn)] with lock := some t }
      (.suspended (.closingOld conn old))
  | registers {conn : DeviceConnection} {key : PyKey} (answer : Answer) (free : hub.lock = none)
    (hash : deviceId.hash? = some key) (stored : hub.connections.get? key = none) :
    Connects hub t deviceId websocket metadata now (.locking conn) answer
      (hub.register key conn) (.returned (.ok conn))
  | replaces {conn old : DeviceConnection} {key : PyKey} (answer : Answer)
    (hash : deviceId.hash? = some key) :
    Connects hub t deviceId websocket metadata now (.closingOld conn old) answer
      { (hub.closed old.websocket answer).register key conn with lock := none }
      (.returned (.ok conn))

theorem connects_of_step {hub hub' : ConnectionHub} {t : ℕ} {deviceId : PyVal} {websocket : ℕ}
    {metadata : PyVal} {now : ℚ} {pc : ConnectPc} {answer : Answer}
    {p : Progress ConnectPc (Except PyExc DeviceConnection)}
    (h : hub.connectStep t deviceId websocket metadata now pc answer = some (hub', p)) :
    Connects hub t deviceId websocket metadata now pc answer hub' p := by
  unfold connectStep at h
  split at h
  · cases h
    exact .refused _
  · cases h
    exact .accepted
  · split at h
    · rename_i free
      split at h
      · rename_i hash
        cases h
        exact .unhashable _ _ _ hash
      · rename_i hash
        split at h
        · rename_i stored
          cases h
          exact .displaces _ free hash stored
        · rename_i stored
          cases h
          exact .registers _ free hash stored
    · cases h
  · split at h
    · cases h
    · rename_i hash
      cases h
      exact .replaces _ hash

/-! ## `disconnect` -/

/-- The cases of a step of `disconnect`. -/
inductive Disconnects (hub : ConnectionHub) (t : ℕ) (deviceId : PyVal) (reason : Reason) :
    DisconnectPc → Answer → ConnectionHub → Progress DisconnectPc (Except PyExc Unit) → Prop
  | absent (answer : Answer) (r : Except PyExc Unit)
    (stored : ∀ key, deviceId.hash? = some key → hub.connections.get? key = none) :
    Disconnects hub t deviceId reason .locking answer hub (.returned r)
  | removes {conn : DeviceConnection} {key : PyKey} (answer : Answer) (free : hub.lock = none)
    (hash : deviceId.hash? = some key) (stored : hub.connections.get? key = some conn) :
    Disconnects hub t deviceId reason .locking answer
      { hub.record [.unregisters conn (.disconnect reason), .closes conn (.disconnect reason)] with
        connections := hub.connections.pop key
        lock := some t }
      (.suspended (.closing conn))
  | closes (conn : DeviceConnection) (answer : Answer) :
    Disconnects hub t deviceId reason (.closing conn) answer
      { hub.closed conn.websocket answer with lock := none } (.returned (.ok ()))

theorem disconnects_of_step {hub hub' : ConnectionHub} {t : ℕ} {deviceId : PyVal} {reason : Reason}
    {pc : DisconnectPc} {answer : Answer} {p : Progress DisconnectPc (Except PyExc Unit)}
    (h : hub.disconnectStep t deviceId reason pc answer = some (hub', p)) :
    Disconnects hub t deviceId reason pc answer hub' p := by
  unfold disconnectStep at h
  split at h
  · split at h
    · rename_i free
      split at h
      · rename_i hash
        cases h
        exact .absent _ _ fun key hkey => by simp [hash] at hkey
      · rename_i key hash
        split at h
        · rename_i stored
          cases h
          exact .absent _ _ fun key' hkey => by
            obtain rfl : key = key' := Option.some.inj (hash.symm.trans hkey)
            exact stored
        · rename_i stored
          cases h
          exact .removes _ free hash stored
    · cases h
  · cases h
    exact .closes _ _

/-! ## `send_to_device`, `broadcast` and `heartbeat_loop` -/

/-- The cases of a step of `send_to_device`. -/
inductive Sends (hub : ConnectionHub) (t : ℕ) (deviceId : PyVal) :
    SendPc → Answer → ConnectionHub → Progress SendPc (Except PyExc Bool) → Prop
  | sent (conn : DeviceConnection) (text : JsonText) :
    Sends hub t deviceId (.sending conn) .ok (hub.sent conn.websocket text .ok)
      (.returned (.ok true))
  | failed (conn : DeviceConnection) (answer : Answer) :
    Sends hub t deviceId (.sending conn) answer (hub.record [.sendFailed conn.websocket])
      (.suspended (.disconnecting conn .locking))
  | disconnects {conn : DeviceConnection} {pc pc' : DisconnectPc} {answer : Answer}
    {hub' : ConnectionHub}
    (step : Disconnects hub t deviceId (.sendFailed conn) pc answer hub' (.suspended pc')) :
    Sends hub t deviceId (.disconnecting conn pc) answer hub' (.suspended (.disconnecting conn pc'))
  | returns {conn : DeviceConnection} {pc : DisconnectPc} {answer : Answer} {hub' : ConnectionHub}
    {r : Except PyExc Unit} (r' : Except PyExc Bool)
    (step : Disconnects hub t deviceId (.sendFailed conn) pc answer hub' (.returned r)) :
    Sends hub t deviceId (.disconnecting conn pc) answer hub' (.returned r')

theorem sends_of_step {hub hub' : ConnectionHub} {py : PyText} {t : ℕ} {deviceId : PyVal}
    {message : RPCMessage} {pc : SendPc} {answer : Answer}
    {p : Progress SendPc (Except PyExc Bool)}
    (h : hub.sendToDeviceStep py t deviceId message pc answer = some (hub', p)) :
    Sends hub t deviceId pc answer hub' p := by
  unfold sendToDeviceStep at h
  split at h
  · split at h <;> cases h
    · exact .sent _ _
    · exact .failed _ _
    · exact .failed _ _
  · split at h <;> cases h
    · rename_i hstep
      exact .disconnects (disconnects_of_step hstep)
    · rename_i hstep
      exact .returns _ (disconnects_of_step hstep)
    · rename_i hstep
      exact .returns _ (disconnects_of_step hstep)

/-- `conn` is stored under the id. -/
def Stores (hub : ConnectionHub) (deviceId : PyVal) (conn : DeviceConnection) : Prop :=
  ∃ key, deviceId.hash? = some key ∧ hub.connections.get? key = some conn

/-- What a heartbeat pass is about to disconnect. -/
def HeartbeatPc.dead : HeartbeatPc → List (PyKey × Reason)
  | .sleeping => []
  | .scanning _ _ dead | .sending _ _ _ _ dead | .cleaning dead => dead
  | .disconnecting key reason _ dead => (key, reason) :: dead

/-- The connection to which a heartbeat pass is sending, with the key it stood under. -/
def HeartbeatPc.current : HeartbeatPc → Option (PyKey × DeviceConnection)
  | .sending _ key conn _ _ => some (key, conn)
  | _ => none

/-- What a heartbeat pass finds in a step: a connection whose last heartbeat is too old, or one to
which no heartbeat can be sent. -/
inductive Finds (hub hub' : ConnectionHub) (interval : ℚ) : HeartbeatPc → PyKey × Reason → Prop
  | tooOld {now : ℚ} {key : PyKey} {rest : List PyKey} {dead : List (PyKey × Reason)}
    {conn : DeviceConnection} (stored : hub.connections.get? key = some conn)
    (late : now - hub.lastHeartbeat conn.ref > interval * 3) :
    Finds hub hub' interval (.scanning now (key :: rest) dead)
      (key, .heartbeatTimeout conn now (hub.lastHeartbeat conn.ref) interval)
  | failed {now : ℚ} {key : PyKey} {conn : DeviceConnection} {rest : List PyKey}
    {dead : List (PyKey × Reason)} (logged : .sendFailed conn.websocket ∈ hub'.log) :
    Finds hub hub' interval (.sending now key conn rest dead) (key, .sendFailed conn)

/-- The cases of a step of `broadcast`. -/
inductive Broadcasts (hub : ConnectionHub) (t : ℕ) (b : Broadcast) (answer : Answer) :
    ConnectionHub → Progress Broadcast ℕ → Prop
  | done (n : ℕ) : Broadcasts hub t b answer hub (.returned n)
  | turns {b' : Broadcast}
    (current : ∀ key pc, b'.current = some (key, pc) →
      ∃ conn, pc = .sending conn ∧ hub.Stores (.ofKey key) conn) :
    Broadcasts hub t b answer hub (.suspended b')
  | sends {b' : Broadcast} {key : PyKey} {pc pc' : SendPc} {hub' : ConnectionHub}
    (current : b.current = some (key, pc))
    (step : Sends hub t (.ofKey key) pc answer hub' (.suspended pc'))
    (current' : b'.current = some (key, pc')) :
    Broadcasts hub t b answer hub' (.suspended b')
  | returns {b' : Broadcast} {key : PyKey} {pc : SendPc} {hub' : ConnectionHub}
    {r : Except PyExc Bool} (current : b.current = some (key, pc))
    (step : Sends hub t (.ofKey key) pc answer hub' (.returned r)) (current' : b'.current = none) :
    Broadcasts hub t b answer hub' (.suspended b')

theorem Broadcast.count_current (b : Broadcast) (r : Except PyExc Bool) :
    (b.count r).current = none := by
  unfold count
  split <;> rfl

theorem sendToDevice_eq_suspended {hub : ConnectionHub} {deviceId : PyVal} {pc : SendPc}
    (h : hub.sendToDevice deviceId = .suspended pc) :
    ∃ conn, pc = .sending conn ∧ hub.Stores deviceId conn := by
  unfold sendToDevice at h
  split at h
  · cases h
  · rename_i hash
    split at h <;> cases h
    rename_i stored
    exact ⟨_, rfl, _, hash, stored⟩

theorem broadcasts_of_step {hub hub' : ConnectionHub} {py : PyText} {t : ℕ} {b : Broadcast}
    {answer : Answer} {p : Progress Broadcast ℕ}
    (h : hub.broadcastStep py t b answer = some (hub', p)) : Broadcasts hub t b answer hub' p := by
  unfold broadcastStep at h
  split at h
  · cases h
    exact .done _
  · split at h <;> cases h
    · rename_i hsend
      obtain ⟨conn, rfl, stored⟩ := sendToDevice_eq_suspended hsend
      refine .turns fun key pc same => ?_
      cases same
      exact ⟨conn, rfl, stored⟩
    · exact .turns fun _ _ same => by simp [Broadcast.count_current] at same
  · rename_i hcurrent
    split at h <;> cases h
    · rename_i hstep
      exact .sends hcurrent (sends_of_step hstep) rfl
    · rename_i hstep
      exact .returns hcurrent (sends_of_step hstep) (Broadcast.count_current _ _)

/-- The cases of a step of `heartbeat_loop`. -/
inductive Beats (hub : ConnectionHub) (t : ℕ) (interval : ℚ) :
    HeartbeatPc → Answer → ConnectionHub → HeartbeatPc → Prop
  | calm {pc pc' : HeartbeatPc} {hub' : ConnectionHub} (answer : Answer)
    (calm : Calm (fun _ => True) hub hub')
    (dead : ∀ d ∈ pc'.dead, d ∈ pc.dead ∨ Finds hub hub' interval pc d)
    (current : ∀ key conn, pc'.current = some (key, conn) →
      hub.connections.get? key = some conn) :
    Beats hub t interval pc answer hub' pc'
  | disconnects {key : PyKey} {reason : Reason} {pc pc' : DisconnectPc} {answer : Answer}
    {hub' : ConnectionHub} (dead : List (PyKey × Reason))
    (step : Disconnects hub t (.ofKey key) reason pc answer hub' (.suspended pc')) :
    Beats hub t interval (.disconnecting key reason pc dead) answer hub'
      (.disconnecting key reason pc' dead)
  | returns {key : PyKey} {reason : Reason} {pc : DisconnectPc} {answer : Answer}
    {hub' : ConnectionHub} {r : Except PyExc Unit} (dead : List (PyKey × Reason))
    (step : Disconnects hub t (.ofKey key) reason pc answer hub' (.returned r)) :
    Beats hub t interval (.disconnecting key reason pc dead) answer hub' (.cleaning dead)

theorem beats_of_step {hub hub' : ConnectionHub} {py : PyText} {t : ℕ} {interval : ℚ}
    {amb : Ambient} {pc pc' : HeartbeatPc} {answer : Answer}
    (h : hub.heartbeatStep py t interval amb pc answer = some (hub', pc')) :
    Beats hub t interval pc answer hub' pc' := by
  unfold heartbeatStep at h
  split at h
  · cases h
    exact .calm _ .rfl (fun d hd => by simp [HeartbeatPc.dead] at hd) fun _ _ same => by cases same
  · cases h
    exact .calm _ .rfl (fun d hd => .inl hd) fun _ _ same => by cases same
  · split at h
    · cases h
      exact .calm _ .rfl (fun d hd => .inl hd) fun _ _ same => by cases same
    · rename_i stored
      dsimp only at h
      split at h <;> rename_i late <;> cases h
      · refine .calm _ .rfl (fun d hd => ?_) fun _ _ same => by cases same
        refine (List.mem_append.1 hd).imp id fun hd => ?_
        obtain rfl := List.mem_singleton.1 hd
        exact .tooOld stored late
      · refine .calm _ .rfl (fun d hd => .inl hd) fun _ _ same => ?_
        cases same
        exact stored
  · split at h <;> cases h
    · exact .calm _ (calm_sent _ trivial _ _) (fun d hd => .inl hd) fun _ _ same => by cases same
    · refine .calm _ (.record trivial) (fun d hd => ?_) fun _ _ same => by cases same
      refine (List.mem_append.1 hd).imp id fun hd => ?_
      obtain rfl := List.mem_singleton.1 hd
      exact .failed (List.mem_append_right _ (List.mem_singleton_self _))
  · cases h
    exact .calm _ .rfl (fun d hd => by simp [HeartbeatPc.dead] at hd) fun _ _ same => by cases same
  · cases h
    exact .calm _ .rfl (fun d hd => .inl hd) fun _ _ same => by cases same
  · split at h <;> cases h
    · rename_i hstep
      exact .disconnects _ (disconnects_of_step hstep)
    · rename_i hstep
      exact .returns _ (disconnects_of_step hstep)

end ConnectionHub

end Cpip
