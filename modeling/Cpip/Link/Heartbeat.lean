import Cpip.Client.Dispatch
import Cpip.Runtime.Session
import Cpip.Server.Heartbeats

/-!
# A server and a client under heartbeats

The server with its heartbeat loop, and a client of this repository, joined by two reliable ordered
channels.  Any other tasks run on the server, and other coroutines and programs of the client may
send anything at any time.  A pass of the loop begins only when every frame was delivered and
handled, and less than three intervals after the last one.  Nothing in the code reads `beaten`.
-/

namespace Cpip

open ConnectionHub (HeartbeatPc)

/-! ## The two programs and the channels -/

/-- A client: the daemon or a session of the runtime. -/
inductive Peer where
  | daemon (self : CpipDaemon)
  | session (self : Session)

namespace Peer

def isDaemon : Peer → Bool
  | daemon _ => true
  | session _ => false

end Peer

/-- What does not change: the two programs, the socket that joins them, which is the task of its
handler, and the task and the interval of `heartbeat_loop`. -/
structure LinkEnv where
  srv : Server
  daemon : DaemonEnv
  runtime : Serialization.Env
  py : PyText
  ids : IdSupply
  socket : ℕ
  loop : ℕ
  interval : ℚ
  apart : socket ≠ loop
  positive : 0 < interval

/-- The server and the client with the frames on their way, the present, the beginning of the last
pass, and the connections that were sent a heartbeat. -/
structure Link where
  world : World
  peer : Peer
  down : List JsonText
  up : List Frame
  clock : ℚ
  lastPass : Option ℚ
  beaten : List DeviceConnection

/-- A task of the server is started or runs; the client gets a frame at `now`, in its receive loop
`l`, and is done with it at `later`; or other coroutines and programs leave the client in another
state and send frames. -/
inductive LinkAction where
  | start (u : ℕ) (call : Call)
  | serve (u : ℕ) (input : Input)
  | deliver (l : ℕ) (now later : ℚ)
  | elsewhere (peer : Peer) (frames : List Frame)

namespace ConnectionHub

/-- The ids that the pass has not come to. -/
def HeartbeatPc.ahead : HeartbeatPc → List PyKey
  | .scanning _ rest _ | .sending _ _ _ rest _ => rest
  | _ => []

/-- The ids that the loop is still to disconnect, with their reasons. -/
def HeartbeatPc.doomed : HeartbeatPc → List (PyKey × Reason)
  | .sleeping => []
  | .scanning _ _ dead | .sending _ _ _ _ dead | .cleaning dead => dead
  | .disconnecting key reason .locking dead => (key, reason) :: dead
  | .disconnecting _ _ (.closing _) dead => dead

end ConnectionHub

/-- A pass that started at `start` looks at a connection. -/
structure Look where
  interval : ℚ
  start : ℚ
  conn : DeviceConnection

namespace World

/-- Where the heartbeat loop is. -/
def loopPc (w : World) (u : ℕ) : HeartbeatPc :=
  match w.tasks u with
  | some (.heartbeatLoop _ pc) => pc
  | _ => .sleeping

/-- The handler waits for a frame. -/
def receiving (w : World) (u : ℕ) : Bool :=
  match w.tasks u with
  | some (.endpoint ⟨_, .running _ .receiving⟩) => true
  | _ => false

/-- The connection that the task, a heartbeat loop, looks at in its next step. -/
def looksAt (w : World) (u : ℕ) : Option Look :=
  match w.tasks u with
  | some (.heartbeatLoop interval (.scanning start (key :: _) _)) =>
    (w.hub.connections.get? key).map (Look.mk interval start)
  | _ => none

/-- A task begins a pass in its next step. -/
def beginsPass (w : World) (u : ℕ) : Bool :=
  match w.tasks u with
  | some (.heartbeatLoop _ .sleeping) => true
  | _ => false

end World

/-- The text that an event sends on the socket. -/
def Event.sentOn (w : ℕ) : Event → Option JsonText
  | sent w' text => if w' = w then some text else none
  | _ => none

namespace Link

variable (env : LinkEnv)

/-- The client runs, the server does not. -/
def init (peer : Peer) (clock : ℚ) : Link := ⟨.init, peer, [], [], clock, none, []⟩

/-- The server runs one heartbeat loop, and the socket is that of a handler. -/
def startable (u : ℕ) : Call → Bool
  | .heartbeatLoop interval => u = env.loop ∧ interval = env.interval
  | .endpoint => u ≠ env.loop
  | _ => u ≠ env.loop ∧ u ≠ env.socket

/-- Every frame was delivered and handled. -/
def handled (s : Link) : Bool :=
  match s.world.tasks env.socket with
  | some (.endpoint ⟨_, .running _ .receiving⟩) | some (.endpoint ⟨_, .closing _ _⟩) =>
    s.down.isEmpty && s.up.isEmpty
  | some (.endpoint ⟨_, .running _ _⟩) => false
  | _ => true

/-- A pass can begin. -/
def due (s : Link) (now : ℚ) : Bool :=
  s.handled env && s.lastPass.all fun last => now - last < env.interval * 3

/-- What the handler of the socket receives is the first frame on its way. -/
def feed (s : Link) (u : ℕ) (input : Input) : Option (Input × List Frame) :=
  if u = env.socket ∧ s.world.receiving u ∧ input.received.isSome then
    match s.up with
    | [] => none
    | raw :: up => some ({ input with received := some raw }, up)
  else some (input, s.up)

/-- The connection that a heartbeat was sent to in a step with these events. -/
def beat (w : World) (loop u : ℕ) (events : List Event) : List DeviceConnection :=
  match w.loopPc loop with
  | .sending _ _ conn _ _ => if u = loop ∧ events.any Event.isSent then [conn] else []
  | _ => []

/-- A task of the server runs. -/
def serve (s : Link) (u : ℕ) (input : Input) : Option Link :=
  let now := input.measured.amb.now
  let begins := u = env.loop ∧ s.world.beginsPass u
  if s.clock ≤ now ∧ (begins → s.due env now) then
    (s.feed env u input).bind fun (input, up) =>
      (s.world.step env.srv (.step u input)).map fun world =>
        let events := world.hub.log.drop s.world.hub.log.length
        { s with
          world := world
          down := s.down ++ events.filterMap (Event.sentOn env.socket)
          up := up
          clock := now
          lastPass := if begins then some now else s.lastPass
          beaten := s.beaten ++ beat s.world env.loop u events }
  else none

/-- The client handles a frame; a session sends nothing in return. -/
def receive (peer : Peer) (l : ℕ) (text : JsonText) (now later : ℚ) :
    Option (Peer × List Frame) :=
  match peer with
  | .daemon self =>
    (CpipDaemon.step env.daemon self (.frame (.json text) now later)).map fun self' =>
      (.daemon self', (self'.sent.drop self.sent.length).map Frame.json)
  | .session self =>
    (Session.step env.runtime env.py env.ids self (.receive l (.json text) now)).map fun self' =>
      (.session self', [])

def step (s : Link) : LinkAction → Option Link
  | .start u call =>
    if startable env u call then
      (s.world.step env.srv (.start u call)).map fun world => { s with world := world }
    else none
  | .serve u input => s.serve env u input
  | .deliver l now later =>
    match s.down with
    | [] => none
    | text :: down =>
      if s.clock ≤ now ∧ now ≤ later then
        (receive env s.peer l text now later).map fun (peer, frames) =>
          { s with peer := peer, down := down, up := s.up ++ frames, clock := later }
      else none
  | .elsewhere peer frames =>
    if peer.isDaemon = s.peer.isDaemon then some { s with peer := peer, up := s.up ++ frames }
    else none

/-! ## When the client is left alone -/

/-- The client is disconnected for no timeout. -/
def Spared (s : Link) : Prop := Undisturbed env.socket s.world.hub.log

/-- When the pass comes to the client's connection, the client acknowledges heartbeats and was sent
one on it before, or the connection is no older than three intervals; and when the client's
connection is about to be registered, the pass has not found another one of that id too old. -/
def Fit (s : Link) : LinkAction → Prop
  | .serve u _ =>
    (∀ look ∈ s.world.looksAt u, look.conn.websocket = env.socket →
      look.start - look.conn.connectedAt ≤ look.interval * 3 ∨
        s.peer.isDaemon = true ∧ look.conn ∈ s.beaten) ∧
      (u = env.socket → ∀ task key conn, s.world.tasks u = some task → task.AboutTo key conn →
        ∀ reason, (key, reason) ∈ (s.world.loopPc env.loop).doomed → reason.isTimeout = false)
  | _ => True

/-! ## What holds in every run -/

/-- A heartbeat is on its way to the client, or an acknowledgement to the server. -/
def InFlight (s : Link) : Prop :=
  (∃ text ∈ s.down, (Frame.json text).type? = some .heartbeat) ∨
    ∃ raw ∈ s.up, raw.type? = some .heartbeatAck

/-- The pass has not sent a heartbeat on the connection. -/
def Ahead (pc : HeartbeatPc) (key : PyKey) (conn : DeviceConnection) : Prop :=
  key ∈ pc.ahead ∨ ∃ start rest dead, pc = .sending start key conn rest dead

/-- The ids that the loop looks up. -/
def keys : HeartbeatPc → List PyKey
  | .sending _ key _ rest dead => key :: (rest ++ dead.map Prod.fst)
  | pc => pc.ahead ++ pc.doomed.map Prod.fst

/-- A connection that was sent a heartbeat was heard of since the last pass began, or will be before
the next one. -/
structure Heard (s : Link) (key : PyKey) (conn : DeviceConnection) (last : ℚ) : Prop where
  recent : Ahead (s.world.loopPc env.loop) key conn →
    last - env.interval * 3 ≤ s.world.hub.lastHeartbeat conn.ref
  answers : last ≤ s.world.hub.lastHeartbeat conn.ref ∨
    Ahead (s.world.loopPc env.loop) key conn ∨ s.InFlight ∨
      key ∈ (s.world.loopPc env.loop).doomed.map Prod.fst

/-- The pass that the loop is in is the last one, and what it sends is to a registered connection
that it did not find too old. -/
def Passing (s : Link) : HeartbeatPc → Prop
  | .scanning start _ _ => s.lastPass = some start
  | .sending start _ conn _ _ => s.lastPass = some start ∧ .registers conn ∈ s.world.hub.log ∧
    start - env.interval * 3 ≤ s.world.hub.lastHeartbeat conn.ref
  | _ => True

/-- The connection is registered for the client. -/
def Joins (s : Link) (key : PyKey) (conn : DeviceConnection) : Prop :=
  s.world.hub.connections.get? key = some conn ∧ conn.websocket = env.socket

structure Inv (s : Link) : Prop where
  world : s.world.Inv
  loops : ∀ u interval pc, s.world.tasks u = some (.heartbeatLoop interval pc) →
    u = env.loop ∧ interval = env.interval
  handler : ∀ task, s.world.tasks env.socket = some task → ∃ self, task = .endpoint self
  alone : ∀ task, s.world.tasks env.loop = some task → ∃ pc, task = .heartbeatLoop env.interval pc
  keyed : ∀ key ∈ keys (s.world.loopPc env.loop), (PyVal.ofKey key).hash? = some key
  has : ∀ self, s.world.tasks env.socket = some (.endpoint self) →
    Served.Has env.socket ⟨s.world.hub, s.world.sessions, self⟩
  spared : s.Spared env
  doomed : ∀ key reason conn, (key, reason) ∈ (s.world.loopPc env.loop).doomed →
    reason.isTimeout = true → ¬ s.Joins env key conn
  times : ∀ r < s.world.hub.nextRef, s.world.hub.lastHeartbeat r ≤ s.clock
  born : ∀ key conn, s.Joins env key conn →
    conn.connectedAt ≤ s.world.hub.lastHeartbeat conn.ref
  awaited : ∀ task deviceId pc conn, s.world.tasks env.socket = some task →
    task.connecting = some (deviceId, pc) → pc.conn? = some conn →
      conn.connectedAt ≤ s.world.hub.lastHeartbeat conn.ref
  beaten : ∀ conn ∈ s.beaten, .registers conn ∈ s.world.hub.log
  passed : ∀ conn ∈ s.beaten, s.lastPass ≠ none
  past : ∀ last, s.lastPass = some last → last ≤ s.clock
  passing : s.Passing env (s.world.loopPc env.loop)
  heard : s.peer.isDaemon = true → ∀ key conn last, s.Joins env key conn → conn ∈ s.beaten →
    s.lastPass = some last → s.Heard env key conn last

@[simp]
theorem ahead_scanning {start : ℚ} {rest : List PyKey} {dead : List (PyKey × Reason)} {key : PyKey}
    {conn : DeviceConnection} : Ahead (.scanning start rest dead) key conn ↔ key ∈ rest := by
  simp [Ahead, HeartbeatPc.ahead]

@[simp]
theorem ahead_sending {start : ℚ} {key key' : PyKey} {conn conn' : DeviceConnection}
    {rest : List PyKey} {dead : List (PyKey × Reason)} :
    Ahead (.sending start key' conn' rest dead) key conn ↔
      key ∈ rest ∨ key' = key ∧ conn' = conn := by
  simp [Ahead, HeartbeatPc.ahead]

theorem not_ahead {pc : HeartbeatPc} {key : PyKey} {conn : DeviceConnection}
    (scanning : ∀ start rest dead, pc ≠ .scanning start rest dead)
    (sending : ∀ start key conn rest dead, pc ≠ .sending start key conn rest dead) :
    ¬ Ahead pc key conn := by
  rintro (mem | ⟨start, rest, dead, same⟩)
  · unfold HeartbeatPc.ahead at mem
    split at mem
    · exact scanning _ _ _ rfl
    · exact sending _ _ _ _ _ rfl
    · cases mem
  · exact sending _ _ _ _ _ same

theorem inv_init (peer : Peer) (clock : ℚ) : Inv env (init peer clock) where
  world := World.inv_init
  loops _ _ _ here := absurd here.symm (Option.some_ne_none _)
  handler _ here := absurd here.symm (Option.some_ne_none _)
  alone _ here := absurd here.symm (Option.some_ne_none _)
  keyed _ mem := absurd mem List.not_mem_nil
  has _ here := absurd here.symm (Option.some_ne_none _)
  spared _ mem := absurd mem List.not_mem_nil
  doomed _ _ _ mem := absurd mem List.not_mem_nil
  times _ lt := absurd lt (Nat.not_lt_zero _)
  born _ _ joins := absurd joins.1.symm (Option.some_ne_none _)
  awaited _ _ _ _ here := absurd here.symm (Option.some_ne_none _)
  beaten _ mem := absurd mem List.not_mem_nil
  passed _ mem := absurd mem List.not_mem_nil
  past _ last := absurd last.symm (Option.some_ne_none _)
  passing := trivial
  heard _ _ _ _ joins := absurd joins.1.symm (Option.some_ne_none _)

variable {env} {s s' : Link}

/-- A task that starts is a heartbeat loop only if it was started as one. -/
theorem launch_eq_heartbeatLoop {hub : ConnectionHub} {call : Call} {interval : ℚ}
    {pc : HeartbeatPc} (h : World.launch hub call = .heartbeatLoop interval pc) :
    call = .heartbeatLoop interval ∧ pc = .sleeping := by
  cases call with
  | heartbeatLoop i =>
    cases h
    exact ⟨rfl, rfl⟩
  | sendToDevice deviceId message =>
    unfold World.launch at h
    dsimp only at h
    split at h <;> cases h
  | endpoint => cases h
  | broadcast message => cases h

theorem connecting_launch (hub : ConnectionHub) (call : Call) {deviceId : PyVal}
    {pc : ConnectionHub.ConnectPc} (h : (World.launch hub call).connecting = some (deviceId, pc)) :
    pc.conn? = none := by
  cases call with
  | endpoint =>
    cases h
    rfl
  | sendToDevice id message =>
    unfold World.launch at h
    dsimp only at h
    split at h <;> cases h
  | heartbeatLoop i => cases h
  | broadcast message => cases h

/-- What a task that starts changes: its own place, which was free. -/
theorem start_cases {w : World} {u : ℕ} {call : Call}
    (h : s.world.step env.srv (.start u call) = some w) :
    s.world.tasks u = none ∧ w.hub = s.world.hub ∧ w.sessions = s.world.sessions ∧
      w.tasks = Function.update s.world.tasks u (some (World.launch s.world.hub call)) := by
  unfold World.step at h
  dsimp only at h
  split at h
  · next unused =>
    cases h
    exact ⟨unused, rfl, rfl, rfl⟩
  · cases h

theorem inv_start (inv : s.Inv env) {u : ℕ} {call : Call}
    (h : s.step env (.start u call) = some s') : s'.Inv env := by
  unfold step at h
  dsimp only at h
  split at h
  swap
  · cases h
  next startable =>
  obtain ⟨w, hw, rfl⟩ := Option.map_eq_some_iff.1 h
  have world : w.Inv := World.inv_step s.world _ w inv.world hw
  obtain ⟨unused, hub, sessions, tasks⟩ := start_cases hw
  have new {v : ℕ} {task : Task} (here : w.tasks v = some task) :
      v = u ∧ task = World.launch s.world.hub call ∨ s.world.tasks v = some task := by
    rw [tasks, Function.update_apply] at here
    split_ifs at here with same
    · exact .inl ⟨same, (Option.some.inj here).symm⟩
    · exact .inr here
  have loopPc : w.loopPc env.loop = s.world.loopPc env.loop := by
    unfold World.loopPc
    rw [tasks, Function.update_apply]
    split_ifs with same
    · rw [same, unused]
      dsimp only
      split
      · next started => exact (launch_eq_heartbeatLoop (Option.some.inj started)).2
      · rfl
    · rfl
  obtain ⟨hub', sessions', tasks'⟩ := w
  obtain rfl : hub' = s.world.hub := hub
  refine ⟨world, ?_, ?_, ?_, ?_, ?_, inv.spared, ?_, inv.times, inv.born, ?_, inv.beaten,
    inv.passed, inv.past, ?_, ?_⟩
  · intro v interval pc here
    rcases new here with ⟨rfl, same⟩ | here
    · obtain ⟨rfl, -⟩ := launch_eq_heartbeatLoop same.symm
      exact of_decide_eq_true startable
    · exact inv.loops v interval pc here
  · intro task here
    rcases new here with ⟨rfl, rfl⟩ | here
    · cases call with
      | heartbeatLoop interval => exact absurd (of_decide_eq_true startable).1 env.apart
      | endpoint => exact ⟨_, rfl⟩
      | sendToDevice _ _ | broadcast _ => exact absurd rfl (of_decide_eq_true startable).2
    · exact inv.handler task here
  · intro task here
    rcases new here with ⟨rfl, rfl⟩ | here
    · cases call with
      | heartbeatLoop interval =>
        obtain ⟨-, rfl⟩ := of_decide_eq_true startable
        exact ⟨.sleeping, rfl⟩
      | endpoint => exact absurd rfl (of_decide_eq_true startable)
      | sendToDevice _ _ | broadcast _ => exact absurd rfl (of_decide_eq_true startable).1
    · exact inv.alone task here
  · dsimp only
    rw [loopPc]
    exact inv.keyed
  · intro self here key conn stored own
    obtain ⟨self', held, -⟩ := inv.world.owned key conn stored
    rw [own] at held
    rcases new here with ⟨same, -⟩ | here
    · rw [same, unused] at held
      cases held
    · exact inv.has self here key conn stored own
  · dsimp only
    rw [loopPc]
    exact inv.doomed
  · intro task deviceId pc conn here connecting about
    rcases new here with ⟨-, rfl⟩ | here
    · rw [connecting_launch _ _ connecting] at about
      cases about
    · exact inv.awaited task deviceId pc conn here connecting about
  · dsimp only
    rw [loopPc]
    exact inv.passing
  · intro daemon key conn last joins beaten passed
    have heard := inv.heard daemon key conn last joins beaten passed
    exact ⟨loopPc ▸ heard.recent, loopPc ▸ heard.answers⟩

/-- The client and the channels change, and what is on its way stays so. -/
theorem Inv.talk (inv : s.Inv env) {peer : Peer} {down : List JsonText} {up : List Frame}
    {clock : ℚ} (kind : peer.isDaemon = s.peer.isDaemon) (later : s.clock ≤ clock)
    (flight : s.peer.isDaemon = true → s.InFlight →
      InFlight { s with peer := peer, down := down, up := up, clock := clock }) :
    Inv env { s with peer := peer, down := down, up := up, clock := clock } where
  world := inv.world
  loops := inv.loops
  handler := inv.handler
  alone := inv.alone
  keyed := inv.keyed
  has := inv.has
  spared := inv.spared
  doomed := inv.doomed
  times r lt := (inv.times r lt).trans later
  born := inv.born
  awaited := inv.awaited
  beaten := inv.beaten
  passed := inv.passed
  past last passed := (inv.past last passed).trans later
  passing := inv.passing
  heard daemon key conn last joins beaten passed := by
    have daemon' : s.peer.isDaemon = true := kind ▸ daemon
    have heard := inv.heard daemon' key conn last joins beaten passed
    refine ⟨heard.recent, ?_⟩
    rcases heard.answers with fresh | ahead | inFlight | doomed
    · exact .inl fresh
    · exact .inr (.inl ahead)
    · exact .inr (.inr (.inl (flight daemon' inFlight)))
    · exact .inr (.inr (.inr doomed))

theorem inv_elsewhere (inv : s.Inv env) {peer : Peer} {frames : List Frame}
    (h : s.step env (.elsewhere peer frames) = some s') : s'.Inv env := by
  unfold step at h
  dsimp only at h
  split at h
  · next kind =>
    cases h
    exact inv.talk kind le_rfl fun _ inFlight => inFlight.imp_right fun ⟨raw, mem, ack⟩ =>
      ⟨raw, List.mem_append_left _ mem, ack⟩
  · cases h

/-- The daemon answers a heartbeat with an acknowledgement. -/
theorem daemon_acknowledges {denv : DaemonEnv} {d d' : CpipDaemon} {text : JsonText}
    {now later : ℚ} (heartbeat : (Frame.json text).type? = some .heartbeat)
    (h : CpipDaemon.step denv d (.frame (.json text) now later) = some d') :
    ∃ t, d'.sent = d.sent ++ [t] ∧ (Frame.json t).type? = some .heartbeatAck := by
  unfold CpipDaemon.step at h
  dsimp only at h
  split at h
  swap
  · cases h
  next connected =>
  cases h
  obtain ⟨msg, decoded, type⟩ : ∃ msg,
      RPCMessage.fromJson (d.ambient denv now) (.json text) = .ok msg ∧ msg.type = .heartbeat :=
    ⟨_, Frame.fromJson_eq_ok_iff.2 ⟨_, heartbeat, rfl⟩, rfl⟩
  have truthy : msg.id.truthy = true := Frame.truthy_id decoded (denv.ids.nonempty _)
  have encodable (amb : Ambient) : ∃ t, (makeHeartbeatAck amb msg.id).toJson denv.py = .ok t := by
    refine RPCMessage.toJson_isOk denv.py fun v mem => ?_
    simp only [List.mem_cons, List.not_mem_nil, or_false] at mem
    rcases mem with rfl | rfl | rfl | rfl | rfl | rfl
    · have id : (makeHeartbeatAck amb msg.id).id = msg.id := if_pos truthy
      rw [id]
      exact (denv.py.loads_dumps (Frame.isJson_id decoded)).imp fun _ h => h.1
    · exact ⟨_, rfl⟩
    · exact ⟨_, rfl⟩
    · exact ⟨_, rfl⟩
    · exact ⟨_, rfl⟩
    · exact ⟨_, rfl⟩
  unfold CpipDaemon.receive
  rw [decoded]
  dsimp only
  unfold CpipDaemon.handleMessage
  rw [type]
  dsimp only
  rcases @CpipDaemon.sent_reply denv (d.take (.json text)) connected later
    (fun amb => makeHeartbeatAck amb msg.id) with ⟨t, encoded, sent⟩ | ⟨⟨e, failed⟩, -⟩
  · exact ⟨t, sent, Frame.type?_of_toJson encoded⟩
  · obtain ⟨t, encoded⟩ := encodable ((d.take (.json text)).ambient denv later)
    rw [encoded] at failed
    cases failed

theorem isDaemon_of_receive {peer peer' : Peer} {l : ℕ} {text : JsonText} {now later : ℚ}
    {frames : List Frame} (h : receive env peer l text now later = some (peer', frames)) :
    peer'.isDaemon = peer.isDaemon := by
  unfold receive at h
  cases peer with
  | daemon self =>
    obtain ⟨self', -, same⟩ := Option.map_eq_some_iff.1 h
    cases same
    rfl
  | session self =>
    obtain ⟨self', -, same⟩ := Option.map_eq_some_iff.1 h
    cases same
    rfl

/-- What the daemon sends when it gets a heartbeat has an acknowledgement. -/
theorem ack_of_receive {peer peer' : Peer} {l : ℕ} {text : JsonText} {now later : ℚ}
    {frames : List Frame} (daemon : peer.isDaemon = true)
    (heartbeat : (Frame.json text).type? = some .heartbeat)
    (h : receive env peer l text now later = some (peer', frames)) :
    ∃ raw ∈ frames, raw.type? = some .heartbeatAck := by
  unfold receive at h
  cases peer with
  | daemon self =>
    obtain ⟨self', next, same⟩ := Option.map_eq_some_iff.1 h
    cases same
    obtain ⟨t, sent, ack⟩ := daemon_acknowledges heartbeat next
    refine ⟨.json t, ?_, ack⟩
    rw [sent, List.drop_left]
    exact List.mem_singleton_self _
  | session self => cases daemon

theorem inv_deliver (inv : s.Inv env) {l : ℕ} {now later : ℚ}
    (h : s.step env (.deliver l now later) = some s') : s'.Inv env := by
  unfold step at h
  dsimp only at h
  cases waiting : s.down with
  | nil =>
    rw [waiting] at h
    cases h
  | cons text down =>
    rw [waiting] at h
    dsimp only at h
    split at h
    swap
    · cases h
    next clock =>
    obtain ⟨⟨peer, frames⟩, received, rfl⟩ := Option.map_eq_some_iff.1 h
    refine inv.talk (isDaemon_of_receive received) (clock.1.trans clock.2) fun daemon inFlight => ?_
    rcases inFlight with ⟨text', mem, heartbeat⟩ | ⟨raw, mem, ack⟩
    · rw [waiting] at mem
      rcases List.mem_cons.1 mem with rfl | mem
      · obtain ⟨raw, mem, ack⟩ := ack_of_receive daemon heartbeat received
        exact .inr ⟨raw, List.mem_append_right _ mem, ack⟩
      · exact .inl ⟨text', mem, heartbeat⟩
    · exact .inr ⟨raw, List.mem_append_left _ mem, ack⟩

end Link

end Cpip
