import Cpip.Client.Dispatch
import Cpip.Lib.Backoff
import Cpip.Lib.History

/-!
# Reconnecting (`client/daemon.py`)

`_connection_loop` connects, serves the connection and starts again.  It sleeps only where an
exception ended the attempt, and the delay that it sleeps for is reset by a connection and grows
with every sleep, so the sleep after a connection that was lost counts as a failed attempt.
-/

namespace Cpip

/-- `WS_RECONNECT_BASE_DELAY`, in seconds. -/
def wsReconnectBaseDelay : ℕ := 1

/-- `WS_RECONNECT_MAX_DELAY`, in seconds. -/
def wsReconnectMaxDelay : ℕ := 60

/-- What the daemon says of the device, `get_system_info().__dict__`, can be encoded. -/
structure ConnectionEnv extends DaemonEnv where
  deviceInfo : PyVal
  isJson : deviceInfo.IsJson

/-- A frame with the times at which it is received and answered. -/
structure Delivery where
  raw : Frame
  now : ℚ
  later : ℚ

/-- What becomes of an attempt to connect: connecting raises, or the connection is opened and, after
some frames, lost with an exception or closed. -/
inductive ConnectionOutcome where
  | refused
  | dropped (opened : ℚ) (frames : List Delivery)
  | closed (opened : ℚ) (frames : List Delivery)

/-- An attempt, and how long the loop slept before the next one. -/
structure ConnectionRound where
  outcome : ConnectionOutcome
  slept : List ℕ

/-- The daemon in its connection loop. -/
structure ConnectionLoop where
  service : CpipDaemon
  running : Bool
  reconnectDelay : ℕ
  rounds : List ConnectionRound

namespace ConnectionLoop

open CpipDaemon (DaemonProc)

variable (env : ConnectionEnv)

/-- The connection is there: nothing was sent on it yet, and the session is opened. -/
def greet (opened : ℚ) : DaemonProc Unit := fun s =>
  let s := { s with daemon := { s.daemon with ws := true }, sent := [] }
  let msg := makeSessionInit (s.ambient env.toDaemonEnv opened) env.deviceInfo
  CpipDaemon.send env.toDaemonEnv msg
    { s with daemon := { s.daemon with calls := s.daemon.calls.draw } }

/-- The message handling loop. -/
def serve (s : CpipDaemon) (frames : List Delivery) : CpipDaemon :=
  frames.foldl (fun s d => s.receive env.toDaemonEnv d.raw d.now d.later) s

/-- The `except` clause, when `stop` was called before it or not. -/
def caught (s : ConnectionLoop) (o : ConnectionOutcome) (stopped : Bool) : ConnectionLoop :=
  if stopped then { s with running := false, rounds := s.rounds ++ [⟨o, []⟩] }
  else { s with
    rounds := s.rounds ++ [⟨o, [s.reconnectDelay]⟩]
    reconnectDelay := min (s.reconnectDelay * 2) wsReconnectMaxDelay }

/-- The body of the `async with`: the delay is reset, the session is opened and the frames are
handled. -/
def connection (s : ConnectionLoop) (opened : ℚ) (frames : List Delivery) :
    Except PyExc Unit × ConnectionLoop :=
  let (greeted, service) := greet env opened s.service
  let s := { s with reconnectDelay := wsReconnectBaseDelay }
  match greeted with
  | .error e => (.error e, { s with service := service })
  | .ok _ => (.ok (), { s with service := serve env service frames })

/-- One turn of `_connection_loop`. -/
def attempt (s : ConnectionLoop) (o : ConnectionOutcome) (stopped : Bool) : ConnectionLoop :=
  match o with
  | .refused => s.caught o stopped
  | .dropped opened frames => (s.connection env opened frames).2.caught o stopped
  | .closed opened frames =>
    match s.connection env opened frames with
    | (.error _, s) => s.caught o stopped
    | (.ok _, s) => { s with running := !stopped, rounds := s.rounds ++ [⟨o, []⟩] }

/-- The loop takes a turn, in which `stop` may be called; or `stop` is called between; or other
coroutines and programs run. -/
inductive Action where
  | attempt (o : ConnectionOutcome) (stopped : Bool)
  | stop
  | elsewhere (calls : Calls) (sync : SyncManager) (syncRunning : Bool)

def step (s : ConnectionLoop) : Action → Option ConnectionLoop
  | .attempt o stopped => if s.running then some (s.attempt env o stopped) else none
  | .stop => some { s with running := false }
  | .elsewhere calls sync syncRunning => some { s with
      service := ⟨{ s.service.daemon with calls := calls }, sync, syncRunning, s.service.sent⟩ }

/-- The daemon starts its loop. -/
def start (service : CpipDaemon) : ConnectionLoop := ⟨service, true, wsReconnectBaseDelay, []⟩

/-! ## The delay and the history of the attempts -/

/-- The delay after these attempts, the last one first. -/
def delayAfter : List ConnectionRound → ℕ
  | [] => wsReconnectBaseDelay
  | ⟨.refused, _⟩ :: older => Backoff.next 2 wsReconnectMaxDelay (delayAfter older)
  | ⟨.dropped .., _⟩ :: _ => Backoff.next 2 wsReconnectMaxDelay wsReconnectBaseDelay
  | ⟨.closed .., _⟩ :: _ => wsReconnectBaseDelay

/-- How many of these attempts, the last one first, failed since a connection was opened. -/
def failures : List ConnectionRound → ℕ
  | ⟨.refused, _⟩ :: older => failures older + 1
  | _ => 0

/-- What the loop slept after an attempt. -/
def Recorded (past : List ConnectionRound) (r : ConnectionRound) : Prop :=
  r.slept = match r.outcome with
    | .refused => [delayAfter past.reverse]
    | .dropped .. => [wsReconnectBaseDelay]
    | .closed .. => []

/-- What is asked of the sleep between an attempt and the next one. -/
def Paced (past : List ConnectionRound) (r : ConnectionRound) : Prop :=
  ∃ d, r.slept = [d] ∧ wsReconnectBaseDelay ≤ d ∧ d ≤ wsReconnectMaxDelay ∧
    ∀ k, failures (r :: past.reverse) = k + 1 →
      d = min (wsReconnectBaseDelay * 2 ^ k) wsReconnectMaxDelay

/-- The attempt does not end in a closed connection, and does not fail right after a connection was
lost. -/
def Gentle (past : List ConnectionRound) (r : ConnectionRound) : Prop :=
  match r.outcome with
  | .closed .. => False
  | .dropped .. => True
  | .refused => ∀ opened frames, past.getLast?.map ConnectionRound.outcome ≠
      some (.dropped opened frames)

/-- The attempts that were followed by another one. -/
def followed (s : ConnectionLoop) : List ConnectionRound := s.rounds.dropLast

/-- The delay and the sleeps are what the attempts so far ask for. -/
structure Tracked (s : ConnectionLoop) : Prop where
  earlier : History.Each Recorded s.followed
  now : s.running = true →
    History.Each Recorded s.rounds ∧ s.reconnectDelay = delayAfter s.rounds.reverse

variable {env}

theorem tracked_caught {s : ConnectionLoop} {o : ConnectionOutcome} {stopped : Bool}
    (past : History.Each Recorded s.rounds) (last : Recorded s.rounds ⟨o, [s.reconnectDelay]⟩)
    (grown : Backoff.next 2 wsReconnectMaxDelay s.reconnectDelay =
      delayAfter (⟨o, [s.reconnectDelay]⟩ :: s.rounds.reverse)) :
    Tracked (s.caught o stopped) := by
  unfold caught
  cases stopped with
  | true => exact ⟨by simpa [followed] using past, nofun⟩
  | false =>
    refine ⟨by simpa [followed] using past, fun _ => ⟨past.snoc last, ?_⟩⟩
    simp only [Bool.false_eq_true, if_false, List.reverse_append, List.reverse_singleton,
      List.singleton_append]
    exact grown

/-- The session is always opened. -/
theorem greet_isOk (opened : ℚ) (s : CpipDaemon) : (greet env opened s).1 = .ok () := by
  unfold greet CpipDaemon.send
  dsimp only
  obtain ⟨t, encoded⟩ : ∃ t, (makeSessionInit (CpipDaemon.ambient env.toDaemonEnv
      { s with daemon := { s.daemon with ws := true }, sent := [] } opened)
      env.deviceInfo).toJson env.py = .ok t := by
    refine RPCMessage.toJson_isOk env.py fun x hx => ?_
    simp only [makeSessionInit, RPCMessage.init, List.mem_cons, List.not_mem_nil, or_false] at hx
    rcases hx with rfl | rfl | rfl | rfl | rfl | rfl
    · exact ⟨_, rfl⟩
    · exact ⟨_, rfl⟩
    · unfold PyVal.or
      split
      · exact (env.py.loads_dumps env.isJson).imp fun _ h => h.1
      · exact ⟨_, rfl⟩
    · exact ⟨_, rfl⟩
    · exact ⟨_, rfl⟩
    · exact ⟨_, rfl⟩
  rw [encoded]

theorem connection_spec (s : ConnectionLoop) (opened : ℚ) (frames : List Delivery) :
    ∃ service, s.connection env opened frames =
      (.ok (), { s with service := service, reconnectDelay := wsReconnectBaseDelay }) := by
  unfold connection
  have ok := @greet_isOk env opened s.service
  cases greeted : greet env opened s.service with
  | mk result service =>
    rw [greeted] at ok
    obtain rfl := ok
    exact ⟨_, rfl⟩

theorem Tracked.attempt {s : ConnectionLoop} (h : Tracked s) (running : s.running = true)
    (o : ConnectionOutcome) (stopped : Bool) : Tracked (s.attempt env o stopped) := by
  obtain ⟨past, delay⟩ := h.now running
  unfold ConnectionLoop.attempt
  cases o with
  | refused =>
    refine tracked_caught past ?_ ?_
    · unfold Recorded
      rw [delay]
    · rw [delay]
      rfl
  | dropped opened frames =>
    obtain ⟨service, spec⟩ := @connection_spec env s opened frames
    dsimp only
    rw [spec]
    exact tracked_caught past rfl rfl
  | closed opened frames =>
    obtain ⟨service, spec⟩ := @connection_spec env s opened frames
    dsimp only
    rw [spec]
    refine ⟨by simpa [followed] using past, fun _ => ⟨past.snoc rfl, ?_⟩⟩
    simp only [List.reverse_append, List.reverse_singleton, List.singleton_append]
    rfl

theorem tracked_step (s : ConnectionLoop) (a : Action) (s' : ConnectionLoop) (h : Tracked s)
    (hs : step env s a = some s') : Tracked s' := by
  cases a with
  | attempt o stopped =>
    simp only [step] at hs
    split_ifs at hs with running
    obtain rfl := Option.some.inj hs
    exact h.attempt running o stopped
  | stop =>
    obtain rfl := Option.some.inj hs
    exact ⟨h.earlier, nofun⟩
  | elsewhere calls sync syncRunning =>
    obtain rfl := Option.some.inj hs
    exact ⟨h.earlier, h.now⟩

theorem tracked_start (service : CpipDaemon) : Tracked (start service) :=
  ⟨History.each_nil, fun _ => ⟨History.each_nil, rfl⟩⟩

/-! ## Between two attempts -/

section Paced

variable {h past rest : List ConnectionRound} {r : ConnectionRound}

/-- Without a connection that was lost before, the delay is the one that the failures ask for. -/
theorem delayAfter_of_gentle (gentle : History.Each Gentle past)
    (kept : ∀ opened frames, past.getLast?.map ConnectionRound.outcome ≠
      some (.dropped opened frames)) :
    delayAfter past.reverse =
      min (wsReconnectBaseDelay * 2 ^ failures past.reverse) wsReconnectMaxDelay := by
  induction past using List.reverseRecOn with
  | nil => rfl
  | append_singleton past r ih =>
    obtain ⟨earlier, last⟩ := gentle.of_snoc
    rw [List.reverse_append, List.reverse_singleton, List.singleton_append]
    obtain ⟨outcome, slept⟩ := r
    cases outcome with
    | refused =>
      rw [delayAfter, failures, ih earlier last, Backoff.next_min (by decide) (Nat.zero_le _),
        pow_succ, mul_assoc]
    | dropped opened frames =>
      exact absurd (by rw [List.getLast?_concat]; rfl) (kept opened frames)
    | closed opened frames => exact last.elim

/-- The sleep after an attempt is the one asked for when no attempt so far ended in a closed
connection or failed right after a lost one. -/
theorem paced_of_gentle (recorded : Recorded past r) (earlier : History.Each Gentle past)
    (gentle : Gentle past r) : Paced past r := by
  obtain ⟨outcome, slept⟩ := r
  unfold Recorded at recorded
  cases outcome with
  | refused =>
    have delay := delayAfter_of_gentle earlier gentle
    have positive : 1 ≤ 2 ^ failures past.reverse := Nat.one_le_two_pow
    refine ⟨_, recorded, ?_, ?_, fun k hk => ?_⟩
    · rw [delay]
      exact le_min (by simpa [wsReconnectBaseDelay] using positive) (by decide)
    · rw [delay]
      exact min_le_right _ _
    · rw [delay, Nat.succ.inj hk]
  | dropped opened frames => exact ⟨_, recorded, le_rfl, by decide, nofun⟩
  | closed opened frames => exact gentle.elim

theorem gentle_of_paced (recorded : Recorded past r) (paced : Paced past r) : Gentle past r := by
  obtain ⟨outcome, slept⟩ := r
  obtain ⟨d, rfl, -, -, asked⟩ := paced
  unfold Recorded at recorded
  cases outcome with
  | refused =>
    intro opened frames lost
    rcases List.eq_nil_or_concat past with rfl | ⟨past, p, rfl⟩
    · cases lost
    · -- The delay after a lost connection has been doubled already.
      rw [List.concat_eq_append] at lost recorded asked
      rw [List.getLast?_concat] at lost
      rw [List.reverse_append, List.reverse_singleton, List.singleton_append] at recorded asked
      obtain ⟨outcome, slept⟩ := p
      obtain rfl : outcome = .dropped opened frames := Option.some.inj lost
      have first := asked 0 rfl
      have doubled : d = 2 := List.singleton_inj.1 recorded
      rw [doubled] at first
      exact absurd first (by decide)
  | dropped opened frames => trivial
  | closed opened frames => cases recorded

end Paced

/-- Every sleep between two attempts is the one asked for exactly when no attempt that is followed
by another ends in a closed connection or fails right after a lost one. -/
theorem sleeps_paced_iff (env : ConnectionEnv) (service : CpipDaemon) (actions : List Action)
    (t : ConnectionLoop) (ran : Machine.run (step env) (start service) actions = some t) :
    History.Each Paced t.followed ↔ History.Each Gentle t.followed := by
  have tracked : Tracked t :=
    Machine.invariant_run (fun s a s' => tracked_step s a s') (tracked_start service) ran
  have recorded := tracked.earlier
  constructor
  · intro paced past r rest split
    exact gentle_of_paced (recorded past r rest split) (paced past r rest split)
  · intro gentle past r rest split
    refine paced_of_gentle (recorded past r rest split) ?_ (gentle past r rest split)
    intro past' r' rest' split'
    exact gentle past' r' (rest' ++ r :: rest) (by rw [split, split']; simp)

/-- The sample daemon with what it says of its device. -/
def sampleConnection : ConnectionEnv where
  toDaemonEnv := CpipDaemon.sampleEnv
  deviceInfo := .dict []
  isJson := (PyVal.everywhere_dict_iff _).2 ⟨⟨nofun, List.nodup_nil⟩, nofun⟩

/-- Failed attempts follow only failed attempts. -/
theorem each_gentle_of_refused {h : List ConnectionRound}
    (refused : ∀ r ∈ h, r.outcome = .refused) :
    History.Each Gentle h := by
  rintro past r rest rfl
  have now : r.outcome = .refused := refused r (by simp)
  unfold Gentle
  rw [now]
  intro opened frames lost
  obtain ⟨p, last, dropped⟩ := Option.map_eq_some_iff.1 lost
  rw [refused p (List.mem_append_left _ (List.mem_of_getLast? last))] at dropped
  cases dropped

/-- Two attempts fail, the third opens a connection that is lost, and the daemon is stopped. -/
def refusedTwice : List Action :=
  [.attempt .refused false, .attempt .refused false, .attempt (.dropped 0 []) false, .stop]

theorem sleeps_paced_iff_refused : ∃ t, Machine.run (step sampleConnection)
    (start CpipDaemon.sample) refusedTwice = some t ∧ History.Each Paced t.followed := by
  obtain ⟨t, ran⟩ : ∃ t, Machine.run (step sampleConnection) (start CpipDaemon.sample)
      refusedTwice = some t := ⟨_, rfl⟩
  refine ⟨t, ran, (sleeps_paced_iff sampleConnection CpipDaemon.sample _ t ran).2 ?_⟩
  obtain rfl := Option.some.inj ran
  refine each_gentle_of_refused fun r mem => ?_
  have rounds : r ∈ [⟨.refused, [1]⟩, ⟨.refused, [2]⟩] := mem
  simp only [List.mem_cons, List.not_mem_nil, or_false] at rounds
  rcases rounds with rfl | rfl
  · rfl
  · rfl

/-- The server closes the connection, and the next attempt follows at once. -/
theorem closed_connection_not_paced :
    ¬ ∀ (env : ConnectionEnv) (service : CpipDaemon) (actions : List Action) (t : ConnectionLoop),
      Machine.run (step env) (start service) actions = some t → History.Each Paced t.followed := by
  intro claim
  have paced := claim sampleConnection CpipDaemon.sample
    [.attempt (.closed 0 []) false, .attempt .refused false] _ rfl [] _ _ rfl
  obtain ⟨d, slept, -⟩ := paced
  cases slept

end ConnectionLoop

end Cpip
