import Cpip.Client.Replies
import Cpip.Runtime.Session

/-!
# The connection of a cloud session

A session should have at most one open socket and one receive loop, and `_connected` should say
whether it has them (`Session.Coherent`).  The check of `_connected` and the assignment of `_ws` are
separated by an `await`, and a clean end of the iteration leaves `_connected` as it is, so this
holds exactly in the runs in which no connection attempt ends beside an open connection and the peer
closes none cleanly (`Session.Steady`).
-/

namespace Cpip

namespace Session

/-- The task of the receive loop is not over. -/
def Running (s : Session) (l : ℕ) : Prop :=
  s.loops l = some .created ∨ ∃ w, s.loops l = some (.iterating w)

/-- The socket in `_ws` is open and its receive loop is running. -/
def Serving (s : Session) : Prop := ∃ w l, s.ws = some w ∧ s.isOpen w = true ∧ s.Reads l w

structure Coherent (s : Session) : Prop where
  oneSocket : ∀ w w', s.isOpen w = true → s.isOpen w' = true → w = w'
  oneLoop : ∀ l l', s.Running l → s.Running l' → l = l'
  connected_iff : (∀ c, s.connecting c = none) → (s.connected = true ↔ s.Serving)

/-- A connection attempt succeeds only when there is no open socket and no receive loop, and fails
only when the session has no connection; and the peer closes the connection cleanly only when
`_connected` is false.  A failure and a clean close do no harm yet while another attempt is in
progress. -/
def Steady (s : Session) : Action → Prop
  | .connectDone _ true _ _ => (∀ w, s.isOpen w = false) ∧ ∀ l, ¬ s.Running l
  | .connectDone c false _ _ => (∃ c', c' ≠ c ∧ s.connecting c' ≠ none) ∨ ¬ s.Serving
  | .endLoop _ .closed => (∃ c, s.connecting c ≠ none) ∨ s.connected = false
  | _ => True

/-- A coherent session whose sockets and receive loops are those of its connections so far. -/
structure Sound (s : Session) : Prop where
  coherent : s.Coherent
  sockets : ∀ w, s.isOpen w = true → w < s.opened
  loops : ∀ l, s.Running l → l < s.opened

theorem sound_init (sessionId : String) : (init sessionId).Sound := by
  refine ⟨⟨?_, ?_, ?_⟩, ?_, ?_⟩
  · intro w w' h
    cases h
  · rintro l l' (h | ⟨w, h⟩) <;> cases h
  · intro _
    refine iff_of_false (by simp [init]) ?_
    rintro ⟨w, l, h, -⟩
    cases h
  · intro w h
    cases h
  · rintro l (h | ⟨w, h⟩) <;> cases h

theorem Reads.running {s : Session} {l w : ℕ} (h : s.Reads l w) : s.Running l :=
  h.elim (fun h => .inr ⟨w, h⟩) fun h => .inl h.1

/-! ### Connection attempts -/

/-- The calls do not matter to the connection. -/
theorem Sound.withCalls {s : Session} (sound : s.Sound) (calls : Calls) :
    { s with calls := calls }.Sound :=
  ⟨⟨sound.coherent.oneSocket, sound.coherent.oneLoop, sound.coherent.connected_iff⟩, sound.sockets,
    sound.loops⟩

theorem Coherent.ofCalls {s : Session} {calls : Calls} (h : { s with calls := calls }.Coherent) :
    s.Coherent :=
  ⟨h.oneSocket, h.oneLoop, h.connected_iff⟩

variable {env : Serialization.Env} {py : PyText} {ids : IdSupply}

theorem request_eq {s s' : Session} {c : ℕ} {e : Execute} {now : ℚ} {answer : SendAnswer}
    (h : s.request env py ids c e now answer = some s') : ∃ calls, { s with calls := calls } = s' :=
  (Option.map_eq_some_iff.1 h).imp fun _ hcalls => hcalls.2

theorem Sound.attempt {s : Session} (sound : s.Sound) (c : ℕ) (e : Execute) :
    { s with connecting := Function.update s.connecting c (some e) }.Sound := by
  refine ⟨⟨sound.coherent.oneSocket, sound.coherent.oneLoop, fun none => ?_⟩, sound.sockets,
    sound.loops⟩
  have hc := none c
  simp at hc

/-- The state in which `_connect` succeeded for the call. -/
def afterSuccess (s : Session) (c : ℕ) : Session :=
  { s with connecting := Function.update s.connecting c none }.opens

/-- The state in which `_connect` failed for the call. -/
def afterFailure (s : Session) (c : ℕ) : Session :=
  { s with connecting := Function.update s.connecting c none, connected := false }

theorem connectDone_eq {s s' : Session} {c : ℕ} {success : Bool} {now : ℚ} {answer : SendAnswer}
    (h : s.connectDone env py ids c success now answer = some s') :
    ∃ calls,
      { (if success then s.afterSuccess c else s.afterFailure c) with calls := calls } = s' := by
  unfold connectDone at h
  split at h
  · cases h
  · have requested := request_eq h
    cases success with
    | true => exact requested
    | false => exact requested

theorem running_afterSuccess (s : Session) (c l : ℕ) :
    (s.afterSuccess c).Running l ↔ l = s.opened ∨ s.Running l := by
  unfold Running afterSuccess opens
  by_cases hl : l = s.opened
  · simp [hl]
  · simp [hl]

theorem isOpen_afterSuccess (s : Session) (c w : ℕ) :
    (s.afterSuccess c).isOpen w = true ↔ w = s.opened ∨ s.isOpen w = true := by
  unfold afterSuccess opens
  by_cases hw : w = s.opened
  · simp [hw]
  · simp [hw]

theorem Sound.success {s : Session} (closed : ∀ w, s.isOpen w = false)
    (ended : ∀ l, ¬ s.Running l) (c : ℕ) : (s.afterSuccess c).Sound := by
  have socket : ∀ w, (s.afterSuccess c).isOpen w = true → w = s.opened := by
    intro w h
    refine ((isOpen_afterSuccess s c w).1 h).resolve_right ?_
    simp [closed w]
  have loop : ∀ l, (s.afterSuccess c).Running l → l = s.opened := fun l h =>
    ((running_afterSuccess s c l).1 h).resolve_right (ended l)
  refine ⟨⟨?_, ?_, fun _ => ?_⟩, ?_, ?_⟩
  · intro w w' h h'
    rw [socket w h, socket w' h']
  · intro l l' h h'
    rw [loop l h, loop l' h']
  · refine iff_of_true rfl ⟨s.opened, s.opened, rfl, ?_, .inr ⟨?_, rfl⟩⟩
    · exact (isOpen_afterSuccess s c _).2 (.inl rfl)
    · simp [afterSuccess, opens]
  · intro w h
    rw [socket w h]
    exact Nat.lt_succ_self _
  · intro l h
    rw [loop l h]
    exact Nat.lt_succ_self _

theorem Sound.failure {s : Session} (sound : s.Sound) {c : ℕ}
    (harmless : (∃ c', c' ≠ c ∧ s.connecting c' ≠ none) ∨ ¬ s.Serving) :
    (s.afterFailure c).Sound := by
  refine ⟨⟨sound.coherent.oneSocket, sound.coherent.oneLoop, fun none => ?_⟩, sound.sockets,
    sound.loops⟩
  rcases harmless with ⟨c', ne, hc'⟩ | notServing
  · have hnone := none c'
    simp only [afterFailure, Function.update_of_ne ne] at hnone
    exact absurd hnone hc'
  · exact iff_of_false Bool.false_ne_true notServing

theorem steady_of_coherent_success {s : Session} (sound : s.Sound) {c : ℕ}
    (coherent : (s.afterSuccess c).Coherent) :
    (∀ w, s.isOpen w = false) ∧ ∀ l, ¬ s.Running l := by
  constructor
  · intro w
    by_contra hopen
    have hw : s.isOpen w = true := by simpa using hopen
    have heq := coherent.oneSocket w s.opened ((isOpen_afterSuccess s c w).2 (.inr hw))
      ((isOpen_afterSuccess s c _).2 (.inl rfl))
    have hlt := sound.sockets w hw
    omega
  · intro l hl
    have heq := coherent.oneLoop l s.opened ((running_afterSuccess s c l).2 (.inr hl))
      ((running_afterSuccess s c _).2 (.inl rfl))
    have hlt := sound.loops l hl
    omega

theorem steady_of_coherent_failure {s : Session} {c : ℕ} (coherent : (s.afterFailure c).Coherent) :
    (∃ c', c' ≠ c ∧ s.connecting c' ≠ none) ∨ ¬ s.Serving := by
  by_cases other : ∃ c', c' ≠ c ∧ s.connecting c' ≠ none
  · exact .inl other
  · refine .inr fun serving => ?_
    have none : ∀ c', (s.afterFailure c).connecting c' = none := by
      intro c'
      by_cases hcc : c' = c
      · simp [afterFailure, hcc]
      · have hc' : s.connecting c' = none := by
          by_contra hsome
          exact other ⟨c', hcc, hsome⟩
        simpa [afterFailure, hcc] using hc'
    exact Bool.false_ne_true ((coherent.connected_iff none).2 serving)

/-! ### Receive loops and sockets -/

/-- A loop that starts reads the socket it was to read. -/
theorem Sound.start {s : Session} (sound : s.Sound) {l w : ℕ} (created : s.loops l = some .created)
    (ws : s.ws = some w) : (s.setLoop l (.iterating w)).Sound := by
  have running_iff : ∀ l', (s.setLoop l (.iterating w)).Running l' ↔ s.Running l' := by
    intro l'
    unfold Running setLoop
    by_cases hl : l' = l
    · simp [hl, created]
    · simp [hl]
  have reads_iff : ∀ l' w', (s.setLoop l (.iterating w)).Reads l' w' ↔ s.Reads l' w' := by
    intro l' w'
    unfold Reads setLoop
    by_cases hl : l' = l
    · simp [hl, created, ws]
    · simp [hl]
  have serving_iff : (s.setLoop l (.iterating w)).Serving ↔ s.Serving := by
    unfold Serving
    simp only [reads_iff]
    rfl
  refine ⟨⟨sound.coherent.oneSocket, ?_, fun none => ?_⟩, sound.sockets, ?_⟩
  · intro l₁ l₂ h₁ h₂
    exact sound.coherent.oneLoop l₁ l₂ ((running_iff l₁).1 h₁) ((running_iff l₂).1 h₂)
  · exact (sound.coherent.connected_iff none).trans serving_iff.symm
  · exact fun l' h => sound.loops l' ((running_iff l').1 h)

/-- The state in which the loop is over, whatever is left open and whatever `_connected` is. -/
def afterLoop (s : Session) (l : ℕ) (isOpen : ℕ → Bool) (connected : Bool) : Session :=
  { s.setLoop l .ended with isOpen := isOpen, connected := connected }

/-- There was one loop, so that there is none when it is over. -/
theorem not_running_afterLoop {s : Session} (sound : s.Sound) {l : ℕ} (running : s.Running l)
    (isOpen : ℕ → Bool) (connected : Bool) (l' : ℕ) :
    ¬ (s.afterLoop l isOpen connected).Running l' := by
  unfold Running afterLoop setLoop
  by_cases hl : l' = l
  · simp [hl]
  · intro h
    have running' : s.Running l' := by simpa [Running, hl] using h
    exact hl (sound.coherent.oneLoop l' l running' running)

theorem not_serving_afterLoop {s : Session} (sound : s.Sound) {l : ℕ} (running : s.Running l)
    (isOpen : ℕ → Bool) (connected : Bool) : ¬ (s.afterLoop l isOpen connected).Serving := by
  rintro ⟨w, l', -, -, reads⟩
  exact not_running_afterLoop sound running isOpen connected l' reads.running

theorem Sound.afterLoop {s : Session} (sound : s.Sound) {l : ℕ} (running : s.Running l)
    {isOpen : ℕ → Bool} (fewer : ∀ w, isOpen w = true → s.isOpen w = true) {connected : Bool}
    (harmless : (∃ c, s.connecting c ≠ none) ∨ connected = false) :
    (s.afterLoop l isOpen connected).Sound := by
  refine ⟨⟨?_, ?_, fun none => ?_⟩, ?_, ?_⟩
  · intro w w' h h'
    exact sound.coherent.oneSocket w w' (fewer w h) (fewer w' h')
  · intro l₁ l₂ h₁
    exact absurd h₁ (not_running_afterLoop sound running isOpen connected l₁)
  · rcases harmless with ⟨c, hc⟩ | rfl
    · exact absurd (none c) hc
    · exact iff_of_false Bool.false_ne_true (not_serving_afterLoop sound running isOpen false)
  · exact fun w h => sound.sockets w (fewer w h)
  · intro l' h
    exact absurd h (not_running_afterLoop sound running isOpen connected l')

theorem isOpen_of_closeSocket {s : Session} {w w' : ℕ} (h : (s.closeSocket w).isOpen w' = true) :
    s.isOpen w' = true ∧ w' ≠ w := by
  unfold closeSocket at h
  by_cases hw : w' = w
  · simp [hw] at h
  · exact ⟨by simpa [hw] using h, hw⟩

/-- A socket that no loop reads does not matter to what is served. -/
theorem Sound.lose {s : Session} (sound : s.Sound) {w : ℕ}
    (unread : ∀ l ∈ List.range s.opened, ¬ s.Reads l w) : (s.closeSocket w).Sound := by
  have serving_iff : (s.closeSocket w).Serving ↔ s.Serving := by
    constructor
    · rintro ⟨w', l, hws, hopen, reads⟩
      exact ⟨w', l, hws, (isOpen_of_closeSocket hopen).1, reads⟩
    · rintro ⟨w', l, hws, hopen, reads⟩
      have ne : w' ≠ w := fun heq =>
        unread l (List.mem_range.2 (sound.loops l reads.running)) (heq ▸ reads)
      exact ⟨w', l, hws, by simpa [closeSocket, ne] using hopen, reads⟩
  refine ⟨⟨?_, sound.coherent.oneLoop, fun none => ?_⟩, ?_, sound.loops⟩
  · intro w₁ w₂ h₁ h₂
    exact sound.coherent.oneSocket w₁ w₂ (isOpen_of_closeSocket h₁).1 (isOpen_of_closeSocket h₂).1
  · exact (sound.coherent.connected_iff none).trans serving_iff.symm
  · exact fun w' h => sound.sockets w' (isOpen_of_closeSocket h).1

/-! ### Runs -/

theorem sound_endLoop {s s' : Session} {l : ℕ} {cause : LoopEnd}
    (steady : s.Steady (.endLoop l cause)) (sound : s.Sound) (h : s.endLoop l cause = some s') :
    s'.Sound := by
  unfold endLoop at h
  split at h
  · rename_i w hl
    have running : s.Running l := .inr ⟨w, hl⟩
    have closes : ∀ w', (s.closeSocket w).isOpen w' = true → s.isOpen w' = true := fun w' hw' =>
      (isOpen_of_closeSocket hw').1
    cases cause with
    | closed =>
      cases h
      exact sound.afterLoop running closes steady
    | broke =>
      cases h
      exact sound.afterLoop running closes (.inr rfl)
    | contended =>
      dsimp only at h
      split at h
      · cases h
        exact sound.afterLoop running (fun _ => id) (.inr rfl)
      · cases h
  · cases h

theorem sound_step (s : Session) (a : Action) (s' : Session) (steady : s.Steady a) (sound : s.Sound)
    (hs : step env py ids s a = some s') : s'.Sound := by
  cases a with
  | execute c e now answer =>
    simp only [step, asyncExecute] at hs
    split at hs
    · cases hs
    · split at hs
      · obtain ⟨calls, rfl⟩ := request_eq hs
        exact sound.withCalls calls
      · obtain ⟨-, -, rfl⟩ := Option.map_eq_some_iff.1 hs
        exact sound.attempt c e
  | connectDone c success now answer =>
    obtain ⟨calls, rfl⟩ := connectDone_eq hs
    cases success with
    | true => exact (Sound.success steady.1 steady.2 c).withCalls calls
    | false => exact (sound.failure steady).withCalls calls
  | sent c answer =>
    obtain ⟨calls, -, rfl⟩ := Option.map_eq_some_iff.1 hs
    exact sound.withCalls calls
  | wake c =>
    obtain ⟨calls, -, rfl⟩ := Option.map_eq_some_iff.1 hs
    exact sound.withCalls calls
  | timeOut c =>
    obtain ⟨calls, -, rfl⟩ := Option.map_eq_some_iff.1 hs
    exact sound.withCalls calls
  | startLoop l =>
    simp only [step, startLoop] at hs
    split at hs
    · rename_i w created ws
      cases hs
      exact sound.start created ws
    · rename_i created ws
      cases hs
      exact sound.afterLoop (.inl created) (fun _ => id) (.inr rfl)
    · cases hs
  | receive l raw now =>
    simp only [step, receive] at hs
    split at hs
    · split at hs
      · cases hs
        exact sound.withCalls _
      · cases hs
        exact sound.withCalls _
    · cases hs
  | endLoop l cause => exact sound_endLoop steady sound hs
  | lose w =>
    simp only [step, Session.lose] at hs
    split at hs
    · rename_i lost
      cases hs
      exact sound.lose lost
    · cases hs

/-- A step that leaves the session coherent is steady. -/
theorem steady_of_coherent (s : Session) (a : Action) (s' : Session) (sound : s.Sound)
    (hs : step env py ids s a = some s') (coherent : s'.Coherent) : s.Steady a := by
  cases a with
  | connectDone c success now answer =>
    obtain ⟨calls, rfl⟩ := connectDone_eq hs
    have coherent := coherent.ofCalls
    cases success with
    | true => exact steady_of_coherent_success sound coherent
    | false => exact steady_of_coherent_failure coherent
  | endLoop l cause =>
    cases cause with
    | closed =>
      simp only [step, endLoop] at hs
      split at hs
      · rename_i w hl
        cases hs
        by_cases attempt : ∃ c, s.connecting c ≠ none
        · exact .inl attempt
        · have none : ∀ c, s.connecting c = none := by simpa using attempt
          have serving_iff := coherent.connected_iff none
          have notServing := not_serving_afterLoop sound (.inr ⟨w, hl⟩)
            (s.closeSocket w).isOpen s.connected
          exact .inr (Bool.eq_false_iff.2 fun connected => notServing (serving_iff.1 connected))
      · cases hs
    | broke => trivial
    | contended => trivial
  | _ => trivial

/-- A coherent session without a connection connects for the next call. -/
theorem execute_connects {s : Session} (coherent : s.Coherent)
    (noAttempt : ∀ c, s.connecting c = none) (down : ¬ s.Serving) {c : ℕ}
    (begins : s.calls.calls c = none) (e : Execute) (now : ℚ) (answer : SendAnswer) :
    s.asyncExecute env py ids c e now answer =
      some { s with connecting := Function.update s.connecting c (some e) } := by
  have disconnected : s.connected = false :=
    Bool.eq_false_iff.2 fun h => down ((coherent.connected_iff noAttempt).1 h)
  simp [asyncExecute, noAttempt c, disconnected, Calls.begin?, begins]

/-- In a run of a session there is at every point at most one open socket and at most one receive
loop, and `_connected` says, when no attempt to connect is in progress, whether the socket in `_ws`
is open and read, exactly when every step of the run is steady. -/
theorem coherent_iff_steady (env : Serialization.Env) (py : PyText) (ids : IdSupply)
    (sessionId : String) (as : List Action) (s : Session)
    (ran : Machine.run (step env py ids) (init sessionId) as = some s) :
    Machine.Throughout (step env py ids) Coherent (init sessionId) as ↔
      Machine.Along (step env py ids) Steady (init sessionId) as :=
  (Machine.along_iff_throughout (fun _ sound => sound.coherent) sound_step steady_of_coherent
    (sound_init sessionId) ran).symm

/-- A session that connects, loses its connection and connects again. -/
def reconnection : List Action :=
  [.execute 0 ⟨"numpy.zeros", [], []⟩ 0 .completes, .connectDone 0 true 0 .completes, .startLoop 0,
    .endLoop 0 .broke, .execute 1 ⟨"numpy.zeros", [], []⟩ 0 .completes,
    .connectDone 1 true 0 .completes, .startLoop 1]

theorem coherent_iff_steady_reconnection :
    Machine.Throughout (step ⟨fun _ => .ok .none, none, none⟩ plainText tallyIds) Coherent
      (init "s") reconnection := by
  refine (coherent_iff_steady ⟨fun _ => .ok .none, none, none⟩ plainText tallyIds "s" reconnection _
    rfl).2 (.cons trivial rfl (.cons ?_ rfl (.cons trivial rfl (.cons trivial rfl
      (.cons trivial rfl (.cons ?_ rfl (.cons trivial rfl trivial)))))))
  · refine ⟨fun w => rfl, ?_⟩
    rintro l (h | ⟨w, h⟩) <;> cases h
  · constructor
    · intro w
      cases w <;> rfl
    · intro l
      cases l <;> rintro (h | ⟨w, h⟩) <;> cases h

/-- Two calls that connect at once. -/
def concurrentConnects : List Action :=
  [.execute 0 ⟨"numpy.zeros", [], []⟩ 0 .completes, .execute 1 ⟨"numpy.zeros", [], []⟩ 0 .completes,
    .connectDone 0 true 0 .completes, .connectDone 1 true 0 .completes]

/-- A connection that the peer closes cleanly. -/
def cleanClose : List Action :=
  [.execute 0 ⟨"numpy.zeros", [], []⟩ 0 .completes, .connectDone 0 true 0 .completes, .startLoop 0,
    .endLoop 0 .closed]

/-- Two calls at once leave two open sockets, and a clean close leaves `_connected` set. -/
theorem session_incoherent :
    (¬ ∀ (env : Serialization.Env) (py : PyText) (ids : IdSupply) (sessionId : String)
      (as : List Action) (s : Session),
      Machine.run (step env py ids) (init sessionId) as = some s →
        ∀ w w', s.isOpen w = true → s.isOpen w' = true → w = w') ∧
    ¬ ∀ (env : Serialization.Env) (py : PyText) (ids : IdSupply) (sessionId : String)
      (as : List Action) (s : Session),
      Machine.run (step env py ids) (init sessionId) as = some s →
        (∀ c, s.connecting c = none) → (s.connected = true ↔ s.Serving) := by
  constructor
  · intro h
    have same := h ⟨fun _ => .ok .none, none, none⟩ plainText tallyIds "s" concurrentConnects _ rfl
      0 1 rfl rfl
    exact absurd same (by decide)
  · intro h
    have connected_iff := h ⟨fun _ => .ok .none, none, none⟩ plainText tallyIds "s" cleanClose _ rfl
      (fun c => by cases c <;> rfl)
    obtain ⟨w, l, hws, hopen, -⟩ := connected_iff.1 rfl
    cases hws
    cases hopen

end Session

end Cpip
