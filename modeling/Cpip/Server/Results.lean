import Cpip.Lib.History
import Cpip.Lib.Machine
import Cpip.Runtime.Hooks

/-!
# Execution results (`server/services/execution_service.py`, `server/api/execution.py`)

A result is recorded when its execution is over, under the id of its request, and holds the object
that the method returned.  The method runs in the process of the server: what it does to the
interpreter, and to the dictionary of the service itself, is the environment's, and so is what
encoding an object for a response does.

The log records what the endpoints answered.
-/

namespace Cpip

/-- Status of a remote execution. -/
inductive ExecutionStatus where
  | pending | running | completed | failed | timeout | cancelled
  deriving DecidableEq, Repr

/-- The execution is over. -/
def ExecutionStatus.IsTerminal : ExecutionStatus → Prop
  | .pending | .running => False
  | .completed | .failed | .timeout | .cancelled => True

instance ExecutionStatus.decidableIsTerminal (status : ExecutionStatus) :
    Decidable status.IsTerminal := by
  cases status <;> unfold ExecutionStatus.IsTerminal <;> infer_instance

/-- Request to execute code, without the fields that nothing reads. -/
structure ExecutionRequest where
  requestId : String
  method : String
  args : List PyVal
  kwargs : Dict String PyVal

/-- Result of an execution, whose value is of type `R`: an object for the service, and what it is
encoded as for a client. -/
structure ExecutionResult (R : Type) where
  requestId : String
  status : ExecutionStatus
  result : Option R
  durationMs : ℚ
  error : Option String
  traceback : Option String

/-- How a method ends: it returns an object, it raises an exception with a message and a traceback,
or it raises one that `except Exception` does not catch or that has no message. -/
inductive Evaluated (R : Type) where
  | returns (value : R)
  | raises (error traceback : String)
  | propagates

/-- The interpreter, with states `W`, objects `R` and encoded values `J`. -/
structure Interpreter (W R J : Type) where
  /-- Looks up the parts of a method and calls what it finds, if it can be called. -/
  evaluate : List String → List PyVal → Dict String PyVal → W →
    Dict String (ExecutionResult R) → Evaluated R × W × Dict String (ExecutionResult R)
  /-- `traceback.format_exc()` for an exception with the message. -/
  formatExc : W → String → String
  /-- Encodes an object for the response to a submission. -/
  serialize : W → R → W
  /-- Encodes an object for the response to a query, if that is possible. -/
  encode : W → R → Option J × W

namespace ExecutionService

/-- What a query is answered with. -/
inductive Answer (J : Type) where
  | notFound
  | internalError
  | report (r : ExecutionResult J)

inductive Event (J : Type) where
  | cancelled (id : String)
  | queried (id : String) (answer : Answer J)

/-- The service, with the interpreter that it runs in. -/
structure State (W R J : Type) where
  results : Dict String (ExecutionResult R)
  world : W
  log : List (Event J)

inductive Action where
  | submit (req : ExecutionRequest) (duration : ℚ)
  | query (id : String)
  | cancel (id : String)

variable {W R J : Type} (I : Interpreter W R J)

/-! ## The service -/

/-- `_execute_sandboxed`. -/
def executeSandboxed (req : ExecutionRequest) (world : W)
    (results : Dict String (ExecutionResult R)) :
    Evaluated R × W × Dict String (ExecutionResult R) :=
  if (splitDots req.method).length < 2 then
    let error := "Invalid method: " ++ req.method
    (.raises error (I.formatExc world error), world, results)
  else I.evaluate (splitDots req.method) req.args req.kwargs world results

/-- The result that `execute` records, when it records one. -/
def resultOf (req : ExecutionRequest) (duration : ℚ) : Evaluated R → Option (ExecutionResult R)
  | .returns value => some ⟨req.requestId, .completed, some value, duration, none, none⟩
  | .raises error traceback =>
    some ⟨req.requestId, .failed, none, duration, some error, some traceback⟩
  | .propagates => none

/-- `execute`, with the duration that it measures. -/
def execute (req : ExecutionRequest) (duration : ℚ) (s : State W R J) :
    Option (ExecutionResult R) × State W R J :=
  let (evaluated, world, results) := executeSandboxed I req s.world s.results
  match resultOf req duration evaluated with
  | some r =>
    (some r, { s with world := world, results := results.set req.requestId r })
  | none => (none, { s with world := world, results := results })

/-- `cancel`. -/
def cancel (id : String) (s : State W R J) : State W R J :=
  match s.results.get? id with
  | some r =>
    if r.status = .pending ∨ r.status = .running then
      { s with results := s.results.set id { r with status := .cancelled } }
    else s
  | none => s

/-! ## The endpoints -/

/-- The answer to a query, and the interpreter after its encoding. -/
def respond (world : W) : Option (ExecutionResult R) → Answer J × W
  | none => (.notFound, world)
  | some r =>
    match r.result with
    | none => (.report { r with result := none }, world)
    | some value =>
      match I.encode world value with
      | (some json, world') => (.report { r with result := some json }, world')
      | (none, world') => (.internalError, world')

/-- The interpreter after the response to a submission. -/
def serialized (world : W) : Option (ExecutionResult R) → W
  | some ⟨_, _, some value, _, _, _⟩ => I.serialize world value
  | _ => world

/-- `submit_execution`, past the authentication and the rate limit. -/
def submitExecution (req : ExecutionRequest) (duration : ℚ) (s : State W R J) : State W R J :=
  let (r, s') := execute I req duration s
  { s' with world := serialized I s'.world r }

/-- `get_execution`. -/
def getExecution (id : String) (s : State W R J) : State W R J :=
  let (answer, world) := respond I s.world (s.results.get? id)
  { s with world := world, log := s.log ++ [.queried id answer] }

/-- `cancel_execution`, which always answers that the execution is cancelled. -/
def cancelExecution (id : String) (s : State W R J) : State W R J :=
  let s' := cancel id s
  { s' with log := s'.log ++ [.cancelled id] }

/-- A request to the execution API. -/
def step (s : State W R J) : Action → Option (State W R J)
  | .submit req duration => some (submitExecution I req duration s)
  | .query id => some (getExecution I id s)
  | .cancel id => some (cancelExecution id s)

def init (world : W) : State W R J := ⟨∅, world, []⟩

/-! ## What was said of an id -/

/-- The later event agrees with the earlier one: what was cancelled is reported as nothing else,
and what was reported as over is reported alike. -/
def Event.Agrees : Event J → Event J → Prop
  | .cancelled id, .queried id' answer =>
    id = id' → ∀ r, answer = .report r → r.status = .cancelled
  | .queried id (.report r), .queried id' answer =>
    id = id' → r.status.IsTerminal → answer = .report r
  | _, _ => True

/-- Every answer agrees with the answers before it. -/
def Consistent (log : List (Event J)) : Prop :=
  History.Each (fun past e => ∀ e' ∈ past, e'.Agrees e) log

/-- The answer to a query, if there were one. -/
def State.answer (s : State W R J) (id : String) : Answer J :=
  (respond I s.world (s.results.get? id)).1

/-- What is answered is consistent, whatever is queried next. -/
def State.Truthful (s : State W R J) : Prop :=
  ∀ id, Consistent (s.log ++ [.queried id (s.answer I id)])

/-- The log says of the id that it is cancelled, or reports that its execution is over. -/
def Settled (log : List (Event J)) (id : String) : Prop :=
  .cancelled id ∈ log ∨ ∃ r, .queried id (.report r) ∈ log ∧ r.status.IsTerminal

/-- The request contradicts nothing that was said.  A submission that is recorded has an id that is
not settled; what its method and its response do to the interpreter and the dictionary, and what a
query's response does, leaves the answers for the settled ids as they are; and what is cancelled has
not completed or failed. -/
def Keeps (s : State W R J) : Action → Prop
  | .submit req duration =>
    let run := executeSandboxed I req s.world s.results
    let recorded := resultOf req duration run.1
    (recorded ≠ none → ¬ Settled s.log req.requestId) ∧ ∀ id, Settled s.log id →
      (respond I (serialized I run.2.1 recorded) (run.2.2.get? id)).1 = s.answer I id
  | .query id => ∀ id', Settled (s.log ++ [.queried id (s.answer I id)]) id' →
      (respond I (respond I s.world (s.results.get? id)).2 (s.results.get? id')).1 = s.answer I id'
  | .cancel id => ∀ r, s.results.get? id = some r →
      r.status = .pending ∨ r.status = .running ∨ r.status = .cancelled

variable {I}

theorem agrees_of_not_settled {log : List (Event J)} {id : String} (h : ¬ Settled log id)
    (answer : Answer J) : ∀ e ∈ log, e.Agrees (.queried id answer) := by
  intro e mem
  unfold Event.Agrees
  split
  · next said _ _ cancelled =>
    cases cancelled
    rintro rfl
    exact absurd (.inl mem) h
  · next said r _ _ reported =>
    cases reported
    rintro rfl ended
    exact absurd (.inr ⟨r, mem, ended⟩) h
  · trivial

/-- When an answer agrees with an earlier one. -/
theorem agrees_queried {id id' : String} {answer answer' : Answer J}
    (h : ∀ r, answer = .report r → id = id' → r.status.IsTerminal → answer' = .report r) :
    Event.Agrees (.queried id answer) (.queried id' answer') := by
  cases answer with
  | notFound => trivial
  | internalError => trivial
  | report r => exact h r rfl

theorem Settled.snoc {log : List (Event J)} {id : String} (h : Settled log id) (e : Event J) :
    Settled (log ++ [e]) id := by
  refine h.imp (fun mem => List.mem_append_left _ mem) ?_
  rintro ⟨r, mem, ended⟩
  exact ⟨r, List.mem_append_left _ mem, ended⟩

theorem truthful_iff {s : State W R J} :
    s.Truthful I ↔
      Consistent s.log ∧ ∀ id, ∀ e ∈ s.log, e.Agrees (.queried id (s.answer I id)) := by
  constructor
  · intro truthful
    exact ⟨(truthful "").of_snoc.1, fun id => (truthful id).of_snoc.2⟩
  · rintro ⟨consistent, agrees⟩ id
    exact consistent.snoc (agrees id)

/-- The answers for settled ids agree as long as they do not change. -/
theorem Truthful.agrees {s : State W R J} (h : s.Truthful I) {id : String} {answer : Answer J}
    (same : Settled s.log id → answer = s.answer I id) :
    ∀ e ∈ s.log, e.Agrees (.queried id answer) := by
  by_cases settled : Settled s.log id
  · rw [same settled]
    exact (truthful_iff.1 h).2 id
  · exact agrees_of_not_settled settled answer

/-- What a submission leaves recorded, and the interpreter after its response. -/
theorem submitExecution_eq (I : Interpreter W R J) (req : ExecutionRequest) (duration : ℚ)
    (s : State W R J) :
    let run := executeSandboxed I req s.world s.results
    let recorded := resultOf req duration run.1
    submitExecution I req duration s =
      { results := (recorded.map fun r => run.2.2.set req.requestId r).getD run.2.2
        world := serialized I run.2.1 recorded
        log := s.log } := by
  dsimp only
  unfold submitExecution execute
  dsimp only
  cases resultOf req duration (executeSandboxed I req s.world s.results).1 <;> rfl

theorem truthful_submit {s : State W R J} {req : ExecutionRequest} {duration : ℚ}
    (h : s.Truthful I) (keeps : Keeps I s (.submit req duration)) :
    (submitExecution I req duration s).Truthful I := by
  have fresh : resultOf req duration (executeSandboxed I req s.world s.results).1 ≠ none →
      ¬ Settled s.log req.requestId := keeps.1
  have others : ∀ id, Settled s.log id → (respond I _ _).1 = s.answer I id := keeps.2
  rw [submitExecution_eq]
  generalize executeSandboxed I req s.world s.results = run at fresh others ⊢
  generalize resultOf req duration run.1 = recorded at fresh others ⊢
  refine truthful_iff.2 ⟨(truthful_iff.1 h).1, fun id => Truthful.agrees h fun settled => ?_⟩
  rw [← others id settled]
  cases recorded with
  | none => rfl
  | some r =>
    have other : req.requestId ≠ id := by
      rintro rfl
      exact fresh (Option.some_ne_none r) settled
    show (respond I _ ((run.2.2.set req.requestId r).get? id)).1 = _
    rw [Dict.get?_set, if_neg other]

theorem truthful_query {s : State W R J} {id : String} (h : s.Truthful I)
    (keeps : Keeps I s (.query id)) : (getExecution I id s).Truthful I := by
  refine truthful_iff.2 ⟨h id, fun id' e mem => ?_⟩
  have same : Settled (s.log ++ [.queried id (s.answer I id)]) id' →
      (getExecution I id s).answer I id' = s.answer I id' := keeps id'
  rcases List.mem_append.1 mem with mem | mem
  · exact Truthful.agrees h (fun settled => same (settled.snoc _)) e mem
  · obtain rfl := List.mem_singleton.1 mem
    refine agrees_queried fun r reported same' ended => ?_
    obtain rfl := same'
    refine (same (.inr ⟨r, ?_, ended⟩)).trans reported
    exact List.mem_append_right _ (reported ▸ List.mem_singleton_self _)

/-- A report has the status of the result. -/
theorem status_of_respond {world : W} {stored : Option (ExecutionResult R)} {r : ExecutionResult J}
    (h : (respond I world stored).1 = .report r) :
    ∃ r₀, stored = some r₀ ∧ r₀.status = r.status := by
  unfold respond at h
  split at h
  · cases h
  · next r₀ =>
    split at h
    · cases h
      exact ⟨r₀, rfl, rfl⟩
    · split at h <;> cases h
      exact ⟨r₀, rfl, rfl⟩

theorem get?_cancel (id id' : String) (s : State W R J) :
    (cancel id s).results.get? id' =
      if id = id' then (s.results.get? id').map fun r =>
        if r.status = .pending ∨ r.status = .running then { r with status := .cancelled } else r
      else s.results.get? id' := by
  unfold cancel
  cases stored : s.results.get? id with
  | none =>
    split_ifs with same
    · rw [← same, stored]
      rfl
    · rfl
  | some r =>
    dsimp only
    split_ifs with active same same
    · rw [← same, stored, Dict.get?_set_self, Option.map_some, if_pos active]
    · rw [Dict.get?_set, if_neg same]
    · rw [← same, stored, Option.map_some, if_neg active]
    · rfl

theorem answer_cancelExecution (id id' : String) (s : State W R J) :
    (cancelExecution id s).answer I id' =
      (respond I s.world ((cancel id s).results.get? id')).1 := by
  have world : (cancel id s).world = s.world := by
    unfold cancel
    split
    · split_ifs <;> rfl
    · rfl
  rw [← world]
  rfl

/-- What has not completed or failed is reported as cancelled after its cancellation. -/
theorem status_of_cancel {s : State W R J} {id : String} (keeps : Keeps I s (.cancel id))
    {r : ExecutionResult J} (h : (cancelExecution id s).answer I id = .report r) :
    r.status = .cancelled := by
  rw [answer_cancelExecution] at h
  obtain ⟨r₀, stored, status⟩ := status_of_respond h
  rw [get?_cancel, if_pos rfl] at stored
  obtain ⟨r₁, found, rfl⟩ := Option.map_eq_some_iff.1 stored
  rw [← status]
  split_ifs with active
  · rfl
  · have now := keeps r₁ found
    simp only [not_or] at active
    exact (now.resolve_left active.1).resolve_left active.2

/-- A cancellation leaves what is over. -/
theorem answer_of_cancel {s : State W R J} {id : String} {r : ExecutionResult J}
    (ended : r.status.IsTerminal) (h : s.answer I id = .report r) :
    (cancelExecution id s).answer I id = .report r := by
  obtain ⟨r₀, stored, status⟩ := status_of_respond h
  have inactive : ¬ (r₀.status = .pending ∨ r₀.status = .running) := by
    rw [status]
    rintro (same | same) <;> rw [same] at ended <;> exact ended
  rw [answer_cancelExecution, get?_cancel, if_pos rfl, stored, Option.map_some, if_neg inactive,
    ← stored]
  exact h

theorem truthful_cancel {s : State W R J} {id : String} (h : s.Truthful I)
    (keeps : Keeps I s (.cancel id)) : (cancelExecution id s).Truthful I := by
  have log : (cancelExecution id s).log = s.log ++ [.cancelled id] := by
    unfold cancelExecution cancel
    dsimp only
    split
    · split_ifs <;> rfl
    · rfl
  have agrees := (truthful_iff.1 h).2
  refine truthful_iff.2 ⟨?_, fun id' e mem => ?_⟩
  · rw [log]
    refine (truthful_iff.1 h).1.snoc fun e mem => ?_
    rcases e with _ | ⟨_, _ | _ | _⟩ <;> trivial
  · rw [log, List.mem_append, List.mem_singleton] at mem
    by_cases same : id = id'
    · subst same
      rcases mem with mem | rfl
      · rcases e with id' | ⟨id', answer⟩
        · exact fun _ r reported => status_of_cancel keeps reported
        · refine agrees_queried fun r reported same ended => ?_
          subst reported same
          exact answer_of_cancel ended (agrees id' _ mem rfl ended)
      · exact fun _ r reported => status_of_cancel keeps reported
    · have unchanged : (cancelExecution id s).answer I id' = s.answer I id' := by
        rw [answer_cancelExecution, get?_cancel, if_neg same]
        rfl
      rcases mem with mem | rfl
      · rw [unchanged]
        exact agrees id' e mem
      · exact fun same' => absurd same' same

/-- What the endpoints answer stays consistent while the requests keep what was said. -/
theorem answers_consistent (I : Interpreter W R J) (world : W) (actions : List Action)
    (keeps : Machine.Along (step I) (Keeps I) (init world) actions) :
    Machine.Throughout (step I) (fun s => Consistent s.log) (init world) actions := by
  have start : (init world : State W R J).Truthful I := by
    refine truthful_iff.2 ⟨History.each_nil, fun id e mem => ?_⟩
    cases mem
  refine Machine.throughout_of_along (fun s truthful => (truthful_iff.1 truthful).1) ?_ start keeps
  intro s a s' kept truthful next
  cases a with
  | submit req duration =>
    obtain rfl := Option.some.inj next
    exact truthful_submit truthful kept
  | query id =>
    obtain rfl := Option.some.inj next
    exact truthful_query truthful kept
  | cancel id =>
    obtain rfl := Option.some.inj next
    exact truthful_cancel truthful kept

/-- An interpreter whose methods return a number. -/
def sampleInterpreter : Interpreter Unit ℕ ℕ where
  evaluate _ args _ world results := (.returns args.length, world, results)
  formatExc _ error := error
  serialize world _ := world
  encode world value := (some value, world)

def sampleRequest (id method : String) : ExecutionRequest := ⟨id, method, [], ∅⟩

/-- Two executions, of which one is reported twice; an id that is unknown is cancelled, and all are
queried after that. -/
def sampleRequests : List Action :=
  [.submit (sampleRequest "a" "math.sqrt") 1, .query "a", .submit (sampleRequest "b" "sqrt") 1,
    .query "a", .cancel "c", .query "c", .query "b", .query "a"]

theorem answers_consistent_sample :
    Machine.Throughout (step sampleInterpreter) (fun s => Consistent s.log) (init ())
      sampleRequests := by
  apply answers_consistent
  have query (s : State Unit ℕ ℕ) (id : String) : Keeps sampleInterpreter s (.query id) :=
    fun _ _ => rfl
  refine .cons ⟨fun _ settled => ?_, fun _ _ => rfl⟩ rfl (.cons (query _ _) rfl
    (.cons ⟨fun _ settled => ?_, fun _ _ => rfl⟩ rfl (.cons (query _ _) rfl
      (.cons (fun r stored => ?_) rfl (.cons (query _ _) rfl (.cons (query _ _) rfl
        (.cons (query _ _) rfl trivial)))))))
  · rcases settled with mem | ⟨r, mem, -⟩ <;> cases mem
  · -- what was reported is the execution of another id
    rcases settled with mem | ⟨r, mem, -⟩
    · cases List.mem_singleton.1 mem
    · have same := (Event.queried.inj (List.mem_singleton.1 mem)).1
      exact absurd same (by decide)
  · cases stored

/-- An execution that completed is answered to be cancelled and then reported as completed; and a
submission under an id that was reported changes what is reported. -/
theorem answers_contradict :
    (∃ s, Machine.run (step sampleInterpreter) (init ())
        [.submit (sampleRequest "a" "math.sqrt") 1, .cancel "a", .query "a"] = some s ∧
      ¬ Consistent s.log) ∧
      ∃ s, Machine.run (step sampleInterpreter) (init ())
        [.submit (sampleRequest "a" "math.sqrt") 1, .query "a",
          .submit (sampleRequest "a" "sqrt") 1, .query "a"] = some s ∧ ¬ Consistent s.log := by
  refine ⟨⟨_, rfl, fun consistent => ?_⟩, _, rfl, fun consistent => ?_⟩
  · have agrees := consistent [.cancelled "a"] _ [] rfl (.cancelled "a") (.head _)
    cases agrees rfl _ rfl
  · have agrees := consistent [.queried "a" (.report ⟨"a", .completed, some 0, 1, none, none⟩)]
      _ [] rfl _ (.head _)
    cases agrees rfl trivial

end ExecutionService

end Cpip
