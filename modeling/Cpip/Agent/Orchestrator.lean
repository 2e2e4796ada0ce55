import Cpip.Lib.Dict
import Cpip.Lib.Machine
import Cpip.Python.Value
import Mathlib.Data.List.Basic
import Mathlib.Data.Option.Basic

/-!
# Orchestration of agents (`agent/orchestrator.py`)

Pipelines share one orchestrator: its agents, which come and go while pipelines run, the table of
tasks, and the payloads that callers pass, which may be the same objects.  Task objects are held by
reference, and a handler that awaits lets every other pipeline go on.  What a pipeline makes of its
stages is nevertheless its own: it stops at its first failure, and every handler is given exactly
the results of the stages before it.
-/

namespace Cpip

inductive TaskStatus where
  | pending
  | running
  | completed
  | failed
  deriving DecidableEq, Repr

structure AgentTask where
  id : String
  name : String
  status : TaskStatus
  result : PyVal
  error : String

/-- An agent; `η` are the callables that handle payloads. -/
structure Agent (η : Type) where
  id : String
  name : String
  capabilities : List String
  handler : Option η

/-- A stage of a pipeline, with a reference to its payload. -/
structure Stage where
  name : String
  payload : ℕ
  capability : String
  deriving DecidableEq, Repr

/-- Where a pipeline is: before its next stage, waiting for the handler of a task, returned, or
cancelled while it waited. -/
inductive FlowPhase where
  | ready
  | waiting (task : ℕ)
  | returned
  | cancelled
  deriving DecidableEq, Repr

/-- A call of `run_pipeline`, or of `submit_task`, which is one stage that gets no context; the
results are references to task objects. -/
structure Flow where
  stages : List Stage
  piped : Bool
  results : List ℕ
  context : Dict String PyVal
  phase : FlowPhase

/-- A stage that was begun, with the agent that was called and the context that it was given. -/
structure Begun (η : Type) where
  flow : ℕ
  piped : Bool
  stage : ℕ
  payload : ℕ
  agent : Option (Agent η)
  context : Dict String PyVal

/-- The orchestrator with the task objects (`tasks` refers to them by id), the calls that use it,
the pipeline whose context each payload refers to under `_context`, and the stages begun so far. -/
structure Orchestrator (η : Type) where
  agents : Dict String (Agent η)
  objects : List AgentTask
  tasks : Dict String ℕ
  flows : List Flow
  contexts : Dict ℕ ℕ
  begun : List (Begun η)

/-- What happens next; the outcome of a handler is what it returns or the text of what it raises. -/
inductive OrchestratorAct (η : Type) where
  | registerAgent (agent : Agent η)
  | unregisterAgent (agentId : String)
  | runPipeline (stages : List Stage)
  | submitTask (stage : Stage)
  | advance (flow : ℕ) (taskId : String)
  | settle (flow : ℕ) (outcome : Except String PyVal)
  | cancel (flow : ℕ)

namespace Orchestrator

variable {η : Type} (s : Orchestrator η)

def empty : Orchestrator η := ⟨∅, [], ∅, [], ∅, []⟩

/-- `_find_agent`. -/
def findAgent (agents : Dict String (Agent η)) (capability : String) : Option (Agent η) :=
  if capability = "" then agents.entries.head?.map Prod.snd
  else (agents.entries.map Prod.snd).find? fun a => capability ∈ a.capabilities

/-- The agent that `submit_task` calls. -/
def callee (agents : Dict String (Agent η)) (capability : String) : Option (Agent η) :=
  (findAgent agents capability).filter fun a => a.handler.isSome

/-- The task of a stage when its handler was called, or when there is none. -/
def startTask (stage : Stage) (taskId : String) : Option (Agent η) → AgentTask
  | some _ => ⟨taskId, stage.name, .running, .none, ""⟩
  | none =>
    ⟨taskId, stage.name, .failed, .none, "No agent available for: " ++
      if stage.capability ≠ "" then stage.capability else stage.name⟩

/-- The task when its handler is done. -/
def endTask (task : AgentTask) : Except String PyVal → AgentTask
  | .ok result => { task with status := .completed, result := result }
  | .error error => { task with status := .failed, error := error }

/-- A call begins a stage: `payload["_context"] = context`, and `submit_task` up to its `await`. -/
def beginStage (k : ℕ) (f : Flow) (stage : Stage) (taskId : String) : Orchestrator η :=
  let agent := callee s.agents stage.capability
  let task := s.objects.length
  let f' := if agent.isSome then { f with phase := .waiting task }
    else { f with results := f.results ++ [task], phase := .returned }
  { s with
    objects := s.objects ++ [startTask stage taskId agent]
    tasks := s.tasks.set taskId task
    flows := s.flows.set k f'
    contexts := if f.piped then s.contexts.set stage.payload k else s.contexts
    begun := s.begun ++ [⟨k, f.piped, f.results.length, stage.payload, agent, f.context⟩] }

/-- A call goes on when the handler of its task is done. -/
def settle (k : ℕ) (f : Flow) (ref : ℕ) (outcome : Except String PyVal) : Orchestrator η :=
  let f' : Flow :=
    match outcome with
    | .ok result =>
      { f with
        results := f.results ++ [ref]
        context := if f.piped then
          f.context.set ((f.stages[f.results.length]?.map Stage.name).getD "") result else f.context
        phase := .ready }
    | .error _ => { f with results := f.results ++ [ref], phase := .returned }
  { s with objects := s.objects.modify ref (endTask · outcome), flows := s.flows.set k f' }

def step : OrchestratorAct η → Option (Orchestrator η)
  | .registerAgent agent => some { s with agents := s.agents.set agent.id agent }
  | .unregisterAgent agentId => some { s with agents := s.agents.pop agentId }
  | .runPipeline stages => some { s with flows := s.flows ++ [⟨stages, true, [], ∅, .ready⟩] }
  | .submitTask stage => some { s with flows := s.flows ++ [⟨[stage], false, [], ∅, .ready⟩] }
  | .advance k taskId =>
    match s.flows[k]? with
    | none => none
    | some f =>
      if f.phase = .ready then
        match f.stages[f.results.length]? with
        | none => some { s with flows := s.flows.set k { f with phase := .returned } }
        | some stage => some (s.beginStage k f stage taskId)
      else none
  | .settle k outcome =>
    match s.flows[k]? with
    | none => none
    | some f =>
      match f.phase with
      | .waiting ref => some (s.settle k f ref outcome)
      | _ => none
  | .cancel k =>
    match s.flows[k]? with
    | none => none
    | some f =>
      match f.phase with
      | .waiting _ => some { s with flows := s.flows.set k { f with phase := .cancelled } }
      | _ => none

/-! ## References -/

section References

variable {objects : List AgentTask} {results : List ℕ} {ts : List AgentTask}

/-- The tasks to which the references lead. -/
def Resolved (objects : List AgentTask) (results : List ℕ) (ts : List AgentTask) : Prop :=
  results.map (objects[·]?) = ts.map some

theorem Resolved.length (h : Resolved objects results ts) : results.length = ts.length := by
  simpa using congrArg List.length h

theorem Resolved.snoc (h : Resolved objects results ts) {ref : ℕ} {t : AgentTask}
    (found : objects[ref]? = some t) : Resolved objects (results ++ [ref]) (ts ++ [t]) := by
  unfold Resolved at h ⊢
  rw [List.map_append, List.map_append, h, List.map_singleton, List.map_singleton, found]

theorem Resolved.exists_of_mem (h : Resolved objects results ts) {ref : ℕ} (mem : ref ∈ results) :
    ∃ t ∈ ts, objects[ref]? = some t := by
  have found : objects[ref]? ∈ ts.map some := h ▸ List.mem_map_of_mem mem
  obtain ⟨t, mem, same⟩ := List.mem_map.1 found
  exact ⟨t, mem, same.symm⟩

/-- New objects leave the references as they are. -/
theorem Resolved.append (h : Resolved objects results ts) (more : List AgentTask) :
    Resolved (objects ++ more) results ts := by
  refine (List.map_congr_left fun ref mem => ?_).trans h
  obtain ⟨t, -, found⟩ := h.exists_of_mem mem
  exact List.getElem?_append_left (List.getElem?_eq_some_iff.1 found).1

/-- A task that is not referred to may change. -/
theorem Resolved.modify (h : Resolved objects results ts) {ref : ℕ} (absent : ref ∉ results)
    (g : AgentTask → AgentTask) : Resolved (objects.modify ref g) results ts := by
  refine (List.map_congr_left fun ref' mem => ?_).trans h
  have ne : ref ≠ ref' := by
    rintro rfl
    exact absent mem
  simp [ne]

end References

/-! ## What a pipeline comes to -/

/-- The results of the tasks that were completed, by their names. -/
def contextOf (ts : List AgentTask) : Dict String PyVal :=
  ts.foldl (fun c t => if t.status = .completed then c.set t.name t.result else c) ∅

theorem contextOf_concat (ts : List AgentTask) (t : AgentTask) : contextOf (ts ++ [t]) =
    if t.status = .completed then (contextOf ts).set t.name t.result else contextOf ts := by
  rw [contextOf, List.foldl_append]
  rfl

/-- The tasks are those of the first stages; all of them but the last were completed, and a pipeline
that returned either came to the end of its stages or to a task that failed. -/
structure Story (stages : List Stage) (ts : List AgentTask) (phase : FlowPhase) : Prop where
  names : ts.map AgentTask.name = (stages.take ts.length).map Stage.name
  earlier : ∀ t ∈ ts.dropLast, t.status = .completed
  last : ∀ t ∈ ts.getLast?, t.status = .completed ∨ t.status = .failed
  going : phase ≠ .returned → ∀ t ∈ ts, t.status = .completed
  returned : phase = .returned → ts.length = stages.length ∨ ∃ t ∈ ts.getLast?, t.status = .failed

section Story

variable {stages : List Stage} {ts : List AgentTask} {phase : FlowPhase}

theorem story_nil (stages : List Stage) : Story stages [] .ready where
  names := rfl
  earlier t mem := by cases mem
  last t mem := by cases mem
  going _ t mem := by cases mem
  returned h := by cases h

theorem Story.status_ne_running (h : Story stages ts phase) : ∀ t ∈ ts, t.status ≠ .running := by
  intro t mem running
  rcases List.eq_nil_or_concat ts with rfl | ⟨front, last, rfl⟩
  · cases mem
  · rw [List.concat_eq_append, List.mem_append, List.mem_singleton] at mem
    rcases mem with mem | rfl
    · have := h.earlier t (by simpa using mem)
      rw [running] at this
      cases this
    · have := h.last t (by simp)
      rw [running] at this
      simp at this

theorem Story.length_le (h : Story stages ts phase) : ts.length ≤ stages.length := by
  have := congrArg List.length h.names
  rw [List.length_map, List.length_map, List.length_take] at this
  omega

/-- The next task of a pipeline that goes on. -/
theorem Story.concat (h : Story stages ts phase) (going : phase ≠ .returned) {stage : Stage}
    (next : stages[ts.length]? = some stage) {t : AgentTask} (name : t.name = stage.name)
    {phase' : FlowPhase} (settled : t.status = .completed ∧ phase' ≠ .returned ∨
      t.status = .failed ∧ phase' = .returned) : Story stages (ts ++ [t]) phase' where
  names := by
    rw [List.map_append, h.names, List.map_singleton, name, List.length_append,
      List.length_singleton, List.take_add_one, next, List.map_append]
    rfl
  earlier t' mem := by
    rw [List.dropLast_concat] at mem
    exact h.going going t' mem
  last t' mem := by
    rw [List.getLast?_concat, Option.mem_some_iff] at mem
    subst mem
    exact settled.imp And.left And.left
  going other t' mem := by
    rw [List.mem_append, List.mem_singleton] at mem
    rcases mem with mem | rfl
    · exact h.going going t' mem
    · rcases settled with ⟨completed, -⟩ | ⟨-, same⟩
      · exact completed
      · exact absurd same other
  returned same := by
    rcases settled with ⟨-, other⟩ | ⟨failed, -⟩
    · exact absurd same other
    · exact .inr ⟨t, by simp, failed⟩

/-- A pipeline that goes on may wait, be ready or be cancelled. -/
theorem Story.rephase (h : Story stages ts phase) (going : phase ≠ .returned) {phase' : FlowPhase}
    (other : phase' ≠ .returned) : Story stages ts phase' where
  names := h.names
  earlier := h.earlier
  last := h.last
  going _ := h.going going
  returned same := absurd same other

/-- A pipeline without a next stage returns. -/
theorem Story.finish (h : Story stages ts phase)
    (none : stages[ts.length]? = none) : Story stages ts .returned where
  names := h.names
  earlier := h.earlier
  last := h.last
  going other := absurd rfl other
  returned _ := .inl (le_antisymm h.length_le (List.getElem?_eq_none_iff.1 none))

end Story

/-! ## Pipelines do not disturb one another -/

/-- The pipeline with its tasks: its results refer to them, they tell its story, and its context is
what they gave. -/
structure Tells (objects : List AgentTask) (f : Flow) (ts : List AgentTask) : Prop where
  resolved : Resolved objects f.results ts
  story : Story f.stages ts f.phase
  context : f.piped = true → f.context = contextOf ts

/-- The task whose handler the pipeline waits for is the one of its next stage. -/
def Awaits (objects : List AgentTask) (f : Flow) : Prop :=
  ∀ ref, f.phase = .waiting ref → ∃ t stage, objects[ref]? = some t ∧ t.status = .running ∧
    f.stages[f.results.length]? = some stage ∧ t.name = stage.name

/-- A stage was begun with what the stages before it gave, and with an agent for it. -/
structure Given (b : Begun η) (f : Flow) (ts : List AgentTask) : Prop where
  before : b.stage ≤ ts.length
  context : f.piped = true → b.context = contextOf (ts.take b.stage)
  capable : ∀ a ∈ b.agent, ∃ stage, f.stages[b.stage]? = some stage ∧
    (stage.capability ≠ "" → stage.capability ∈ a.capabilities)

variable {s}

structure Inv (s : Orchestrator η) : Prop where
  tells : ∀ (k : ℕ) f, s.flows[k]? = some f → ∃ ts, Tells s.objects f ts
  awaits : ∀ (k : ℕ) f, s.flows[k]? = some f → Awaits s.objects f
  single : ∀ (k k' : ℕ) f f' ref, s.flows[k]? = some f → s.flows[k']? = some f' →
    f.phase = .waiting ref → f'.phase = .waiting ref → k = k'
  given : ∀ b ∈ s.begun, ∃ f, s.flows[b.flow]? = some f ∧
    ∀ ts, Tells s.objects f ts → Given b f ts

theorem Tells.unique {objects : List AgentTask} {f : Flow} {ts ts' : List AgentTask}
    (h : Tells objects f ts) (h' : Tells objects f ts') : ts = ts' :=
  List.map_injective_iff.2 (Option.some_injective _) (h.resolved.symm.trans h'.resolved)

theorem Tells.append {objects : List AgentTask} {f : Flow} {ts : List AgentTask}
    (h : Tells objects f ts) (more : List AgentTask) : Tells (objects ++ more) f ts :=
  ⟨h.resolved.append more, h.story, h.context⟩

theorem Awaits.append {objects : List AgentTask} {f : Flow} (h : Awaits objects f)
    (more : List AgentTask) : Awaits (objects ++ more) f := by
  intro ref waiting
  obtain ⟨t, stage, found, rest⟩ := h ref waiting
  refine ⟨t, stage, ?_, rest⟩
  rw [List.getElem?_append_left (List.getElem?_eq_some_iff.1 found).1]
  exact found

/-- A running task is no result. -/
theorem Tells.not_mem {objects : List AgentTask} {f : Flow} {ts : List AgentTask}
    (h : Tells objects f ts) {ref : ℕ} {t : AgentTask} (found : objects[ref]? = some t)
    (running : t.status = .running) : ref ∉ f.results := by
  intro mem
  obtain ⟨t', mem, found'⟩ := h.resolved.exists_of_mem mem
  obtain rfl := Option.some.inj (found.symm.trans found')
  exact h.story.status_ne_running t mem running

theorem getElem?_set_cases {α : Type} {l : List α} {k j : ℕ} {x y : α}
    (found : (l.set k x)[j]? = some y) : j = k ∧ y = x ∨ j ≠ k ∧ l[j]? = some y := by
  rw [List.getElem?_set] at found
  split_ifs at found with same
  · exact .inl ⟨same.symm, (Option.some.inj found).symm⟩
  · exact .inr ⟨Ne.symm same, found⟩

theorem getElem?_concat_cases {α : Type} {l : List α} {j : ℕ} {x y : α}
    (found : (l ++ [x])[j]? = some y) : l[j]? = some y ∨ j = l.length ∧ y = x := by
  rcases Nat.lt_or_ge j l.length with old | new
  · exact .inl (by rwa [List.getElem?_append_left old] at found)
  · rw [List.getElem?_append_right new, List.getElem?_singleton] at found
    split_ifs at found with first
    exact .inr ⟨by omega, (Option.some.inj found).symm⟩

theorem capable_of_callee {agents : Dict String (Agent η)} {capability : String} {a : Agent η}
    (called : callee agents capability = some a) (asked : capability ≠ "") :
    capability ∈ a.capabilities := by
  obtain ⟨found, -⟩ := Option.filter_eq_some_iff.1 called
  unfold findAgent at found
  rw [if_neg asked] at found
  have capable := List.find?_some found
  exact of_decide_eq_true capable

theorem inv_empty : Inv (empty : Orchestrator η) where
  tells k f h := by simp [empty] at h
  awaits k f h := by simp [empty] at h
  single k k' f f' ref h := by simp [empty] at h
  given b h := by simp [empty] at h

/-- A new call. -/
theorem inv_call (h : Inv s) (stages : List Stage) (piped : Bool) :
    Inv { s with flows := s.flows ++ [⟨stages, piped, [], ∅, .ready⟩] } where
  tells k f found := by
    rcases getElem?_concat_cases found with old | ⟨-, rfl⟩
    · exact h.tells k f old
    · exact ⟨[], rfl, story_nil stages, fun _ => rfl⟩
  awaits k f found := by
    rcases getElem?_concat_cases found with old | ⟨-, rfl⟩
    · exact h.awaits k f old
    · intro ref waiting
      cases waiting
  single k k' f f' ref found found' waiting waiting' := by
    rcases getElem?_concat_cases found with old | ⟨-, rfl⟩
    · rcases getElem?_concat_cases found' with old' | ⟨-, rfl⟩
      · exact h.single k k' f f' ref old old' waiting waiting'
      · cases waiting'
    · cases waiting
  given b mem := by
    obtain ⟨f, found, given⟩ := h.given b mem
    refine ⟨f, ?_, given⟩
    dsimp only
    rw [List.getElem?_append_left (List.getElem?_eq_some_iff.1 found).1]
    exact found

theorem Given.mono {b : Begun η} {f f' : Flow} {ts ts' : List AgentTask} (h : Given b f ts)
    (stages : f'.stages = f.stages) (piped : f'.piped = f.piped) (longer : ts <+: ts') :
    Given b f' ts' where
  before := h.before.trans longer.length_le
  context on := by
    obtain ⟨more, rfl⟩ := longer
    rw [List.take_append_of_le_length h.before]
    exact h.context (piped ▸ on)
  capable := by
    rw [stages]
    exact h.capable

/-- One call goes on and the tasks of the others stay what they are. -/
theorem inv_set (h : Inv s) {k : ℕ} {f : Flow} (found : s.flows[k]? = some f) (f' : Flow)
    (objects : List AgentTask) (more : List (Begun η)) (stages : f'.stages = f.stages)
    (piped : f'.piped = f.piped) (of : ∀ b ∈ more, b.flow = k)
    (own : ∀ ts, Tells s.objects f ts →
      ∃ ts', Tells objects f' ts' ∧ ts <+: ts' ∧ ∀ b ∈ more, Given b f' ts')
    (others : ∀ g ts, Tells s.objects g ts → Tells objects g ts) (awaits : Awaits objects f')
    (awaited : ∀ (j : ℕ) g, j ≠ k → s.flows[j]? = some g → Awaits s.objects g → Awaits objects g)
    (alone : ∀ (j : ℕ) g ref, j ≠ k → s.flows[j]? = some g → f'.phase = .waiting ref →
      g.phase ≠ .waiting ref) (agents : Dict String (Agent η)) (tasks : Dict String ℕ)
    (contexts : Dict ℕ ℕ) :
    Inv ⟨agents, objects, tasks, s.flows.set k f', contexts, s.begun ++ more⟩ := by
  have here : (s.flows.set k f')[k]? = some f' := by
    rw [List.getElem?_set_self (List.getElem?_eq_some_iff.1 found).1]
  obtain ⟨ts, tells⟩ := h.tells k f found
  obtain ⟨ts', tells', longer, given'⟩ := own ts tells
  constructor
  · intro j g at_j
    rcases getElem?_set_cases at_j with ⟨rfl, rfl⟩ | ⟨-, old⟩
    · exact ⟨ts', tells'⟩
    · obtain ⟨us, same⟩ := h.tells j g old
      exact ⟨us, others g us same⟩
  · intro j g at_j
    rcases getElem?_set_cases at_j with ⟨rfl, rfl⟩ | ⟨ne, old⟩
    · exact awaits
    · exact awaited j g ne old (h.awaits j g old)
  · intro i j g g' ref at_i at_j waiting waiting'
    rcases getElem?_set_cases at_i with ⟨rfl, rfl⟩ | ⟨ne, old⟩
    · rcases getElem?_set_cases at_j with ⟨rfl, rfl⟩ | ⟨ne', old'⟩
      · rfl
      · exact absurd waiting' (alone j g' ref ne' old' waiting)
    · rcases getElem?_set_cases at_j with ⟨rfl, rfl⟩ | ⟨ne', old'⟩
      · exact absurd waiting (alone i g ref ne old waiting')
      · exact h.single i j g g' ref old old' waiting waiting'
  · intro b mem
    rcases List.mem_append.1 mem with mem | mem
    · obtain ⟨g, old, given⟩ := h.given b mem
      by_cases same : b.flow = k
      · obtain rfl := Option.some.inj (found.symm.trans (same ▸ old))
        refine ⟨f', by rw [same]; exact here, fun us tells'' => ?_⟩
        obtain rfl := tells''.unique tells'
        exact (given ts tells).mono stages piped longer
      · refine ⟨g, ?_, fun us tells'' => ?_⟩
        · dsimp only
          rw [List.getElem?_set_ne (Ne.symm same)]
          exact old
        · obtain ⟨us', same'⟩ := h.tells b.flow g old
          obtain rfl := tells''.unique (others g us' same')
          exact given us same'
    · rw [of b mem]
      refine ⟨f', here, fun us tells'' => ?_⟩
      obtain rfl := tells''.unique tells'
      exact given' b mem

/-- A call changes to another phase in which it waits for nothing. -/
theorem inv_phase (h : Inv s) {k : ℕ} {f : Flow} (found : s.flows[k]? = some f) {phase : FlowPhase}
    (free : ∀ ref, phase ≠ .waiting ref)
    (story : ∀ ts, Tells s.objects f ts → Story f.stages ts phase) :
    Inv { s with flows := s.flows.set k { f with phase := phase } } := by
  have kept := inv_set h found { f with phase := phase } s.objects [] rfl rfl (by simp)
    (fun ts tells => ⟨ts, ⟨tells.resolved, story ts tells, tells.context⟩,
      List.prefix_refl ts, by simp⟩) (fun _ _ tells => tells)
    (fun ref waiting => absurd waiting (free ref)) (fun _ _ _ _ awaits => awaits)
    (fun _ _ ref _ _ waiting => absurd waiting (free ref)) s.agents s.tasks s.contexts
  rwa [List.append_nil] at kept

theorem Given.here {b : Begun η} {f : Flow} {ts : List AgentTask} (stage : b.stage = ts.length)
    (context : f.piped = true → b.context = contextOf ts)
    (capable : ∀ a ∈ b.agent, ∃ stage, f.stages[b.stage]? = some stage ∧
      (stage.capability ≠ "" → stage.capability ∈ a.capabilities)) : Given b f ts where
  before := stage.le
  context on := by
    rw [stage, List.take_length]
    exact context on
  capable := capable

/-- A stage for which there is no agent. -/
theorem inv_beginStage_none (h : Inv s) {k : ℕ} {f : Flow} (found : s.flows[k]? = some f)
    (ready : f.phase = .ready) {stage : Stage} (next : f.stages[f.results.length]? = some stage)
    (taskId : String) (nobody : callee s.agents stage.capability = none) :
    Inv (s.beginStage k f stage taskId) := by
  unfold beginStage
  rw [nobody]
  have going : f.phase ≠ .returned := by
    rw [ready]
    simp
  refine inv_set h found
    { f with results := f.results ++ [s.objects.length], phase := .returned }
    (s.objects ++ [startTask stage taskId (none : Option (Agent η))])
    [⟨k, f.piped, f.results.length, stage.payload, none, f.context⟩] rfl rfl ?_ (fun ts tells => ?_)
    (fun _ _ tells => tells.append _) ?_ (fun _ _ _ _ awaits => awaits.append _) ?_ _ _ _
  · intro b mem
    rw [List.mem_singleton.1 mem]
  · have length := tells.resolved.length
    rw [length] at next
    refine ⟨ts ++ [startTask stage taskId (none : Option (Agent η))], ⟨?_, ?_, ?_⟩,
      List.prefix_append _ _, ?_⟩
    · exact (tells.resolved.append _).snoc List.getElem?_concat_length
    · exact tells.story.concat going next rfl (.inr ⟨rfl, rfl⟩)
    · intro on
      rw [contextOf_concat, if_neg (by simp [startTask])]
      exact tells.context on
    · intro b mem
      rw [List.mem_singleton] at mem
      subst mem
      have given : Given (⟨k, f.piped, f.results.length, stage.payload, none, f.context⟩ :
          Begun η) f ts := .here length tells.context (by simp)
      exact given.mono rfl rfl (List.prefix_append _ _)
  · intro ref waiting
    cases waiting
  · intro _ _ ref _ _ waiting
    cases waiting

/-- A stage whose handler is called. -/
theorem inv_beginStage_some (h : Inv s) {k : ℕ} {f : Flow} (found : s.flows[k]? = some f)
    (ready : f.phase = .ready) {stage : Stage} (next : f.stages[f.results.length]? = some stage)
    (taskId : String) {agent : Agent η} (called : callee s.agents stage.capability = some agent) :
    Inv (s.beginStage k f stage taskId) := by
  unfold beginStage
  rw [called]
  have going : f.phase ≠ .returned := by
    rw [ready]
    simp
  refine inv_set h found { f with phase := .waiting s.objects.length }
    (s.objects ++ [startTask stage taskId (some agent)])
    [⟨k, f.piped, f.results.length, stage.payload, some agent, f.context⟩] rfl rfl ?_
    (fun ts tells => ?_) (fun _ _ tells => tells.append _) ?_
    (fun _ _ _ _ awaits => awaits.append _) ?_ _ _ _
  · intro b mem
    rw [List.mem_singleton.1 mem]
  · have length := tells.resolved.length
    refine ⟨ts, ⟨tells.resolved.append _, tells.story.rephase going (by simp), tells.context⟩,
      List.prefix_refl ts, ?_⟩
    intro b mem
    rw [List.mem_singleton] at mem
    subst mem
    refine .here length tells.context fun a same => ⟨stage, next, ?_⟩
    rw [Option.mem_some_iff] at same
    subst same
    exact capable_of_callee called
  · intro ref waiting
    obtain rfl : s.objects.length = ref := by simpa using waiting
    exact ⟨startTask stage taskId (some agent), stage, List.getElem?_concat_length, rfl, next, rfl⟩
  · -- the new task is one that nobody can be waiting for yet
    intro j g ref _ at_j waiting waiting'
    obtain rfl : s.objects.length = ref := by simpa using waiting
    obtain ⟨t, -, absent, -⟩ := h.awaits j g at_j _ waiting'
    exact absurd (List.getElem?_eq_some_iff.1 absent).1 (lt_irrefl _)

/-- The handler of a task is done. -/
theorem inv_settle (h : Inv s) {k : ℕ} {f : Flow} (found : s.flows[k]? = some f) {ref : ℕ}
    (waiting : f.phase = .waiting ref) (outcome : Except String PyVal) :
    Inv (s.settle k f ref outcome) := by
  obtain ⟨t, stage, at_ref, running, next, name⟩ := h.awaits k f found ref waiting
  have going : f.phase ≠ .returned := by
    rw [waiting]
    simp
  have ended : (s.objects.modify ref (endTask · outcome))[ref]? = some (endTask t outcome) := by
    rw [List.getElem?_modify_eq, at_ref]
    rfl
  have others : ∀ g ts, Tells s.objects g ts →
      Tells (s.objects.modify ref (endTask · outcome)) g ts := fun g ts tells =>
    ⟨tells.resolved.modify (tells.not_mem at_ref running) _, tells.story, tells.context⟩
  have awaited : ∀ (j : ℕ) g, j ≠ k → s.flows[j]? = some g → Awaits s.objects g →
      Awaits (s.objects.modify ref (endTask · outcome)) g := by
    intro j g ne at_j awaits ref' waiting'
    have apart : ref ≠ ref' := by
      rintro rfl
      exact ne (h.single j k g f ref at_j found waiting' waiting)
    obtain ⟨t', stage', at_ref', rest⟩ := awaits ref' waiting'
    refine ⟨t', stage', ?_, rest⟩
    simpa [List.getElem?_modify, apart] using at_ref'
  unfold settle
  cases outcome with
  | ok result =>
    have kept := inv_set h found
      { f with
        results := f.results ++ [ref]
        context := if f.piped then
          f.context.set ((f.stages[f.results.length]?.map Stage.name).getD "") result else f.context
        phase := .ready }
      (s.objects.modify ref (endTask · (.ok result))) [] rfl rfl (by simp) (fun ts tells => ?_)
      others ?_ awaited ?_ s.agents s.tasks s.contexts
    · rwa [List.append_nil] at kept
    · refine ⟨ts ++ [endTask t (.ok result)], ⟨?_, ?_, ?_⟩, List.prefix_append _ _, by simp⟩
      · exact (others f ts tells).resolved.snoc ended
      · rw [tells.resolved.length] at next
        exact tells.story.concat going next (t := endTask t (.ok result)) name
          (.inl ⟨rfl, by simp⟩)
      · intro on
        have completed : (endTask t (.ok result)).status = .completed := rfl
        dsimp only at on ⊢
        rw [if_pos on, next, tells.context on, contextOf_concat, if_pos completed,
          Option.map_some, Option.getD_some, ← name]
        rfl
    · intro ref' waiting'
      cases waiting'
    · intro _ _ ref' _ _ waiting'
      cases waiting'
  | error error =>
    have kept := inv_set h found { f with results := f.results ++ [ref], phase := .returned }
      (s.objects.modify ref (endTask · (.error error))) [] rfl rfl (by simp) (fun ts tells => ?_)
      others ?_ awaited ?_ s.agents s.tasks s.contexts
    · rwa [List.append_nil] at kept
    · refine ⟨ts ++ [endTask t (.error error)], ⟨?_, ?_, ?_⟩, List.prefix_append _ _, by simp⟩
      · exact (others f ts tells).resolved.snoc ended
      · rw [tells.resolved.length] at next
        exact tells.story.concat going next (t := endTask t (.error error)) name
          (.inr ⟨rfl, rfl⟩)
      · intro on
        rw [contextOf_concat, if_neg (by simp [endTask])]
        exact tells.context on
    · intro ref' waiting'
      cases waiting'
    · intro _ _ ref' _ _ waiting'
      cases waiting'

theorem inv_step (h : Inv s) (act : OrchestratorAct η) {s' : Orchestrator η}
    (stepped : s.step act = some s') : Inv s' := by
  cases act with
  | registerAgent agent =>
    obtain rfl := Option.some.inj stepped
    exact ⟨h.tells, h.awaits, h.single, h.given⟩
  | unregisterAgent agentId =>
    obtain rfl := Option.some.inj stepped
    exact ⟨h.tells, h.awaits, h.single, h.given⟩
  | runPipeline stages =>
    obtain rfl := Option.some.inj stepped
    exact inv_call h stages true
  | submitTask stage =>
    obtain rfl := Option.some.inj stepped
    exact inv_call h [stage] false
  | advance k taskId =>
    dsimp only [step] at stepped
    split at stepped
    · cases stepped
    next f found =>
    split_ifs at stepped with ready
    split at stepped
    next none =>
      obtain rfl := Option.some.inj stepped
      refine inv_phase h found (by simp) fun ts tells => tells.story.finish ?_
      rwa [← tells.resolved.length]
    next stage next =>
      obtain rfl := Option.some.inj stepped
      cases called : callee s.agents stage.capability with
      | none => exact inv_beginStage_none h found ready next taskId called
      | some agent => exact inv_beginStage_some h found ready next taskId called
  | settle k outcome =>
    dsimp only [step] at stepped
    split at stepped
    · cases stepped
    next f found =>
    split at stepped
    next ref waiting =>
      obtain rfl := Option.some.inj stepped
      exact inv_settle h found waiting outcome
    · cases stepped
  | cancel k =>
    dsimp only [step] at stepped
    split at stepped
    · cases stepped
    next f found =>
    split at stepped
    next ref waiting =>
      obtain rfl := Option.some.inj stepped
      exact inv_phase h found (by simp) fun ts tells =>
        tells.story.rephase (by rw [waiting]; simp) (by simp)
    · cases stepped

/-- The pipeline that began a stage with the payload last. -/
def lastWith (begun : List (Begun η)) (payload : ℕ) : Option ℕ :=
  ((begun.filter fun b => b.piped && b.payload == payload).getLast?).map Begun.flow

theorem lastWith_concat (begun : List (Begun η)) (b : Begun η) (payload : ℕ) :
    lastWith (begun ++ [b]) payload =
      if b.piped && b.payload == payload then some b.flow else lastWith begun payload := by
  unfold lastWith
  rw [List.filter_append, List.filter_singleton]
  cases b.piped && b.payload == payload with
  | true => simp
  | false => simp

/-- `payload["_context"]` refers to the context of the pipeline that set it last. -/
theorem contexts_step (h : ∀ payload, s.contexts.get? payload = lastWith s.begun payload)
    (act : OrchestratorAct η) {s' : Orchestrator η} (stepped : s.step act = some s') :
    ∀ payload, s'.contexts.get? payload = lastWith s'.begun payload := by
  intro payload
  cases act with
  | registerAgent | unregisterAgent | runPipeline | submitTask =>
    obtain rfl := Option.some.inj stepped
    exact h payload
  | advance k taskId =>
    dsimp only [step] at stepped
    split at stepped
    · cases stepped
    next f found =>
    split_ifs at stepped
    split at stepped
    · obtain rfl := Option.some.inj stepped
      exact h payload
    next stage next =>
    obtain rfl := Option.some.inj stepped
    unfold beginStage
    dsimp only
    rw [lastWith_concat, ← h payload]
    cases f.piped with
    | false => rfl
    | true =>
      by_cases same : stage.payload = payload
      · simp [same]
      · simp [same, Dict.get?_set]
  | settle k outcome | cancel k =>
    dsimp only [step] at stepped
    split at stepped
    · cases stepped
    split at stepped
    · obtain rfl := Option.some.inj stepped
      exact h payload
    · cases stepped

/-- However pipelines, single tasks and changes of the agents interleave: the results of every call
are the tasks of its stages up to its first failure, its context and the one that each of its stages
was begun with come from the tasks before alone, every handler that is called belongs to an agent
that can do the stage, and a payload refers to the context of the pipeline that used it last.
Handlers leave the contexts of payloads alone here. -/
theorem pipelines_apart {acts : List (OrchestratorAct η)}
    (ran : Machine.run step empty acts = some s) :
    (∀ (k : ℕ) f, s.flows[k]? = some f → ∃ ts, Resolved s.objects f.results ts ∧
      Story f.stages ts f.phase ∧ (f.piped = true → f.context = contextOf ts) ∧
      ∀ b ∈ s.begun, b.flow = k → b.stage ≤ ts.length ∧
        (f.piped = true → b.context = contextOf (ts.take b.stage)) ∧
        ∀ a ∈ b.agent, ∃ stage, f.stages[b.stage]? = some stage ∧
          (stage.capability ≠ "" → stage.capability ∈ a.capabilities)) ∧
      ∀ payload, s.contexts.get? payload = lastWith s.begun payload := by
  have inv : Inv s :=
    Machine.invariant_run (fun s act s' (h : Inv s) stepped => inv_step h act stepped) inv_empty ran
  refine ⟨fun k f found => ?_, ?_⟩
  · obtain ⟨ts, tells⟩ := inv.tells k f found
    refine ⟨ts, tells.resolved, tells.story, tells.context, fun b mem same => ?_⟩
    subst same
    obtain ⟨g, found', given⟩ := inv.given b mem
    obtain rfl := Option.some.inj (found.symm.trans found')
    have given := given ts tells
    exact ⟨given.before, given.context, given.capable⟩
  · exact Machine.invariant_run (I := fun s : Orchestrator η =>
      ∀ payload, s.contexts.get? payload = lastWith s.begun payload)
      (fun s act s' h stepped => contexts_step h act stepped) (fun _ => rfl) ran

/-- Two pipelines with one payload; the second begins while the first waits for its handler, and its
only stage fails. -/
def twoPipelines : List (OrchestratorAct Unit) :=
  [.registerAgent ⟨"a", "reader", ["read"], some ()⟩,
    .runPipeline [⟨"load", 0, "read"⟩, ⟨"sum", 0, ""⟩], .runPipeline [⟨"load", 0, ""⟩],
    .advance 0 "t0", .advance 1 "t1", .settle 0 (.ok (.int 5)), .unregisterAgent "a",
    .settle 1 (.error "no such file"), .advance 0 "t2"]

theorem pipelines_apart_two : ∃ s, Machine.run step empty twoPipelines = some s ∧
    s.flows.map Flow.results = [[0, 2], [1]] ∧ s.contexts.get? 0 = some 0 ∧
    ∀ payload, s.contexts.get? payload = lastWith s.begun payload := by
  refine ⟨_, rfl, rfl, rfl, (@pipelines_apart _ _ twoPipelines rfl).2⟩

end Orchestrator

end Cpip
