import Mathlib.Data.List.Nodup
import Cpip.Lib.Machine
import Cpip.Shared.Models

/-!
# Build jobs of the server (`server/services/build_service.py`)

The service keeps a result for every build and a list of the ids that are queued.  The two stay in
step as long as an id is submitted once and a build is cancelled once.
-/

namespace Cpip

/-- A build that will not change any more. -/
def BuildStatus.Terminal : BuildStatus → Prop
  | .succeeded | .failed | .cancelled => True
  | .queued | .building => False

/-- `BuildService`. -/
structure BuildService where
  builds : Dict String BuildResult
  queue : List String

namespace BuildService

def empty : BuildService := ⟨∅, []⟩

/-- The result of a build that was just submitted. -/
def submitted (req : BuildRequest) : BuildResult where
  requestId := req.requestId
  status := .queued
  packageName := req.packageName
  packageVersion := req.packageVersion
  wheelUrl := none
  wheelHash := none
  wheelSize := 0
  buildLog := ""
  durationSeconds := 0
  error := none

/-- `submit_build`. -/
def submitBuild (m : BuildService) (req : BuildRequest) : BuildResult × BuildService :=
  (submitted req,
    { builds := m.builds.set req.requestId (submitted req), queue := m.queue ++ [req.requestId] })

/-- `cancel_build`. -/
def cancelBuild (m : BuildService) (buildId : String) : Bool × BuildService :=
  match m.builds.get? buildId with
  | none => (false, m)
  | some build =>
    if build.status = .succeeded ∨ build.status = .failed then (false, m)
    else
      (true,
        { builds := m.builds.set buildId { build with status := .cancelled }
          queue := m.queue.erase buildId })

inductive Act where
  | submit (req : BuildRequest)
  | cancel (buildId : String)

def step (m : BuildService) : Act → Option BuildService
  | .submit req => some (m.submitBuild req).2
  | .cancel buildId => some (m.cancelBuild buildId).2

/-- The queue holds every queued build once, and nothing else. -/
structure InStep (m : BuildService) : Prop where
  nodup : m.queue.Nodup
  queued : ∀ id, id ∈ m.queue ↔ ∃ build, m.builds.get? id = some build ∧ build.status = .queued

/-- A submission leaves the recorded results as they are, and a cancellation returns `True` exactly
when it made a build that was not terminal a cancelled one. -/
def Lawful (m : BuildService) : Act → Prop
  | .submit req => ∀ id build, m.builds.get? id = some build →
      (m.submitBuild req).2.builds.get? id = some build
  | .cancel buildId => (m.cancelBuild buildId).1 = true ↔
      ∃ build, m.builds.get? buildId = some build ∧ ¬ build.status.Terminal ∧
        (m.cancelBuild buildId).2.builds.get? buildId = some { build with status := .cancelled }

/-- A new id is submitted, or a build that was not cancelled before is cancelled. -/
def Once (m : BuildService) : Act → Prop
  | .submit req => m.builds.get? req.requestId = none
  | .cancel buildId => ∀ build, m.builds.get? buildId = some build → build.status ≠ .cancelled

theorem inStep_empty : InStep empty where
  nodup := List.nodup_nil
  queued id := by
    constructor
    · exact fun mem => absurd mem List.not_mem_nil
    · rintro ⟨build, h, -⟩
      cases h

variable {m : BuildService}

theorem once_submit_iff (h : InStep m) (req : BuildRequest) :
    Once m (.submit req) ↔ Lawful m (.submit req) ∧ InStep (m.submitBuild req).2 := by
  constructor
  · intro fresh
    have fresh' : m.builds.get? req.requestId = none := fresh
    have new : req.requestId ∉ m.queue := by
      intro mem
      obtain ⟨build, hbuild, -⟩ := (h.queued req.requestId).1 mem
      rw [fresh'] at hbuild
      cases hbuild
    refine ⟨fun id build hbuild => ?_, ?_, fun id => ?_⟩
    · show (m.builds.set req.requestId (submitted req)).get? id = some build
      rw [Dict.get?_set, if_neg]
      · exact hbuild
      · rintro rfl
        rw [fresh'] at hbuild
        cases hbuild
    · exact h.nodup.append (List.nodup_singleton _) (List.disjoint_singleton.2 new)
    · show id ∈ m.queue ++ [req.requestId] ↔ ∃ build,
        (m.builds.set req.requestId (submitted req)).get? id = some build ∧ build.status = .queued
      rw [Dict.get?_set, List.mem_append, List.mem_singleton]
      by_cases same : req.requestId = id
      · simp [same, submitted]
      · rw [if_neg same, ← h.queued id]
        simp [Ne.symm same]
  · rintro ⟨lawful, inStep⟩
    cases hbuild : m.builds.get? req.requestId with
    | none => exact hbuild
    | some build =>
      -- the result is unchanged, so the build was queued already
      have unchanged := lawful req.requestId build hbuild
      have recorded : (m.builds.set req.requestId (submitted req)).get? req.requestId
          = some build := unchanged
      rw [Dict.get?_set_self] at recorded
      have mem : req.requestId ∈ m.queue :=
        (h.queued req.requestId).2 ⟨build, hbuild, by rw [← Option.some.inj recorded]; rfl⟩
      have nodup : (m.queue ++ [req.requestId]).Nodup := inStep.nodup
      exact absurd rfl ((List.nodup_append.1 nodup).2.2 _ mem _ (List.mem_singleton_self _))

/-- A cancellation of a build that is not over keeps the queue in step. -/
theorem InStep.cancel (h : InStep m) {buildId : String} {build : BuildResult} :
    InStep
      { builds := m.builds.set buildId { build with status := .cancelled }
        queue := m.queue.erase buildId } where
  nodup := h.nodup.erase buildId
  queued id := by
    show id ∈ m.queue.erase buildId ↔ ∃ b,
      (m.builds.set buildId { build with status := .cancelled }).get? id = some b ∧
        b.status = .queued
    rw [Dict.get?_set, h.nodup.mem_erase_iff]
    by_cases same : buildId = id
    · simp [same]
    · rw [if_neg same, ← h.queued id]
      simp [Ne.symm same]

theorem once_cancel_iff (h : InStep m) (buildId : String) :
    Once m (.cancel buildId) ↔ Lawful m (.cancel buildId) ∧ InStep (m.cancelBuild buildId).2 := by
  unfold Once Lawful cancelBuild
  dsimp only
  cases hbuild : m.builds.get? buildId with
  | none => simp [h]
  | some build =>
    by_cases finished : build.status = .succeeded ∨ build.status = .failed
    · have terminal : build.status.Terminal := by
        rcases finished with status | status <;> rw [status] <;> trivial
      have other : build.status ≠ .cancelled := by
        rcases finished with status | status <;> rw [status] <;> decide
      simp [finished, terminal, other, h]
    · have terminal : build.status.Terminal ↔ build.status = .cancelled := by
        cases status : build.status <;> simp_all [BuildStatus.Terminal]
      simp [finished, terminal, h.cancel, Dict.get?_set_self]

theorem exists_step (m : BuildService) (a : Act) : ∃ m', step m a = some m' := by
  cases a with
  | submit req => exact ⟨_, rfl⟩
  | cancel buildId => exact ⟨_, rfl⟩

/-- The queue and the results stay in step, and submissions and cancellations do what they say,
exactly along the runs in which ids are submitted once and builds are cancelled once. -/
theorem once_iff_lawful (acts : List Act) :
    Machine.Along step Once empty acts ↔
      Machine.Along step Lawful empty acts ∧ Machine.Throughout step InStep empty acts := by
  obtain ⟨m, ran⟩ := Machine.exists_run exists_step empty acts
  refine Machine.along_iff_along_and_throughout ?_ inStep_empty ran
  intro m a m' h hs
  cases a with
  | submit req =>
    obtain rfl := Option.some.inj hs
    exact once_submit_iff h req
  | cancel buildId =>
    obtain rfl := Option.some.inj hs
    exact once_cancel_iff h buildId

/-- A client sends its request again. -/
theorem resubmission_queued_twice :
    ∃ m, Machine.run step empty [.submit ⟨"b-1", "numpy", "latest", "aarch64", "3.11", 5⟩,
        .submit ⟨"b-1", "numpy", "latest", "aarch64", "3.11", 5⟩] = some m ∧ ¬ InStep m := by
  refine ⟨_, rfl, fun h => ?_⟩
  have nodup : ["b-1", "b-1"].Nodup := h.nodup
  exact absurd nodup (by decide)

/-- A cancellation of a cancelled build returns `True` again. -/
theorem second_cancellation_returns_true :
    ∃ m, Machine.run step empty [.submit ⟨"b-1", "numpy", "latest", "aarch64", "3.11", 5⟩,
        .cancel "b-1"] = some m ∧ ¬ Lawful m (.cancel "b-1") := by
  refine ⟨_, rfl, fun lawful => ?_⟩
  obtain ⟨build, hbuild, running, -⟩ := lawful.1 (by decide +kernel)
  cases Option.some.inj hbuild
  exact running trivial

end BuildService

end Cpip
