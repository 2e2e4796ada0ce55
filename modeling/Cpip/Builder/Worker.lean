import Cpip.Builder.Queue
import Cpip.Python.Value

/-!
# Build workers (`builder/worker.py`)

Any number of workers share the queue.  A worker runs without a break from one `await` to the next:
it takes a request and calls the compiler, then calls the scanner, then signs and reports.  While it
waits, others push requests and other workers go on.
-/

namespace Cpip

namespace Builder

/-- What the worker reads of a `CompileResult`. -/
structure CompileResult where
  success : Bool
  wheelPath : Option String
  error : String
  deriving DecidableEq

/-- What the worker reads of a `ScanResult`. -/
structure ScanResult where
  clean : Bool
  issues : List String
  deriving DecidableEq

/-- Where a worker is: at the top of its loop, or in `_process_build`, waiting for the compiler or
for the scanner. -/
inductive Job where
  | idle
  | compiling (r : ℕ)
  | scanning (r : ℕ) (wheelPath : String)
  deriving DecidableEq

/-- The request of a job. -/
def Job.request? : Job → Option ℕ
  | .idle => none
  | .compiling r | .scanning r _ => some r

structure Worker where
  running : Bool
  job : Job
  deriving DecidableEq

/-- The queue and its workers, with the requests that were pushed, those that `compile` was called
for, those that a failure queued again, and those that were completed. -/
structure Farm where
  queue : BuildQueue
  workers : ℕ → Worker
  now : ℚ
  pushed : List ℕ
  compiled : List ℕ
  requeued : List ℕ
  completed : List ℕ

/-- What happens next: a push, `start` or `stop` of a worker, a turn of its loop, or the answer that
it waits for.  With the answer of the scanner comes what signing the wheel does. -/
inductive Act where
  | push (r : ℕ) (now : ℚ)
  | start (w : ℕ)
  | stop (w : ℕ)
  | poll (w : ℕ)
  | compiled (w : ℕ) (outcome : Except PyExc CompileResult) (now : ℚ)
  | scanned (w : ℕ) (scan : Except PyExc ScanResult) (sign : Except PyExc String) (now : ℚ)

/-- `result.success and result.wheel_path`. -/
def wheel? : Except PyExc CompileResult → Option String
  | .ok result => if result.success then result.wheelPath.filter (· ≠ "") else none
  | .error _ => none

/-- The scan is clean, and signing succeeds. -/
def published (scan : Except PyExc ScanResult) (sign : Except PyExc String) : Bool :=
  match scan, sign with
  | .ok scan, .ok _ => scan.clean
  | _, _ => false

namespace Farm

def init (requests : ℕ → BuildRequest) (now : ℚ) : Farm :=
  ⟨.init requests, fun _ => ⟨false, .idle⟩, now, [], [], [], []⟩

def requestId (s : Farm) (r : ℕ) : String := (s.queue.requests r).requestId

def setJob (s : Farm) (w : ℕ) (job : Job) : Farm :=
  { s with workers := Function.update s.workers w { s.workers w with job := job } }

def setRunning (s : Farm) (w : ℕ) (running : Bool) : Farm :=
  { s with workers := Function.update s.workers w { s.workers w with running := running } }

/-- `build_queue.push`. -/
def push (s : Farm) (r : ℕ) (now : ℚ) : Farm :=
  { s with queue := s.queue.push r now, now := now, pushed := s.pushed ++ [r] }

/-- One turn of the loop of `start`: the worker takes a request and calls the compiler for it. -/
def poll (s : Farm) (w : ℕ) : Farm :=
  match s.queue.pop with
  | (none, _) => s
  | (some r, q) => { s with queue := q, compiled := s.compiled ++ [r] }.setJob w (.compiling r)

/-- `build_queue.fail(req.request_id)`, where `_process_build` returns. -/
def fail (s : Farm) (w r : ℕ) (now : ℚ) : Farm :=
  { s with
    queue := s.queue.fail (s.requestId r) now, now := now
    requeued := s.requeued ++ (s.queue.processing.get? (s.requestId r)).toList }.setJob w .idle

/-- `build_queue.complete(req.request_id)`, where `_process_build` returns. -/
def complete (s : Farm) (w r : ℕ) (now : ℚ) : Farm :=
  { s with
    queue := s.queue.complete (s.requestId r), now := now
    completed := s.completed ++ [r] }.setJob w .idle

/-- One act, when the clock does not go back. -/
def step (s : Farm) : Act → Option Farm
  | .push r now => if s.now ≤ now then some (s.push r now) else none
  | .start w => some (s.setRunning w true)
  | .stop w => some (s.setRunning w false)
  | .poll w =>
    if (s.workers w).running ∧ (s.workers w).job = .idle then some (s.poll w) else none
  | .compiled w outcome now =>
    if s.now ≤ now then
      match (s.workers w).job with
      | .compiling r =>
        match wheel? outcome with
        | some path => some ({ s with now := now }.setJob w (.scanning r path))
        | none => some (s.fail w r now)
      | _ => none
    else none
  | .scanned w scan sign now =>
    if s.now ≤ now then
      match (s.workers w).job with
      | .scanning r _ =>
        if published scan sign then some (s.complete w r now) else some (s.fail w r now)
      | _ => none
    else none

/-- What one act can do. -/
inductive Moves (s : Farm) : Act → Farm → Prop where
  | push {r : ℕ} {now : ℚ} (clock : s.now ≤ now) : Moves s (.push r now) (s.push r now)
  | start {w : ℕ} : Moves s (.start w) (s.setRunning w true)
  | stop {w : ℕ} : Moves s (.stop w) (s.setRunning w false)
  | sleeps {w : ℕ} : s.queue.queue = [] → Moves s (.poll w) s
  | takes {w : ℕ} {e : Entry} {rest : List Entry} (idle : (s.workers w).job = .idle)
      (hqueue : s.queue.queue = e :: rest) : Moves s (.poll w)
        ({ s with
          queue :=
            { s.queue with
              queue := rest
              processing := s.queue.processing.set (s.requestId e.request) e.request }
          compiled := s.compiled ++ [e.request] }.setJob w (.compiling e.request))
  | built {w r : ℕ} {outcome : Except PyExc CompileResult} {path : String} {now : ℚ}
      (clock : s.now ≤ now) (job : (s.workers w).job = .compiling r)
      (success : wheel? outcome = some path) :
        Moves s (.compiled w outcome now) ({ s with now := now }.setJob w (.scanning r path))
  | compileFails {w r : ℕ} {outcome : Except PyExc CompileResult} {now : ℚ}
      (clock : s.now ≤ now) (job : (s.workers w).job = .compiling r)
      (failure : wheel? outcome = none) : Moves s (.compiled w outcome now) (s.fail w r now)
  | scanFails {w r : ℕ} {path : String} {scan : Except PyExc ScanResult}
      {sign : Except PyExc String} {now : ℚ} (clock : s.now ≤ now)
      (job : (s.workers w).job = .scanning r path) (failure : published scan sign = false) :
        Moves s (.scanned w scan sign now) (s.fail w r now)
  | publishes {w r : ℕ} {path : String} {scan : Except PyExc ScanResult}
      {sign : Except PyExc String} {now : ℚ} (clock : s.now ≤ now)
      (job : (s.workers w).job = .scanning r path) (success : published scan sign = true) :
        Moves s (.scanned w scan sign now) (s.complete w r now)

theorem moves_of_step {s s' : Farm} {a : Act} (hs : s.step a = some s') : Moves s a s' := by
  unfold step at hs
  cases a with
  | push r now =>
    simp only [Option.ite_none_right_eq_some] at hs
    exact Option.some.inj hs.2 ▸ .push hs.1
  | start w => exact Option.some.inj hs ▸ .start
  | stop w => exact Option.some.inj hs ▸ .stop
  | poll w =>
    simp only [Option.ite_none_right_eq_some] at hs
    obtain ⟨⟨-, idle⟩, hs⟩ := hs
    rw [← Option.some.inj hs]
    unfold poll BuildQueue.pop
    cases hqueue : s.queue.queue with
    | nil => exact .sleeps hqueue
    | cons e rest => exact .takes idle hqueue
  | compiled w outcome now =>
    simp only [Option.ite_none_right_eq_some] at hs
    obtain ⟨clock, hs⟩ := hs
    cases job : (s.workers w).job with
    | compiling r =>
      rw [job] at hs
      cases result : wheel? outcome with
      | some path =>
        rw [result] at hs
        exact Option.some.inj hs ▸ .built clock job result
      | none =>
        rw [result] at hs
        exact Option.some.inj hs ▸ .compileFails clock job result
    | idle => rw [job] at hs; cases hs
    | scanning r path => rw [job] at hs; cases hs
  | scanned w scan sign now =>
    simp only [Option.ite_none_right_eq_some] at hs
    obtain ⟨clock, hs⟩ := hs
    cases job : (s.workers w).job with
    | scanning r path =>
      rw [job] at hs
      dsimp only at hs
      split_ifs at hs with success
      · exact Option.some.inj hs ▸ .publishes clock job success
      · exact Option.some.inj hs ▸ .scanFails clock job (Bool.eq_false_iff.2 success)
    | idle => rw [job] at hs; cases hs
    | compiling r => rw [job] at hs; cases hs

end Farm

/-! ## How often a request is in the queue -/

namespace BuildQueue

/-- How often a request is in the queue. -/
def waiting (q : BuildQueue) (r : ℕ) : ℕ := (q.queue.map Entry.request).count r

theorem waiting_push (q : BuildQueue) (r : ℕ) (now : ℚ) (r' : ℕ) :
    (q.push r now).waiting r' = q.waiting r' + if r = r' then 1 else 0 := by
  have sorted := ((List.perm_insertionSort Entry.Le
    (q.queue ++ [Entry.mk (q.requests r).priority now r])).map Entry.request).count_eq r'
  rw [waiting, waiting, push, sorted, List.map_append, List.count_append, List.map_singleton,
    List.count_singleton]
  simp only [beq_iff_eq]

@[simp]
theorem requestId_demote (requests : ℕ → BuildRequest) (r r' : ℕ) :
    (demote requests r r').requestId = (requests r').requestId := by
  unfold demote
  by_cases same : r' = r
  · subst same
    rw [Function.update_self]
  · rw [Function.update_of_ne same]

theorem fail_of_get?_eq_some {q : BuildQueue} {requestId : String} {r : ℕ}
    (h : q.processing.get? requestId = some r) (now : ℚ) :
    q.fail requestId now = (q.release requestId r).push r now := by
  unfold fail
  rw [h]

/-- What `fail` puts back. -/
theorem waiting_fail (q : BuildQueue) (requestId : String) (now : ℚ) (r : ℕ) :
    (q.fail requestId now).waiting r
      = q.waiting r + (q.processing.get? requestId).toList.count r := by
  cases h : q.processing.get? requestId with
  | none => simp [fail, h]
  | some r' =>
    rw [fail_of_get?_eq_some h, waiting_push, Option.toList_some, List.count_singleton]
    simp only [beq_iff_eq]
    rfl

/-- A request that fails is queued again, one priority lower, down to 10. -/
theorem mem_queue_fail {q : BuildQueue} {requestId : String} {r : ℕ}
    (h : q.processing.get? requestId = some r) (now : ℚ) :
    Entry.mk (min ((q.requests r).priority + 1) 10) now r ∈ (q.fail requestId now).queue ∧
      ((q.fail requestId now).requests r).priority = min ((q.requests r).priority + 1) 10 := by
  have priority : (demote q.requests r r).priority = min ((q.requests r).priority + 1) 10 := by
    rw [demote, Function.update_self]
  rw [fail_of_get?_eq_some h, ← priority]
  refine ⟨?_, rfl⟩
  rw [push, List.mem_insertionSort]
  exact List.mem_append_right _ (List.mem_singleton_self _)

end BuildQueue

/-! ## Conservation -/

namespace Farm

/-- A worker's job is for the request. -/
def Holds (s : Farm) (w r : ℕ) : Prop := (s.workers w).job.request? = some r

/-- In how many places the request is: how often in the queue, in the processing map under its own
id, and how often among the completed requests. -/
def places (s : Farm) (r : ℕ) : ℕ :=
  s.queue.waiting r + (if s.queue.processing.get? (s.requestId r) = some r then 1 else 0) +
    s.completed.count r

/-- No request is pushed whose id was pushed before. -/
def Fresh (s : Farm) : Act → Prop
  | .push r _ => ∀ r' ∈ s.pushed, s.requestId r' ≠ s.requestId r
  | _ => True

structure Conserved (s : Farm) : Prop where
  nodup : s.pushed.Nodup
  distinct : ∀ r ∈ s.pushed, ∀ r' ∈ s.pushed, s.requestId r = s.requestId r' → r = r'
  places : ∀ r, s.places r = s.pushed.count r
  own : ∀ id r, s.queue.processing.get? id = some r → id = s.requestId r
  held : ∀ w r, s.Holds w r → s.queue.processing.get? (s.requestId r) = some r
  apart : ∀ w w' r, s.Holds w r → s.Holds w' r → w = w'

theorem conserved_init (requests : ℕ → BuildRequest) (now : ℚ) : Conserved (init requests now) where
  nodup := List.nodup_nil
  distinct := nofun
  places _ := rfl
  own _ _ h := by cases h
  held _ _ h := by cases h
  apart _ _ _ h := by cases h

section Jobs

variable {s : Farm} {w w' r : ℕ}

theorem holds_setJob {job : Job} :
    (s.setJob w job).Holds w' r ↔ if w' = w then job.request? = some r else s.Holds w' r := by
  unfold Holds setJob
  by_cases same : w' = w
  · subst same
    simp
  · simp [same]

theorem holds_setRunning {running : Bool} : (s.setRunning w running).Holds w' r ↔ s.Holds w' r := by
  unfold Holds setRunning
  by_cases same : w' = w
  · subst same
    simp
  · simp [same]

theorem holds_of_job {job : Job} (h : (s.workers w).job = job) :
    s.Holds w r ↔ job.request? = some r := by
  rw [Holds, h]

end Jobs

variable {s s' : Farm} {r : ℕ}

theorem Conserved.mem_pushed (h : Conserved s) (hr : 0 < s.places r) : r ∈ s.pushed :=
  List.count_pos_iff.1 (h.places r ▸ hr)

theorem Conserved.places_le (h : Conserved s) (r : ℕ) : s.places r ≤ 1 :=
  h.places r ▸ List.nodup_iff_count_le_one.1 h.nodup r

theorem mem_of_processing (h : Conserved s)
    (hr : s.queue.processing.get? (s.requestId r) = some r) : r ∈ s.pushed := by
  refine h.mem_pushed ?_
  rw [places, if_pos hr]
  omega

theorem Conserved.push (h : Conserved s) {now : ℚ}
    (fresh : ∀ r' ∈ s.pushed, s.requestId r' ≠ s.requestId r) : Conserved (s.push r now) := by
  have new : r ∉ s.pushed := fun mem => fresh r mem rfl
  refine ⟨?_, ?_, fun r' => ?_, h.own, h.held, h.apart⟩
  · exact h.nodup.append (List.nodup_singleton r) (List.disjoint_singleton.2 new)
  · intro r₁ h₁ r₂ h₂ same
    rcases List.mem_append.1 h₁ with old₁ | new₁ <;> rcases List.mem_append.1 h₂ with old₂ | new₂
    · exact h.distinct r₁ old₁ r₂ old₂ same
    · rw [List.mem_singleton.1 new₂] at same
      exact absurd same (fresh r₁ old₁)
    · rw [List.mem_singleton.1 new₁] at same
      exact absurd same.symm (fresh r₂ old₂)
    · rw [List.mem_singleton.1 new₁, List.mem_singleton.1 new₂]
  · have before := h.places r'
    unfold Farm.places at before ⊢
    show (s.queue.push r now).waiting r' + _ + _ = (s.pushed ++ [r]).count r'
    rw [BuildQueue.waiting_push, List.count_append, List.count_singleton, ← before]
    simp only [beq_iff_eq]
    show _ + (if s.queue.processing.get? (s.requestId r') = some r' then 1 else 0) +
      s.completed.count r' = _
    omega

/-- A worker takes the request that is first in the queue. -/
theorem Conserved.take (h : Conserved s) {w : ℕ} {e : Entry} {rest : List Entry}
    (hqueue : s.queue.queue = e :: rest) :
    Conserved ({ s with
      queue :=
        { s.queue with
          queue := rest
          processing := s.queue.processing.set (s.requestId e.request) e.request }
      compiled := s.compiled ++ [e.request] }.setJob w (.compiling e.request)) := by
  have waiting (r : ℕ) : s.queue.waiting r
      = (rest.map Entry.request).count r + if e.request = r then 1 else 0 := by
    rw [BuildQueue.waiting, hqueue, List.map_cons, List.count_cons]
    simp only [beq_iff_eq]
  have single := h.places_le e.request
  have first := waiting e.request
  rw [if_pos rfl] at first
  have mem : e.request ∈ s.pushed := h.mem_pushed (by unfold Farm.places; omega)
  have free : s.queue.processing.get? (s.requestId e.request) ≠ some e.request := by
    intro building
    unfold Farm.places at single
    rw [if_pos building] at single
    omega
  have same_of_id {r : ℕ} (building : s.queue.processing.get? (s.requestId r) = some r)
      (same : s.requestId e.request = s.requestId r) : e.request = r :=
    h.distinct e.request mem r (mem_of_processing h building) same
  refine ⟨h.nodup, h.distinct, fun r => ?_, fun id r hget => ?_, fun w' r holds => ?_,
    fun w₁ w₂ r h₁ h₂ => ?_⟩
  · have before := h.places r
    unfold Farm.places at before
    rw [waiting r] at before
    show (rest.map Entry.request).count r +
      (if (s.queue.processing.set (s.requestId e.request) e.request).get? (s.requestId r) = some r
        then 1 else 0) + s.completed.count r = s.pushed.count r
    -- nothing with the id of a request that waits is built
    have moved := Dict.own_set s.requestId (fun r same building =>
      free ((same_of_id building same).symm ▸ building)) r
    omega
  · have hget' : (s.queue.processing.set (s.requestId e.request) e.request).get? id = some r := hget
    rw [Dict.get?_set] at hget'
    split_ifs at hget' with same
    · rw [← same, Option.some.inj hget']
      rfl
    · exact h.own id r hget'
  · rw [holds_setJob] at holds
    show (s.queue.processing.set (s.requestId e.request) e.request).get? (s.requestId r) = some r
    rw [Dict.get?_set]
    split_ifs at holds with this
    · rw [Option.some.inj holds, if_pos rfl]
    · have building : s.queue.processing.get? (s.requestId r) = some r := h.held w' r holds
      have other : s.requestId e.request ≠ s.requestId r := fun same =>
        free ((same_of_id building same).symm ▸ building)
      rw [if_neg other]
      exact building
  · rw [holds_setJob] at h₁ h₂
    have nobody (w' : ℕ) : ¬ s.Holds w' e.request := fun holds => free (h.held w' _ holds)
    split_ifs at h₁ h₂ with here here'
    · rw [here, here']
    · rw [← Option.some.inj h₁] at h₂
      exact absurd h₂ (nobody w₂)
    · rw [← Option.some.inj h₂] at h₁
      exact absurd h₁ (nobody w₁)
    · exact h.apart w₁ w₂ r h₁ h₂

/-- A worker's job ends: its request leaves the processing map for one other place. -/
theorem Conserved.returns (h : Conserved s) {w : ℕ} (holds : s.Holds w r)
    (hworkers : s'.workers = (s.setJob w .idle).workers)
    (hid : s'.requestId = s.requestId) (hpushed : s'.pushed = s.pushed)
    (hprocessing : s'.queue.processing = s.queue.processing.pop (s.requestId r))
    (hplace : ∀ r', s'.queue.waiting r' + s'.completed.count r'
      = s.queue.waiting r' + s.completed.count r' + if r = r' then 1 else 0) : Conserved s' := by
  have building := h.held w r holds
  have jobs (w' r' : ℕ) : s'.Holds w' r' ↔ w' ≠ w ∧ s.Holds w' r' := by
    have jobs : s'.Holds w' r' ↔ (s.setJob w .idle).Holds w' r' := by
      unfold Holds
      rw [hworkers]
    rw [jobs, holds_setJob]
    split_ifs with here
    · simp [here, Job.request?]
    · simp [here]
  refine ⟨hpushed ▸ h.nodup, ?_, fun r' => ?_, fun id r' hget => ?_, fun w' r' holds' => ?_,
    fun w₁ w₂ r' h₁ h₂ => ?_⟩
  · rw [hpushed, hid]
    exact h.distinct
  · have before := h.places r'
    have after := hplace r'
    unfold Farm.places at before ⊢
    have moved := Dict.own_pop s.requestId building r'
    rw [hpushed, hid, hprocessing]
    omega
  · rw [hprocessing] at hget
    rw [hid]
    exact h.own id r' (Dict.get?_of_get?_pop hget).1
  · obtain ⟨elsewhere, holds'⟩ := (jobs w' r').1 holds'
    have building' := h.held w' r' holds'
    rw [hid, hprocessing, Dict.get?_pop, if_neg]
    · exact building'
    · intro same
      rw [← same, building] at building'
      rw [← Option.some.inj building'] at holds'
      exact elsewhere (h.apart w' w r holds' holds)
  · exact h.apart w₁ w₂ r' ((jobs w₁ r').1 h₁).2 ((jobs w₂ r').1 h₂).2

theorem requestId_fail (s : Farm) (w r : ℕ) (now : ℚ) :
    (s.fail w r now).requestId = s.requestId := by
  funext r'
  show ((s.queue.fail (s.requestId r) now).requests r').requestId = _
  unfold BuildQueue.fail
  split
  · rfl
  · exact BuildQueue.requestId_demote _ _ _

theorem Conserved.fail (h : Conserved s) {w : ℕ} (holds : s.Holds w r) (now : ℚ) :
    Conserved (s.fail w r now) := by
  have building := h.held w r holds
  refine h.returns holds rfl (requestId_fail s w r now) rfl ?_ fun r' => ?_
  · show (s.queue.fail (s.requestId r) now).processing = _
    rw [BuildQueue.fail_of_get?_eq_some building]
    rfl
  · show (s.queue.fail (s.requestId r) now).waiting r' + s.completed.count r' = _
    rw [BuildQueue.waiting_fail, building, Option.toList_some, List.count_singleton]
    simp only [beq_iff_eq]
    omega

theorem Conserved.complete (h : Conserved s) {w : ℕ} (holds : s.Holds w r) (now : ℚ) :
    Conserved (s.complete w r now) := by
  refine h.returns holds rfl rfl rfl rfl fun r' => ?_
  show s.queue.waiting r' + (s.completed ++ [r]).count r' = _
  rw [List.count_append, List.count_singleton]
  simp only [beq_iff_eq]
  omega

/-- What changes neither the queue nor whose request a worker holds. -/
theorem Conserved.of_holds (h : Conserved s) {workers : ℕ → Worker} (now : ℚ)
    (jobs : ∀ w r, (workers w).job.request? = some r → s.Holds w r) :
    Conserved { s with workers := workers, now := now } where
  nodup := h.nodup
  distinct := h.distinct
  places := h.places
  own := h.own
  held w r holds := h.held w r (jobs w r holds)
  apart w w' r holds holds' := h.apart w w' r (jobs w r holds) (jobs w' r holds')

theorem Conserved.step {a : Act} (h : Conserved s) (fresh : Fresh s a) (hs : s.step a = some s') :
    Conserved s' := by
  cases moves_of_step hs with
  | push clock => exact h.push fresh
  | start => exact h.of_holds s.now fun w r holds => holds_setRunning.1 holds
  | stop => exact h.of_holds s.now fun w r holds => holds_setRunning.1 holds
  | sleeps => exact h
  | takes idle hqueue => exact h.take hqueue
  | @built w r outcome path now clock job success =>
    refine h.of_holds now fun w' r' holds => ?_
    have holds' : (s.setJob w (.scanning r path)).Holds w' r' := holds
    rw [holds_setJob] at holds'
    split_ifs at holds' with here
    · rw [here, holds_of_job job]
      exact holds'
    · exact holds'
  | compileFails clock job failure => exact h.fail ((holds_of_job job).2 rfl) _
  | scanFails clock job failure => exact h.fail ((holds_of_job job).2 rfl) _
  | publishes clock job success => exact h.complete ((holds_of_job job).2 rfl) _

/-- A failed job queues its request again. -/
structure Requeued (s s' : Farm) (r : ℕ) (now : ℚ) : Prop where
  queued : Entry.mk (min ((s.queue.requests r).priority + 1) 10) now r ∈ s'.queue.queue
  priority : (s'.queue.requests r).priority = min ((s.queue.requests r).priority + 1) 10

theorem Conserved.requeued (h : Conserved s) {w : ℕ} (holds : s.Holds w r) (now : ℚ) :
    Requeued s (s.fail w r now) r now :=
  have requeued := BuildQueue.mem_queue_fail (h.held w r holds) now
  ⟨requeued.1, requeued.2⟩

theorem Requeued.waiting_pos {now : ℚ} (h : Requeued s s' r now) : 0 < s'.queue.waiting r :=
  List.count_pos_iff.2 (List.mem_map_of_mem h.queued)

/-- A request that is queued or completed is not in the processing map. -/
theorem Conserved.not_processing (h : Conserved s) (hr : 0 < s.queue.waiting r ∨ r ∈ s.completed)
    (id : String) : s.queue.processing.get? id ≠ some r := by
  intro building
  have single := h.places_le r
  rw [h.own id r building] at building
  unfold Farm.places at single
  rw [if_pos building] at single
  rcases hr with waiting | mem
  · omega
  · have := List.count_pos_iff.2 mem
    omega

theorem Conserved.not_completed (h : Conserved s) (hr : 0 < s.queue.waiting r) :
    r ∉ s.completed := by
  intro mem
  have single := h.places_le r
  have := List.count_pos_iff.2 mem
  unfold Farm.places at single
  omega

/-- The scan that the worker waits for is clean, and signing succeeds. -/
def Publishes : Act → Prop
  | .scanned _ scan sign _ => published scan sign = true
  | _ => False

/-- Where a job for `r` ends: the request has left the processing map; it is completed when the scan
was clean and signing succeeded, and queued again otherwise. -/
def Returned (s s' : Farm) (a : Act) (r : ℕ) : Prop :=
  (∀ id, s'.queue.processing.get? id ≠ some r) ∧ (r ∈ s'.completed ↔ Publishes a) ∧
    (¬ Publishes a → ∃ now, Requeued s s' r now)

theorem Conserved.returned_of_fail (h : Conserved s) {w : ℕ} {now : ℚ} (holds : s.Holds w r)
    {a : Act} (failure : ¬ Publishes a) : Returned s (s.fail w r now) a r := by
  have h' := h.fail holds now
  have requeued := h.requeued holds now
  refine ⟨h'.not_processing (.inl requeued.waiting_pos), ?_, fun _ => ⟨now, requeued⟩⟩
  exact iff_of_false (h'.not_completed requeued.waiting_pos) failure

/-- The only steps in which a worker lets go of a request are the ends of its jobs. -/
theorem Conserved.returned (h : Conserved s) {a : Act} (hs : s.step a = some s') {w : ℕ}
    (before : s.Holds w r) (after : ¬ s'.Holds w r) : Returned s s' a r := by
  cases moves_of_step hs with
  | push clock => exact absurd before after
  | start => exact absurd (holds_setRunning.2 before) after
  | stop => exact absurd (holds_setRunning.2 before) after
  | sleeps => exact absurd before after
  | @takes w' e rest idle hqueue =>
    refine absurd (holds_setJob.2 ?_) after
    split_ifs with here
    · rw [here, holds_of_job idle] at before
      cases before
    · exact before
  | @built w' r' outcome path now clock job success =>
    refine absurd (holds_setJob.2 ?_) after
    split_ifs with here
    · rw [here, holds_of_job job] at before
      exact before
    · exact before
  | @compileFails w' r' outcome now clock job failure =>
    by_cases here : w = w'
    · rw [here, holds_of_job job] at before
      obtain rfl := Option.some.inj before
      exact h.returned_of_fail ((holds_of_job job).2 rfl) nofun
    · exact absurd (holds_setJob.2 (by rw [if_neg here]; exact before)) after
  | @scanFails w' r' path scan sign now clock job failure =>
    by_cases here : w = w'
    · rw [here, holds_of_job job] at before
      obtain rfl := Option.some.inj before
      exact h.returned_of_fail ((holds_of_job job).2 rfl) (Bool.eq_false_iff.1 failure)
    · exact absurd (holds_setJob.2 (by rw [if_neg here]; exact before)) after
  | @publishes w' r' path scan sign now clock job success =>
    by_cases here : w = w'
    · rw [here, holds_of_job job] at before
      obtain rfl := Option.some.inj before
      have mem : r' ∈ (s.complete w' r' now).completed :=
        List.mem_append_right _ (List.mem_singleton_self r')
      have h' := h.complete ((holds_of_job job).2 rfl) now
      exact ⟨h'.not_processing (.inr mem), iff_of_true mem success, fun not => absurd success not⟩
    · exact absurd (holds_setJob.2 (by rw [if_neg here]; exact before)) after

/-- Along every run in which the pushed requests have ids of their own, every pushed request is in
one place, and every job ends with its request completed or queued again. -/
theorem requests_conserved (requests : ℕ → BuildRequest) (start : ℚ) (acts : List Act) (s : Farm)
    (fresh : Machine.Along step Fresh (init requests start) acts)
    (ran : Machine.run step (init requests start) acts = some s) :
    (∀ r ∈ s.pushed, s.places r = 1) ∧
      (∀ id r, s.queue.processing.get? id = some r → id = s.requestId r) ∧
        ∀ a s' w r, s.step a = some s' → s.Holds w r → ¬ s'.Holds w r → Returned s s' a r := by
  have h : Conserved s := Machine.invariant_along (fun _ _ _ fresh h hs => h.step fresh hs)
    (conserved_init requests start) fresh ran
  refine ⟨fun r mem => ?_, h.own, fun a s' w r hs before after => h.returned hs before after⟩
  have := List.count_pos_iff.2 mem
  have single := h.places_le r
  rw [h.places r] at single ⊢
  omega

/-- Two requests and one worker; the first wheel is signed, the second compilation fails. -/
def twoBuilds : List Act :=
  [.start 0, .push 0 1, .push 1 1, .poll 0,
    .compiled 0 (.ok ⟨true, some "numpy.whl", ""⟩) 2, .scanned 0 (.ok ⟨true, []⟩) (.ok "c2ln") 3,
    .poll 0, .compiled 0 (.ok ⟨false, none, "no compiler"⟩) 4]

theorem requests_conserved_two_builds :
    ∃ s, Machine.run step (init numpy 0) twoBuilds = some s ∧ s.completed = [0] ∧
      ∀ r ∈ s.pushed, s.places r = 1 := by
  have other : ∀ r' ∈ [0], (numpy r').requestId ≠ (numpy 1).requestId := by decide +kernel
  have fresh : Machine.Along step Fresh (init numpy 0) twoBuilds :=
    .cons trivial rfl <| .cons nofun rfl <| .cons other rfl <| .cons trivial rfl <|
      .cons trivial rfl <| .cons trivial rfl <| .cons trivial rfl <| .cons trivial rfl trivial
  exact ⟨_, rfl, by decide +kernel, (requests_conserved numpy 0 twoBuilds _ fresh rfl).1⟩

end Farm

end Builder

end Cpip
