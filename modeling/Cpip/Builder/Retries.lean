import Mathlib.Algebra.BigOperators.Group.Finset.Basic
import Mathlib.Algebra.Order.BigOperators.Group.Finset
import Cpip.Builder.Worker

/-!
# Retries of a build

`BUILD_MAX_RETRIES` is nowhere read: `fail` queues a request again however often it has failed.  A
compilation uses up one entry of the queue, and an entry comes from a push or from a failure, so the
bound on the compilations of a request is the bound on its entries.
-/

namespace Cpip

namespace Builder

/-- `BUILD_MAX_RETRIES` of `shared/constants.py`. -/
def buildMaxRetries : ℕ := 3

namespace Farm

/-- The request that an act puts into the queue: one that is pushed, or one that a failure puts
back. -/
def queuedBy (s : Farm) : Act → Option ℕ
  | .push r _ => some r
  | .compiled w outcome _ =>
    match (s.workers w).job with
    | .compiling r =>
      if wheel? outcome = none then s.queue.processing.get? (s.requestId r) else none
    | _ => none
  | .scanned w scan sign _ =>
    match (s.workers w).job with
    | .scanning r _ =>
      if published scan sign then none else s.queue.processing.get? (s.requestId r)
    | _ => none
  | _ => none

/-- How often the request was pushed, or put back by a failure. -/
def entries (s : Farm) (r : ℕ) : ℕ := s.pushed.count r + s.requeued.count r

/-- A request that is put into the queue was put there no more often than there are retries. -/
def Spare (s : Farm) (a : Act) : Prop :=
  ∀ r, s.queuedBy a = some r → s.entries r ≤ buildMaxRetries

/-- No request was compiled more often than once and the retries, and none that was waits for yet
another compilation. -/
def Bounded (s : Farm) : Prop :=
  ∀ r, s.compiled.count r + s.queue.waiting r ≤ 1 + buildMaxRetries

/-- Every compilation uses up an entry of the queue. -/
def Balanced (s : Farm) : Prop := ∀ r, s.compiled.count r + s.queue.waiting r = s.entries r

theorem balanced_init (requests : ℕ → BuildRequest) (now : ℚ) : Balanced (init requests now) :=
  fun _ => rfl

variable {s s' : Farm}

/-- What a step adds to the entries of a request. -/
theorem entries_step {a : Act} (hs : s.step a = some s') (r : ℕ) :
    s'.entries r = s.entries r + (s.queuedBy a).toList.count r := by
  cases moves_of_step hs with
  | @push r' now clock =>
    show (s.pushed ++ [r']).count r + s.requeued.count r = _
    rw [List.count_append, queuedBy, Option.toList_some, entries]
    omega
  | start => rfl
  | stop => rfl
  | sleeps => rfl
  | takes idle hqueue => rfl
  | built clock job success =>
    rw [queuedBy, job]
    simp [success]
    rfl
  | compileFails clock job failure =>
    rw [queuedBy, job]
    simp only [failure, if_true]
    show s.pushed.count r + (s.requeued ++ _).count r = _
    rw [List.count_append, entries]
    omega
  | scanFails clock job failure =>
    rw [queuedBy, job]
    simp only [failure]
    show s.pushed.count r + (s.requeued ++ _).count r = _
    rw [List.count_append, entries]
    simp
    omega
  | publishes clock job success =>
    rw [queuedBy, job]
    simp [success]
    rfl

theorem Balanced.fail (h : Balanced s) (w r : ℕ) (now : ℚ) : Balanced (s.fail w r now) := by
  intro r'
  have before := h r'
  show s.compiled.count r' + (s.queue.fail (s.requestId r) now).waiting r'
    = s.pushed.count r' + (s.requeued ++ _).count r'
  rw [BuildQueue.waiting_fail, List.count_append]
  unfold entries at before
  omega

theorem Balanced.step {a : Act} (h : Balanced s) (hs : s.step a = some s') : Balanced s' := by
  cases moves_of_step hs with
  | @push r now clock =>
    intro r'
    have before := h r'
    show s.compiled.count r' + (s.queue.push r now).waiting r'
      = (s.pushed ++ [r]).count r' + s.requeued.count r'
    rw [BuildQueue.waiting_push, List.count_append, List.count_singleton]
    simp only [beq_iff_eq]
    unfold entries at before
    omega
  | start => exact h
  | stop => exact h
  | sleeps => exact h
  | @takes w e rest idle hqueue =>
    intro r
    have before := h r
    rw [BuildQueue.waiting, hqueue, List.map_cons, List.count_cons] at before
    show (s.compiled ++ [e.request]).count r + (rest.map Entry.request).count r = s.entries r
    rw [List.count_append, List.count_singleton]
    omega
  | built clock job success => exact h
  | compileFails clock job failure => exact h.fail _ _ _
  | scanFails clock job failure => exact h.fail _ _ _
  | publishes clock job success => exact h

theorem bounded_iff (h : Balanced s) : Bounded s ↔ ∀ r, s.entries r ≤ 1 + buildMaxRetries :=
  forall_congr' fun r => by rw [h r]

/-- A step that has a retry to spare keeps the bound. -/
theorem bounded_step {a : Act} (balanced : Balanced s) (bounded : Bounded s) (spare : s.Spare a)
    (hs : s.step a = some s') : Bounded s' := by
  rw [bounded_iff (balanced.step hs)]
  rw [bounded_iff balanced] at bounded
  intro r
  rw [entries_step hs]
  cases hq : s.queuedBy a with
  | none => simpa using bounded r
  | some r' =>
    rw [Option.toList_some, List.count_singleton]
    split_ifs with same
    · have := spare r' hq
      rw [beq_iff_eq.1 same] at this
      omega
    · have := bounded r
      omega

theorem spare_of_bounded {a : Act} (balanced : Balanced s) (hs : s.step a = some s')
    (bounded : Bounded s') : s.Spare a := by
  intro r hq
  have after := (bounded_iff (balanced.step hs)).1 bounded r
  rw [entries_step hs, hq, Option.toList_some, List.count_singleton_self] at after
  omega

/-- What is compiled or put back was pushed. -/
structure Pushed (s : Farm) : Prop where
  processing : ∀ id r, s.queue.processing.get? id = some r → r ∈ s.pushed
  requeued : ∀ r ∈ s.requeued, r ∈ s.pushed

theorem pushed_init (requests : ℕ → BuildRequest) (now : ℚ) : Pushed (init requests now) where
  processing _ _ h := by cases h
  requeued := nofun

/-- What is in the queue was pushed. -/
theorem Pushed.mem_of_entries (h : Pushed s) {r : ℕ} (hr : 0 < s.entries r) : r ∈ s.pushed := by
  unfold entries at hr
  rcases Nat.eq_zero_or_pos (s.pushed.count r) with none | some
  · exact h.requeued r (List.count_pos_iff.1 (by omega))
  · exact List.count_pos_iff.1 some

theorem Pushed.fail (h : Pushed s) (w r : ℕ) (now : ℚ) : Pushed (s.fail w r now) where
  processing id r' hget := by
    have hget' : (s.queue.fail (s.requestId r) now).processing.get? id = some r' := hget
    unfold BuildQueue.fail at hget'
    split at hget'
    · exact h.processing id r' hget'
    · exact h.processing id r' (Dict.get?_of_get?_pop hget').1
  requeued r' hr' := by
    rcases List.mem_append.1 hr' with hr' | hr'
    · exact h.requeued r' hr'
    · exact h.processing _ r' (Option.mem_toList.1 hr')

theorem Pushed.step {a : Act} (balanced : Balanced s) (h : Pushed s) (hs : s.step a = some s') :
    Pushed s' := by
  cases moves_of_step hs with
  | push clock =>
    exact ⟨fun id r hget => List.mem_append_left _ (h.processing id r hget),
      fun r hr => List.mem_append_left _ (h.requeued r hr)⟩
  | start => exact ⟨h.processing, h.requeued⟩
  | stop => exact ⟨h.processing, h.requeued⟩
  | sleeps => exact h
  | @takes w e rest idle hqueue =>
    refine ⟨fun id r hget => ?_, h.requeued⟩
    have hget' : (s.queue.processing.set (s.requestId e.request) e.request).get? id = some r := hget
    rw [Dict.get?_set] at hget'
    split_ifs at hget' with same
    · obtain rfl := Option.some.inj hget'
      refine h.mem_of_entries ?_
      rw [← balanced e.request, BuildQueue.waiting, hqueue, List.map_cons, List.count_cons_self]
      omega
    · exact h.processing id r hget'
  | built clock job success => exact ⟨h.processing, h.requeued⟩
  | compileFails clock job failure => exact h.fail _ _ _
  | scanFails clock job failure => exact h.fail _ _ _
  | publishes clock job success =>
    exact ⟨fun id r hget => h.processing id r (Dict.get?_of_get?_pop hget).1, h.requeued⟩

/-- With the bound for each request, all compilations together are bounded by the pushes. -/
theorem length_compiled_le (balanced : Balanced s) (h : Pushed s) (bounded : Bounded s) :
    s.compiled.length ≤ (1 + buildMaxRetries) * s.pushed.length := by
  have mem : ∀ r ∈ (s.compiled : Multiset ℕ), r ∈ s.pushed.toFinset := by
    intro r hr
    have compiled := List.count_pos_iff.2 (Multiset.mem_coe.1 hr)
    have := balanced r
    exact List.mem_toFinset.2 (h.mem_of_entries (by omega))
  have total := Multiset.sum_count_eq_card mem
  rw [Multiset.coe_card] at total
  calc s.compiled.length = ∑ r ∈ s.pushed.toFinset, Multiset.count r s.compiled := total.symm
    _ ≤ ∑ _r ∈ s.pushed.toFinset, (1 + buildMaxRetries) := by
        refine Finset.sum_le_sum fun r _ => ?_
        have := bounded r
        rw [Multiset.coe_count]
        omega
    _ = s.pushed.toFinset.card * (1 + buildMaxRetries) := Finset.sum_const_nat fun _ _ => rfl
    _ ≤ s.pushed.length * (1 + buildMaxRetries) :=
        Nat.mul_le_mul_right _ (List.toFinset_card_le _)
    _ = (1 + buildMaxRetries) * s.pushed.length := Nat.mul_comm _ _

/-- No request is compiled more often than once and the retries exactly along the runs in which no
request is put into the queue more often than that, and then the compilations are bounded by the
pushes. -/
theorem compilations_bounded_iff (requests : ℕ → BuildRequest) (start : ℚ) (acts : List Act)
    (s : Farm) (ran : Machine.run step (init requests start) acts = some s) :
    (Machine.Along step Spare (init requests start) acts ↔
        Machine.Throughout step Bounded (init requests start) acts) ∧
      (Machine.Along step Spare (init requests start) acts →
        s.compiled.length ≤ (1 + buildMaxRetries) * s.pushed.length) := by
  have along : Machine.Along step Spare (init requests start) acts ↔
      Machine.Throughout step Bounded (init requests start) acts :=
    Machine.along_iff_throughout (I := fun s => Balanced s ∧ Bounded s) (fun _ h => h.2)
      (fun _ _ _ spare h hs => ⟨h.1.step hs, bounded_step h.1 h.2 spare hs⟩)
      (fun _ _ _ h hs bounded => spare_of_bounded h.1 hs bounded)
      ⟨balanced_init requests start, fun _ => Nat.zero_le _⟩ ran
  refine ⟨along, fun spare => ?_⟩
  have h : Balanced s ∧ Pushed s :=
    Machine.invariant_run (I := fun s => Balanced s ∧ Pushed s)
      (fun _ _ _ h hs => ⟨h.1.step hs, h.2.step h.1 hs⟩)
      ⟨balanced_init requests start, pushed_init requests start⟩ ran
  exact length_compiled_le h.1 h.2 ((along.1 spare).last ran)

/-- A build that fails twice, and then succeeds. -/
def thirdTime : List Act :=
  [.start 0, .push 0 1, .poll 0, .compiled 0 (.ok ⟨false, none, "no compiler"⟩) 2, .poll 0,
    .compiled 0 (.error (.other "docker")) 3, .poll 0,
    .compiled 0 (.ok ⟨true, some "numpy.whl", ""⟩) 4, .scanned 0 (.ok ⟨true, []⟩) (.ok "c2ln") 5]

theorem compilations_bounded_iff_third_time :
    ∃ s, Machine.run step (init numpy 0) thirdTime = some s ∧ s.compiled = [0, 0, 0] ∧
      (Machine.Along step Spare (init numpy 0) thirdTime ↔
        Machine.Throughout step Bounded (init numpy 0) thirdTime) :=
  ⟨_, rfl, by decide +kernel, (compilations_bounded_iff numpy 0 thirdTime _ rfl).1⟩

/-! ## A build that always fails -/

/-- The compiler fails. -/
def failure : Except PyExc CompileResult := .ok ⟨false, none, "no compiler"⟩

/-- One turn of the loop for a build that fails. -/
def failedTurn : List Act := [.poll 0, .compiled 0 failure 0]

theorem fifth_compilation :
    ∃ s, Machine.run step (init numpy 0)
        ([.start 0, .push 0 0] ++ (List.replicate 5 failedTurn).flatten) = some s ∧
      s.pushed = [0] ∧ 1 + buildMaxRetries < s.compiled.count 0 :=
  ⟨_, rfl, by decide +kernel, by decide +kernel⟩

/-- The worker is idle, and one request waits. -/
structure Ready (s : Farm) : Prop where
  queue : ∃ e, s.queue.queue = [e]
  worker : s.workers 0 = ⟨true, .idle⟩
  now : s.now = 0

theorem Ready.turn (h : Ready s) : ∃ s', Machine.run step s failedTurn = some s' ∧ Ready s' ∧
    s'.pushed = s.pushed ∧ s'.compiled.length = s.compiled.length + 1 := by
  obtain ⟨e, hqueue⟩ := h.queue
  obtain ⟨taken, htaken⟩ : ∃ taken : Farm, taken = { s with
      queue :=
        { s.queue with
          queue := []
          processing := s.queue.processing.set (s.requestId e.request) e.request }
      compiled := s.compiled ++ [e.request] }.setJob 0 (.compiling e.request) := ⟨_, rfl⟩
  have poll : s.step (.poll 0) = some taken := by
    have idle : (s.workers 0).running = true ∧ (s.workers 0).job = .idle := by simp [h.worker]
    rw [step, if_pos idle, htaken, Farm.poll, BuildQueue.pop, hqueue]
    rfl
  have worker : taken.workers 0 = ⟨true, .compiling e.request⟩ := by
    rw [htaken, setJob]
    simp [h.worker]
  have compile : taken.step (.compiled 0 failure 0) = some (taken.fail 0 e.request 0) := by
    have clock : taken.now ≤ 0 := by rw [htaken]; exact h.now.le
    rw [step, if_pos clock, worker]
    rfl
  have building : taken.queue.processing.get? (taken.requestId e.request) = some e.request := by
    rw [htaken]
    exact Dict.get?_set_self ..
  have queue : ∃ e', (taken.fail 0 e.request 0).queue.queue = [e'] := by
    have empty : taken.queue.queue = [] := by rw [htaken]; rfl
    show ∃ e', (taken.queue.fail (taken.requestId e.request) 0).queue = [e']
    rw [BuildQueue.fail_of_get?_eq_some building, BuildQueue.push, BuildQueue.release, empty]
    exact ⟨_, rfl⟩
  refine ⟨taken.fail 0 e.request 0, ?_, ⟨queue, ?_, rfl⟩, ?_, ?_⟩
  · exact (Machine.run_cons_eq_some step).2
      ⟨taken, poll, (Machine.run_cons_eq_some step).2 ⟨_, compile, rfl⟩⟩
  · rw [Farm.fail, setJob]
    simp [worker]
  · rw [htaken]
    rfl
  · rw [htaken]
    exact List.length_append

/-- One push, and as many compilations as one likes. -/
theorem compilations_unbounded (n : ℕ) : ∃ acts s, Machine.run step (init numpy 0) acts = some s ∧
    s.pushed = [0] ∧ s.compiled.length = n := by
  suffices h : ∃ acts s, Machine.run step (init numpy 0) acts = some s ∧ Ready s ∧
      s.pushed = [0] ∧ s.compiled.length = n by
    obtain ⟨acts, s, ran, -, rest⟩ := h
    exact ⟨acts, s, ran, rest⟩
  induction n with
  | zero => exact ⟨[.start 0, .push 0 0], _, rfl, ⟨⟨_, rfl⟩, rfl, rfl⟩, rfl, rfl⟩
  | succ n ih =>
    obtain ⟨acts, s, ran, ready, pushed, compiled⟩ := ih
    obtain ⟨s', turn, ready', pushed', compiled'⟩ := ready.turn
    refine ⟨acts ++ failedTurn, s', ?_, ready', pushed'.trans pushed, ?_⟩
    · rw [Machine.run_append, ran]
      exact turn
    · rw [compiled', compiled]

end Farm

end Builder

end Cpip
