import Cpip.Executor.Containers

/-!
# How many containers are idle

Both `release` and `warmup` add to the available containers; only `release` looks at how many there
are.
-/

namespace Cpip

namespace ContainerPool

namespace State

/-- There are no more idle containers than the pool is for. -/
def Bounded (s : State) : Prop := (s.pool.available.length : ℤ) ≤ s.pool.poolSize

instance : DecidablePred Bounded := fun s =>
  inferInstanceAs (Decidable ((s.pool.available.length : ℤ) ≤ s.pool.poolSize))

/-- A release of a container in use, beyond the bound, destroys it and keeps the idle ones. -/
def Destroys (s : State) : Act → Prop
  | .release user id => ∀ c, s.pool.inUse.get? id = some c →
    s.pool.poolSize ≤ s.pool.available.length →
      (s.release user id).destroyed = s.destroyed ++ [c] ∧
        (s.release user id).pool.available = s.pool.available
  | _ => True

/-- A container that was created for a `warmup` is added where there is room for it. -/
def Room (s : State) : Act → Prop
  | .created i _ => ∀ creation, s.creating[i]? = some creation → creation.user? = none →
    (s.pool.available.length : ℤ) < s.pool.poolSize
  | _ => True

variable {s s' : State}

theorem destroys (s : State) (a : Act) : Destroys s a := by
  cases a with
  | release user id =>
    intro c inUse full
    unfold release ContainerPool.release
    rw [inUse]
    dsimp only
    rw [if_neg (not_lt.2 full)]
    exact ⟨rfl, rfl⟩
  | acquire | warmup | created => trivial

theorem bounded_release (bounded : Bounded s) (user : ℕ) (id : String) :
    Bounded (s.release user id) := by
  unfold Bounded at bounded ⊢
  unfold release ContainerPool.release
  split
  · exact bounded
  · split_ifs with room
    · simp only [List.length_append, List.length_singleton, Nat.cast_add, Nat.cast_one]
      omega
    · exact bounded

/-- Where a creation is done, an idle container is added unless a user waits for it. -/
theorem bounded_finish_iff {i : ℕ} {creation : Creation} {name : String} (bounded : Bounded s) :
    Bounded (s.finish i creation name) ↔
      (creation.user? = none → (s.pool.available.length : ℤ) < s.pool.poolSize) := by
  unfold Bounded at bounded ⊢
  rw [finish_eq]
  cases creation.user? with
  | some user => exact iff_of_true bounded nofun
  | none =>
    show ((s.pool.available ++ [_]).length : ℤ) ≤ s.pool.poolSize ↔ _
    simp only [List.length_append, List.length_singleton, Nat.cast_add, Nat.cast_one, true_imp_iff]
    omega

/-- A step keeps the bound exactly where there is room. -/
theorem bounded_step_iff {a : Act} (bounded : Bounded s) (hs : s.step a = some s') :
    Bounded s' ↔ Room s a := by
  unfold step at hs
  cases a with
  | acquire user image gpu =>
    dsimp only at hs
    split at hs
    · next c rest taken =>
      obtain rfl := Option.some.inj hs
      obtain ⟨-, -, perm⟩ := perm_of_takeMatching taken
      have length := perm.length_eq
      refine iff_of_true ?_ trivial
      show (rest.length : ℤ) ≤ s.pool.poolSize
      unfold Bounded at bounded
      rw [length, List.length_cons] at bounded
      omega
    · obtain rfl := Option.some.inj hs
      exact iff_of_true bounded trivial
  | warmup =>
    obtain rfl := Option.some.inj hs
    exact iff_of_true bounded trivial
  | created i name =>
    dsimp only at hs
    split at hs
    · cases hs
    · next creation waiting =>
      split_ifs at hs
      obtain rfl := Option.some.inj hs
      rw [bounded_finish_iff bounded]
      refine ⟨fun room creation' same => ?_, fun room => room creation waiting⟩
      obtain rfl := Option.some.inj (waiting.symm.trans same)
      exact room
  | release user id =>
    obtain rfl := Option.some.inj hs
    exact iff_of_true (bounded_release bounded user id) trivial

/-- The bound holds throughout a run, and releases beyond it destroy, exactly if each container of a
`warmup` found room in a pool that is not of negative size. -/
theorem idle_bounded_iff (poolSize : ℤ) (acts : List Act) (s : State)
    (ran : Machine.run step (init poolSize) acts = some s) :
    Machine.Throughout step Bounded (init poolSize) acts ∧
        Machine.Along step Destroys (init poolSize) acts ↔
      0 ≤ poolSize ∧ Machine.Along step Room (init poolSize) acts := by
  have destroyed : Machine.Along step Destroys (init poolSize) acts :=
    Machine.along_of_forall (fun a _ s => destroys s a) _
  have along (start : Bounded (init poolSize)) :
      Machine.Along step Room (init poolSize) acts ↔
        Machine.Throughout step Bounded (init poolSize) acts :=
    Machine.along_iff_throughout (fun _ => id)
      (fun _ _ _ room bounded hs => (bounded_step_iff bounded hs).2 room)
      (fun _ _ _ bounded hs => (bounded_step_iff bounded hs).1) start ran
  constructor
  · rintro ⟨throughout, -⟩
    have start := throughout.head
    exact ⟨start, (along start).2 throughout⟩
  · rintro ⟨start, room⟩
    exact ⟨(along start).1 room, destroyed⟩

/-- One `warmup`, whose container is created. -/
def warmedUp (name : String) : List Act := [.warmup, .created 0 name]

/-- Two calls of `warmup` fill a pool of two; three users take a container each, and the last one
that is released is destroyed. -/
def filling : List Act :=
  warmedUp "a" ++ warmedUp "b" ++
    [.acquire 1 "python:3.11-slim" false, .acquire 2 "python:3.11-slim" false,
      .acquire 3 "python:3.11-slim" false, .created 0 "c", .release 1 "a", .release 2 "b",
      .release 3 "c"]

theorem idle_bounded_iff_filling : ∃ s, Machine.run step (init 2) filling = some s ∧
    s.pool.available.length = 2 ∧ s.destroyed.map Container.id = ["c"] ∧
    (Machine.Throughout step Bounded (init 2) filling ∧
        Machine.Along step Destroys (init 2) filling ↔
      (0 : ℤ) ≤ 2 ∧ Machine.Along step Room (init 2) filling) :=
  ⟨_, rfl, rfl, rfl, idle_bounded_iff 2 filling _ rfl⟩

/-- Six calls of `warmup` leave six idle containers in a pool of five. -/
theorem warmups_exceed : ¬ ∀ (poolSize : ℤ) (acts : List Act), 0 ≤ poolSize →
    ∀ s, Machine.run step (init poolSize) acts = some s →
      Machine.Throughout step Bounded (init poolSize) acts := by
  intro claim
  have six : (Machine.run step (init 5) (["a", "b", "c", "d", "e", "f"].flatMap warmedUp)).map
      (fun s => decide (Bounded s)) = some false := by decide +kernel
  obtain ⟨s, ran, exceeds⟩ := Option.map_eq_some_iff.1 six
  exact of_decide_eq_false exceeds ((claim 5 _ (by decide) s ran).last ran)

end State

end ContainerPool

end Cpip
