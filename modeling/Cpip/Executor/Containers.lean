import Mathlib.Algebra.Order.Ring.Int
import Mathlib.Data.List.Nodup
import Mathlib.Data.List.Perm.Basic
import Cpip.Lib.Dict
import Cpip.Lib.Machine

/-!
# The container pool (`executor/container.py`)

A container is available, or in use under its id, or given up.  The pool does not know who holds a
container: a release is for an id, so a user who releases a container a second time may release it
for the user who holds it by then.
-/

namespace Cpip

structure Container where
  id : String
  name : String
  image : String
  status : String
  gpu : Bool
  deriving DecidableEq, Repr

/-- `ContainerPool`. -/
structure ContainerPool where
  poolSize : ℤ
  available : List Container
  inUse : Dict String Container

namespace ContainerPool

def init (poolSize : ℤ) : ContainerPool := ⟨poolSize, [], ∅⟩

/-- The first available container with the image and the flag, and the others. -/
def takeMatching (image : String) (gpu : Bool) :
    List Container → Option (Container × List Container)
  | [] => none
  | c :: rest =>
    if c.image = image ∧ c.gpu = gpu then some (c, rest)
    else (takeMatching image gpu rest).map fun found => (found.1, c :: found.2)

/-- `_create`, for a generated name. -/
def create (name image : String) (gpu : Bool) : Container := ⟨name, name, image, "running", gpu⟩

/-- `self._in_use[container.id] = container`. -/
def use (q : ContainerPool) (c : Container) : ContainerPool :=
  { q with inUse := q.inUse.set c.id c }

/-- `release`, and the container that is to be destroyed. -/
def release (q : ContainerPool) (containerId : String) : ContainerPool × Option Container :=
  match q.inUse.get? containerId with
  | none => (q, none)
  | some c =>
    if (q.available.length : ℤ) < q.poolSize then
      ({ q with available := q.available ++ [c], inUse := q.inUse.pop containerId }, none)
    else ({ q with inUse := q.inUse.pop containerId }, some c)

/-- `images[:self.pool_size]` of `warmup`. -/
def warmupImages (poolSize : ℤ) : List String :=
  let images := ["python:3.11-slim"]
  images.take (if 0 ≤ poolSize then poolSize else images.length + poolSize).toNat

/-! ## Runs -/

/-- A creation that is awaited: for the user whose `acquire` found nothing, or in a `warmup`, which
has more images to go. -/
structure Creation where
  image : String
  gpu : Bool
  user? : Option ℕ
  rest : List String

/-- What `acquire` returned to a user. -/
structure Grant where
  user : ℕ
  image : String
  gpu : Bool
  container : Container

/-- A pool, with the creations that are awaited, who holds which container, the containers that were
created and those whose destruction has begun, the ids in use that were released, and what `acquire`
returned. -/
structure State where
  pool : ContainerPool
  creating : List Creation
  held : List (ℕ × String)
  created : List Container
  destroyed : List Container
  released : List String
  granted : List Grant

def State.init (poolSize : ℤ) : State := ⟨.init poolSize, [], [], [], [], [], []⟩

/-- What happens between two awaits.  The name of a created container is generated. -/
inductive Act where
  | acquire (user : ℕ) (image : String) (gpu : Bool)
  | warmup
  | created (i : ℕ) (name : String)
  | release (user : ℕ) (containerId : String)

namespace State

/-- `acquire` returns a container to a user. -/
def grant (s : State) (user : ℕ) (image : String) (gpu : Bool) (c : Container) : State :=
  { s with
    pool := s.pool.use c
    held := s.held ++ [(user, c.id)]
    granted := s.granted ++ [⟨user, image, gpu, c⟩] }

/-- The next image of a `warmup`. -/
def warm (images : List String) : List Creation :=
  match images with
  | [] => []
  | image :: rest => [⟨image, false, none, rest⟩]

/-- A creation is done. -/
def finish (s : State) (i : ℕ) (creation : Creation) (name : String) : State :=
  let c := create name creation.image creation.gpu
  let s :=
    { s with
      creating := s.creating.eraseIdx i ++ warm creation.rest
      created := s.created ++ [c] }
  match creation.user? with
  | some user => s.grant user creation.image creation.gpu c
  | none => { s with pool := { s.pool with available := s.pool.available ++ [c] } }

def release (s : State) (user : ℕ) (containerId : String) : State :=
  let after := s.pool.release containerId
  { s with
    pool := after.1
    held := s.held.erase (user, containerId)
    destroyed := s.destroyed ++ after.2.toList
    released := s.released ++ (s.pool.inUse.get? containerId).toList.map Container.id }

/-- One act; generated names are distinct. -/
def step (s : State) : Act → Option State
  | .acquire user image gpu =>
    match takeMatching image gpu s.pool.available with
    | some (c, rest) =>
      some ({ s with pool := { s.pool with available := rest } }.grant user image gpu c)
    | none => some { s with creating := s.creating ++ [⟨image, gpu, some user, []⟩] }
  | .warmup => some { s with creating := s.creating ++ warm (warmupImages s.pool.poolSize) }
  | .created i name =>
    match s.creating[i]? with
    | none => none
    | some creation =>
      if name ∈ s.created.map Container.id then none else some (s.finish i creation name)
  | .release user containerId => some (s.release user containerId)

end State

theorem perm_of_takeMatching {image : String} {gpu : Bool} {l rest : List Container} {c : Container}
    (h : takeMatching image gpu l = some (c, rest)) :
    c.image = image ∧ c.gpu = gpu ∧ l.Perm (c :: rest) := by
  induction l generalizing rest with
  | nil => cases h
  | cons d l ih =>
    unfold takeMatching at h
    split_ifs at h with found
    · obtain ⟨rfl, rfl⟩ := Prod.mk.inj (Option.some.inj h)
      exact ⟨found.1, found.2, .refl _⟩
    · obtain ⟨⟨c', rest'⟩, hrest, heq⟩ := Option.map_eq_some_iff.1 h
      obtain ⟨rfl, rfl⟩ := Prod.mk.inj heq
      obtain ⟨image, gpu, perm⟩ := ih hrest
      exact ⟨image, gpu, (perm.cons d).trans (.swap _ _ _)⟩

/-! ## Every container is in one place -/

namespace State

/-- In how many places a container is. -/
def places (s : State) (c : Container) : ℕ :=
  s.pool.available.count c + (if s.pool.inUse.get? c.id = some c then 1 else 0) +
    s.destroyed.count c

structure Kept (s : State) : Prop where
  names : (s.created.map Container.id).Nodup
  places : ∀ c, s.places c = s.created.count c
  own : ∀ id c, s.pool.inUse.get? id = some c → c.id = id
  granted : ∀ g ∈ s.granted, g.container.image = g.image ∧ g.container.gpu = g.gpu
  released : ∀ c ∈ s.destroyed, c.id ∈ s.released

theorem kept_init (poolSize : ℤ) : Kept (init poolSize) where
  names := List.nodup_nil
  places _ := rfl
  own _ _ h := by cases h
  granted := nofun
  released := nofun

variable {s s' : State} {c c' : Container}

theorem Kept.mem_created (h : Kept s) (hc : 0 < s.places c) : c ∈ s.created :=
  List.count_pos_iff.1 (h.places c ▸ hc)

theorem Kept.places_le (h : Kept s) (c : Container) : s.places c ≤ 1 :=
  h.places c ▸ List.nodup_iff_count_le_one.1 h.names.of_map c

theorem Kept.mem_of_inUse (h : Kept s) {id : String} (hc : s.pool.inUse.get? id = some c) :
    c ∈ s.created := by
  have own : s.pool.inUse.get? c.id = some c := h.own id c hc ▸ hc
  exact h.mem_created (by rw [State.places, if_pos own]; omega)

/-- Two containers with one id are one container. -/
theorem Kept.eq_of_id (h : Kept s) (hc : c ∈ s.created) (hc' : c' ∈ s.created)
    (same : c.id = c'.id) : c = c' := List.inj_on_of_nodup_map h.names hc hc' same

/-- A container that is available or given up is not in use. -/
theorem Kept.not_inUse (h : Kept s) (hc : c ∈ s.pool.available ∨ c ∈ s.destroyed) :
    s.pool.inUse.get? c.id = none := by
  cases hget : s.pool.inUse.get? c.id with
  | none => rfl
  | some c' =>
    have single := h.places_le c
    have pos : 0 < s.pool.available.count c + s.destroyed.count c := by
      rcases hc with hc | hc
      · have := List.count_pos_iff.2 hc
        omega
      · have := List.count_pos_iff.2 hc
        omega
    have mem : c ∈ s.created := h.mem_created (by unfold State.places; omega)
    rw [h.eq_of_id (h.mem_of_inUse hget) mem (h.own _ _ hget)] at hget
    unfold State.places at single
    rw [if_pos hget] at single
    omega

/-- A container that was created is available first. -/
def add (s : State) (c : Container) : State :=
  { s with
    pool := { s.pool with available := s.pool.available ++ [c] }
    created := s.created ++ [c] }

/-- `acquire` takes an available container. -/
def take (s : State) (rest : List Container) (user : ℕ) (image : String) (gpu : Bool)
    (c : Container) : State :=
  { s with pool := { s.pool with available := rest } }.grant user image gpu c

/-- A new container for a user is as good as one that was available and is taken at once. -/
theorem finish_eq (s : State) (i : ℕ) (creation : Creation) (name : String) :
    s.finish i creation name =
      let c := create name creation.image creation.gpu
      let s' := { s with creating := s.creating.eraseIdx i ++ warm creation.rest }.add c
      match creation.user? with
      | some user => s'.take s.pool.available user creation.image creation.gpu c
      | none => s' := by
  unfold finish
  dsimp only
  split <;> rfl

theorem Kept.creating (h : Kept s) (creating : List Creation) :
    Kept { s with creating := creating } :=
  ⟨h.names, h.places, h.own, h.granted, h.released⟩

theorem Kept.add (h : Kept s) (new : c.id ∉ s.created.map Container.id) : Kept (s.add c) where
  names := by
    show ((s.created ++ [c]).map Container.id).Nodup
    rw [List.map_append]
    exact h.names.append (List.nodup_singleton _) (List.disjoint_singleton.2 new)
  places d := by
    have before := h.places d
    unfold State.places at before ⊢
    show (s.pool.available ++ [c]).count d + (if s.pool.inUse.get? d.id = some d then 1 else 0) +
      s.destroyed.count d = (s.created ++ [c]).count d
    rw [List.count_append, List.count_append]
    omega
  own := h.own
  granted := h.granted
  released := h.released

theorem Kept.take (h : Kept s) {rest : List Container} (perm : s.pool.available.Perm (c :: rest))
    (user : ℕ) : Kept (s.take rest user c.image c.gpu c) where
  names := h.names
  places d := by
    have mem : c ∈ s.pool.available := perm.mem_iff.2 (List.mem_cons_self ..)
    have free := h.not_inUse (.inl mem)
    have before := h.places d
    unfold State.places at before ⊢
    have taken := perm.count_eq d
    rw [List.count_cons] at taken
    simp only [beq_iff_eq] at taken
    show rest.count d + (if (s.pool.inUse.set c.id c).get? d.id = some d then 1 else 0) +
      s.destroyed.count d = s.created.count d
    have moved := Dict.own_set Container.id (fun d same stored => by
      rw [← same, free] at stored
      cases stored) d
    omega
  own id d hget := by
    have hget' : (s.pool.inUse.set c.id c).get? id = some d := hget
    rw [Dict.get?_set] at hget'
    split_ifs at hget' with same
    · rw [← Option.some.inj hget', same]
    · exact h.own id d hget'
  granted g hg := by
    rcases List.mem_append.1 hg with hg | hg
    · exact h.granted g hg
    · obtain rfl := List.mem_singleton.1 hg
      exact ⟨rfl, rfl⟩
  released := h.released

/-- A container leaves the map, for the list or to be destroyed. -/
theorem Kept.leave (h : Kept s) {id : String} (hget : s.pool.inUse.get? id = some c)
    (hcreated : s'.created = s.created) (hinUse : s'.pool.inUse = s.pool.inUse.pop id)
    (hplace : ∀ d, s'.pool.available.count d + s'.destroyed.count d
      = s.pool.available.count d + s.destroyed.count d + if c = d then 1 else 0)
    (hgranted : s'.granted = s.granted)
    (hreleased : ∀ d ∈ s'.destroyed, d.id ∈ s'.released) : Kept s' where
  names := hcreated ▸ h.names
  places d := by
    have own := h.own id c hget
    have before := h.places d
    have after := hplace d
    unfold State.places at before ⊢
    have moved := Dict.own_pop Container.id (own ▸ hget) d
    rw [own] at moved
    rw [hcreated, hinUse]
    omega
  own id' d hget' := by
    rw [hinUse] at hget'
    exact h.own id' d (Dict.get?_of_get?_pop hget').1
  granted := hgranted ▸ h.granted
  released := hreleased

theorem Kept.release (h : Kept s) (user : ℕ) (id : String) : Kept (s.release user id) := by
  unfold State.release ContainerPool.release
  cases hget : s.pool.inUse.get? id with
  | none =>
    simp only [Option.toList_none, List.append_nil, List.map_nil]
    exact ⟨h.names, h.places, h.own, h.granted, h.released⟩
  | some c =>
    have earlier : ∀ d ∈ s.destroyed, d.id ∈ s.released ++ [c.id] := fun d hd =>
      List.mem_append_left _ (h.released d hd)
    dsimp only
    split_ifs with room
    · refine h.leave hget rfl rfl (fun d => ?_) rfl fun d hd => ?_
      · simp only [Option.toList_none, List.append_nil, List.count_append, List.count_singleton,
          beq_iff_eq]
        omega
      · exact earlier d (by simpa using hd)
    · refine h.leave hget rfl rfl (fun d => ?_) rfl fun d hd => ?_
      · simp only [Option.toList_some, List.count_append, List.count_singleton, beq_iff_eq]
        omega
      · rcases List.mem_append.1 hd with hd | hd
        · exact earlier d hd
        · obtain rfl := List.mem_singleton.1 hd
          exact List.mem_append_right _ (List.mem_singleton_self _)

/-- What one act can do. -/
inductive Moves (s : State) : Act → State → Prop where
  | takes {user : ℕ} {c : Container} {rest : List Container}
      (perm : s.pool.available.Perm (c :: rest)) :
        Moves s (.acquire user c.image c.gpu) (s.take rest user c.image c.gpu c)
  | creates {user : ℕ} {image : String} {gpu : Bool} : Moves s (.acquire user image gpu)
      { s with creating := s.creating ++ [⟨image, gpu, some user, []⟩] }
  | warms : Moves s .warmup { s with creating := s.creating ++ warm (warmupImages s.pool.poolSize) }
  | adds {i : ℕ} {name image : String} {gpu : Bool} {creating : List Creation}
      (new : name ∉ s.created.map Container.id) :
        Moves s (.created i name) ({ s with creating := creating }.add (create name image gpu))
  | gives {i user : ℕ} {name image : String} {gpu : Bool} {creating : List Creation}
      (new : name ∉ s.created.map Container.id) : Moves s (.created i name)
        (({ s with creating := creating }.add (create name image gpu)).take s.pool.available user
          image gpu (create name image gpu))
  | releases {user : ℕ} {id : String} : Moves s (.release user id) (s.release user id)

theorem moves_of_step {a : Act} (hs : s.step a = some s') : Moves s a s' := by
  unfold step at hs
  cases a with
  | acquire user image gpu =>
    dsimp only at hs
    split at hs
    · obtain ⟨rfl, rfl, perm⟩ := perm_of_takeMatching ‹_›
      exact Option.some.inj hs ▸ .takes perm
    · exact Option.some.inj hs ▸ .creates
  | warmup => exact Option.some.inj hs ▸ .warms
  | created i name =>
    dsimp only at hs
    split at hs
    · cases hs
    · split_ifs at hs with old
      rw [← Option.some.inj hs, finish_eq]
      dsimp only
      split
      · exact .gives old
      · exact .adds old
  | release user id => exact Option.some.inj hs ▸ .releases

theorem perm_add (s : State) (c : Container) :
    (s.add c).pool.available.Perm (c :: s.pool.available) := List.perm_append_singleton c _

/-- The containers in use are the ones that are held, each by one user. -/
structure Owned (s : State) : Prop where
  kept : Kept s
  nodup : (s.held.map Prod.snd).Nodup
  held : ∀ id, id ∈ s.held.map Prod.snd ↔ (s.pool.inUse.get? id).isSome

theorem owned_init (poolSize : ℤ) : Owned (init poolSize) where
  kept := kept_init poolSize
  nodup := List.nodup_nil
  held id := by simp [init, ContainerPool.init]

/-- A release is for a container that its user holds, or for none that is in use. -/
def Entitled (s : State) : Act → Prop
  | .release user id => (s.pool.inUse.get? id).isSome → (user, id) ∈ s.held
  | _ => True

theorem Owned.take (h : Owned s) {rest : List Container} (perm : s.pool.available.Perm (c :: rest))
    (user : ℕ) : Owned (s.take rest user c.image c.gpu c) := by
  have free := h.kept.not_inUse (.inl (perm.mem_iff.2 (List.mem_cons_self ..)))
  have unheld : c.id ∉ s.held.map Prod.snd := by
    rw [h.held, free]
    exact Bool.false_ne_true
  refine ⟨h.kept.take perm user, ?_, fun id => ?_⟩
  · show ((s.held ++ [(user, c.id)]).map Prod.snd).Nodup
    rw [List.map_append]
    exact h.nodup.append (List.nodup_singleton _) (List.disjoint_singleton.2 unheld)
  · show id ∈ (s.held ++ [(user, c.id)]).map Prod.snd ↔ ((s.pool.inUse.set c.id c).get? id).isSome
    rw [List.map_append, List.mem_append, h.held, Dict.get?_set]
    by_cases same : c.id = id
    · simp [same]
    · simp [same, Ne.symm same]

theorem Owned.add (h : Owned s) (new : c.id ∉ s.created.map Container.id) : Owned (s.add c) :=
  ⟨h.kept.add new, h.nodup, h.held⟩

theorem get?_release (s : State) (user : ℕ) (id id' : String) :
    (s.release user id).pool.inUse.get? id' =
      if id = id' then none else s.pool.inUse.get? id' := by
  unfold State.release ContainerPool.release
  cases hget : s.pool.inUse.get? id with
  | none =>
    dsimp only
    split_ifs with same
    · rw [← same, hget]
    · rfl
  | some c =>
    dsimp only
    split_ifs with room same <;> simp_all [Dict.get?_pop]

theorem Owned.release (h : Owned s) {user : ℕ} {id : String}
    (entitled : Entitled s (.release user id)) : Owned (s.release user id) := by
  refine ⟨h.kept.release user id, h.nodup.sublist (List.erase_sublist.map _), fun id' => ?_⟩
  show id' ∈ (s.held.erase (user, id)).map Prod.snd ↔ _
  rw [get?_release]
  by_cases inUse : (s.pool.inUse.get? id).isSome
  · -- the user held it, and nobody else
    have perm := (List.perm_cons_erase (entitled inUse)).map Prod.snd
    have nodup := perm.nodup_iff.1 h.nodup
    have mem := perm.mem_iff (a := id')
    rw [h.held] at mem
    split_ifs with same
    · rw [← same]
      simpa using (List.nodup_cons.1 nodup).1
    · rw [mem]
      simp [Ne.symm same]
  · have unheld : (user, id) ∉ s.held := fun mem =>
      inUse ((h.held id).1 (List.mem_map_of_mem mem))
    rw [List.erase_of_not_mem unheld, h.held]
    split_ifs with same
    · rw [← same]
      simpa using inUse
    · rfl

theorem Owned.step {a : Act} (h : Owned s) (entitled : Entitled s a) (hs : s.step a = some s') :
    Owned s' := by
  have waiting (creating : List Creation) : Owned { s with creating := creating } :=
    ⟨h.kept.creating creating, h.nodup, h.held⟩
  cases moves_of_step hs with
  | takes perm => exact h.take perm _
  | creates => exact waiting _
  | warms => exact waiting _
  | adds new => exact (waiting _).add new
  | @gives i user name image gpu creating new =>
    exact ((waiting creating).add (c := create name image gpu) new).take (perm_add _ _) user
  | releases => exact h.release entitled

/-- What the pool is to keep: a container is held by one user, and is neither available nor given up
while it is held; every container that is not given up is in one place, in use under its own id;
users get what they asked for; and only released containers are given up. -/
structure Proper (s : State) : Prop where
  alone : (s.held.map Prod.snd).Nodup
  safe : ∀ h ∈ s.held, ∀ c, c ∈ s.pool.available ∨ c ∈ s.destroyed → c.id ≠ h.2
  placed : ∀ c ∈ s.created, c ∉ s.destroyed →
    s.pool.available.count c + (if s.pool.inUse.get? c.id = some c then 1 else 0) = 1
  own : ∀ id c, s.pool.inUse.get? id = some c → c.id = id
  granted : ∀ g ∈ s.granted, g.container.image = g.image ∧ g.container.gpu = g.gpu
  released : ∀ c ∈ s.destroyed, c.id ∈ s.released

theorem Owned.proper (h : Owned s) : Proper s where
  alone := h.nodup
  safe held mem c hc same := by
    have free := h.kept.not_inUse hc
    have inUse := (h.held held.2).1 (List.mem_map_of_mem mem)
    rw [← same, free] at inUse
    cases inUse
  placed c hc kept := by
    have single := h.kept.places_le c
    have created := h.kept.places c
    have pos := List.count_pos_iff.2 hc
    have none := List.count_eq_zero.2 kept
    unfold State.places at single created
    omega
  own := h.kept.own
  granted := h.kept.granted
  released := h.kept.released

/-- A release by somebody else makes a held container available, or gives it up. -/
theorem Owned.entitled_of_proper {a : Act} (h : Owned s) (hs : s.step a = some s')
    (proper : Proper s') : Entitled s a := by
  cases moves_of_step hs with
  | takes | creates | warms | adds | gives => trivial
  | @releases user id =>
    intro inUse
    by_contra stale
    obtain ⟨c, hget⟩ := Option.isSome_iff_exists.1 inUse
    obtain ⟨⟨user', id'⟩, mem, rfl⟩ := List.mem_map.1 ((h.held id).2 inUse)
    have held : (user', id') ∈ (s.release user id').held := by
      show (user', id') ∈ s.held.erase (user, id')
      rw [List.erase_of_not_mem stale]
      exact mem
    refine proper.safe _ held c ?_ (h.kept.own id' c hget)
    unfold State.release ContainerPool.release
    rw [hget]
    dsimp only
    split_ifs
    · exact .inl (List.mem_append_right _ (List.mem_singleton_self c))
    · exact .inr (List.mem_append_right _ (List.mem_singleton_self c))

/-- Containers are exclusive exactly along the runs in which users release what they hold, or what
nobody has. -/
theorem exclusive_iff_entitled (poolSize : ℤ) (acts : List Act) (s : State)
    (ran : Machine.run step (init poolSize) acts = some s) :
    Machine.Along step Entitled (init poolSize) acts ↔
      Machine.Throughout step Proper (init poolSize) acts :=
  Machine.along_iff_throughout (I := Owned) (fun _ h => h.proper)
    (fun _ _ _ entitled h hs => h.step entitled hs)
    (fun _ _ _ h hs proper => h.entitled_of_proper hs proper) (owned_init poolSize) ran

/-- A container is released, and goes to the next user. -/
def handOver : List Act :=
  [.acquire 0 "python:3.11-slim" false, .created 0 "cpip-pool-0a1b2c3d",
    .release 0 "cpip-pool-0a1b2c3d", .acquire 1 "python:3.11-slim" false]

theorem exclusive_iff_entitled_hand_over :
    ∃ s, Machine.run step (init 5) handOver = some s ∧ s.held = [(1, "cpip-pool-0a1b2c3d")] ∧
      (Machine.Along step Entitled (init 5) handOver ↔
        Machine.Throughout step Proper (init 5) handOver) :=
  ⟨_, rfl, by decide +kernel, exclusive_iff_entitled 5 handOver _ rfl⟩

/-- The first user releases the container once more, and a third user gets it. -/
theorem stale_release_shares :
    ∃ s, Machine.run step (init 5) (handOver ++ [.release 0 "cpip-pool-0a1b2c3d",
        .acquire 2 "python:3.11-slim" false]) = some s ∧
      (1, "cpip-pool-0a1b2c3d") ∈ s.held ∧ (2, "cpip-pool-0a1b2c3d") ∈ s.held :=
  ⟨_, rfl, by decide +kernel, by decide +kernel⟩

end State

end ContainerPool

end Cpip
