import Cpip.Client.CacheReopen

/-!
# Several managers on one cache

Every process has a manager of its own, which reads the index once and writes all of it from its
memory.  So the index on disk is the memory of one of them: of the one that wrote it last.
-/

namespace Cpip

namespace CacheManager

/-- Managers on the same files; `memory` is the index of every manager that was opened. -/
structure Shared (ι : Type) where
  tree : FileTree Bytes
  memory : ι → Option CacheIndex

/-- A process opens its manager, or calls it. -/
inductive SharedOp (ι : Type) where
  | opens (i : ι)
  | calls (i : ι) (call : Call)

variable {ι : Type} [DecidableEq ι] {d : CacheDisk}

/-- What the manager of a process is after an operation of it. -/
def Shared.put (s : Shared ι) (i : ι) (m : CacheManager) : Shared ι :=
  ⟨m.tree, fun j => if j = i then some m.index else s.memory j⟩

def sharedStep (d : CacheDisk) (s : Shared ι) : SharedOp ι → Option (Shared ι)
  | .opens i => (create d s.tree).map (s.put i)
  | .calls i call => (s.memory i).map fun index => s.put i (serve d ⟨s.tree, index⟩ call)

/-- The files before any manager is opened. -/
def Shared.init (ι : Type) (tree : FileTree Bytes) : Shared ι := ⟨tree, fun _ => none⟩

/-- The names in an operation stay in their directories. -/
def SharedNamed : SharedOp ι → Prop
  | .opens _ => True
  | .calls _ call => Named call

@[simp]
theorem Shared.memory_put_self (s : Shared ι) (i : ι) (m : CacheManager) :
    (s.put i m).memory i = some m.index := if_pos rfl

theorem Shared.memory_put_of_ne (s : Shared ι) {i j : ι} (m : CacheManager) (h : j ≠ i) :
    (s.put i m).memory j = s.memory j := if_neg h

/-- Every manager that is open is in order, and the index on disk is the memory of one of them. -/
structure OrderlyShared (d : CacheDisk) (s : Shared ι) : Prop where
  orderly : ∀ i index, s.memory i = some index → Orderly d ⟨s.tree, index⟩
  disk : ∃ i, loadIndex d s.tree = s.memory i ∧ (s.memory i).isSome

/-- The files of an empty cache, or of one that is open. -/
def Started (d : CacheDisk) (s : Shared ι) : Prop :=
  OrderlyShared d s ∨
    (∀ i, s.memory i = none) ∧
    ∀ rest, rest ≠ [] → s.tree.node? (d.cacheDir.place d.cwd ++ rest) = none

/-- An operation of one manager, which leaves the memories of the others. -/
theorem OrderlyShared.put {s : Shared ι} (h : OrderlyShared d s) {i : ι} {m : CacheManager}
    (orderly : Orderly d m)
    (disk : loadIndex d m.tree = some m.index ∨
      loadIndex d m.tree = loadIndex d s.tree ∧ s.memory i = some m.index) :
    OrderlyShared d (s.put i m) where
  orderly j index hj := by
    by_cases same : j = i
    · subst same
      rw [Shared.memory_put_self] at hj
      exact Option.some.inj hj ▸ orderly
    · rw [Shared.memory_put_of_ne s m same] at hj
      exact ⟨orderly.plain, orderly.ground, (h.orderly j index hj).filed⟩
  disk := by
    rcases disk with written | ⟨kept, memory⟩
    · exact ⟨i, by rw [Shared.memory_put_self]; exact written, by simp⟩
    · obtain ⟨j, same, isSome⟩ := h.disk
      by_cases hj : j = i
      · subst hj
        refine ⟨j, ?_, by simp⟩
        rw [Shared.memory_put_self, ← memory, ← same]
        exact kept
      · rw [← Shared.memory_put_of_ne s m hj] at same isSome
        exact ⟨j, kept.trans same, isSome⟩

/-- The manager that an operation makes write the index. -/
def Shared.saver (d : CacheDisk) (s : Shared ι) : SharedOp ι → Option ι
  | .opens _ => none
  | .calls i call =>
    if (s.memory i).any fun index => savesIndex d ⟨s.tree, index⟩ call then some i else none

theorem Shared.saver_calls {s : Shared ι} {i : ι} {index : CacheIndex}
    (memory : s.memory i = some index) (call : Call) : s.saver d (.calls i call) =
      if savesIndex d ⟨s.tree, index⟩ call then some i else none := by
  rw [saver, memory]
  rfl

/-- The index on disk after an operation is the memory of the manager that wrote it, and without a
writer as it was; then memories are as they were too, or new ones that were read from it. -/
def Saved (d : CacheDisk) (s s' : Shared ι) : Option ι → Prop
  | some i => (s'.memory i).isSome ∧ loadIndex d s'.tree = s'.memory i
  | none => loadIndex d s'.tree = loadIndex d s.tree ∧
    ∀ i, s'.memory i = s.memory i ∨ s'.memory i = loadIndex d s'.tree

theorem saved_put {s : Shared ι} {i : ι} {m : CacheManager}
    (kept : loadIndex d m.tree = loadIndex d s.tree)
    (memory : some m.index = s.memory i ∨ loadIndex d m.tree = some m.index) :
    Saved d s (s.put i m) none := by
  refine ⟨kept, fun j => ?_⟩
  by_cases same : j = i
  · subst same
    rw [Shared.memory_put_self]
    exact memory.imp id Eq.symm
  · exact .inl (Shared.memory_put_of_ne s m same)

/-- What an operation of a manager does to the index on disk. -/
theorem sharedStep_disk (plain : d.cacheDir.Plain d.cwd) {s s' : Shared ι} {op : SharedOp ι}
    (named : SharedNamed op) (h : Started d s) (hs : sharedStep d s op = some s') :
    OrderlyShared d s' ∧ Saved d s s' (s.saver d op) := by
  cases op with
  | opens i =>
    obtain ⟨m, created, rfl⟩ := Option.map_eq_some_iff.1 hs
    rcases h with open_ | ⟨none, empty⟩
    · obtain ⟨j, same, isSome⟩ := open_.disk
      obtain ⟨index, memory⟩ := Option.isSome_iff_exists.1 isSome
      have orderly := open_.orderly j index memory
      have disk := same.trans memory
      have reopened : create d s.tree = some ⟨s.tree, index⟩ := orderly.create disk
      obtain rfl := Option.some.inj (reopened.symm.trans created)
      exact ⟨open_.put orderly (.inl disk), saved_put rfl (.inr disk)⟩
    · obtain ⟨⟨orderly, disk⟩, fresh⟩ := orderly_create plain empty created
      refine ⟨⟨fun j index hj => ?_, i, ?_, by simp⟩, saved_put ?_ (.inr disk)⟩
      · by_cases same : j = i
        · subst same
          rw [Shared.memory_put_self] at hj
          exact Option.some.inj hj ▸ orderly
        · rw [Shared.memory_put_of_ne s m same, none j] at hj
          cases hj
      · rw [Shared.memory_put_self]
        exact disk
      · rw [disk, fresh, loadIndex_of_empty plain empty]
  | calls i call =>
    obtain ⟨index, memory, rfl⟩ := Option.map_eq_some_iff.1 hs
    rcases h with open_ | ⟨none, -⟩
    · have orderly := open_.orderly i index memory
      obtain ⟨orderly', disk⟩ := (serves_serve orderly named).orderly orderly
      rw [Shared.saver_calls memory]
      cases saves : savesIndex d ⟨s.tree, index⟩ call with
      | true =>
        rw [saves] at disk
        refine ⟨open_.put orderly' (.inl disk), ?_, ?_⟩
        · rw [Shared.memory_put_self]
          rfl
        · rw [Shared.memory_put_self]
          exact disk
      | false =>
        rw [saves] at disk
        have kept := memory.trans (congrArg some disk.1.symm)
        exact ⟨open_.put orderly' (.inr ⟨disk.2, kept⟩), saved_put disk.2 (.inl kept.symm)⟩
    · rw [none i] at memory
      cases memory

/-! ## The last writer -/

/-- The managers beside a record of which of them wrote the index last. -/
structure Traced (ι : Type) extends Shared ι where
  writer : Option ι

/-- An operation of a manager, and whether it made the manager the last writer. -/
def tracedStep (d : CacheDisk) (t : Traced ι) (op : SharedOp ι) : Option (Traced ι) :=
  (sharedStep d t.toShared op).map fun s => ⟨s, (t.saver d op).or t.writer⟩

theorem tracedStep_of_sharedStep {t : Traced ι} {s : Shared ι} {op : SharedOp ι}
    (h : sharedStep d t.toShared op = some s) :
    tracedStep d t op = some ⟨s, (t.saver d op).or t.writer⟩ := by
  rw [tracedStep, h]
  rfl

theorem tracedStep_calls {t : Traced ι} {i : ι} {index : CacheIndex}
    (memory : t.memory i = some index) (call : Call) : tracedStep d t (.calls i call) =
      some ⟨t.toShared.put i (serve d ⟨t.tree, index⟩ call),
        if savesIndex d ⟨t.tree, index⟩ call then some i else t.writer⟩ := by
  rw [tracedStep, sharedStep, Shared.saver_calls memory, memory]
  split_ifs <;> rfl

def Traced.init (ι : Type) (tree : FileTree Bytes) : Traced ι := ⟨.init ι tree, none⟩

/-- The record is only kept: the managers do what they do without it. -/
theorem run_tracedStep (t : Traced ι) (ops : List (SharedOp ι)) :
    (Machine.run (tracedStep d) t ops).map Traced.toShared =
      Machine.run (sharedStep d) t.toShared ops := by
  induction ops generalizing t with
  | nil => rfl
  | cons op ops ih =>
    rw [Machine.run, Machine.run, tracedStep]
    cases sharedStep d t.toShared op with
    | none => rfl
    | some s => exact ih ⟨s, (t.saver d op).or t.writer⟩

/-- The index on disk is the memory of the last writer, and has no entries before there is one. -/
structure LastWritten (d : CacheDisk) (t : Traced ι) : Prop where
  written : ∀ i, t.writer = some i → (t.memory i).isSome ∧ loadIndex d t.tree = t.memory i
  unwritten : t.writer = none → loadIndex d t.tree = some ∅

theorem LastWritten.step {t : Traced ι} {s' : Shared ι} {i? : Option ι} (h : LastWritten d t)
    (saved : Saved d t.toShared s' i?) : LastWritten d ⟨s', i?.or t.writer⟩ := by
  cases i? with
  | some i =>
    refine ⟨fun j hj => ?_, nofun⟩
    obtain rfl := Option.some.inj hj
    exact saved
  | none =>
    obtain ⟨disk, memory⟩ := saved
    refine ⟨fun i hi => ?_, fun none => disk.trans (h.unwritten none)⟩
    obtain ⟨isSome, same⟩ := h.written i hi
    have kept : s'.memory i = t.memory i :=
      (memory i).elim id fun read => read.trans (disk.trans same)
    exact ⟨kept ▸ isSome, (disk.trans same).trans kept.symm⟩

/-- What holds of every state of a run on an empty cache. -/
structure TracedInv (d : CacheDisk) (t : Traced ι) : Prop where
  started : Started d t.toShared
  last : LastWritten d t

theorem TracedInv.step (plain : d.cacheDir.Plain d.cwd) {t t' : Traced ι} {op : SharedOp ι}
    (named : SharedNamed op) (h : TracedInv d t) (hs : tracedStep d t op = some t') :
    TracedInv d t' := by
  obtain ⟨s, stepped, rfl⟩ := Option.map_eq_some_iff.1 hs
  obtain ⟨orderly, saved⟩ := sharedStep_disk plain named h.started stepped
  exact ⟨.inl orderly, h.last.step saved⟩

theorem TracedInv.init (plain : d.cacheDir.Plain d.cwd) {tree : FileTree Bytes}
    (empty : ∀ rest, rest ≠ [] → tree.node? (d.cacheDir.place d.cwd ++ rest) = none) :
    TracedInv d (.init ι tree) :=
  ⟨.inr ⟨fun _ => rfl, empty⟩, nofun, fun _ => loadIndex_of_empty plain empty⟩

/-! ## Entries -/

/-- The index has the entry under the key, read at any time. -/
def Has (key : String) (e : CacheEntry) (index : CacheIndex) : Prop :=
  ∃ now, index.get? key = some { e with lastAccessed := now }

/-- A manager that writes the index has the entry when the call is over. -/
def SparesEntry (d : CacheDisk) (key : String) (e : CacheEntry) (s : Shared ι) : SharedOp ι → Prop
  | .opens _ => True
  | .calls i call => ∀ index, s.memory i = some index → savesIndex d ⟨s.tree, index⟩ call = true →
    Has key e (serve d ⟨s.tree, index⟩ call).index

/-- A store that returned. -/
def Stores (d : CacheDisk) (m : CacheManager) : Call → Prop
  | .storeWheel p v source sha256 cachedAt lastAccessed =>
    ∃ dest, (storeWheel d.toCacheEnv p v source sha256 cachedAt lastAccessed m).1 = .ok dest
  | .storeLayer layerId source sha256 cachedAt lastAccessed =>
    ∃ dest, (storeLayer d.toCacheEnv layerId source sha256 cachedAt lastAccessed m).1 = .ok dest
  | _ => False

/-- The key under which a store files its entry. -/
def storedKey : Call → String
  | .storeWheel p v _ _ _ _ => wheelKey p v
  | .storeLayer layerId _ _ _ _ => layerKey layerId
  | _ => ""

theorem loadIndex_of_stored_wheel {m : CacheManager} (orderly : Orderly d m) {source dest : PyPath}
    (named : source.name ≠ "..") {p v sha256 : String} {cachedAt lastAccessed : ℚ}
    (h : (placeWheel d.toCacheEnv p v source sha256 cachedAt lastAccessed m).1 = .ok dest) :
    ∃ e, (placeWheel d.toCacheEnv p v source sha256 cachedAt lastAccessed m).2.index.get?
        (wheelKey p v) = some e ∧
      loadIndex d (placeWheel d.toCacheEnv p v source sha256 cachedAt lastAccessed m).2.tree =
        some (placeWheel d.toCacheEnv p v source sha256 cachedAt lastAccessed m).2.index := by
  have placed {tree : FileTree Bytes} (copied : (if source ≠ wheelDest d.toCacheEnv source then
      source.copy2 d.cwd m.tree (wheelDest d.toCacheEnv source) else .ok m.tree) = .ok tree) :=
    copied_to_wheels orderly named copied
  unfold placeWheel at h ⊢
  dsimp only at h ⊢
  generalize (if source ≠ wheelDest d.toCacheEnv source then
    source.copy2 d.cwd m.tree (wheelDest d.toCacheEnv source) else .ok m.tree) = copied
      at placed h ⊢
  cases copied with
  | error e => cases h
  | ok tree =>
    obtain ⟨same, -⟩ := placed rfl
    dsimp only at h ⊢
    split at h
    · cases h
    · split at h
      · cases h
      · rw [saveIndex_index]
        exact ⟨_, Dict.get?_set_self .., (saveIndex_of_ground orderly.plain
          (orderly.ground.of_agreeOff same)).2⟩

theorem loadIndex_of_stored_layer {m : CacheManager} (orderly : Orderly d m) {layerId : String}
    (inside : PyPath.Inside layerId) {source dest : PyPath} {sha256 : String}
    {cachedAt lastAccessed : ℚ}
    (h : (storeLayer d.toCacheEnv layerId source sha256 cachedAt lastAccessed m).1 = .ok dest) :
    ∃ e, (storeLayer d.toCacheEnv layerId source sha256 cachedAt lastAccessed m).2.index.get?
        (layerKey layerId) = some e ∧
      loadIndex d (storeLayer d.toCacheEnv layerId source sha256 cachedAt lastAccessed m).2.tree =
        some (storeLayer d.toCacheEnv layerId source sha256 cachedAt lastAccessed m).2.index := by
  have orderly' := ((serves_maybeEvict orderly).orderly orderly).1
  have same := agreeOff_placeLayer orderly' source inside
  unfold storeLayer at h ⊢
  dsimp only at h ⊢
  generalize (if source ≠ d.layersDir.join layerId then _ else _) = copied at same h ⊢
  obtain ⟨outcome, tree⟩ := copied
  cases outcome with
  | error e => cases h
  | ok _ =>
    dsimp only
    rw [saveIndex_index]
    exact ⟨_, Dict.get?_set_self .., (saveIndex_of_ground orderly'.plain
      (orderly'.ground.of_agreeOff same)).2⟩

/-- What a store that returned filed is in the index on disk. -/
theorem exists_entry_of_stores {m : CacheManager} (orderly : Orderly d m) {call : Call}
    (named : Named call) (h : Stores d m call) :
    ∃ e, (serve d m call).index.get? (storedKey call) = some e ∧
      loadIndex d (serve d m call).tree = some (serve d m call).index := by
  cases call with
  | storeWheel p v source sha256 cachedAt lastAccessed =>
    obtain ⟨dest, h⟩ := h
    exact loadIndex_of_stored_wheel ((serves_maybeEvict orderly).orderly orderly).1 named h
  | storeLayer layerId source sha256 cachedAt lastAccessed =>
    obtain ⟨dest, h⟩ := h
    exact loadIndex_of_stored_layer orderly named h
  | _ => exact h.elim

theorem savesIndex_of_stores {m : CacheManager} {call : Call} (h : Stores d m call) :
    savesIndex d m call = true := by
  cases call with
  | storeWheel => rfl
  | storeLayer => rfl
  | _ => exact h.elim

/-- An entry on disk stays there when the operation spares it. -/
theorem entry_step (plain : d.cacheDir.Plain d.cwd) {key : String} {e : CacheEntry}
    {s s' : Shared ι} {op : SharedOp ι} (named : SharedNamed op) (spared : SparesEntry d key e s op)
    (h : Started d s) (hs : sharedStep d s op = some s')
    (onDisk : ∃ index, loadIndex d s.tree = some index ∧ Has key e index) :
    ∃ index, loadIndex d s'.tree = some index ∧ Has key e index := by
  obtain ⟨-, saved⟩ := sharedStep_disk plain named h hs
  cases op with
  | opens i =>
    obtain ⟨kept, -⟩ := saved
    rwa [kept]
  | calls i call =>
    obtain ⟨index, memory, rfl⟩ := Option.map_eq_some_iff.1 hs
    rw [Shared.saver_calls memory] at saved
    cases saves : savesIndex d ⟨s.tree, index⟩ call with
    | true =>
      rw [saves] at saved
      obtain ⟨-, written⟩ := saved
      rw [Shared.memory_put_self] at written
      exact ⟨_, written, spared index memory saves⟩
    | false =>
      rw [saves] at saved
      obtain ⟨kept, -⟩ := saved
      rwa [kept]

/-- A run keeps an entry on disk that every step spares. -/
theorem run_keeps_entry (plain : d.cacheDir.Plain d.cwd) {key : String} {e : CacheEntry}
    {t t' : Traced ι} {ops : List (SharedOp ι)} (h : TracedInv d t)
    (onDisk : ∃ index, loadIndex d t.tree = some index ∧ Has key e index)
    (good : Machine.Along (tracedStep d)
      (fun t op => SharedNamed op ∧ SparesEntry d key e t.toShared op) t ops)
    (ran : Machine.run (tracedStep d) t ops = some t') :
    ∃ index, loadIndex d t'.tree = some index ∧ Has key e index := by
  have step : ∀ (t : Traced ι) (op : SharedOp ι) (t' : Traced ι),
      SharedNamed op ∧ SparesEntry d key e t.toShared op →
      (TracedInv d t ∧ ∃ index, loadIndex d t.tree = some index ∧ Has key e index) →
      tracedStep d t op = some t' →
      TracedInv d t' ∧ ∃ index, loadIndex d t'.tree = some index ∧ Has key e index := by
    rintro t op t' ⟨named, spared⟩ ⟨h, onDisk⟩ hs
    refine ⟨h.step plain named hs, ?_⟩
    obtain ⟨s, stepped, rfl⟩ := Option.map_eq_some_iff.1 hs
    exact entry_step plain named spared h.started stepped onDisk
  exact (Machine.invariant_along step ⟨h, onDisk⟩ good ran).2

/-- In every state that the operations of managers on one cache, whose names stay in their
directories, lead to in any order, the index on disk is the memory of the manager that wrote it
last.  What a manager stores there is in it, until a manager that lacks the entry writes it. -/
theorem stored_entry_on_disk (plain : d.cacheDir.Plain d.cwd) (tree : FileTree Bytes)
    (empty : ∀ rest, rest ≠ [] → tree.node? (d.cacheDir.place d.cwd ++ rest) = none)
    (ops : List (SharedOp ι)) (t : Traced ι)
    (named : Machine.Along (tracedStep d) (fun _ op => SharedNamed op) (.init ι tree) ops)
    (ran : Machine.run (tracedStep d) (.init ι tree) ops = some t) :
    LastWritten d t ∧
    ∀ i call index t₁, Named call → t.memory i = some index → Stores d ⟨t.tree, index⟩ call →
      tracedStep d t (.calls i call) = some t₁ →
      t₁.writer = some i ∧
      ∃ e, ((t₁.memory i).bind fun index => index.get? (storedKey call)) = some e ∧
        ∀ after t', Machine.Along (tracedStep d) (fun t op =>
            SharedNamed op ∧ SparesEntry d (storedKey call) e t.toShared op) t₁ after →
          Machine.run (tracedStep d) t₁ after = some t' →
          ∃ index', loadIndex d t'.tree = some index' ∧ Has (storedKey call) e index' := by
  have inv : TracedInv d t := Machine.invariant_along
    (fun _ _ _ named h hs => h.step plain named hs) (TracedInv.init plain empty) named ran
  refine ⟨inv.last, fun i call index t₁ named opened stored next => ?_⟩
  have inv₁ := inv.step plain (show SharedNamed (.calls i call) from named) next
  have orderly : Orderly d ⟨t.tree, index⟩ := by
    rcases inv.started with open_ | ⟨none, -⟩
    · exact open_.orderly i index opened
    · rw [none i] at opened
      cases opened
  obtain ⟨e, entry, written⟩ := exists_entry_of_stores orderly named stored
  obtain rfl := Option.some.inj ((tracedStep_calls opened call).symm.trans next)
  refine ⟨if_pos (savesIndex_of_stores stored), e, ?_, fun after t' good ran => ?_⟩
  · rw [Shared.memory_put_self]
    exact entry
  · exact run_keeps_entry plain inv₁ ⟨_, written, e.lastAccessed, entry⟩ good ran

def openedOnce : Shared Bool := (Shared.init Bool wheelOnly).put false createdCache

/-- Two managers that were opened before either stored anything. -/
def openedTwice : Shared Bool := openedOnce.put true createdCache

theorem sharedStep_opens :
    sharedStep sampleDisk (.init Bool wheelOnly) (.opens false) = some openedOnce ∧
      sharedStep sampleDisk openedOnce (.opens true) = some openedTwice := by
  obtain ⟨⟨orderly, disk⟩, -⟩ := orderly_create plain_sampleDisk wheelOnly_empty create_wheelOnly
  exact ⟨congrArg (Option.map _) create_wheelOnly, congrArg (Option.map _) (orderly.create disk)⟩

theorem run_opens_opens :
    Machine.run (tracedStep sampleDisk) (.init Bool wheelOnly) [.opens false, .opens true] =
      some ⟨openedTwice, none⟩ := by
  obtain ⟨first, second⟩ := sharedStep_opens
  rw [Machine.run_cons_eq_some]
  refine ⟨⟨openedOnce, none⟩, tracedStep_of_sharedStep first, ?_⟩
  rw [Machine.run_cons_eq_some]
  exact ⟨⟨openedTwice, none⟩, tracedStep_of_sharedStep second, rfl⟩

/-- A wheel is stored under a project's name. -/
def storing (project : String) : Call :=
  .storeWheel project "1" (PyPath.ofString "/a/x.whl") "" 1 1

theorem named_storing (project : String) : Named (storing project) := by
  show PyPath.name _ ≠ ".."
  decide +kernel

theorem stores_storing {project : String} {m : CacheManager}
    (ok : (storeWheel sampleDisk.toCacheEnv project "1" (PyPath.ofString "/a/x.whl") "" 1 1
      m).1.toOption.isSome) : Stores sampleDisk m (storing project) := by
  show ∃ dest, (storeWheel sampleDisk.toCacheEnv project "1" (PyPath.ofString "/a/x.whl") "" 1 1
    m).1 = .ok dest
  generalize (storeWheel sampleDisk.toCacheEnv project "1" (PyPath.ofString "/a/x.whl") "" 1 1
    m).1 = outcome at ok ⊢
  cases outcome with
  | error e => cases ok
  | ok dest => exact ⟨dest, rfl⟩

/-- What the first manager leaves when it has stored a wheel. -/
def storedOnce : Shared Bool :=
  openedTwice.put false (serve sampleDisk createdCache (storing "p"))

theorem tracedStep_storing :
    tracedStep sampleDisk ⟨openedTwice, none⟩ (.calls false (storing "p")) =
      some ⟨storedOnce, some false⟩ := tracedStep_calls rfl (storing "p")

theorem orderly_storing :
    Orderly sampleDisk (serve sampleDisk createdCache (storing "p")) ∧
      loadIndex sampleDisk storedOnce.tree =
        some (serve sampleDisk createdCache (storing "p")).index := by
  have created := (orderly_create plain_sampleDisk wheelOnly_empty create_wheelOnly).1.1
  obtain ⟨-, -, disk⟩ :=
    exists_entry_of_stores created (named_storing "p") (stores_storing (by decide +kernel))
  exact ⟨((serves_serve created (named_storing "p")).orderly created).1, disk⟩

/-- The second manager is opened again, and looks the wheel up. -/
def reopenedOnce : Shared Bool :=
  storedOnce.put true (serve sampleDisk createdCache (storing "p"))

theorem sharedStep_reopens : sharedStep sampleDisk storedOnce (.opens true) = some reopenedOnce :=
  congrArg (Option.map _) (orderly_storing.1.create orderly_storing.2)

def lookedUp : Shared Bool :=
  reopenedOnce.put true
    (serve sampleDisk (serve sampleDisk createdCache (storing "p")) (.getWheel "p" "1" 2))

theorem savesIndex_looks :
    savesIndex sampleDisk ⟨reopenedOnce.tree, (serve sampleDisk createdCache (storing "p")).index⟩
      (.getWheel "p" "1" 2) = true := by
  decide +kernel

theorem run_reopens_looks :
    Machine.run (tracedStep sampleDisk) ⟨storedOnce, some false⟩
      [.opens true, .calls true (.getWheel "p" "1" 2)] = some ⟨lookedUp, some true⟩ := by
  rw [Machine.run_cons_eq_some]
  refine ⟨⟨reopenedOnce, some false⟩, tracedStep_of_sharedStep sharedStep_reopens, ?_⟩
  rw [Machine.run_cons_eq_some]
  refine ⟨⟨lookedUp, some true⟩, ?_, rfl⟩
  exact (tracedStep_calls rfl _).trans
    (congrArg (fun writer => some (Traced.mk lookedUp writer)) (if_pos savesIndex_looks))

/-- What the first manager stored is on disk when the second was opened again, looked it up and so
wrote the index. -/
theorem stored_entry_on_disk_sample :
    LastWritten sampleDisk ⟨openedTwice, none⟩ ∧
    ∃ t e index', Machine.run (tracedStep sampleDisk) ⟨storedOnce, some false⟩
        [.opens true, .calls true (.getWheel "p" "1" 2)] = some t ∧ t.writer = some true ∧
      loadIndex sampleDisk t.tree = some index' ∧ Has (wheelKey "p" "1") e index' := by
  obtain ⟨last, stores⟩ := stored_entry_on_disk plain_sampleDisk wheelOnly wheelOnly_empty
    [.opens false, .opens true] ⟨openedTwice, none⟩
    (Machine.along_of_forall_mem (by simp [SharedNamed]) _) run_opens_opens
  obtain ⟨-, e, entry, kept⟩ := stores false (storing "p") createdCache.index _
    (named_storing "p") rfl (stores_storing (by decide +kernel)) tracedStep_storing
  have looked : (serve sampleDisk (serve sampleDisk createdCache (storing "p"))
      (.getWheel "p" "1" 2)).index.get? (wheelKey "p" "1") =
      ((serve sampleDisk createdCache (storing "p")).index.get? (wheelKey "p" "1")).map
        fun e => { e with lastAccessed := 2 } := by
    decide +kernel
  have spared : Machine.Along (tracedStep sampleDisk) (fun t op =>
      SharedNamed op ∧ SparesEntry sampleDisk (wheelKey "p" "1") e t.toShared op)
      ⟨storedOnce, some false⟩ [.opens true, .calls true (.getWheel "p" "1" 2)] := by
    refine ⟨⟨trivial, trivial⟩, fun t reopens => ⟨⟨trivial, fun index memory _ => ?_⟩,
      fun _ _ => trivial⟩⟩
    obtain rfl :=
      Option.some.inj ((tracedStep_of_sharedStep sharedStep_reopens).symm.trans reopens)
    obtain rfl := Option.some.inj memory
    have kept := congrArg (Option.map fun e => { e with lastAccessed := 2 }) entry
    exact ⟨2, looked.trans kept⟩
  obtain ⟨index', onDisk, has⟩ := kept _ _ spared run_reopens_looks
  exact ⟨last, _, e, index', run_reopens_looks, rfl, onDisk, has⟩

/-- The manager that has stored nothing yet writes its own index. -/
theorem stored_entry_lost :
    ∃ s s', Machine.run (sharedStep sampleDisk) (.init Bool wheelOnly)
        [.opens false, .opens true, .calls false (storing "p")] = some s ∧
      sharedStep sampleDisk s (.calls true (storing "q")) = some s' ∧
      (s'.memory false).map Dict.keys = some [wheelKey "p" "1"] ∧
      (loadIndex sampleDisk s'.tree).map Dict.keys = some [wheelKey "q" "1"] := by
  have ran : Machine.run (sharedStep sampleDisk) (.init Bool wheelOnly)
      ([.opens false, .opens true] ++ [.calls false (storing "p")]) = some storedOnce := by
    obtain ⟨first, second⟩ := sharedStep_opens
    rw [Machine.run_append, Machine.run, first, Option.bind_some, Machine.run, second]
    rfl
  obtain ⟨stored, -⟩ := orderly_storing
  have created := (orderly_create plain_sampleDisk wheelOnly_empty create_wheelOnly).1.1
  have other : Orderly sampleDisk ⟨storedOnce.tree, createdCache.index⟩ :=
    ⟨plain_sampleDisk, stored.ground, created.filed⟩
  obtain ⟨-, -, written⟩ :=
    exists_entry_of_stores other (named_storing "q") (stores_storing (by decide +kernel))
  refine ⟨storedOnce, storedOnce.put true (serve sampleDisk ⟨storedOnce.tree, createdCache.index⟩
    (storing "q")), ran, rfl, by decide +kernel, ?_⟩
  refine (congrArg (Option.map Dict.keys) written).trans ?_
  decide +kernel

end CacheManager

end Cpip
