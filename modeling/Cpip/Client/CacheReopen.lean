import Cpip.Client.CacheDisk

/-!
# A cache that is opened again

What a call leaves, from what it finds: the files outside of the directories of the cache are as
before, and the index was written when it changed.  So the index on disk is the index in memory, and
a manager that is created anew is the same manager.
-/

namespace Cpip

namespace CacheManager

open FileTree

variable {d : CacheDisk}

/-! ## What calls do to the files -/

/-- The entries are for places in the directories of the cache. -/
def Filed (d : CacheDisk) (index : CacheIndex) : Prop :=
  ∀ key e, index.get? key = some e → e.path.Leads d.cwd (Area d.toCacheEnv)

theorem Filed.descends {index before : CacheIndex} (h : Filed d before)
    (fewer : Descends index before) : Filed d index := by
  intro key e he
  obtain ⟨e₀, he₀, path, -⟩ := fewer key e he
  exact path ▸ h key e₀ he₀

theorem Filed.reduces {before index : CacheIndex} (h : Filed d before)
    (fewer : Reduces before index) : Filed d index := h.descends fewer.descends

theorem Filed.set {index : CacheIndex} (h : Filed d index) {key : String} {e : CacheEntry}
    (leads : e.path.Leads d.cwd (Area d.toCacheEnv)) : Filed d (index.set key e) := by
  intro key' e' he'
  rw [Dict.get?_set] at he'
  split_ifs at he' with same
  · exact Option.some.inj he' ▸ leads
  · exact h key' e' he'

/-- What calls leave of a manager: they change files in the directories of the cache, and write the
index file, which the flag tells. -/
inductive Serves (d : CacheDisk) (s : CacheManager) : Bool → CacheManager → Prop where
  | refl : Serves d s false s
  | files {saved : Bool} {s' : CacheManager} {tree : FileTree Bytes} (h : Serves d s saved s')
    (same : AgreeOff (Area d.toCacheEnv) s'.tree tree) : Serves d s saved ⟨tree, s'.index⟩
  | save {saved : Bool} {s' : CacheManager} {tree : FileTree Bytes} {index : CacheIndex}
    (h : Serves d s saved s') (same : AgreeOff (Area d.toCacheEnv) s'.tree tree)
    (filed : Filed d index) : Serves d s true (saveIndex d.toCacheEnv ⟨tree, index⟩)

theorem Serves.trans {s s' s'' : CacheManager} {saved saved' : Bool} (h : Serves d s saved s')
    (h' : Serves d s' saved' s'') : Serves d s (saved || saved') s'' := by
  induction h' with
  | refl =>
    rw [Bool.or_false]
    exact h
  | files _ same ih => exact ih.files same
  | save _ same filed ih =>
    rw [Bool.or_true]
    exact ih.save same filed

/-- The cache is in order: its directories are there, and its entries are for files in them. -/
structure Orderly (d : CacheDisk) (s : CacheManager) : Prop where
  plain : d.cacheDir.Plain d.cwd
  ground : Ground d.toCacheEnv s.tree
  filed : Filed d s.index

theorem plain_of_mem (plain : d.cacheDir.Plain d.cwd) {dir : PyPath}
    (h : dir ∈ cacheDirs d.toCacheEnv) : dir.Plain d.cwd := by
  obtain ⟨s, rfl, part, up, -⟩ := eq_join_of_mem h
  exact plain.join (PyPath.inside_of_isPart part up)

/-- A name in a directory of the cache leads into it. -/
theorem leads_of_mem (plain : d.cacheDir.Plain d.cwd) {dir : PyPath}
    (h : dir ∈ cacheDirs d.toCacheEnv) {s : String} (inside : PyPath.Inside s) :
    (dir.join s).Leads d.cwd (Area d.toCacheEnv) := by
  obtain ⟨plain, inner⟩ := PyPath.leads_join (plain_of_mem plain h) inside
  exact ⟨plain, area_of_mem h inner⟩

/-- The index is written where the cache is in order. -/
theorem saveIndex_of_ground (plain : d.cacheDir.Plain d.cwd) {s : CacheManager}
    (ground : Ground d.toCacheEnv s.tree) :
    Ground d.toCacheEnv (saveIndex d.toCacheEnv s).tree ∧
      loadIndex d (saveIndex d.toCacheEnv s).tree = some s.index := by
  have place : d.indexFile.locate d.cwd s.tree = .ok (d.indexFile.place d.cwd) := by
    rw [indexFile_eq]
    exact PyPath.locate_join_of_isDir plain ground.cacheDir (by decide) (by decide)
  have parent : s.tree.IsDir (d.indexFile.place d.cwd).dropLast := by
    rw [place_indexFile, List.dropLast_concat]
    exact ground.cacheDir
  obtain ⟨tree, written⟩ := exists_write (d.dumps s.index) ground.file parent
  have dirs := isDir_of_write written
  have saved : saveIndex d.toCacheEnv s = ⟨tree, s.index⟩ := by
    rw [saveIndex, PyPath.write, place]
    dsimp only
    rw [written]
  rw [saved]
  refine ⟨⟨fun dir h => (dirs _).2 (ground.dirs dir h), fun dir => ground.file ((dirs _).1 dir)⟩,
    ?_⟩
  refine loadIndex_of_read d (PyPath.read_eq_ok_iff.2 ⟨_, PyPath.locate_mono
    (fun l => (dirs l).2) place, ?_⟩)
  rw [(write_eq_ok written).2.2, if_pos rfl]

/-- The index file is the same when only the directories of the cache changed. -/
theorem loadIndex_of_agreeOff (plain : d.cacheDir.Plain d.cwd) {t t' : FileTree Bytes}
    (ground : Ground d.toCacheEnv t) (same : AgreeOff (Area d.toCacheEnv) t t') :
    loadIndex d t' = loadIndex d t := by
  have place {t : FileTree Bytes} (ground : Ground d.toCacheEnv t) :
      d.indexFile.locate d.cwd t = .ok (d.indexFile.place d.cwd) := by
    rw [indexFile_eq]
    exact PyPath.locate_join_of_isDir plain ground.cacheDir (by decide) (by decide)
  unfold loadIndex PyPath.read FileTree.read
  rw [place ground, place (ground.of_agreeOff same)]
  dsimp only
  rw [same _ (not_area_indexFile d.toCacheEnv)]

/-- What is on disk after calls: the index in memory if it was written, and the index as it was, in
memory too, if it was not. -/
def OnDisk (d : CacheDisk) (s s' : CacheManager) : Bool → Prop
  | true => loadIndex d s'.tree = some s'.index
  | false => s'.index = s.index ∧ loadIndex d s'.tree = loadIndex d s.tree

/-- Calls keep the cache in order, and the index is written when it changes. -/
theorem Serves.orderly {s s' : CacheManager} {saved : Bool} (h : Serves d s saved s')
    (orderly : Orderly d s) : Orderly d s' ∧ OnDisk d s s' saved := by
  induction h with
  | refl => exact ⟨orderly, rfl, rfl⟩
  | @files saved _ tree _ same ih =>
    obtain ⟨middle, index⟩ := ih
    have disk := loadIndex_of_agreeOff middle.plain middle.ground same
    refine ⟨⟨middle.plain, middle.ground.of_agreeOff same, middle.filed⟩, ?_⟩
    cases saved with
    | true => exact disk.trans index
    | false => exact ⟨index.1, disk.trans index.2⟩
  | @save _ _ tree index _ same filed ih =>
    obtain ⟨middle, -⟩ := ih
    obtain ⟨ground, disk⟩ := saveIndex_of_ground (s := ⟨tree, index⟩) middle.plain
      (middle.ground.of_agreeOff same)
    refine ⟨⟨middle.plain, ground, ?_⟩, ?_⟩
    · rwa [saveIndex_index]
    · rw [OnDisk, disk, saveIndex_index]

/-! ## Every call -/

/-- Whether the call gets to `_save_index`. -/
def savesIndex (d : CacheDisk) (s : CacheManager) : Call → Bool
  | .getWheel package version now => (s.index.get? (wheelKey package version)).isSome &&
    (getWheel d.toCacheEnv package version now s).1.isOk
  | .storeWheel .. => true
  | .getLayer layerId _ => (s.index.get? (layerKey layerId)).isSome
  | .storeLayer .. => true
  | .getMetadata .. => false
  | .storeMetadata .. => false
  | .stats => false
  | .verifyIntegrity => !(verifyIntegrity d.toCacheEnv s).1.isEmpty
  | .clear => (clear d.toCacheEnv s).1.isOk

section Calls

variable {s : CacheManager}

theorem serves_saveIndex (orderly : Orderly d s) {tree : FileTree Bytes} {index : CacheIndex}
    (same : AgreeOff (Area d.toCacheEnv) s.tree tree) (fewer : Reduces s.index index) :
    Serves d s true (saveIndex d.toCacheEnv ⟨tree, index⟩) :=
  .save .refl same (orderly.filed.reduces fewer)

theorem serves_getWheel (orderly : Orderly d s) (p v : String) (now : ℚ) :
    Serves d s (savesIndex d s (.getWheel p v now)) (getWheel d.toCacheEnv p v now s).2 := by
  have found := getWheel_lookup d.toCacheEnv p v now s
  rw [savesIndex]
  generalize getWheel d.toCacheEnv p v now s = r at found ⊢
  cases found with
  | absent he =>
    rw [he]
    exact .refl
  | directory e l he =>
    rw [he]
    exact .refl
  | missing e he =>
    rw [he]
    exact serves_saveIndex orderly (.refl _ _) (Reduces.refl.pop _)
  | corrupt e l b he place =>
    have inside := (orderly.filed _ e he).of_locate place
    rw [he]
    exact serves_saveIndex orderly (agreeOff_prune downClosed_area inside) (Reduces.refl.pop _)
  | found e l b he =>
    rw [he]
    exact serves_saveIndex orderly (.refl _ _) (Reduces.refl.touch he now)

theorem serves_getLayer (orderly : Orderly d s) (layerId : String) (now : ℚ) :
    Serves d s (savesIndex d s (.getLayer layerId now))
      (getLayer d.toCacheEnv layerId now s).2 := by
  rw [savesIndex]
  unfold getLayer
  dsimp only
  split
  · next he =>
    rw [he]
    exact .refl
  · next e he =>
    rw [he]
    split_ifs
    · exact serves_saveIndex orderly (.refl _ _) (Reduces.refl.touch he now)
    · exact serves_saveIndex orderly (.refl _ _) (Reduces.refl.pop _)

theorem agreeOff_removePath {path : PyPath} (leads : path.Leads d.cwd (Area d.toCacheEnv))
    (tree : FileTree Bytes) :
    AgreeOff (Area d.toCacheEnv) tree (removePath d.toCacheEnv tree path) := by
  unfold removePath
  split_ifs
  · split
    · next tree' gone => exact leads.agreeOff_unlink downClosed_area gone
    · exact .refl _ tree
  · exact leads.agreeOff_rmtree downClosed_area
  · exact .refl _ tree

theorem agreeOff_evictLoop (rounds : ℕ) (filed : Filed d s.index) :
    AgreeOff (Area d.toCacheEnv) s.tree (evictLoop d.toCacheEnv rounds s).tree := by
  induction rounds generalizing s with
  | zero => exact .refl _ _
  | succ rounds ih =>
    unfold evictLoop
    split_ifs
    · split
      · exact .refl _ _
      · next key e least =>
        have entry : s.index.get? key = some e :=
          (Dict.get?_eq_some_iff ..).2 (List.argmin_mem least)
        exact (agreeOff_removePath (filed key e entry) s.tree).trans
          (ih (s := ⟨_, s.index.pop key⟩) (filed.reduces (Reduces.refl.pop key)))
    · exact .refl _ _

theorem serves_maybeEvict (orderly : Orderly d s) :
    Serves d s true (maybeEvict d.toCacheEnv s) :=
  serves_saveIndex orderly (agreeOff_evictLoop _ orderly.filed) (reduces_evictLoop _ _ s)

/-- A wheel is copied to a place in the directory of the wheels. -/
theorem copied_to_wheels (orderly : Orderly d s) {source : PyPath} (named : source.name ≠ "..")
    {tree : FileTree Bytes} (copied : (if source ≠ wheelDest d.toCacheEnv source then
      source.copy2 d.cwd s.tree (wheelDest d.toCacheEnv source) else .ok s.tree) = .ok tree) :
    AgreeOff (Area d.toCacheEnv) s.tree tree ∧
      (wheelDest d.toCacheEnv source).Leads d.cwd (Area d.toCacheEnv) := by
  have mem : d.wheelsDir ∈ cacheDirs d.toCacheEnv := List.mem_cons_self
  by_cases empty : source.name = ""
  · have dest : wheelDest d.toCacheEnv source = d.wheelsDir := by
      rw [wheelDest, empty, PyPath.join_empty]
    have dir := orderly.ground.dirs _ mem
    rw [dest] at copied
    split_ifs at copied with other
    · -- the directory itself cannot be written
      obtain ⟨l, b, found, -, -, written⟩ := PyPath.copy2_eq_ok copied
      have target : PyPath.copyTarget d.cwd s.tree source d.wheelsDir = d.wheelsDir := by
        rw [PyPath.copyTarget, empty, PyPath.join_empty, ite_self]
      rw [target] at found
      obtain rfl := PyPath.eq_place_of_locate (plain_of_mem orderly.plain mem) found
      exact absurd dir (write_eq_ok written).1
    · have name : d.wheelsDir.name = "wheels" := by
        have parts := (d.cacheDir.join_of_isPart (s := "wheels") (by decide)).2
        rw [PyPath.name, show d.wheelsDir.parts = _ from parts, List.getLast?_concat]
        rfl
      rw [not_not.1 other, name] at empty
      exact absurd empty (by decide)
  · have inside := PyPath.inside_of_isPart (PyPath.isPart_name empty) named
    have leads := leads_of_mem orderly.plain mem inside
    refine ⟨?_, leads⟩
    split_ifs at copied
    · exact leads.agreeOff_copy2 downClosed_area inside copied
    · exact Except.ok.inj copied ▸ .refl _ _

theorem serves_placeWheel (orderly : Orderly d s) {source : PyPath} (named : source.name ≠ "..")
    (p v sha256 : String) (cachedAt lastAccessed : ℚ) : ∃ saved,
      Serves d s saved (placeWheel d.toCacheEnv p v source sha256 cachedAt lastAccessed s).2 := by
  have placed {tree : FileTree Bytes} (copied : (if source ≠ wheelDest d.toCacheEnv source then
      source.copy2 d.cwd s.tree (wheelDest d.toCacheEnv source) else .ok s.tree) = .ok tree) :=
    copied_to_wheels orderly named copied
  unfold placeWheel
  dsimp only
  generalize (if source ≠ wheelDest d.toCacheEnv source then
    source.copy2 d.cwd s.tree (wheelDest d.toCacheEnv source) else .ok s.tree) = copied at placed ⊢
  cases copied with
  | error e => exact ⟨false, .refl⟩
  | ok tree =>
    obtain ⟨same, leads⟩ := placed rfl
    dsimp only
    split
    · exact ⟨false, .files .refl same⟩
    · split
      · exact ⟨false, .files .refl same⟩
      · exact ⟨true, .save .refl same (orderly.filed.set leads)⟩

theorem agreeOff_replaceTree (orderly : Orderly d s) (source : PyPath) {layerId : String}
    (inside : PyPath.Inside layerId) : AgreeOff (Area d.toCacheEnv) s.tree
      (replaceTree d.toCacheEnv s.tree source (d.layersDir.join layerId)).2 := by
  have mem : d.layersDir ∈ cacheDirs d.toCacheEnv := by simp [cacheDirs]
  have plain := plain_of_mem orderly.plain mem
  have removed : AgreeOff (Area d.toCacheEnv) s.tree
      ((d.layersDir.join layerId).rmtree d.cwd s.tree).2 :=
    (leads_of_mem orderly.plain mem inside).agreeOff_rmtree downClosed_area
  have copied {t : FileTree Bytes} (ground : Ground d.toCacheEnv t) :
      AgreeOff (Area d.toCacheEnv) t (source.copytree d.cwd t (d.layersDir.join layerId)).2 :=
    (PyPath.agreeOff_copytree_join plain (ground.dirs _ mem) inside).mono
      fun l inner => area_of_mem mem inner
  unfold replaceTree
  split_ifs
  · split
    · next e tree h => rwa [h] at removed
    · next tree h =>
      rw [h] at removed
      exact removed.trans (copied (orderly.ground.of_agreeOff removed))
  · exact copied orderly.ground

/-- A layer is copied to a place in the directory of the layers. -/
theorem agreeOff_placeLayer (orderly : Orderly d s) (source : PyPath) {layerId : String}
    (inside : PyPath.Inside layerId) : AgreeOff (Area d.toCacheEnv) s.tree
      (if source ≠ d.layersDir.join layerId then
        replaceTree d.toCacheEnv s.tree source (d.layersDir.join layerId)
      else (.ok (), s.tree)).2 := by
  split_ifs
  · exact agreeOff_replaceTree orderly source inside
  · exact .refl _ _

theorem serves_storeLayer (orderly : Orderly d s) {layerId : String}
    (inside : PyPath.Inside layerId) (source : PyPath) (sha256 : String)
    (cachedAt lastAccessed : ℚ) :
    Serves d s true
      (storeLayer d.toCacheEnv layerId source sha256 cachedAt lastAccessed s).2 := by
  have evicted := serves_maybeEvict orderly
  have orderly' := (evicted.orderly orderly).1
  have mem : d.layersDir ∈ cacheDirs d.toCacheEnv := by simp [cacheDirs]
  have same := agreeOff_placeLayer orderly' source inside
  unfold storeLayer
  dsimp only
  generalize (if source ≠ d.layersDir.join layerId then _ else _) = copied at same ⊢
  obtain ⟨outcome, tree⟩ := copied
  cases outcome with
  | error e => exact .files evicted same
  | ok _ => exact .save evicted same (orderly'.filed.set (leads_of_mem orderly.plain mem inside))

/-- Clearing leaves the directories of the cache empty. -/
theorem clearDirs_eq_ok (plain : d.cacheDir.Plain d.cwd) {tree : FileTree Bytes}
    (ground : Ground d.toCacheEnv tree) {dirs : List PyPath}
    (known : ∀ dir ∈ dirs, dir ∈ cacheDirs d.toCacheEnv) :
    ∃ tree', clearDirs d.toCacheEnv tree dirs = (.ok (), tree') ∧
      AgreeOff (Area d.toCacheEnv) tree tree' := by
  induction dirs generalizing tree with
  | nil => exact ⟨tree, rfl, .refl _ tree⟩
  | cons dir dirs ih =>
    rw [List.forall_mem_cons] at known
    have there := ground.dirs dir known.1
    obtain ⟨s, rfl, part, up, -⟩ := eq_join_of_mem known.1
    obtain ⟨tree', made, -, same⟩ := PyPath.recreate_join plain part up there
    have same : AgreeOff (Area d.toCacheEnv) tree tree' :=
      same.mono fun l inner => area_of_mem known.1 inner
    obtain ⟨tree'', cleared, rest⟩ := ih (ground.of_agreeOff same) known.2
    refine ⟨tree'', ?_, same.trans rest⟩
    rw [clearDirs, made]
    exact cleared

theorem serves_clear (orderly : Orderly d s) :
    Serves d s (savesIndex d s .clear) (clear d.toCacheEnv s).2 := by
  have known : ∀ dir ∈ cacheDirs d.toCacheEnv, dir ∈ cacheDirs d.toCacheEnv := fun _ h => h
  obtain ⟨tree, cleared, same⟩ := clearDirs_eq_ok orderly.plain orderly.ground known
  rw [savesIndex, clear, show clearDirs d.toCacheEnv s.tree [_, _, _] = _ from cleared]
  exact .save .refl same nofun

theorem agreeOff_verifyEntry {key : String} {e : CacheEntry}
    (leads : e.path.Leads d.cwd (Area d.toCacheEnv)) :
    AgreeOff (Area d.toCacheEnv) s.tree (verifyEntry d.toCacheEnv s key e).1.tree := by
  unfold verifyEntry
  split
  · exact .refl _ _
  · exact .refl _ _
  · split_ifs
    · dsimp only
      split
      · next tree gone => exact leads.agreeOff_unlink downClosed_area gone
      · exact .refl _ _
    · exact .refl _ _

/-- A round that raises no issue changes nothing. -/
theorem verifyEntry_of_no_issue {key : String} {e : CacheEntry}
    (h : (verifyEntry d.toCacheEnv s key e).2 = none) :
    (verifyEntry d.toCacheEnv s key e).1 = s := by
  unfold verifyEntry at h ⊢
  split
  · next missing =>
    rw [missing] at h
    cases h
  · rfl
  · next b file =>
    rw [file] at h
    dsimp only at h
    split_ifs at h ⊢
    rfl

theorem verifyEntries_spec (filed : Filed d s.index) {entries : List (String × CacheEntry)}
    (leads : ∀ e ∈ entries, e.2.path.Leads d.cwd (Area d.toCacheEnv)) :
    AgreeOff (Area d.toCacheEnv) s.tree (verifyEntries d.toCacheEnv s entries).1.tree ∧
      ((verifyEntries d.toCacheEnv s entries).2 = [] →
        (verifyEntries d.toCacheEnv s entries).1 = s) := by
  induction entries generalizing s with
  | nil => exact ⟨.refl _ _, fun _ => rfl⟩
  | cons e rest ih =>
    rw [List.forall_mem_cons] at leads
    have filed' := filed.reduces (reduces_verifyEntry d.toCacheEnv s e.1 e.2)
    obtain ⟨same, quiet⟩ := ih filed' leads.2
    refine ⟨(agreeOff_verifyEntry leads.1).trans same, fun silent => ?_⟩
    have issues : (verifyEntry d.toCacheEnv s e.1 e.2).2.toList = [] ∧ _ :=
      List.append_eq_nil_iff.1 silent
    exact (quiet issues.2).trans (verifyEntry_of_no_issue (Option.toList_eq_nil_iff.1 issues.1))

theorem serves_verifyIntegrity (orderly : Orderly d s) :
    Serves d s (savesIndex d s .verifyIntegrity) (verifyIntegrity d.toCacheEnv s).2 := by
  have leads : ∀ e ∈ s.index.entries, e.2.path.Leads d.cwd (Area d.toCacheEnv) := fun e he =>
    orderly.filed e.1 e.2 ((Dict.get?_eq_some_iff ..).2 he)
  obtain ⟨same, quiet⟩ := verifyEntries_spec orderly.filed leads
  have fewer := reduces_verifyEntries d.toCacheEnv s s.index.entries
  rw [savesIndex]
  unfold verifyIntegrity
  dsimp only
  split_ifs with issues
  · rw [List.isEmpty_eq_false_iff.2 issues]
    exact serves_saveIndex orderly same fewer
  · rw [not_not.1 issues, quiet (not_not.1 issues)]
    exact .refl

theorem serves_getMetadata (orderly : Orderly d s) {package : String}
    (inside : PyPath.Inside (package ++ ".json")) (now : ℚ) :
    Serves d s false (getMetadata d package now s).2 := by
  have leads : (metaFile d.toCacheEnv package).Leads d.cwd (Area d.toCacheEnv) :=
    leads_of_mem orderly.plain (by simp [cacheDirs]) inside
  unfold getMetadata
  split
  · exact .refl
  · split
    · exact .refl
    · split
      · exact .refl
      · exact .refl
      · split
        · next tree gone => exact .files .refl (leads.agreeOff_unlink downClosed_area gone)
        · exact .refl
    · exact .refl

theorem serves_storeMetadata (orderly : Orderly d s) {package : String}
    (inside : PyPath.Inside (package ++ ".json")) (metadata : List (PyKey × PyVal)) (now : ℚ) :
    Serves d s false (storeMetadata d package metadata now s).2 := by
  have leads : (metaFile d.toCacheEnv package).Leads d.cwd (Area d.toCacheEnv) :=
    leads_of_mem orderly.plain (by simp [cacheDirs]) inside
  unfold storeMetadata
  split
  · exact .refl
  · split
    · exact .refl
    · next tree written => exact .files .refl (leads.agreeOff_write written)

/-- A call whose names stay in their directories. -/
theorem serves_serve (orderly : Orderly d s) {call : Call} (named : Named call) :
    Serves d s (savesIndex d s call) (serve d s call) := by
  cases call with
  | getWheel p v now => exact serves_getWheel orderly p v now
  | storeWheel p v source sha256 cachedAt lastAccessed =>
    have evicted := serves_maybeEvict orderly
    obtain ⟨saved, placed⟩ :=
      serves_placeWheel (evicted.orderly orderly).1 named p v sha256 cachedAt lastAccessed
    have both := evicted.trans placed
    rwa [Bool.true_or] at both
  | getLayer layerId now => exact serves_getLayer orderly layerId now
  | storeLayer layerId source sha256 cachedAt lastAccessed =>
    exact serves_storeLayer orderly named source sha256 cachedAt lastAccessed
  | getMetadata package now => exact serves_getMetadata orderly named now
  | storeMetadata package metadata now => exact serves_storeMetadata orderly named metadata now
  | stats => exact .refl
  | verifyIntegrity => exact serves_verifyIntegrity orderly
  | clear => exact serves_clear orderly

end Calls

/-! ## Opening a cache -/

/-- Creating the directories of the cache leaves the index file alone. -/
theorem setUp_eq_ok (plain : d.cacheDir.Plain d.cwd) {tree tree' : FileTree Bytes}
    {dirs : List PyPath} (known : ∀ dir ∈ dirs, dir ∈ cacheDirs d.toCacheEnv)
    (h : setUp d tree dirs = (.ok (), tree')) :
    (∀ dir ∈ dirs, tree'.IsDir (dir.place d.cwd)) ∧ (∀ l, tree.IsDir l → tree'.IsDir l) ∧
      tree'.node? (d.indexFile.place d.cwd) = tree.node? (d.indexFile.place d.cwd) := by
  induction dirs generalizing tree with
  | nil =>
    obtain rfl := (Prod.mk.inj h).2
    exact ⟨nofun, fun _ h => h, rfl⟩
  | cons dir dirs ih =>
    rw [List.forall_mem_cons] at known
    have spec := makeDirs_spec (t := tree) (plain_of_mem plain known.1) tree.isDir_root
    have made : dir.mkdirs d.cwd tree true = tree.makeDirs [] (dir.place d.cwd) :=
      if_neg (by simp)
    rw [setUp, made] at h
    generalize tree.makeDirs [] (dir.place d.cwd) = r at spec h
    obtain ⟨outcome, middle⟩ := r
    cases outcome with
    | error e => cases h
    | ok l =>
      obtain ⟨there, dirs, file⟩ := ih known.2 h
      obtain ⟨nodes, found⟩ := spec
      have kept : ∀ l, tree.IsDir l → middle.IsDir l := by
        intro l dir
        rcases nodes l with same | ⟨-, free, -⟩
        · exact same.trans dir
        · rw [IsDir, free] at dir
          cases dir
      refine ⟨List.forall_mem_cons.2 ⟨?_, there⟩, fun l dir => dirs l (kept l dir), file.trans ?_⟩
      · obtain ⟨hl, dir⟩ := found l rfl
        rw [List.nil_append] at hl
        exact dirs _ (hl ▸ dir)
      · refine (nodes _).resolve_right fun new => ?_
        -- the index file lies beside the directory
        obtain ⟨s, rfl, part, up, other⟩ := eq_join_of_mem known.1
        have below := new.1.2
        rw [place_indexFile, place_join_isPart _ part up, List.nil_append, Below,
          List.prefix_append_right_inj] at below
        obtain ⟨rest, same⟩ := below
        exact other (List.cons.inj same).1.symm

/-- The directories that are there are not created again. -/
theorem setUp_of_ground (plain : d.cacheDir.Plain d.cwd) {tree : FileTree Bytes}
    (ground : Ground d.toCacheEnv tree) {dirs : List PyPath}
    (known : ∀ dir ∈ dirs, dir ∈ cacheDirs d.toCacheEnv) : setUp d tree dirs = (.ok (), tree) := by
  induction dirs with
  | nil => rfl
  | cons dir dirs ih =>
    rw [List.forall_mem_cons] at known
    have there : tree.IsDir ([] ++ dir.place d.cwd) := ground.dirs dir known.1
    have made : dir.mkdirs d.cwd tree true = (.ok (dir.place d.cwd), tree) := by
      have through := makeDirs_append_of_isDir (plain_of_mem plain known.1) there []
      rw [List.append_nil] at through
      exact (if_neg (by simp)).trans through
    rw [setUp, made]
    exact ih known.2

/-- A manager whose index is the one on disk is the manager that is created from its files. -/
theorem Orderly.create {s : CacheManager} (h : Orderly d s)
    (disk : loadIndex d s.tree = some s.index) : create d s.tree = some s := by
  rw [CacheManager.create, setUp_of_ground h.plain h.ground fun _ h => h]
  dsimp only
  rw [disk]
  rfl

/-- Without an index file there are no entries. -/
theorem loadIndex_of_absent (plain : d.cacheDir.Plain d.cwd) {tree : FileTree Bytes}
    (absent : tree.node? (d.indexFile.place d.cwd) = none) : loadIndex d tree = some ∅ := by
  have plain' : d.indexFile.Plain d.cwd := by
    rw [indexFile_eq]
    exact plain.join (PyPath.inside_of_isPart (by decide) (by decide))
  cases file : d.indexFile.read d.cwd tree with
  | error e => rw [loadIndex, file]
  | ok b =>
    obtain ⟨l, found, there⟩ := PyPath.read_eq_ok_iff.1 file
    obtain rfl := PyPath.eq_place_of_locate plain' found
    rw [absent] at there
    cases there

theorem loadIndex_of_empty (plain : d.cacheDir.Plain d.cwd) {tree : FileTree Bytes}
    (empty : ∀ rest, rest ≠ [] → tree.node? (d.cacheDir.place d.cwd ++ rest) = none) :
    loadIndex d tree = some ∅ := by
  refine loadIndex_of_absent plain ?_
  rw [place_indexFile]
  exact empty _ (List.cons_ne_nil _ _)

/-- A manager that is created in an empty cache directory. -/
theorem orderly_create (plain : d.cacheDir.Plain d.cwd) {tree : FileTree Bytes} {s : CacheManager}
    (empty : ∀ rest, rest ≠ [] → tree.node? (d.cacheDir.place d.cwd ++ rest) = none)
    (created : create d tree = some s) :
    (Orderly d s ∧ loadIndex d s.tree = some s.index) ∧ s.index = ∅ := by
  unfold CacheManager.create at created
  split at created
  · cases created
  · next tree' made =>
    obtain ⟨there, -, file⟩ := setUp_eq_ok plain (fun _ h => h) made
    have absent : tree'.node? (d.indexFile.place d.cwd) = none := by
      rw [file, place_indexFile, empty _ (List.cons_ne_nil _ _)]
    have ground : Ground d.toCacheEnv tree' := ⟨there, by simp [IsDir, absent]⟩
    have disk := loadIndex_of_absent plain absent
    rw [disk] at created
    obtain rfl := Option.some.inj created
    refine ⟨⟨⟨plain, ground, fun key e found => ?_⟩, disk⟩, rfl⟩
    cases found

/-! ## Runs -/

/-- A call of a manager. -/
def callStep (d : CacheDisk) (s : CacheManager) (call : Call) : Option CacheManager :=
  some (serve d s call)

/-- In every run in an empty cache directory whose names stay in their directories, the index on
disk is the index in memory, and a manager that is created on the files is the manager itself. -/
theorem index_on_disk (plain : d.cacheDir.Plain d.cwd) (tree : FileTree Bytes)
    (empty : ∀ rest, rest ≠ [] → tree.node? (d.cacheDir.place d.cwd ++ rest) = none)
    (s s' : CacheManager) (created : create d tree = some s) (calls : List Call)
    (named : Machine.Along (callStep d) (fun _ call => Named call) s calls)
    (ran : Machine.run (callStep d) s calls = some s') :
    loadIndex d s'.tree = some s'.index ∧ create d s'.tree = some s' := by
  have step : ∀ (s : CacheManager) (call : Call) (s' : CacheManager), Named call →
      Orderly d s ∧ loadIndex d s.tree = some s.index → callStep d s call = some s' →
      Orderly d s' ∧ loadIndex d s'.tree = some s'.index := by
    rintro s call s' named ⟨orderly, disk⟩ hs
    obtain rfl := Option.some.inj hs
    obtain ⟨orderly', saved⟩ := (serves_serve orderly named).orderly orderly
    refine ⟨orderly', ?_⟩
    cases saves : savesIndex d s call with
    | true =>
      rw [saves] at saved
      exact saved
    | false =>
      rw [saves] at saved
      rw [saved.2, disk, saved.1]
  obtain ⟨orderly, disk⟩ :=
    Machine.invariant_along step (orderly_create plain empty created).1 named ran
  exact ⟨disk, orderly.create disk⟩

/-- The cache under `/h`, with a spelling of JSON to evaluate with. -/
def sampleDisk : CacheDisk where
  toCacheEnv := { sampleCacheEnv with
    dumps := fun index =>
      match sampleJson.py.dumps index.value with
      | .ok t => sampleJson.spell t
      | .error _ => [] }
  toJsonFiles := sampleJson
  dumps_eq index t h := by
    show (match sampleJson.py.dumps index.value with
      | .ok t => sampleJson.spell t
      | .error _ => []) = _
    rw [h]

/-- A wheel in `/a`, and no cache. -/
def wheelOnly : FileTree Bytes :=
  let dirs := ((PyPath.ofString "/a").mkdirs [] FileTree.bare true).2
  ((PyPath.ofString "/a/x.whl").write [] dirs [1]).toOption.getD dirs

/-- The manager that is created there. -/
def createdCache : CacheManager := (create sampleDisk wheelOnly).getD ⟨wheelOnly, ∅⟩

theorem create_wheelOnly : create sampleDisk wheelOnly = some createdCache := by
  have isSome : (create sampleDisk wheelOnly).isSome := by decide +kernel
  obtain ⟨s, hs⟩ := Option.isSome_iff_exists.1 isSome
  rw [createdCache, hs]
  rfl

theorem plain_sampleDisk : sampleDisk.cacheDir.Plain sampleDisk.cwd := by
  unfold PyPath.Plain
  decide +kernel

theorem wheelOnly_empty : ∀ rest, rest ≠ [] →
    wheelOnly.node? (sampleDisk.cacheDir.place sampleDisk.cwd ++ rest) = none := by
  intro rest _
  have place : sampleDisk.cacheDir.place sampleDisk.cwd = ["h", "cache"] := by decide +kernel
  have keys : wheelOnly.nodes.keys = [[], ["a"], ["a", "x.whl"]] := by decide +kernel
  rw [place]
  by_contra present
  have mem := (Dict.mem_keys_iff wheelOnly.nodes (["h", "cache"] ++ rest)).2
    (Option.ne_none_iff_isSome.1 present)
  rw [keys] at mem
  simp at mem

/-- A wheel is stored and looked up. -/
def storeAndGet : List Call :=
  [.storeWheel "p" "1" (PyPath.ofString "/a/x.whl") "" 1 1, .getWheel "p" "1" 2]

theorem index_on_disk_sample :
    ∃ s', Machine.run (callStep sampleDisk) createdCache storeAndGet = some s' ∧
      s'.index.keys = [wheelKey "p" "1"] ∧
      loadIndex sampleDisk s'.tree = some s'.index ∧ create sampleDisk s'.tree = some s' := by
  have named : ∀ call ∈ storeAndGet, Named call := by
    simp only [storeAndGet, List.forall_mem_cons, List.not_mem_nil, false_implies, implies_true,
      and_true]
    exact ⟨by show PyPath.name _ ≠ ".."; decide +kernel, trivial⟩
  refine ⟨serve sampleDisk (serve sampleDisk createdCache _) _, rfl, by decide +kernel, ?_⟩
  exact index_on_disk plain_sampleDisk wheelOnly wheelOnly_empty createdCache _ create_wheelOnly
    storeAndGet (Machine.along_of_forall_mem named createdCache) rfl

/-- Metadata that is written to the path of the index file is what a new manager finds there. -/
theorem loadIndex_storeMetadata {s : CacheManager} {package : String} {l : Loc} {now : ℚ}
    (meta_place : (metaFile d.toCacheEnv package).locate d.cwd s.tree = .ok l)
    (index_place : d.indexFile.locate d.cwd s.tree = .ok l) (free : ¬ s.tree.IsDir l) :
    loadIndex d (storeMetadata d package [] now s).2.tree = none := by
  have parent : s.tree.IsDir l.dropLast :=
    isDir_dropLast_of_resolve (show s.tree.IsDir ([] : Loc).dropLast from s.tree.isDir_root)
      meta_place
  have dumped : d.py.dumpsStrict
      (.dict (Dict.assign (.str "_cached_at") (.float (.finite now)) [])) =
      .ok (.obj [("_cached_at", .float (.finite now))]) := rfl
  obtain ⟨tree, written⟩ :=
    exists_write (d.spell (.obj [("_cached_at", .float (.finite now))])) free parent
  have found : d.indexFile.locate d.cwd tree = .ok l :=
    PyPath.locate_mono (fun l => (isDir_of_write written l).2) index_place
  have content := (write_eq_ok written).2.2 l
  rw [if_pos rfl] at content
  have stored : (storeMetadata d package [] now s).2 = ⟨tree, s.index⟩ := by
    rw [storeMetadata, dumped]
    dsimp only
    rw [PyPath.write, meta_place]
    dsimp only
    rw [written]
  rw [stored, loadIndex, PyPath.read_eq_ok_iff.2 ⟨l, found, content⟩]
  dsimp only
  rw [d.parse_spell]
  rfl

/-- Metadata of a package `../cache` is written over the index file. -/
theorem index_overwritten :
    ∃ s s', create sampleDisk wheelOnly = some s ∧
      Machine.run (callStep sampleDisk) s [.storeMetadata "../cache" [] 5] = some s' ∧
      loadIndex sampleDisk s'.tree ≠ some s'.index := by
  refine ⟨createdCache, serve sampleDisk createdCache _, create_wheelOnly, rfl, ?_⟩
  have lost : loadIndex sampleDisk (storeMetadata sampleDisk "../cache" [] 5 createdCache).2.tree =
      none := by
    apply loadIndex_storeMetadata (l := ["h", "cache", "cache.json"])
    · decide +kernel
    · decide +kernel
    · decide +kernel
  intro same
  exact absurd (lost.symm.trans same) nofun

end CacheManager

end Cpip
