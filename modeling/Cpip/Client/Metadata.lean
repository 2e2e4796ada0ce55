import Cpip.Client.CacheShared
import Cpip.Client.Dispatch
import Cpip.Lib.Expiry
import Cpip.Python.NamedFiles
import Cpip.Python.Toml

/-!
# The metadata cache

Any number of processes keep metadata in one directory, with wheels and layers beside it.  An entry
expires after a day, and whoever finds it expired removes its file.  Whatever the processes do,
asking for a package gives what was stored for it last, unless that expired, was invalidated or was
cleared.
-/

namespace Cpip

namespace CacheManager

open FileTree

variable {d : CacheDisk}

/-! ## Wheels and layers lie elsewhere -/

/-- A place among the wheels or the layers. -/
def Bins (env : CacheEnv) (l : Loc) : Prop :=
  Inner (env.wheelsDir.place env.cwd) l ∨ Inner (env.layersDir.place env.cwd) l

/-- A place that the operations on wheels and layers may change. -/
def Elsewhere (env : CacheEnv) (l : Loc) : Prop :=
  Bins env l ∨ l = env.indexFile.place env.cwd

theorem downClosed_bins (env : CacheEnv) : DownClosed (Bins env) := by
  rintro l l' (inner | inner) below
  · exact .inl (downClosed_inner _ l l' inner below)
  · exact .inr (downClosed_inner _ l l' inner below)

theorem leads_wheels (plain : d.cacheDir.Plain d.cwd) {s : String} (inside : PyPath.Inside s) :
    (d.wheelsDir.join s).Leads d.cwd (Bins d.toCacheEnv) := by
  have mem : d.wheelsDir ∈ cacheDirs d.toCacheEnv := by simp [cacheDirs]
  obtain ⟨plain, inner⟩ := PyPath.leads_join (plain_of_mem plain mem) inside
  exact ⟨plain, .inl inner⟩

theorem leads_layers (plain : d.cacheDir.Plain d.cwd) {s : String} (inside : PyPath.Inside s) :
    (d.layersDir.join s).Leads d.cwd (Bins d.toCacheEnv) := by
  have mem : d.layersDir ∈ cacheDirs d.toCacheEnv := by simp [cacheDirs]
  obtain ⟨plain, inner⟩ := PyPath.leads_join (plain_of_mem plain mem) inside
  exact ⟨plain, .inr inner⟩

/-- The metadata, and their directory, are not elsewhere. -/
theorem not_elsewhere_metadata (env : CacheEnv) (rest : Loc) :
    ¬ Elsewhere env (env.metadataDir.place env.cwd ++ rest) := by
  have place (s : String) (part : IsPart s) (up : s ≠ "..") :
      (env.cacheDir.join s).place env.cwd = env.cacheDir.place env.cwd ++ [s] :=
    place_join_isPart _ part up env.cwd
  rintro ((⟨rest', -, same⟩ | ⟨rest', -, same⟩) | same)
  · rw [CacheEnv.metadataDir, CacheEnv.wheelsDir, place "metadata" (by decide) (by decide),
      place "wheels" (by decide) (by decide), List.append_assoc, List.append_assoc,
      List.append_cancel_left_eq] at same
    simp at same
  · rw [CacheEnv.metadataDir, CacheEnv.layersDir, place "metadata" (by decide) (by decide),
      place "layers" (by decide) (by decide), List.append_assoc, List.append_assoc,
      List.append_cancel_left_eq] at same
    simp at same
  · rw [place_indexFile, CacheEnv.metadataDir, place "metadata" (by decide) (by decide),
      List.append_assoc, List.append_cancel_left_eq] at same
    simp at same

/-- The entries are for places among the wheels and the layers. -/
def Binned (d : CacheDisk) (index : CacheIndex) : Prop :=
  ∀ key e, index.get? key = some e → e.path.Leads d.cwd (Bins d.toCacheEnv)

theorem Binned.reduces {before index : CacheIndex} (h : Binned d before)
    (fewer : Reduces before index) : Binned d index := by
  intro key e he
  obtain ⟨e₀, he₀, path, -⟩ := fewer.descends key e he
  exact path ▸ h key e₀ he₀

theorem Binned.set {index : CacheIndex} (h : Binned d index) {key : String} {e : CacheEntry}
    (leads : e.path.Leads d.cwd (Bins d.toCacheEnv)) : Binned d (index.set key e) := by
  intro key' e' he'
  rw [Dict.get?_set] at he'
  split_ifs at he' with same
  · exact Option.some.inj he' ▸ leads
  · exact h key' e' he'

/-- What an operation on wheels or layers leaves: it changes files elsewhere, and files its entries
there. -/
structure Quiet (d : CacheDisk) (s s' : CacheManager) : Prop where
  same : AgreeOff (Elsewhere d.toCacheEnv) s.tree s'.tree
  binned : Binned d s'.index

variable {s : CacheManager}

theorem agreeOff_saveIndex (plain : d.cacheDir.Plain d.cwd) (s : CacheManager) :
    AgreeOff (Elsewhere d.toCacheEnv) s.tree (saveIndex d.toCacheEnv s).tree := by
  unfold saveIndex
  split
  · next tree written =>
    obtain ⟨l, found, written⟩ := PyPath.write_eq_ok written
    have plain : d.indexFile.Plain d.cwd := by
      rw [indexFile_eq]
      exact plain.join (PyPath.inside_of_isPart (by decide) (by decide))
    obtain rfl := PyPath.eq_place_of_locate plain found
    exact FileTree.agreeOff_write (.inr rfl) written
  · exact .refl _ _

theorem quiet_saveIndex (plain : d.cacheDir.Plain d.cwd) {tree : FileTree Bytes}
    {index : CacheIndex} (same : AgreeOff (Bins d.toCacheEnv) s.tree tree)
    (binned : Binned d index) : Quiet d s (saveIndex d.toCacheEnv ⟨tree, index⟩) where
  same := (same.mono fun _ => .inl).trans (agreeOff_saveIndex plain ⟨tree, index⟩)
  binned := by
    rw [saveIndex_index]
    exact binned

theorem Quiet.refl (binned : Binned d s.index) : Quiet d s s := ⟨.refl _ _, binned⟩

theorem quiet_getWheel (plain : d.cacheDir.Plain d.cwd) (binned : Binned d s.index)
    (p v : String) (now : ℚ) : Quiet d s (getWheel d.toCacheEnv p v now s).2 := by
  have found := getWheel_lookup d.toCacheEnv p v now s
  generalize getWheel d.toCacheEnv p v now s = r at found ⊢
  cases found with
  | absent => exact .refl binned
  | directory => exact .refl binned
  | missing e he =>
    exact quiet_saveIndex plain (.refl _ _) (binned.reduces (Reduces.refl.pop _))
  | corrupt e l b he place =>
    have inside := (binned _ e he).of_locate place
    exact quiet_saveIndex plain (agreeOff_prune (downClosed_bins _) inside)
      (binned.reduces (Reduces.refl.pop _))
  | found e l b he =>
    exact quiet_saveIndex plain (.refl _ _) (binned.reduces (Reduces.refl.touch he now))

theorem quiet_getLayer (plain : d.cacheDir.Plain d.cwd) (binned : Binned d s.index)
    (layerId : String) (now : ℚ) : Quiet d s (getLayer d.toCacheEnv layerId now s).2 := by
  unfold getLayer
  dsimp only
  split
  · exact .refl binned
  · next e he =>
    split_ifs
    · exact quiet_saveIndex plain (.refl _ _) (binned.reduces (Reduces.refl.touch he now))
    · exact quiet_saveIndex plain (.refl _ _) (binned.reduces (Reduces.refl.pop _))

theorem agreeOff_bins_removePath {path : PyPath} (leads : path.Leads d.cwd (Bins d.toCacheEnv))
    (tree : FileTree Bytes) :
    AgreeOff (Bins d.toCacheEnv) tree (removePath d.toCacheEnv tree path) := by
  unfold removePath
  split_ifs
  · split
    · next tree' gone => exact leads.agreeOff_unlink (downClosed_bins _) gone
    · exact .refl _ tree
  · exact leads.agreeOff_rmtree (downClosed_bins _)
  · exact .refl _ tree

theorem agreeOff_bins_evictLoop (rounds : ℕ) (binned : Binned d s.index) :
    AgreeOff (Bins d.toCacheEnv) s.tree (evictLoop d.toCacheEnv rounds s).tree := by
  induction rounds generalizing s with
  | zero => exact .refl _ _
  | succ rounds ih =>
    unfold evictLoop
    split_ifs
    · split
      · exact .refl _ _
      · next key e least =>
        have entry : s.index.get? key = some e :=
          (Dict.get?_eq_some_iff ..).2 (List.argmin_mem least)
        exact (agreeOff_bins_removePath (binned key e entry) s.tree).trans
          (ih (s := ⟨_, s.index.pop key⟩) (binned.reduces (Reduces.refl.pop key)))
    · exact .refl _ _

theorem quiet_maybeEvict (plain : d.cacheDir.Plain d.cwd) (binned : Binned d s.index) :
    Quiet d s (maybeEvict d.toCacheEnv s) :=
  quiet_saveIndex plain (agreeOff_bins_evictLoop _ binned)
    (binned.reduces (reduces_evictLoop _ _ s))

/-- A wheel is copied to a place among the wheels. -/
theorem copied_to_bins (plain : d.cacheDir.Plain d.cwd) (ground : Ground d.toCacheEnv s.tree)
    {source : PyPath} (named : source.name ≠ "..") {tree : FileTree Bytes}
    (copied : (if source ≠ wheelDest d.toCacheEnv source then
      source.copy2 d.cwd s.tree (wheelDest d.toCacheEnv source) else .ok s.tree) = .ok tree) :
    AgreeOff (Bins d.toCacheEnv) s.tree tree ∧
      (wheelDest d.toCacheEnv source).Leads d.cwd (Bins d.toCacheEnv) := by
  have mem : d.wheelsDir ∈ cacheDirs d.toCacheEnv := List.mem_cons_self
  by_cases empty : source.name = ""
  · -- the directory itself cannot be written
    have dest : wheelDest d.toCacheEnv source = d.wheelsDir := by
      rw [wheelDest, empty, PyPath.join_empty]
    have other : source ≠ d.wheelsDir := by
      rintro rfl
      have parts := (d.cacheDir.join_of_isPart (s := "wheels") (by decide)).2
      rw [PyPath.name, show d.wheelsDir.parts = _ from parts, List.getLast?_concat] at empty
      exact absurd empty (by decide)
    rw [dest, if_pos other] at copied
    obtain ⟨l, b, found, -, -, written⟩ := PyPath.copy2_eq_ok copied
    have target : PyPath.copyTarget d.cwd s.tree source d.wheelsDir = d.wheelsDir := by
      rw [PyPath.copyTarget, empty, PyPath.join_empty, ite_self]
    rw [target] at found
    obtain rfl := PyPath.eq_place_of_locate (plain_of_mem plain mem) found
    exact absurd (ground.dirs _ mem) (write_eq_ok written).1
  · have inside := PyPath.inside_of_isPart (PyPath.isPart_name empty) named
    have leads := leads_wheels plain inside
    refine ⟨?_, leads⟩
    split_ifs at copied
    · exact leads.agreeOff_copy2 (downClosed_bins _) inside copied
    · exact Except.ok.inj copied ▸ .refl _ _

theorem Quiet.trans {s' s'' : CacheManager} (h : Quiet d s s') (h' : Quiet d s' s'') :
    Quiet d s s'' := ⟨h.same.trans h'.same, h'.binned⟩

theorem Quiet.files {tree : FileTree Bytes} (same : AgreeOff (Bins d.toCacheEnv) s.tree tree)
    (binned : Binned d s.index) : Quiet d s ⟨tree, s.index⟩ :=
  ⟨same.mono fun _ => .inl, binned⟩

theorem quiet_placeWheel (plain : d.cacheDir.Plain d.cwd) (ground : Ground d.toCacheEnv s.tree)
    (binned : Binned d s.index) {source : PyPath} (named : source.name ≠ "..")
    (p v sha256 : String) (cachedAt lastAccessed : ℚ) :
    Quiet d s (placeWheel d.toCacheEnv p v source sha256 cachedAt lastAccessed s).2 := by
  have placed {tree : FileTree Bytes} (copied : (if source ≠ wheelDest d.toCacheEnv source then
      source.copy2 d.cwd s.tree (wheelDest d.toCacheEnv source) else .ok s.tree) = .ok tree) :=
    copied_to_bins plain ground named copied
  unfold placeWheel
  dsimp only
  generalize (if source ≠ wheelDest d.toCacheEnv source then
    source.copy2 d.cwd s.tree (wheelDest d.toCacheEnv source) else .ok s.tree) = copied at placed ⊢
  cases copied with
  | error e => exact .refl binned
  | ok tree =>
    obtain ⟨same, leads⟩ := placed rfl
    dsimp only
    split
    · exact .files same binned
    · split
      · exact .files same binned
      · exact quiet_saveIndex plain same (binned.set leads)

theorem agreeOff_bins_replaceTree (plain : d.cacheDir.Plain d.cwd)
    (ground : Ground d.toCacheEnv s.tree) (source : PyPath) {layerId : String}
    (inside : PyPath.Inside layerId) : AgreeOff (Bins d.toCacheEnv) s.tree
      (replaceTree d.toCacheEnv s.tree source (d.layersDir.join layerId)).2 := by
  have mem : d.layersDir ∈ cacheDirs d.toCacheEnv := by simp [cacheDirs]
  have removed : AgreeOff (Bins d.toCacheEnv) s.tree
      ((d.layersDir.join layerId).rmtree d.cwd s.tree).2 :=
    (leads_layers plain inside).agreeOff_rmtree (downClosed_bins _)
  have copied {t : FileTree Bytes} (there : t.IsDir (d.layersDir.place d.cwd)) :
      AgreeOff (Bins d.toCacheEnv) t (source.copytree d.cwd t (d.layersDir.join layerId)).2 :=
    (PyPath.agreeOff_copytree_join (plain_of_mem plain mem) there inside).mono fun _ => .inr
  have there := ground.dirs _ mem
  have outside : ¬ Bins d.toCacheEnv (d.layersDir.place d.cwd) := by
    intro inner
    refine not_area_dir mem ?_
    rcases inner with inner | inner
    · exact area_of_mem (by simp [cacheDirs]) inner
    · exact area_of_mem mem inner
  unfold replaceTree
  split_ifs
  · split
    · next e tree h => rwa [h] at removed
    · next tree h =>
      rw [h] at removed
      exact removed.trans (copied ((removed.isDir outside).2 there))
  · exact copied there

theorem Binned.filed {index : CacheIndex} (h : Binned d index) : Filed d index := by
  intro key e he
  obtain ⟨plain, inner | inner⟩ := h key e he
  · exact ⟨plain, area_of_mem (by simp [cacheDirs]) inner⟩
  · exact ⟨plain, area_of_mem (by simp [cacheDirs]) inner⟩

theorem ground_maybeEvict (plain : d.cacheDir.Plain d.cwd) (ground : Ground d.toCacheEnv s.tree)
    (binned : Binned d s.index) : Ground d.toCacheEnv (maybeEvict d.toCacheEnv s).tree :=
  have orderly : Orderly d s := ⟨plain, ground, binned.filed⟩
  ((serves_maybeEvict orderly).orderly orderly).1.ground

theorem quiet_storeLayer (plain : d.cacheDir.Plain d.cwd) (ground : Ground d.toCacheEnv s.tree)
    (binned : Binned d s.index) {layerId : String} (inside : PyPath.Inside layerId)
    (source : PyPath) (sha256 : String) (cachedAt lastAccessed : ℚ) :
    Quiet d s (storeLayer d.toCacheEnv layerId source sha256 cachedAt lastAccessed s).2 := by
  have evicted := quiet_maybeEvict plain binned
  have replaced := agreeOff_bins_replaceTree plain (ground_maybeEvict plain ground binned) source
    inside
  unfold storeLayer
  dsimp only
  generalize maybeEvict d.toCacheEnv s = m at evicted replaced ⊢
  have same : AgreeOff (Bins d.toCacheEnv) m.tree
      (if source ≠ d.layersDir.join layerId then
        replaceTree d.toCacheEnv m.tree source (d.layersDir.join layerId)
      else (.ok (), m.tree)).2 := by
    split_ifs
    · exact replaced
    · exact .refl _ _
  generalize (if source ≠ d.layersDir.join layerId then _ else _) = copied at same ⊢
  obtain ⟨outcome, tree⟩ := copied
  cases outcome with
  | error e => exact evicted.trans (.files same evicted.binned)
  | ok _ =>
    exact evicted.trans
      (quiet_saveIndex plain same (evicted.binned.set (leads_layers plain inside)))

theorem quiet_storeWheel (plain : d.cacheDir.Plain d.cwd) (ground : Ground d.toCacheEnv s.tree)
    (binned : Binned d s.index) {source : PyPath} (named : source.name ≠ "..")
    (p v sha256 : String) (cachedAt lastAccessed : ℚ) :
    Quiet d s (storeWheel d.toCacheEnv p v source sha256 cachedAt lastAccessed s).2 := by
  have evicted := quiet_maybeEvict plain binned
  exact evicted.trans (quiet_placeWheel plain (ground_maybeEvict plain ground binned)
    evicted.binned named p v sha256 cachedAt lastAccessed)

theorem agreeOff_bins_verifyEntry {key : String} {e : CacheEntry}
    (leads : e.path.Leads d.cwd (Bins d.toCacheEnv)) :
    AgreeOff (Bins d.toCacheEnv) s.tree (verifyEntry d.toCacheEnv s key e).1.tree := by
  unfold verifyEntry
  split
  · exact .refl _ _
  · exact .refl _ _
  · split_ifs
    · dsimp only
      split
      · next tree gone => exact leads.agreeOff_unlink (downClosed_bins _) gone
      · exact .refl _ _
    · exact .refl _ _

theorem agreeOff_bins_verifyEntries {entries : List (String × CacheEntry)}
    (leads : ∀ e ∈ entries, e.2.path.Leads d.cwd (Bins d.toCacheEnv)) :
    AgreeOff (Bins d.toCacheEnv) s.tree (verifyEntries d.toCacheEnv s entries).1.tree := by
  induction entries generalizing s with
  | nil => exact .refl _ _
  | cons e rest ih =>
    rw [List.forall_mem_cons] at leads
    exact (agreeOff_bins_verifyEntry leads.1).trans (ih leads.2)

theorem quiet_verifyIntegrity (plain : d.cacheDir.Plain d.cwd) (binned : Binned d s.index) :
    Quiet d s (verifyIntegrity d.toCacheEnv s).2 := by
  have leads : ∀ e ∈ s.index.entries, e.2.path.Leads d.cwd (Bins d.toCacheEnv) := fun e he =>
    binned e.1 e.2 ((Dict.get?_eq_some_iff ..).2 he)
  have same := agreeOff_bins_verifyEntries (s := s) leads
  have fewer := binned.reduces (reduces_verifyEntries d.toCacheEnv s s.index.entries)
  unfold verifyIntegrity
  dsimp only
  split_ifs
  · exact quiet_saveIndex plain same fewer
  · exact ⟨same.mono fun _ => .inl, fewer⟩

/-- A call that is about wheels, layers or statistics. -/
def Call.ofIndex : Call → Bool
  | .getMetadata .. | .storeMetadata .. | .clear => false
  | _ => true

theorem quiet_serve (plain : d.cacheDir.Plain d.cwd) (ground : Ground d.toCacheEnv s.tree)
    (binned : Binned d s.index) {call : Call} (named : Named call) (kind : call.ofIndex = true) :
    Quiet d s (serve d s call) := by
  cases call with
  | getWheel p v now => exact quiet_getWheel plain binned p v now
  | storeWheel p v source sha256 cachedAt lastAccessed =>
    exact quiet_storeWheel plain ground binned named p v sha256 cachedAt lastAccessed
  | getLayer layerId now => exact quiet_getLayer plain binned layerId now
  | storeLayer layerId source sha256 cachedAt lastAccessed =>
    exact quiet_storeLayer plain ground binned named source sha256 cachedAt lastAccessed
  | stats => exact .refl binned
  | verifyIntegrity => exact quiet_verifyIntegrity plain binned
  | getMetadata | storeMetadata | clear => cases kind

/-! ## The files of the metadata -/

/-- Metadata and the time at which they were stored. -/
abbrev Stored := List (PyKey × PyVal) × ℚ

/-- What was stored more than a day ago. -/
def Stale (now t : ℚ) : Prop := 86400 < now - t

instance : DecidableRel Stale := fun now t => inferInstanceAs (Decidable (86400 < now - t))

/-- The dictionary that is written, and read back. -/
def stamped (e : Stored) : List (PyKey × PyVal) :=
  Dict.assign (.str "_cached_at") (.float (.finite e.2)) e.1

def metaText (d : CacheDisk) (e : Stored) : Bytes :=
  match d.py.dumpsStrict (.dict (stamped e)) with
  | .ok t => d.spell t
  | .error _ => []

theorem isJson_stamped {e : Stored} (json : (PyVal.dict e.1).IsJson) :
    (PyVal.dict (stamped e)).IsJson := by
  obtain ⟨⟨strings, different⟩, parts⟩ := (PyVal.everywhere_dict_iff _).1 json
  refine (PyVal.everywhere_dict_iff _).2 ⟨⟨fun k hk => ?_, Dict.nodup_assign _ _ different⟩, ?_⟩
  · obtain ⟨x, mem, rfl⟩ := List.mem_map.1 hk
    rcases Dict.mem_assign mem with new | old
    · exact ⟨"_cached_at", by rw [new]⟩
    · exact strings _ (List.mem_map_of_mem old)
  · intro x mem
    rcases Dict.mem_assign mem with new | old
    · rw [new]
      trivial
    · exact parts x old

theorem getStr_stamped (e : Stored) :
    PyVal.getStr "_cached_at" (stamped e) = some (.float (.finite e.2)) := by
  obtain ⟨items, t⟩ := e
  unfold stamped
  induction items with
  | nil => exact PyVal.getStr_cons ..
  | cons x rest ih =>
    unfold Dict.assign
    split_ifs with here
    · rw [here, PyVal.getStr_cons_key, if_pos rfl]
    · rw [PyVal.getStr_cons_key, if_neg here]
      exact ih

theorem metaText_spec (d : CacheDisk) {e : Stored} (json : (PyVal.dict e.1).IsJson) :
    ∃ t, d.py.dumpsStrict (.dict (stamped e)) = .ok t ∧ t.loads = .dict (stamped e) ∧
      metaText d e = d.spell t := by
  have json := isJson_stamped json
  obtain ⟨t, dumped, loaded⟩ := d.py.loads_dumps json
  rw [← d.py.dumpsStrict_of_isJson json] at dumped
  exact ⟨t, dumped, loaded, by rw [metaText, dumped]⟩

/-- The directory of the metadata has a file for each package that is held. -/
structure Holding (d : CacheDisk) (held : String → Option Stored) (t : FileTree Bytes) : Prop where
  files : NamedFiles d.cwd d.metadataDir ".json" (d.metadataDir.place d.cwd)
    (fun p => (held p).map (metaText d)) t
  json : ∀ p e, held p = some e → (PyVal.dict e.1).IsJson

variable {held : String → Option Stored} {p : String}

theorem isPart_metaFile (plain : '/' ∉ p.toList) : IsPart (p ++ ".json") ∧ p ++ ".json" ≠ ".." :=
  isPart_append plain (by decide) (by decide)

theorem map_update (held : String → Option Stored) (p : String) (e : Option Stored) :
    (fun q => (Function.update held p e q).map (metaText d)) =
      Function.update (fun q => (held q).map (metaText d)) p (e.map (metaText d)) := by
  funext q
  by_cases here : q = p
  · subst here
    simp
  · rw [Function.update_of_ne here, Function.update_of_ne here]

theorem Holding.of_agreeOff (h : Holding d held s.tree) (plain : d.cacheDir.Plain d.cwd)
    {t : FileTree Bytes} (same : AgreeOff (Elsewhere d.toCacheEnv) s.tree t) :
    Holding d held t := by
  have there : t.IsDir (d.metadataDir.place d.cwd) := by
    have outside := not_elsewhere_metadata d.toCacheEnv []
    rw [List.append_nil] at outside
    exact (same.isDir outside).2 h.files.isDir
  have mem : d.metadataDir ∈ cacheDirs d.toCacheEnv := by simp [cacheDirs]
  refine ⟨⟨PyPath.locate_of_isDir (plain_of_mem plain mem) there, there, fun name => ?_⟩, h.json⟩
  rw [same _ (not_elsewhere_metadata d.toCacheEnv _)]
  exact h.files.node? name

/-- A file is removed. -/
theorem Holding.unlink (h : Holding d held s.tree) (plain : '/' ∉ p.toList) :
    ∃ t, (metaFile d.toCacheEnv p).unlink d.cwd s.tree = .ok t ∧
      Holding d (Function.update held p none) t := by
  obtain ⟨t, gone, files⟩ := h.files.unlink (isPart_metaFile plain)
  refine ⟨t, gone, ?_, fun q e there => ?_⟩
  · rw [map_update]
    exact files
  · by_cases here : q = p
    · subst here
      rw [Function.update_self] at there
      cases there
    · rw [Function.update_of_ne here] at there
      exact h.json q e there

/-- What is asked for is there unless it is stale, and then it is not held any longer. -/
theorem getMetadata_of_holding (h : Holding d held s.tree) (plain : '/' ∉ p.toList) (now : ℚ) :
    (getMetadata d p now s).1 =
        .ok ((Expiry.fresh Stale now (held p)).map fun e => .dict (stamped e)) ∧
      (getMetadata d p now s).2.index = s.index ∧
      ∃ held', Holding d held' (getMetadata d p now s).2.tree ∧
        (held' = held ∨
          ∃ e, held p = some e ∧ Stale now e.2 ∧ held' = Function.update held p none) := by
  have read := h.files.read (isPart_metaFile plain)
  unfold getMetadata
  rw [metaFile, read]
  cases there : held p with
  | none => exact ⟨rfl, rfl, held, h, .inl rfl⟩
  | some e =>
    obtain ⟨t, -, loaded, text⟩ := metaText_spec d (h.json p e there)
    rw [Option.map_some]
    dsimp only
    rw [text, d.parse_spell, Option.map_some, loaded]
    dsimp only
    rw [getStr_stamped, Option.getD_some]
    by_cases stale : Stale now e.2
    · have old : expired now (.float (.finite e.2)) = some true :=
        congrArg some (decide_eq_true stale)
      obtain ⟨t', gone, holding⟩ := h.unlink plain
      rw [old]
      dsimp only
      rw [show (d.metadataDir.join (p ++ ".json")).unlink d.cwd s.tree = _ from gone]
      refine ⟨?_, rfl, _, holding, .inr ⟨e, rfl, stale, rfl⟩⟩
      rw [Expiry.fresh, Option.filter_some, if_neg (by simpa)]
      rfl
    · have young : expired now (.float (.finite e.2)) = some false :=
        congrArg some (decide_eq_false stale)
      rw [young]
      refine ⟨?_, rfl, held, h, .inl rfl⟩
      rw [Expiry.fresh, Option.filter_some, if_pos (by simpa)]
      rfl

theorem storeMetadata_of_holding (h : Holding d held s.tree) (plain : '/' ∉ p.toList)
    {metadata : List (PyKey × PyVal)} (json : (PyVal.dict metadata).IsJson) (now : ℚ) :
    (storeMetadata d p metadata now s).1 = .ok () ∧
      (storeMetadata d p metadata now s).2.index = s.index ∧
      Holding d (Function.update held p (some (metadata, now)))
        (storeMetadata d p metadata now s).2.tree := by
  obtain ⟨t, dumped, -, text⟩ := metaText_spec d (e := (metadata, now)) json
  obtain ⟨tree, written, files⟩ :=
    h.files.write (isPart_metaFile plain) (metaText d (metadata, now))
  have stored : storeMetadata d p metadata now s = (.ok (), ⟨tree, s.index⟩) := by
    unfold storeMetadata
    rw [show d.py.dumpsStrict (.dict (Dict.assign _ _ metadata)) = _ from dumped]
    dsimp only
    rw [← text, metaFile, written]
  rw [stored]
  refine ⟨rfl, rfl, ?_, fun q e there => ?_⟩
  · rw [map_update]
    exact files
  · by_cases here : q = p
    · subst here
      rw [Function.update_self] at there
      exact Option.some.inj there ▸ json
    · rw [Function.update_of_ne here] at there
      exact h.json q e there

/-- A place below a directory of the cache is not above one. -/
theorem not_below_of_area {dir : PyPath} (h : dir ∈ cacheDirs d.toCacheEnv) {l : Loc}
    (area : Area d.toCacheEnv l) : ¬ Below l (dir.place d.cwd) := by
  obtain ⟨s, rfl, part, up, -⟩ := eq_join_of_mem h
  obtain ⟨dir', h', rest, nonempty, rfl⟩ := area
  obtain ⟨s', rfl, part', up', -⟩ := eq_join_of_mem h'
  intro below
  have shorter := below.length_le
  have more := List.length_pos_iff.2 nonempty
  rw [place_join_isPart _ part up, place_join_isPart _ part' up', List.length_append,
    List.length_append, List.length_append, List.length_singleton, List.length_singleton] at shorter
  omega

/-- Setting up the cache creates directories only. -/
theorem node?_setUp (plain : d.cacheDir.Plain d.cwd) {tree tree' : FileTree Bytes}
    {dirs : List PyPath} (known : ∀ dir ∈ dirs, dir ∈ cacheDirs d.toCacheEnv)
    (h : setUp d tree dirs = (.ok (), tree')) {l : Loc} (area : Area d.toCacheEnv l) :
    tree'.node? l = tree.node? l := by
  induction dirs generalizing tree with
  | nil =>
    obtain rfl := (Prod.mk.inj h).2
    rfl
  | cons dir dirs ih =>
    rw [List.forall_mem_cons] at known
    have nodes := (PyPath.mkdirs_spec (plain_of_mem plain known.1) tree).1
    rw [setUp] at h
    generalize dir.mkdirs d.cwd tree true = r at nodes h
    obtain ⟨outcome, middle⟩ := r
    cases outcome with
    | error e => cases h
    | ok l' =>
      rw [ih known.2 h]
      exact (nodes l).resolve_right fun on => not_below_of_area known.1 area on.1

/-- The directory of the metadata is there, and holds nothing. -/
theorem holding_none (plain : d.cacheDir.Plain d.cwd) {t : FileTree Bytes}
    (there : t.IsDir (d.metadataDir.place d.cwd))
    (empty : ∀ name, t.node? (d.metadataDir.place d.cwd ++ [name]) = none) :
    Holding d (fun _ => none) t := by
  have mem : d.metadataDir ∈ cacheDirs d.toCacheEnv := by simp [cacheDirs]
  exact ⟨⟨PyPath.locate_of_isDir (plain_of_mem plain mem) there, there, fun name => empty _⟩,
    fun p e held => by cases held⟩

theorem area_metadata (env : CacheEnv) (name : String) :
    Area env (env.metadataDir.place env.cwd ++ [name]) :=
  @area_of_mem env env.metadataDir (by simp [cacheDirs]) _ ⟨[name], by simp, rfl⟩

/-- A cache that is opened in an empty directory. -/
theorem holding_create (plain : d.cacheDir.Plain d.cwd) {tree : FileTree Bytes}
    (empty : ∀ rest, rest ≠ [] → tree.node? (d.cacheDir.place d.cwd ++ rest) = none)
    (created : create d tree = some s) : s.index = ∅ ∧ Holding d (fun _ => none) s.tree := by
  unfold CacheManager.create at created
  split at created
  · cases created
  · next tree' made =>
    obtain ⟨there, -, file⟩ := setUp_eq_ok plain (fun _ h => h) made
    have mem : d.metadataDir ∈ cacheDirs d.toCacheEnv := by simp [cacheDirs]
    obtain ⟨index, disk, rfl⟩ := Option.map_eq_some_iff.1 created
    refine ⟨?_, holding_none plain (there _ mem) fun name => ?_⟩
    · have absent : tree'.node? (d.indexFile.place d.cwd) = none := by
        rw [file, place_indexFile, empty _ (List.cons_ne_nil _ _)]
      have ground : Ground d.toCacheEnv tree' := ⟨there, by simp [IsDir, absent]⟩
      have place : d.indexFile.locate d.cwd tree' = .ok (d.indexFile.place d.cwd) := by
        rw [indexFile_eq]
        exact PyPath.locate_join_of_isDir plain ground.cacheDir (by decide) (by decide)
      simp only [loadIndex, PyPath.read, place, FileTree.read, absent] at disk
      exact (Option.some.inj disk).symm
    · rw [node?_setUp plain (fun _ h => h) made (area_metadata _ name), CacheEnv.metadataDir,
        place_join_isPart _ (by decide) (by decide), List.append_assoc]
      exact empty _ (by simp)

theorem clearDirs_concat {env : CacheEnv} {tree tree' tree'' : FileTree Bytes}
    {dirs : List PyPath} (cleared : clearDirs env tree dirs = (.ok (), tree')) {dir : PyPath}
    {l : Loc} (made : dir.mkdirs env.cwd (dir.rmtree env.cwd tree').2 true = (.ok l, tree'')) :
    clearDirs env tree (dirs ++ [dir]) = (.ok (), tree'') := by
  induction dirs generalizing tree with
  | nil =>
    obtain rfl := (Prod.mk.inj cleared).2
    rw [List.nil_append, clearDirs, made]
    rfl
  | cons first dirs ih =>
    rw [clearDirs] at cleared
    rw [List.cons_append, clearDirs]
    split at cleared
    · cases cleared
    · exact ih cleared

/-- Clearing removes all metadata. -/
theorem holding_clear (plain : d.cacheDir.Plain d.cwd) (ground : Ground d.toCacheEnv s.tree) :
    (clear d.toCacheEnv s).2.index = ∅ ∧
      Holding d (fun _ => none) (clear d.toCacheEnv s).2.tree := by
  have mem : d.metadataDir ∈ cacheDirs d.toCacheEnv := by simp [cacheDirs]
  obtain ⟨tree, cleared, same⟩ := @clearDirs_eq_ok d plain s.tree ground
    [d.wheelsDir, d.layersDir] (by simp [cacheDirs])
  have there := (ground.of_agreeOff same).dirs _ mem
  obtain ⟨tree', made, there', -⟩ :=
    PyPath.recreate_join plain (s := "metadata") (by decide) (by decide) there
  have all : clear d.toCacheEnv s = (.ok (), saveIndex d.toCacheEnv ⟨tree', ∅⟩) := by
    have first : clearDirs d.toCacheEnv s.tree [d.wheelsDir, d.layersDir, d.metadataDir] =
        (.ok (), tree') := clearDirs_concat cleared made
    rw [clear, first]
  rw [all]
  refine ⟨saveIndex_index .., ?_⟩
  have bare : Holding d (fun _ => none) tree' := by
    refine holding_none plain there' fun name => ?_
    have nodes := (PyPath.mkdirs_spec (plain_of_mem plain mem)
      (d.metadataDir.rmtree d.cwd tree).2).1 (d.metadataDir.place d.cwd ++ [name])
    rw [show d.metadataDir.mkdirs d.cwd (d.metadataDir.rmtree d.cwd tree).2 true = _ from made]
      at nodes
    rw [nodes.resolve_right fun on => not_below_of_area mem (area_metadata _ name) on.1,
      PyPath.rmtree_of_isDir (plain_of_mem plain mem) there, node?_prune, if_neg]
    simp [Below]
  exact Holding.of_agreeOff (s := ⟨tree', ∅⟩) bare plain (agreeOff_saveIndex plain _)

/-! ## Runs -/

abbrev MetadataEvent := Expiry.Event String (List (PyKey × PyVal)) ℚ

/-- A package that was asked for, with what had happened by then, latest first, and the answer. -/
structure Asked where
  package : String
  now : ℚ
  history : List MetadataEvent
  answer : Except PyExc (Option PyVal)

/-- Processes on one cache, the clock, and what has happened. -/
structure MetadataCache (ι : Type) where
  shared : Shared ι
  clock : ℚ
  history : List MetadataEvent
  asked : List Asked

/-- A process opens its manager, calls it, or is told by the server to forget a package. -/
inductive MetadataOp (ι : Type) where
  | opens (i : ι)
  | calls (i : ι) (call : Call)
  | invalidates (i : ι) (params : List (PyKey × PyVal))

/-- When a call reads the clock for the metadata. -/
def Call.time? : Call → Option ℚ
  | .getMetadata _ now => some now
  | .storeMetadata _ _ now => some now
  | _ => none

/-- What a call does to the metadata; a store that raises does nothing. -/
def happened (d : CacheDisk) (s : CacheManager) : Call → List MetadataEvent
  | .storeMetadata package metadata now =>
    match (storeMetadata d package metadata now s).1 with
    | .ok () => [.put package metadata now]
    | .error _ => []
  | .clear => [.clear]
  | _ => []

def answered (d : CacheDisk) (s : CacheManager) (history : List MetadataEvent) :
    Call → List Asked
  | .getMetadata package now => [⟨package, now, history, (getMetadata d package now s).1⟩]
  | _ => []

/-- The package that is to be invalidated, if one is named. -/
def invalidated (d : CacheDisk) (params : List (PyKey × PyVal)) : Option String :=
  let package := (PyVal.getStr "package" params).getD (.str "")
  if package.truthy then some (d.py.toStr package) else none

namespace MetadataCache

variable {ι : Type} [DecidableEq ι]

def init (ι : Type) (tree : FileTree Bytes) (clock : ℚ) : MetadataCache ι :=
  ⟨.init ι tree, clock, [], []⟩

def step (d : CacheDisk) (s : MetadataCache ι) : MetadataOp ι → Option (MetadataCache ι)
  | .opens i => (sharedStep d s.shared (.opens i)).map fun shared => { s with shared := shared }
  | .calls i call =>
    match s.shared.memory i with
    | none => none
    | some index =>
      let m : CacheManager := ⟨s.shared.tree, index⟩
      let now := call.time?.getD s.clock
      if s.clock ≤ now then
        some ⟨s.shared.put i (serve d m call), now, happened d m call ++ s.history,
          s.asked ++ answered d m s.history call⟩
      else none
  | .invalidates i params =>
    match s.shared.memory i with
    | none => none
    | some index =>
      let m := (CpipDaemon.handleCacheInvalidate d params ⟨s.shared.tree, index⟩).2
      some { s with
        shared := s.shared.put i m
        history := (invalidated d params).toList.map .drop ++ s.history }

/-- Packages have names without `/`, metadata are what JSON can be, and other names stay in their
directories. -/
def Given (d : CacheDisk) : MetadataOp ι → Prop
  | .opens _ => True
  | .calls _ (.getMetadata package _) => '/' ∉ package.toList
  | .calls _ (.storeMetadata package metadata _) =>
    '/' ∉ package.toList ∧ (PyVal.dict metadata).IsJson
  | .calls _ call => Named call
  | .invalidates _ params => ∀ package ∈ invalidated d params, '/' ∉ package.toList

omit [DecidableEq ι] in
theorem named_of_given {i : ι} {call : Call} (given : Given d (.calls i call)) : Named call := by
  cases call with
  | getMetadata package now =>
    have part := isPart_metaFile given
    exact PyPath.inside_of_isPart part.1 part.2
  | storeMetadata package metadata now =>
    have part := isPart_metaFile given.1
    exact PyPath.inside_of_isPart part.1 part.2
  | _ => exact given

/-- The files hold what was stored last, but for some that is stale. -/
structure Open (d : CacheDisk) (s : MetadataCache ι) : Prop where
  shared : OrderlyShared d s.shared
  binned : ∀ i index, s.shared.memory i = some index → Binned d index
  held : ∃ held, Holding d held s.shared.tree ∧
    Expiry.Kept Stale s.clock held (Expiry.recent s.history)

/-- Every answer was what was stored last, if it was not stale. -/
def Answers (s : MetadataCache ι) : Prop := ∀ a ∈ s.asked, a.answer =
  .ok ((Expiry.fresh Stale a.now (Expiry.recent a.history a.package)).map
    fun e => .dict (stamped e))

omit [DecidableEq ι] in
theorem Open.orderly {s : MetadataCache ι} (h : Open d s) {i : ι} {index : CacheIndex}
    (memory : s.shared.memory i = some index) : Orderly d ⟨s.shared.tree, index⟩ :=
  h.shared.orderly i index memory

theorem Open.put {s : MetadataCache ι} (h : Open d s) {i : ι} {m : CacheManager}
    (shared : OrderlyShared d (s.shared.put i m)) (binned : Binned d m.index) {clock : ℚ}
    {history : List MetadataEvent} {asked : List Asked}
    (held : ∃ held, Holding d held m.tree ∧
      Expiry.Kept Stale clock held (Expiry.recent history)) :
    Open d ⟨s.shared.put i m, clock, history, asked⟩ where
  shared := shared
  binned j index memory := by
    by_cases same : j = i
    · subst same
      rw [Shared.memory_put_self] at memory
      exact Option.some.inj memory ▸ binned
    · rw [Shared.memory_put_of_ne _ _ same] at memory
      exact h.binned j index memory
  held := held

theorem stale_mono {now now' : ℚ} (later : now ≤ now') (t : ℚ) (h : Stale now t) :
    Stale now' t := by
  unfold Stale at h ⊢
  linarith

omit [DecidableEq ι] in
/-- What a call does to the metadata, and what it answers. -/
theorem held_serve (plain : d.cacheDir.Plain d.cwd) {m : CacheManager} (orderly : Orderly d m)
    (binned : Binned d m.index) {i : ι} {call : Call} (given : Given d (.calls i call))
    {held : String → Option Stored} (holding : Holding d held m.tree) {now : ℚ}
    {history : List MetadataEvent} (time : ∀ t ∈ call.time?, t = now)
    (kept : Expiry.Kept Stale now held (Expiry.recent history)) :
    Binned d (serve d m call).index ∧
      (∃ held', Holding d held' (serve d m call).tree ∧
        Expiry.Kept Stale now held' (Expiry.recent (happened d m call ++ history))) ∧
      ∀ a ∈ answered d m history call, a.answer =
        .ok ((Expiry.fresh Stale a.now (Expiry.recent a.history a.package)).map
          fun e => .dict (stamped e)) := by
  by_cases kind : call.ofIndex = true
  · have quiet := quiet_serve plain orderly.ground binned (named_of_given given) kind
    refine ⟨quiet.binned, ⟨held, holding.of_agreeOff plain quiet.same, ?_⟩, ?_⟩
    · cases call with
      | getMetadata | storeMetadata | clear => cases kind
      | _ => exact kept
    · cases call with
      | getMetadata | storeMetadata | clear => cases kind
      | _ => exact fun a mem => by cases mem
  · cases call with
    | getMetadata package t =>
      obtain rfl := time t rfl
      obtain ⟨answer, same, held', holding', removed⟩ :=
        getMetadata_of_holding holding given t
      have index : (serve d m (.getMetadata package t)).index = m.index := same
      refine ⟨index ▸ binned, ⟨held', holding', ?_⟩, ?_⟩
      · rcases removed with rfl | ⟨e, there, stale, rfl⟩
        · exact kept
        · exact kept.expire there stale
      · intro a mem
        rw [answered, List.mem_singleton] at mem
        subst mem
        rw [← kept.fresh_eq]
        exact answer
    | storeMetadata package metadata t =>
      obtain rfl := time t rfl
      obtain ⟨done, same, holding'⟩ := storeMetadata_of_holding holding given.1 given.2 t
      have index : (serve d m (.storeMetadata package metadata t)).index = m.index := same
      refine ⟨index ▸ binned, ⟨_, holding', ?_⟩, fun a mem => by cases mem⟩
      rw [happened, done, List.singleton_append, Expiry.recent_put]
      exact kept.update package _
    | clear =>
      obtain ⟨none, holding'⟩ := holding_clear plain orderly.ground
      refine ⟨?_, ⟨_, holding', Expiry.Kept.refl Stale now _⟩, fun a mem => by cases mem⟩
      show Binned d (clear d.toCacheEnv m).2.index
      rw [none]
      intro key e found
      cases found
    | _ => exact absurd rfl kind

/-- A package is forgotten. -/
theorem held_invalidate {m : CacheManager} (orderly : Orderly d m)
    {params : List (PyKey × PyVal)}
    (given : ∀ package ∈ invalidated d params, '/' ∉ package.toList)
    {held : String → Option Stored} (holding : Holding d held m.tree) {now : ℚ}
    {history : List MetadataEvent} (kept : Expiry.Kept Stale now held (Expiry.recent history)) :
    let m' := (CpipDaemon.handleCacheInvalidate d params m).2
    m'.index = m.index ∧ AgreeOff (Area d.toCacheEnv) m.tree m'.tree ∧
      ∃ held', Holding d held' m'.tree ∧ Expiry.Kept Stale now held'
        (Expiry.recent ((invalidated d params).toList.map .drop ++ history)) := by
  dsimp only
  unfold CpipDaemon.handleCacheInvalidate invalidated at *
  dsimp only at *
  split_ifs at given ⊢ with named
  · have plain := given _ rfl
    obtain ⟨t, gone, holding'⟩ := holding.unlink plain
    have part := isPart_metaFile plain
    have mem : d.metadataDir ∈ cacheDirs d.toCacheEnv := by simp [cacheDirs]
    have leads := leads_of_mem orderly.plain mem (PyPath.inside_of_isPart part.1 part.2)
    rw [gone]
    refine ⟨rfl, leads.agreeOff_unlink downClosed_area gone, _, holding', ?_⟩
    rw [Option.toList_some, List.map_singleton, List.singleton_append, Expiry.recent_drop]
    exact kept.update _ none
  · exact ⟨rfl, .refl _ _, held, holding, kept⟩

/-- The cache before it is opened, or in use. -/
inductive Inv (d : CacheDisk) (s : MetadataCache ι) : Prop where
  | unopened (free : ∀ i, s.shared.memory i = none) (history : s.history = [])
    (empty : ∀ rest, rest ≠ [] → s.shared.tree.node? (d.cacheDir.place d.cwd ++ rest) = none)
  | used (h : Open d s)

/-- A manager of a process is opened. -/
theorem inv_opens (plain : d.cacheDir.Plain d.cwd) {s : MetadataCache ι} (h : Inv d s) {i : ι}
    {shared : Shared ι} (hs : sharedStep d s.shared (.opens i) = some shared) :
    Open d { s with shared := shared } := by
  have started : Started d s.shared := by
    cases h with
    | unopened none _ empty => exact .inr ⟨none, empty⟩
    | used h => exact .inl h.shared
  obtain ⟨orderly, -⟩ := sharedStep_disk plain (show SharedNamed (.opens i) from trivial) started hs
  obtain ⟨m, created, rfl⟩ := Option.map_eq_some_iff.1 hs
  cases h with
  | unopened none history empty =>
    obtain ⟨index, holding⟩ := holding_create plain empty created
    refine ⟨orderly, fun j index' memory => ?_, _, holding, ?_⟩
    · by_cases same : j = i
      · subst same
        rw [Shared.memory_put_self, index] at memory
        obtain rfl := Option.some.inj memory
        intro key e found
        cases found
      · rw [Shared.memory_put_of_ne _ _ same, none j] at memory
        cases memory
    · show Expiry.Kept Stale s.clock _ (Expiry.recent s.history)
      rw [history]
      exact Expiry.Kept.refl Stale s.clock _
  | used h =>
    obtain ⟨j, disk, isSome⟩ := h.shared.disk
    obtain ⟨index, memory⟩ := Option.isSome_iff_exists.1 isSome
    have reopened : create d s.shared.tree = some ⟨s.shared.tree, index⟩ :=
      (h.orderly memory).create (disk.trans memory)
    obtain rfl := Option.some.inj (reopened.symm.trans created)
    exact h.put orderly (h.binned j index memory) h.held

theorem inv_step (plain : d.cacheDir.Plain d.cwd) {s s' : MetadataCache ι} {op : MetadataOp ι}
    (given : Given d op) (h : Inv d s ∧ Answers s) (hs : step d s op = some s') :
    Inv d s' ∧ Answers s' := by
  obtain ⟨h, answers⟩ := h
  cases op with
  | opens i =>
    obtain ⟨shared, opened, rfl⟩ := Option.map_eq_some_iff.1 hs
    exact ⟨.used (inv_opens plain h opened), answers⟩
  | calls i call =>
    dsimp only [step] at hs
    split at hs
    · cases hs
    next index memory =>
    split_ifs at hs with later
    obtain rfl := Option.some.inj hs
    cases h with
    | unopened none => rw [none i] at memory; cases memory
    | used h =>
      obtain ⟨held, holding, kept⟩ := h.held
      have time : ∀ t ∈ call.time?, t = call.time?.getD s.clock := fun t ht => by
        rw [Option.mem_def.1 ht, Option.getD_some]
      obtain ⟨binned, held', told⟩ := held_serve plain (h.orderly memory) (h.binned i index memory)
        given holding time (kept.later (stale_mono later))
      have stepped : sharedStep d s.shared (.calls i call) =
          some (s.shared.put i (serve d ⟨s.shared.tree, index⟩ call)) := by
        rw [sharedStep, memory]
        rfl
      have named : SharedNamed (.calls i call) := named_of_given given
      refine ⟨.used (h.put (sharedStep_disk plain named (.inl h.shared) stepped).1 binned held'),
        fun a mem => ?_⟩
      rcases List.mem_append.1 mem with old | new
      · exact answers a old
      · exact told a new
  | invalidates i params =>
    dsimp only [step] at hs
    split at hs
    · cases hs
    next index memory =>
    obtain rfl := Option.some.inj hs
    cases h with
    | unopened none => rw [none i] at memory; cases memory
    | used h =>
      obtain ⟨held, holding, kept⟩ := h.held
      have orderly := h.orderly memory
      obtain ⟨same, agree, held'⟩ := held_invalidate orderly given holding kept
      have serves : Serves d ⟨s.shared.tree, index⟩ false
          (CpipDaemon.handleCacheInvalidate d params ⟨s.shared.tree, index⟩).2 := by
        have files := Serves.files (Serves.refl (d := d) (s := ⟨s.shared.tree, index⟩)) agree
        rwa [← same] at files
      obtain ⟨orderly', -, kept⟩ := serves.orderly orderly
      exact ⟨.used (h.put (h.shared.put orderly'
        (.inr ⟨kept, memory.trans (congrArg some same.symm)⟩)) (same ▸ h.binned i index memory)
        held'), answers⟩

/-- In every run of any number of processes on a cache that was empty, under a clock that does not
go back, on packages whose names are components of paths, with metadata that JSON has: asking for a
package gives what was stored for it last, by whichever process, unless that is more than a day old,
was invalidated or was cleared; no other operation can be noticed. -/
theorem metadata_remembered (plain : d.cacheDir.Plain d.cwd) (tree : FileTree Bytes)
    (empty : ∀ rest, rest ≠ [] → tree.node? (d.cacheDir.place d.cwd ++ rest) = none) (start : ℚ)
    {ops : List (MetadataOp ι)} (given : ∀ op ∈ ops, Given d op) {s : MetadataCache ι}
    (ran : Machine.run (step d) (init ι tree start) ops = some s) :
    ∀ a ∈ s.asked, a.answer =
      .ok ((Expiry.fresh Stale a.now (Expiry.recent a.history a.package)).map
        fun e => .dict (stamped e)) := by
  have begun : Inv d (init ι tree start) ∧ Answers (init ι tree start) :=
    ⟨.unopened (fun _ => rfl) rfl empty, fun a mem => by cases mem⟩
  exact (Machine.invariant_along (I := fun s => Inv d s ∧ Answers s)
    (fun s op s' given h hs => inv_step plain given h hs) begun
    (Machine.along_of_forall_mem given _) ran).2

/-- What one process stores, the other asks for on the same day and two days later. -/
def twoDays : List (MetadataOp Bool) :=
  [.opens false, .opens true, .calls false (.storeMetadata "p" [(.str "size", .int 3)] 5),
    .calls true .stats, .calls true (.getMetadata "p" 10), .calls true (.getMetadata "p" 172800)]

theorem metadata_remembered_twoDays :
    ∃ s, Machine.run (step sampleDisk) (init Bool wheelOnly 0) twoDays = some s ∧
      s.asked.map Asked.now = [10, 172800] ∧ ∀ a ∈ s.asked, a.answer =
        .ok ((Expiry.fresh Stale a.now (Expiry.recent a.history a.package)).map
          fun e => .dict (stamped e)) := by
  have isSome : (Machine.run (step sampleDisk) (init Bool wheelOnly 0) twoDays).isSome = true := by
    decide +kernel
  obtain ⟨s, ran⟩ := Option.isSome_iff_exists.1 isSome
  have given : ∀ op ∈ twoDays, Given sampleDisk op := by
    simp only [twoDays, List.forall_mem_cons, List.not_mem_nil, false_implies, implies_true,
      and_true]
    refine ⟨trivial, trivial, ⟨by decide, ?_⟩, trivial, by simp [Given], by simp [Given]⟩
    exact (PyVal.everywhere_dict_iff _).2 ⟨by simp [PyVal.IsJsonNode], by
      simp [PyVal.Everywhere, PyVal.IsJsonNode]⟩
  refine ⟨s, ran, ?_, metadata_remembered plain_sampleDisk wheelOnly wheelOnly_empty 0 given ran⟩
  have times : (Machine.run (step sampleDisk) (init Bool wheelOnly 0) twoDays).map
      (fun s => s.asked.map Asked.now) = some [10, 172800] := by
    decide +kernel
  rw [ran] at times
  exact Option.some.inj times

end MetadataCache

end CacheManager

end Cpip
