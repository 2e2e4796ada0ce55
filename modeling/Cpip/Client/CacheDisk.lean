import Cpip.Client.CacheKeep
import Cpip.Python.JsonBytes

/-!
# The cache on disk

A cache manager writes its index to `cache.json`, and a new one reads it there.  The operations keep
to the three directories of the cache, as long as the names that they are given do not lead out of
them.
-/

namespace Cpip

/-! ## The index in JSON -/

/-- The `type` of an entry and the fields that name it. -/
def CacheOwner.typeName : CacheOwner → String
  | .wheel _ _ => "wheel"
  | .layer _ => "layer"

def CacheOwner.fields : CacheOwner → List (PyKey × PyVal)
  | .wheel package version => [(.str "package", .str package), (.str "version", .str version)]
  | .layer layerId => [(.str "layer_id", .str layerId)]

/-- An entry as the dictionary that it is. -/
def CacheEntry.value (e : CacheEntry) : PyVal :=
  .dict ((.str "path", .str e.path.str) :: e.owner.fields ++
    [(.str "sha256", .str e.sha256), (.str "size", .int e.size),
      (.str "cached_at", .float (.finite e.cachedAt)),
      (.str "last_accessed", .float (.finite e.lastAccessed)),
      (.str "type", .str e.owner.typeName)])

namespace CacheIndex

/-- `self._index`, as the dictionary that it is. -/
def value (index : CacheIndex) : PyVal :=
  .dict (index.entries.map fun e => (.str e.1, e.2.value))

def ownerOf (items : List (PyKey × PyVal)) : Option CacheOwner :=
  match PyVal.getStr "type" items with
  | some (.str "wheel") =>
    match PyVal.getStr "package" items, PyVal.getStr "version" items with
    | some (.str package), some (.str version) => some (.wheel package version)
    | _, _ => none
  | some (.str "layer") =>
    match PyVal.getStr "layer_id" items with
    | some (.str layerId) => some (.layer layerId)
    | _ => none
  | _ => none

/-- The entry that a dictionary is, if it is one. -/
def entryOf : PyVal → Option CacheEntry
  | .dict items =>
    match ownerOf items, PyVal.getStr "path" items, PyVal.getStr "sha256" items,
      PyVal.getStr "size" items, PyVal.getStr "cached_at" items,
      PyVal.getStr "last_accessed" items with
    | some owner, some (.str path), some (.str sha256), some (.int size),
      some (.float (.finite cachedAt)), some (.float (.finite lastAccessed)) =>
      some ⟨.ofString path, owner, sha256, size.toNat, cachedAt, lastAccessed⟩
    | _, _, _, _, _, _ => none
  | _ => none

def entriesOf : List (PyKey × PyVal) → Option (List (String × CacheEntry))
  | [] => some []
  | (.str key, v) :: rest =>
    match entryOf v, entriesOf rest with
    | some e, some entries => some ((key, e) :: entries)
    | _, _ => none
  | _ => none

/-- The index that a value is, if it is one. -/
def ofValue : PyVal → Option CacheIndex
  | .dict items =>
    (entriesOf items).bind fun entries =>
      if nodup : (entries.map Prod.fst).Nodup then some ⟨entries, nodup⟩ else none
  | _ => none

theorem entryOf_value (e : CacheEntry) : entryOf e.value = some e := by
  obtain ⟨path, owner, sha256, size, cachedAt, lastAccessed⟩ := e
  cases owner <;>
    simp [CacheEntry.value, CacheOwner.fields, CacheOwner.typeName, entryOf, ownerOf,
      PyVal.getStr_cons, PyPath.ofString_str]

theorem ofValue_value (index : CacheIndex) : ofValue index.value = some index := by
  have read : ∀ l : List (String × CacheEntry),
      entriesOf (l.map fun e => (.str e.1, e.2.value)) = some l := by
    intro l
    induction l with
    | nil => rfl
    | cons e l ih => rw [List.map_cons, entriesOf, entryOf_value, ih]
  rw [value, ofValue, read, Option.bind_some, dif_pos index.nodup]

theorem isJson_entry (e : CacheEntry) : e.value.IsJson := by
  refine (PyVal.everywhere_dict_iff _).2 ?_
  obtain ⟨path, owner, sha256, size, cachedAt, lastAccessed⟩ := e
  cases owner <;>
    simp [CacheOwner.fields, PyVal.IsJsonNode, PyVal.Everywhere]

theorem isJson_value (index : CacheIndex) : index.value.IsJson := by
  refine (PyVal.everywhere_dict_iff _).2 ⟨⟨fun k hk => ?_, ?_⟩, fun e he => ?_⟩
  · simp only [List.map_map, List.mem_map] at hk
    obtain ⟨e, -, rfl⟩ := hk
    exact ⟨e.1, rfl⟩
  · have injective : Function.Injective PyKey.str := fun a b h => by cases h; rfl
    simpa [List.map_map, Function.comp_def] using index.nodup.map injective
  · obtain ⟨e, -, rfl⟩ := List.mem_map.1 he
    exact isJson_entry e.2

end CacheIndex

/-! ## Reading and writing the index -/

/-- A cache with how JSON is spelled in its files. -/
structure CacheDisk extends CacheEnv, JsonFiles where
  dumps_eq : ∀ (index : CacheIndex) t, py.dumps index.value = .ok t → dumps index = spell t

namespace CacheManager

variable (d : CacheDisk)

/-- `_load_index`: no file, and no JSON, is no entries; other JSON may be no index. -/
def loadIndex (tree : FileTree Bytes) : Option CacheIndex :=
  match d.indexFile.read d.cwd tree with
  | .error _ => some ∅
  | .ok b =>
    match d.parse b with
    | none => some ∅
    | some t => CacheIndex.ofValue t.loads

theorem loadIndex_of_read {tree : FileTree Bytes} {index : CacheIndex}
    (h : d.indexFile.read d.cwd tree = .ok (d.dumps index)) : loadIndex d tree = some index := by
  obtain ⟨t, dumped, loaded⟩ := d.py.loads_dumps (CacheIndex.isJson_value index)
  rw [loadIndex, h, d.dumps_eq index t dumped]
  dsimp only
  rw [d.parse_spell]
  dsimp only
  rw [loaded, CacheIndex.ofValue_value]

/-- Creates the directories that are missing. -/
def setUp (tree : FileTree Bytes) : List PyPath → Except FileError Unit × FileTree Bytes
  | [] => (.ok (), tree)
  | p :: ps =>
    match p.mkdirs d.cwd tree true with
    | (.error e, tree') => (.error e, tree')
    | (.ok _, tree') => setUp tree' ps

/-- The directories of the cache. -/
def cacheDirs (env : CacheEnv) : List PyPath := [env.wheelsDir, env.layersDir, env.metadataDir]

/-- `CacheManager.__init__`, where it does not raise and reads an index. -/
def create (tree : FileTree Bytes) : Option CacheManager :=
  match setUp d tree (cacheDirs d.toCacheEnv) with
  | (.error _, _) => none
  | (.ok _, tree') => (loadIndex d tree').map fun index => ⟨tree', index⟩

/-! ## Metadata and statistics -/

def metaFile (env : CacheEnv) (package : String) : PyPath :=
  env.metadataDir.join (package ++ ".json")

/-- `time.time() - cached_at > 86400`, unless the value is no number. -/
def expired (now : ℚ) : PyVal → Option Bool
  | .bool b => some (86400 < now - if b then 1 else 0)
  | .int i => some (86400 < now - i)
  | .float (.finite q) => some (86400 < now - q)
  | .float (.inf negative) => some negative
  | .float .nan => some false
  | _ => none

/-- `get_metadata`. -/
def getMetadata (package : String) (now : ℚ) (s : CacheManager) :
    Except PyExc (Option PyVal) × CacheManager :=
  match (metaFile d.toCacheEnv package).read d.cwd s.tree with
  | .error _ => (.ok none, s)
  | .ok b =>
    match (d.parse b).map JsonText.loads with
    | none => (.ok none, s)
    | some (.dict items) =>
      match expired now ((PyVal.getStr "_cached_at" items).getD (.int 0)) with
      | none => (.error (.typeError "unsupported operand type"), s)
      | some false => (.ok (some (.dict items)), s)
      | some true =>
        match (metaFile d.toCacheEnv package).unlink d.cwd s.tree with
        | .ok tree => (.ok none, { s with tree := tree })
        | .error _ => (.ok none, s)
    | some _ => (.error (.attributeError "get"), s)

/-- `store_metadata`. -/
def storeMetadata (package : String) (metadata : List (PyKey × PyVal)) (now : ℚ)
    (s : CacheManager) : Except PyExc Unit × CacheManager :=
  match d.py.dumpsStrict
      (.dict (Dict.assign (.str "_cached_at") (.float (.finite now)) metadata)) with
  | .error e => (.error e, s)
  | .ok t =>
    match (metaFile d.toCacheEnv package).write d.cwd s.tree (d.spell t) with
    | .error _ => (.error (.other "OSError"), s)
    | .ok tree => (.ok (), { s with tree := tree })

/-- `CacheStats`. -/
structure Stats where
  totalSizeMb : ℚ
  maxSizeMb : ℤ
  numWheels : ℕ
  numLayers : ℕ
  numMetadata : ℕ
  utilizationPct : ℚ

/-- `round(q, digits)`: to the nearest, and to even from the middle. -/
def pyRound (q : ℚ) (digits : ℕ) : ℚ :=
  let scaled := q * 10 ^ digits
  let down := scaled.floor
  let rest := scaled - down
  (if rest < 1 / 2 ∨ rest = 1 / 2 ∧ Even down then (down : ℚ) else down + 1) / 10 ^ digits

/-- How many names in a directory end in `.json`. -/
def countJson (dir : PyPath) (tree : FileTree Bytes) : ℕ :=
  match dir.locate d.cwd tree with
  | .error _ => 0
  | .ok l => tree.nodes.keys.countP fun l' =>
      l' ≠ [] ∧ l'.dropLast = l ∧ ".json".toList <:+ (l'.getLast?.getD "").toList

/-- `stats`. -/
def stats (s : CacheManager) : Stats where
  totalSizeMb := pyRound (currentSizeMb s.index) 2
  maxSizeMb := d.maxSizeMb
  numWheels := s.index.entries.countP fun e => e.2.owner.typeName = "wheel"
  numLayers := s.index.entries.countP fun e => e.2.owner.typeName = "layer"
  numMetadata := countJson d d.metadataDir s.tree
  utilizationPct := pyRound (currentSizeMb s.index / max d.maxSizeMb 1 * 100) 1

/-! ## Calls -/

/-- A public operation, with the times that it reads off the clock. -/
inductive Call where
  | getWheel (package version : String) (now : ℚ)
  | storeWheel (package version : String) (source : PyPath) (sha256 : String)
      (cachedAt lastAccessed : ℚ)
  | getLayer (layerId : String) (now : ℚ)
  | storeLayer (layerId : String) (source : PyPath) (sha256 : String) (cachedAt lastAccessed : ℚ)
  | getMetadata (package : String) (now : ℚ)
  | storeMetadata (package : String) (metadata : List (PyKey × PyVal)) (now : ℚ)
  | stats
  | verifyIntegrity
  | clear

/-- What a call leaves, whether it returns or raises. -/
def serve (s : CacheManager) : Call → CacheManager
  | .getWheel package version now =>
    (CacheManager.getWheel d.toCacheEnv package version now s).2
  | .storeWheel package version source sha256 cachedAt lastAccessed =>
    (CacheManager.storeWheel d.toCacheEnv package version source sha256 cachedAt lastAccessed s).2
  | .getLayer layerId now => (CacheManager.getLayer d.toCacheEnv layerId now s).2
  | .storeLayer layerId source sha256 cachedAt lastAccessed =>
    (CacheManager.storeLayer d.toCacheEnv layerId source sha256 cachedAt lastAccessed s).2
  | .getMetadata package now => (CacheManager.getMetadata d package now s).2
  | .storeMetadata package metadata now => (CacheManager.storeMetadata d package metadata now s).2
  | .stats => s
  | .verifyIntegrity => (CacheManager.verifyIntegrity d.toCacheEnv s).2
  | .clear => (CacheManager.clear d.toCacheEnv s).2

/-- The names that a call is given do not lead out of the directory that they are for. -/
def Named : Call → Prop
  | .storeWheel _ _ source _ _ _ => source.name ≠ ".."
  | .storeLayer layerId _ _ _ _ => PyPath.Inside layerId
  | .getMetadata package _ => PyPath.Inside (package ++ ".json")
  | .storeMetadata package _ _ => PyPath.Inside (package ++ ".json")
  | _ => True

/-! ## The three directories -/

section Area

open FileTree

variable {d} {env : CacheEnv}

/-- A place in one of the directories of the cache. -/
def Area (env : CacheEnv) (l : Loc) : Prop := ∃ dir ∈ cacheDirs env, Inner (dir.place env.cwd) l

theorem downClosed_area : DownClosed (Area env) := fun l l' ⟨dir, hdir, inner⟩ below =>
  ⟨dir, hdir, downClosed_inner _ l l' inner below⟩

theorem area_of_mem {dir : PyPath} (h : dir ∈ cacheDirs env) {l : Loc}
    (inner : Inner (dir.place env.cwd) l) : Area env l := ⟨dir, h, inner⟩

/-- The directories of the cache lie side by side. -/
theorem eq_join_of_mem {dir : PyPath} (h : dir ∈ cacheDirs env) :
    ∃ s, dir = env.cacheDir.join s ∧ IsPart s ∧ s ≠ ".." ∧ s ≠ "cache.json" := by
  simp only [cacheDirs, List.mem_cons, List.not_mem_nil, or_false] at h
  rcases h with rfl | rfl | rfl
  · exact ⟨"wheels", rfl, by decide, by decide, by decide⟩
  · exact ⟨"layers", rfl, by decide, by decide, by decide⟩
  · exact ⟨"metadata", rfl, by decide, by decide, by decide⟩

theorem place_join_isPart (p : PyPath) {s : String} (h : IsPart s) (up : s ≠ "..")
    (cwd : Loc) : (p.join s).place cwd = p.place cwd ++ [s] := by
  rw [PyPath.place_join (PyPath.inside_of_isPart h up), PyPath.split_of_isPart h]

/-- A name in the cache directory is no place in its directories. -/
theorem not_area_of_child (env : CacheEnv) (s : String) :
    ¬ Area env (env.cacheDir.place env.cwd ++ [s]) := by
  rintro ⟨dir, hdir, rest, nonempty, h⟩
  obtain ⟨s', rfl, part, up, -⟩ := eq_join_of_mem hdir
  rw [place_join_isPart _ part up, List.append_assoc, List.append_cancel_left_eq] at h
  cases rest with
  | nil => exact nonempty rfl
  | cons x rest => simp at h

theorem not_area_dir {dir : PyPath} (h : dir ∈ cacheDirs env) : ¬ Area env (dir.place env.cwd) := by
  obtain ⟨s, rfl, part, up, -⟩ := eq_join_of_mem h
  rw [place_join_isPart _ part up]
  exact not_area_of_child env s

theorem indexFile_eq (env : CacheEnv) : env.indexFile = env.cacheDir.join "cache.json" := by
  rw [CacheEnv.indexFile, wheelsDir_parent]

theorem place_indexFile (env : CacheEnv) :
    env.indexFile.place env.cwd = env.cacheDir.place env.cwd ++ ["cache.json"] := by
  rw [indexFile_eq, place_join_isPart _ (by decide) (by decide)]

theorem not_area_indexFile (env : CacheEnv) : ¬ Area env (env.indexFile.place env.cwd) := by
  rw [place_indexFile]
  exact not_area_of_child env _

/-- The directories of the cache are there, and the place of the index file is free for it. -/
structure Ground (env : CacheEnv) (t : FileTree Bytes) : Prop where
  dirs : ∀ dir ∈ cacheDirs env, t.IsDir (dir.place env.cwd)
  file : ¬ t.IsDir (env.indexFile.place env.cwd)

theorem Ground.of_agreeOff {t t' : FileTree Bytes} (h : Ground env t)
    (same : AgreeOff (Area env) t t') : Ground env t' where
  dirs dir hdir := (same.isDir (not_area_dir hdir)).2 (h.dirs dir hdir)
  file dir := h.file ((same.isDir (not_area_indexFile env)).1 dir)

theorem Ground.cacheDir {t : FileTree Bytes} (h : Ground env t) :
    t.IsDir (env.cacheDir.place env.cwd) := by
  have mem : env.cacheDir.join "wheels" ∈ cacheDirs env := List.mem_cons_self
  have closed := t.closed _ _ (h.dirs _ mem)
  rwa [place_join_isPart _ (by decide) (by decide), List.dropLast_concat] at closed

end Area

end CacheManager

end Cpip
