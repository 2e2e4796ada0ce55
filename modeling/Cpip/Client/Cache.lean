import Cpip.Python.Pathlib
import Mathlib.Data.List.MinMax
import Mathlib.Algebra.Order.Ring.Rat

/-!
# The local package cache (`client/cache.py`)

`CacheManager` keeps an index of wheels and layers in memory, which it writes to `cache.json` after
most operations, and the files themselves under `wheels` and `layers`.  A wheel is filed under the
name of the file that it is stored from, and found under its package and version.
-/

namespace Cpip

/-- What an index entry is for: its `type`, and the fields that name it. -/
inductive CacheOwner where
  | wheel (package version : String)
  | layer (layerId : String)
  deriving DecidableEq

/-- An index entry. -/
structure CacheEntry where
  path : PyPath
  owner : CacheOwner
  sha256 : String
  size : ℕ
  cachedAt : ℚ
  lastAccessed : ℚ
  deriving DecidableEq

abbrev CacheIndex := Dict String CacheEntry

/-- What a cache manager is set up with: where it keeps its files, the size limit, the hash
function, how an index is written in JSON, and the size that the system reports for a directory. -/
structure CacheEnv where
  home : PyPath
  cwd : Loc
  maxSizeMb : ℤ
  sha256 : Bytes → String
  dumps : CacheIndex → Bytes
  directorySize : ℕ

namespace CacheEnv

variable (env : CacheEnv)

def cacheDir : PyPath := env.home.join "cache"

def wheelsDir : PyPath := env.cacheDir.join "wheels"

def layersDir : PyPath := env.cacheDir.join "layers"

def metadataDir : PyPath := env.cacheDir.join "metadata"

def indexFile : PyPath := env.wheelsDir.parent.join "cache.json"

end CacheEnv

/-- A cache manager with the files that it works on. -/
structure CacheManager where
  tree : FileTree Bytes
  index : CacheIndex

namespace CacheManager

/-- `_cache_key` of a wheel. -/
def wheelKey (package version : String) : String := "wheel" ++ ":" ++ package ++ ":" ++ version

def layerKey (layerId : String) : String := "layer:" ++ layerId

variable (env : CacheEnv)

/-- `_save_index`; an `OSError` is dropped. -/
def saveIndex (s : CacheManager) : CacheManager :=
  match env.indexFile.write env.cwd s.tree (env.dumps s.index) with
  | .ok tree => { s with tree := tree }
  | .error _ => s

/-- `_hash_file`. -/
def hashFile (s : CacheManager) (path : PyPath) : Except FileError String :=
  (path.read env.cwd s.tree).map env.sha256

/-! ## Eviction -/

/-- The sizes of all entries, in bytes. -/
def totalSize (index : CacheIndex) : ℕ := (index.entries.map fun e => e.2.size).sum

/-- `_current_size_mb`. -/
def currentSizeMb (index : CacheIndex) : ℚ := totalSize index / (1024 * 1024)

/-- The condition of the loop of `_maybe_evict`. -/
def Overfull (index : CacheIndex) : Prop := currentSizeMb index > env.maxSizeMb * (9 / 10)

instance (index : CacheIndex) : Decidable (Overfull env index) :=
  inferInstanceAs (Decidable (currentSizeMb index > env.maxSizeMb * (9 / 10)))

/-- The entry that was not accessed for longest, the first of these in the index. -/
def leastRecent (index : CacheIndex) : Option (String × CacheEntry) :=
  index.entries.argmin fun e => e.2.lastAccessed

/-- Removes what an evicted entry points to. -/
def removePath (tree : FileTree Bytes) (path : PyPath) : FileTree Bytes :=
  if path.isFile env.cwd tree then
    match path.unlink env.cwd tree with
    | .ok tree' => tree'
    | .error _ => tree
  else if path.isDir env.cwd tree then (path.rmtree env.cwd tree).2
  else tree

/-- The loop of `_maybe_evict`: every round removes one entry, so it ends after as many rounds as
there are entries. -/
def evictLoop : ℕ → CacheManager → CacheManager
  | 0, s => s
  | rounds + 1, s =>
    if Overfull env s.index then
      match leastRecent s.index with
      | none => s
      | some (key, entry) =>
        evictLoop rounds { tree := removePath env s.tree entry.path, index := s.index.pop key }
    else s

/-- `_maybe_evict`. -/
def maybeEvict (s : CacheManager) : CacheManager :=
  saveIndex env (evictLoop env s.index.entries.length s)

/-! ## Wheels -/

/-- `get_wheel`, at the time `now`. -/
def getWheel (package version : String) (now : ℚ) (s : CacheManager) :
    Except FileError (Option PyPath) × CacheManager :=
  let key := wheelKey package version
  match s.index.get? key with
  | none => (.ok none, s)
  | some entry =>
    if ¬ entry.path.exist env.cwd s.tree then
      (.ok none, saveIndex env { s with index := s.index.pop key })
    else
      match hashFile env s entry.path with
      | .error e => (.error e, s)
      | .ok actual =>
        if actual ≠ entry.sha256 then
          match entry.path.unlink env.cwd s.tree with
          | .error e => (.error e, s)
          | .ok tree => (.ok none, saveIndex env { tree := tree, index := s.index.pop key })
        else
          let entry' := { entry with lastAccessed := now }
          (.ok (some entry.path), saveIndex env { s with index := s.index.set key entry' })

/-- Where `store_wheel` puts the file. -/
def wheelDest (source : PyPath) : PyPath := env.wheelsDir.join source.name

/-- `store_wheel` after the eviction; `sha256` is the empty string when no hash is supplied. -/
def placeWheel (package version : String) (source : PyPath) (sha256 : String)
    (cachedAt lastAccessed : ℚ) (s : CacheManager) : Except FileError PyPath × CacheManager :=
  let dest := wheelDest env source
  match if source ≠ dest then source.copy2 env.cwd s.tree dest else .ok s.tree with
  | .error e => (.error e, s)
  | .ok tree =>
    let s := { s with tree := tree }
    match if sha256 ≠ "" then .ok sha256 else hashFile env s dest with
    | .error e => (.error e, s)
    | .ok actualHash =>
      match dest.statSize env.cwd s.tree List.length env.directorySize with
      | .error e => (.error e, s)
      | .ok size =>
        let entry : CacheEntry :=
          { path := dest
            owner := .wheel package version
            sha256 := actualHash
            size := size
            cachedAt := cachedAt
            lastAccessed := lastAccessed }
        (.ok dest, saveIndex env { s with index := s.index.set (wheelKey package version) entry })

/-- `store_wheel`. -/
def storeWheel (package version : String) (source : PyPath) (sha256 : String)
    (cachedAt lastAccessed : ℚ) (s : CacheManager) : Except FileError PyPath × CacheManager :=
  placeWheel env package version source sha256 cachedAt lastAccessed (maybeEvict env s)

/-! ## Layers -/

/-- `get_layer`, at the time `now`. -/
def getLayer (layerId : String) (now : ℚ) (s : CacheManager) : Option PyPath × CacheManager :=
  let key := layerKey layerId
  match s.index.get? key with
  | none => (none, s)
  | some entry =>
    if ¬ entry.path.exist env.cwd s.tree then
      (none, saveIndex env { s with index := s.index.pop key })
    else
      let entry' := { entry with lastAccessed := now }
      (some entry.path, saveIndex env { s with index := s.index.set key entry' })

/-- Puts a copy of the source in the place of what is at `dest`. -/
def replaceTree (tree : FileTree Bytes) (source dest : PyPath) :
    Except FileError Unit × FileTree Bytes :=
  if dest.exist env.cwd tree then
    match dest.rmtree env.cwd tree with
    | (.error e, tree') => (.error e, tree')
    | (.ok _, tree') => source.copytree env.cwd tree' dest
  else source.copytree env.cwd tree dest

/-- `store_layer`. -/
def storeLayer (layerId : String) (source : PyPath) (sha256 : String) (cachedAt lastAccessed : ℚ)
    (s : CacheManager) : Except FileError PyPath × CacheManager :=
  let s := maybeEvict env s
  let dest := env.layersDir.join layerId
  match if source ≠ dest then replaceTree env s.tree source dest else (.ok (), s.tree) with
  | (.error e, tree) => (.error e, { s with tree := tree })
  | (.ok _, tree) =>
    let entry : CacheEntry :=
      { path := dest
        owner := .layer layerId
        sha256 := sha256
        size := dest.dirSize env.cwd tree List.length
        cachedAt := cachedAt
        lastAccessed := lastAccessed }
    (.ok dest, saveIndex env { tree := tree, index := s.index.set (layerKey layerId) entry })

/-! ## Maintenance -/

/-- Empties the directories one after the other, and creates those that are missing. -/
def clearDirs (tree : FileTree Bytes) : List PyPath → Except FileError Unit × FileTree Bytes
  | [] => (.ok (), tree)
  | d :: ds =>
    match d.mkdirs env.cwd (d.rmtree env.cwd tree).2 true with
    | (.error e, tree') => (.error e, tree')
    | (.ok _, tree') => clearDirs tree' ds

/-- `clear`. -/
def clear (s : CacheManager) : Except FileError Unit × CacheManager :=
  match clearDirs env s.tree [env.wheelsDir, env.layersDir, env.metadataDir] with
  | (.error e, tree) => (.error e, { s with tree := tree })
  | (.ok _, tree) => (.ok (), saveIndex env { tree := tree, index := ∅ })

/-- One round of `verify_integrity`: the manager, and the issue that the entry raises. -/
def verifyEntry (s : CacheManager) (key : String) (entry : CacheEntry) :
    CacheManager × Option String :=
  match entry.path.node? env.cwd s.tree with
  | none => ({ s with index := s.index.pop key }, some ("Missing: " ++ key))
  | some .dir => (s, none)
  | some (.file b) =>
    if entry.sha256 ≠ "" ∧ env.sha256 b ≠ entry.sha256 then
      let tree :=
        match entry.path.unlink env.cwd s.tree with
        | .ok tree => tree
        | .error _ => s.tree
      ({ tree := tree, index := s.index.pop key },
        some ("Corrupt: " ++ key ++ " (hash mismatch)"))
    else (s, none)

/-- The rounds of `verify_integrity` over the entries that the index held at its start. -/
def verifyEntries (s : CacheManager) : List (String × CacheEntry) → CacheManager × List String
  | [] => (s, [])
  | (key, entry) :: rest =>
    let (s, issue) := verifyEntry env s key entry
    let (s, issues) := verifyEntries s rest
    (s, issue.toList ++ issues)

/-- `verify_integrity`. -/
def verifyIntegrity (s : CacheManager) : List String × CacheManager :=
  let (s, issues) := verifyEntries env s s.index.entries
  (issues, if issues ≠ [] then saveIndex env s else s)

/-! ## Runs -/

end CacheManager

/-- An operation of the cache manager, with the times that it reads off the clock, or a change of
the files from outside. -/
inductive CacheOp where
  | getWheel (package version : String) (now : ℚ)
  | storeWheel (package version : String) (source : PyPath) (sha256 : String)
      (cachedAt lastAccessed : ℚ)
  | getLayer (layerId : String) (now : ℚ)
  | storeLayer (layerId : String) (source : PyPath) (sha256 : String) (cachedAt lastAccessed : ℚ)
  | verifyIntegrity
  | clear
  | maybeEvict
  | external (tree : FileTree Bytes)

namespace CacheManager

variable (env : CacheEnv)

/-- What an operation leaves. -/
def perform (s : CacheManager) : CacheOp → CacheManager
  | .getWheel package version now => (getWheel env package version now s).2
  | .storeWheel package version source sha256 cachedAt lastAccessed =>
    (storeWheel env package version source sha256 cachedAt lastAccessed s).2
  | .getLayer layerId now => (getLayer env layerId now s).2
  | .storeLayer layerId source sha256 cachedAt lastAccessed =>
    (storeLayer env layerId source sha256 cachedAt lastAccessed s).2
  | .verifyIntegrity => (verifyIntegrity env s).2
  | .clear => (clear env s).2
  | .maybeEvict => maybeEvict env s
  | .external tree => { s with tree := tree }

end CacheManager

end Cpip
