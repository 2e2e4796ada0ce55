import Cpip.Client.CacheIndex
import Cpip.Lib.Machine
import Cpip.Python.Hashlib

/-!
# What `get_wheel` hands out

Along a run of the cache manager a ledger keeps what every successful `store_wheel` recorded.  The
invariant ties each index entry of a wheel to the last store of exactly its package and version,
whatever happens to the files in between, so a wheel that `get_wheel` hands out is the one that was
stored.
-/

namespace Cpip

namespace CacheManager

variable (env : CacheEnv)

/-! ## The index file -/

theorem wheelsDir_parent : env.wheelsDir.parent = env.cacheDir := by
  obtain ⟨absolute, parts⟩ := env.cacheDir.join_of_isPart (s := "wheels") (by decide)
  apply PyPath.ext
  · exact absolute
  · show (env.cacheDir.join "wheels").parts.dropLast = _
    rw [parts, List.dropLast_concat]

/-- Saving the index changes no directory, and no file but the index file. -/
theorem saveIndex_tree (s : CacheManager) :
    (∀ l, (saveIndex env s).tree.IsDir l ↔ s.tree.IsDir l) ∧
      ∀ l, env.indexFile.locate env.cwd s.tree ≠ .ok l →
        (saveIndex env s).tree.node? l = s.tree.node? l := by
  unfold saveIndex
  split
  · next tree h =>
    obtain ⟨l₀, hl₀, written⟩ := PyPath.write_eq_ok h
    refine ⟨FileTree.isDir_of_write written, fun l hl => ?_⟩
    obtain ⟨-, -, after⟩ := FileTree.write_eq_ok written
    rw [after, if_neg]
    rintro rfl
    exact hl hl₀
  · exact ⟨fun l => Iff.rfl, fun l _ => rfl⟩

/-- A wheel in the cache is never the index file. -/
theorem locate_wheelDest_ne {tree : FileTree Bytes} {source : PyPath} {l : Loc}
    (h : (wheelDest env source).locate env.cwd tree = .ok l) :
    env.indexFile.locate env.cwd tree ≠ .ok l := by
  intro index
  rw [CacheEnv.indexFile, wheelsDir_parent] at index
  obtain ⟨C, hC, -, hl⟩ := (PyPath.locate_join_eq_ok (by decide)).1 index
  have wheels : ∀ {W}, env.wheelsDir.locate env.cwd tree = .ok W → W = C ++ ["wheels"] := by
    intro W hW
    obtain ⟨C', hC', -, rfl⟩ := (PyPath.locate_join_eq_ok (by decide)).1 hW
    obtain rfl := Except.ok.inj (hC.symm.trans hC')
    rfl
  by_cases hname : source.name = ""
  · rw [wheelDest, hname, PyPath.join_empty] at h
    have hW := wheels h
    rw [hl] at hW
    simp [FileTree.stepInto] at hW
  · obtain ⟨W, hW, -, hstep⟩ := (PyPath.locate_join_eq_ok (PyPath.isPart_name hname)).1 h
    rw [wheels hW, hl] at hstep
    have lengths := congrArg List.length hstep
    rw [FileTree.stepInto_of_ne C (by decide)] at lengths
    by_cases up : source.name = ".."
    · rw [FileTree.stepInto, if_pos up, List.dropLast_concat] at lengths
      simp at lengths
    · rw [FileTree.stepInto_of_ne _ up] at lengths
      simp at lengths

/-- Saving the index leaves the wheels as they are. -/
theorem read_saveIndex {s : CacheManager} {source : PyPath} {b : Bytes}
    (h : (wheelDest env source).read env.cwd s.tree = .ok b) :
    (wheelDest env source).read env.cwd (saveIndex env s).tree = .ok b := by
  obtain ⟨dirs, others⟩ := saveIndex_tree env s
  obtain ⟨l, hl, hfile⟩ := PyPath.read_eq_ok_iff.1 h
  refine PyPath.read_eq_ok_iff.2 ⟨l, PyPath.locate_mono (fun l => (dirs l).2) hl, ?_⟩
  rw [others l (locate_wheelDest_ne env hl), hfile]

/-! ## The ledger -/

/-- What a successful `store_wheel` recorded: the hash in the index entry; the source file as the
call read it; and the hash that was supplied, if any. -/
structure StoredWheel where
  package : String
  version : String
  supplied : String
  source : Except FileError Bytes
  hash : String

/-- The stores of a run, the last one first. -/
abbrev Ledger := List StoredWheel

/-- The last store of a wheel. -/
def lastStore (ledger : Ledger) (p v : String) : Option StoredWheel :=
  ledger.find? fun r => r.package = p ∧ r.version = v

/-- What an operation adds to the ledger. -/
def recorded (s : CacheManager) : CacheOp → Option StoredWheel
  | .storeWheel p v source sha256 cachedAt lastAccessed =>
    match storeWheel env p v source sha256 cachedAt lastAccessed s with
    | (.error _, _) => none
    | (.ok _, s') => some
      { package := p
        version := v
        supplied := sha256
        source := source.read env.cwd (maybeEvict env s).tree
        hash := ((s'.index.get? (wheelKey p v)).map CacheEntry.sha256).getD "" }
  | _ => none

/-- A step of the manager with its ledger. -/
def ledgerStep (s : CacheManager × Ledger) (op : CacheOp) : Option (CacheManager × Ledger) :=
  some (perform env s.1 op, (recorded env s.1 op).toList ++ s.2)

/-- A store is for a package without a colon in its name. -/
def Plain : CacheOp → Prop
  | .storeWheel p _ _ _ _ _ => ':' ∉ p.toList
  | _ => True

/-- The hash of a record is the one that was supplied, or else that of the source file. -/
def StoredWheel.Sound (r : StoredWheel) : Prop :=
  (r.supplied ≠ "" → r.hash = r.supplied) ∧
    (r.supplied = "" → ∃ b, r.source = .ok b ∧ r.hash = env.sha256 b)

/-- Each index entry of a wheel says what the last store of the wheel recorded. -/
structure Accounts (s : CacheManager × Ledger) : Prop where
  sound : ∀ r ∈ s.2, r.Sound env
  entries : ∀ p v e, ':' ∉ p.toList → s.1.index.get? (wheelKey p v) = some e →
    ∃ r source, lastStore s.2 p v = some r ∧ e.sha256 = r.hash ∧ e.path = wheelDest env source

variable {env}

theorem Accounts.of_descends {s : CacheManager × Ledger} (inv : Accounts env s)
    {s' : CacheManager} (h : Descends s'.index s.1.index) : Accounts env (s', s.2) := by
  refine ⟨inv.sound, fun p v e hp he => ?_⟩
  obtain ⟨e₀, he₀, path, sha⟩ := h _ e he
  obtain ⟨r, source, hr, hash, hpath⟩ := inv.entries p v e₀ hp he₀
  exact ⟨r, source, hr, sha ▸ hash, path ▸ hpath⟩

/-- A store of a layer touches no wheel. -/
theorem Accounts.storeLayer {s : CacheManager × Ledger} (inv : Accounts env s) (layerId : String)
    (source : PyPath) (sha256 : String) (cachedAt lastAccessed : ℚ) :
    Accounts env ((storeLayer env layerId source sha256 cachedAt lastAccessed s.1).2, s.2) := by
  have inv' := inv.of_descends (descends_maybeEvict env s.1)
  refine ⟨inv.sound, fun p v e hp he => ?_⟩
  rcases storeLayer_index env layerId source sha256 cachedAt lastAccessed s.1 with
    same | ⟨entry, set⟩
  · exact inv'.entries p v e hp (same ▸ he)
  · rw [set, Dict.get?_set, if_neg (wheelKey_ne_layerKey p v layerId).symm] at he
    exact inv'.entries p v e hp he

/-- A store that is recorded, with the entry that it sets. -/
theorem Accounts.cons {s : CacheManager × Ledger} (inv : Accounts env s) {r : StoredWheel}
    (sound : r.Sound env) (plain : ':' ∉ r.package.toList) {s' : CacheManager} {entry : CacheEntry}
    (hash : entry.sha256 = r.hash) {source : PyPath} (path : entry.path = wheelDest env source)
    (set : s'.index = s.1.index.set (wheelKey r.package r.version) entry) :
    Accounts env (s', r :: s.2) := by
  refine ⟨List.forall_mem_cons.2 ⟨sound, inv.sound⟩, fun p v e hp he => ?_⟩
  dsimp only at he
  rw [set, Dict.get?_set] at he
  split_ifs at he with same
  · obtain ⟨rfl, rfl⟩ := wheelKey_inj plain hp same
    obtain rfl := Option.some.inj he
    exact ⟨r, source, List.find?_cons_of_pos (by simp), hash, path⟩
  · obtain ⟨r', source', hr', rest⟩ := inv.entries p v e hp he
    refine ⟨r', source', (List.find?_cons_of_neg ?_).trans hr', rest⟩
    simp only [decide_eq_true_eq, not_and]
    rintro rfl rfl
    exact same rfl

theorem Accounts.storeWheel {s : CacheManager × Ledger} (inv : Accounts env s) {p v : String}
    (hp : ':' ∉ p.toList) (source : PyPath) (sha256 : String) (cachedAt lastAccessed : ℚ) :
    Accounts env ((storeWheel env p v source sha256 cachedAt lastAccessed s.1).2,
      (recorded env s.1 (.storeWheel p v source sha256 cachedAt lastAccessed)).toList ++ s.2) := by
  simp only [recorded]
  cases stored : CacheManager.storeWheel env p v source sha256 cachedAt lastAccessed s.1 with
  | mk result s' =>
    cases result with
    | error e => exact inv.of_descends (descends_of_storeWheel_error env stored)
    | ok dest =>
      obtain ⟨rfl, entry, path, set, supplied, hashed⟩ := storeWheel_eq_ok env stored
      have hash :
          ((s'.index.get? (wheelKey p v)).map CacheEntry.sha256).getD "" = entry.sha256 := by
        rw [set, Dict.get?_set_self]
        rfl
      refine (inv.of_descends (descends_maybeEvict env s.1)).cons ⟨?_, ?_⟩ hp hash.symm path set
      · intro h
        exact hash.trans (supplied h)
      · intro h
        obtain ⟨b, ⟨hread, -⟩, hb⟩ := hashed h
        exact ⟨b, hread, hash.trans hb⟩

theorem Accounts.step {s s' : CacheManager × Ledger} {op : CacheOp} (plain : Plain op)
    (inv : Accounts env s) (h : ledgerStep env s op = some s') : Accounts env s' := by
  obtain rfl := Option.some.inj h
  cases op with
  | getWheel p v now => exact inv.of_descends (descends_getWheel env p v now s.1)
  | storeWheel p v source sha256 cachedAt lastAccessed =>
    exact inv.storeWheel plain source sha256 cachedAt lastAccessed
  | getLayer layerId now => exact inv.of_descends (reduces_getLayer env layerId now s.1).descends
  | storeLayer layerId source sha256 cachedAt lastAccessed =>
    exact inv.storeLayer layerId source sha256 cachedAt lastAccessed
  | verifyIntegrity => exact inv.of_descends (reduces_verifyIntegrity env s.1).descends
  | clear => exact inv.of_descends (reduces_clear env s.1).descends
  | maybeEvict => exact inv.of_descends (descends_maybeEvict env s.1)
  | external tree => exact inv.of_descends (Descends.refl _)

/-- The ledger accounts for every index entry, after every run from an empty index. -/
theorem accounts_run {s : CacheManager × Ledger} {tree : FileTree Bytes} {ops : List CacheOp}
    (plain : ∀ op ∈ ops, Plain op)
    (ran : Machine.run (ledgerStep env) (⟨tree, ∅⟩, []) ops = some s) : Accounts env s := by
  refine Machine.invariant_along (fun s op s' plain inv => inv.step plain) ?_
    (Machine.along_of_forall_mem plain _) ran
  exact ⟨by simp, by simp⟩

/-- After every run from an empty cache, whatever happens to the files in between: a path that
`get_wheel` returns holds a file with the hash that the last successful store of the wheel recorded,
which is, when no hash was supplied, the file that was stored. -/
theorem getWheel_hands_out_stored (injective : Function.Injective env.sha256)
    {tree : FileTree Bytes} {ops : List CacheOp} {s : CacheManager} {ledger : Ledger}
    (plain : ∀ op ∈ ops, Plain op)
    (ran : Machine.run (ledgerStep env) (⟨tree, ∅⟩, []) ops = some (s, ledger))
    {p v : String} {now : ℚ} {path : PyPath} {s' : CacheManager} (hp : ':' ∉ p.toList)
    (got : getWheel env p v now s = (.ok (some path), s')) :
    ∃ r b, lastStore ledger p v = some r ∧ path.read env.cwd s'.tree = .ok b ∧
      env.sha256 b = r.hash ∧ (r.supplied ≠ "" → r.hash = r.supplied) ∧
      (r.supplied = "" → r.source = .ok b) := by
  have inv := accounts_run plain ran
  have found := getWheel_lookup env p v now s
  rw [got] at found
  cases found with
  | found e l b he hl hnode hash =>
    obtain ⟨r, source, hr, recorded, hpath⟩ := inv.entries p v e hp he
    have sound := inv.sound r (List.mem_of_find?_eq_some hr)
    have stored : (wheelDest env source).read env.cwd s.tree = .ok b :=
      hpath ▸ PyPath.read_eq_ok_iff.2 ⟨l, hl, hnode⟩
    refine ⟨r, b, hr, hpath ▸ read_saveIndex env stored, hash.trans recorded, sound.1, ?_⟩
    · intro unsupplied
      obtain ⟨b', hread, hb'⟩ := sound.2 unsupplied
      rw [hread, injective (hb'.symm.trans (recorded.symm.trans hash.symm))]

/-- A cache under `/h`; the index file is written empty. -/
def sampleCacheEnv : CacheEnv where
  home := PyPath.ofString "/h"
  cwd := []
  maxSizeMb := 2048
  sha256 := sampleSha256
  dumps := fun _ => []
  directorySize := 4096

/-- The directories of the cache, a wheel in `/a`, and two in `/b`, one of these of its name. -/
def sampleTree : FileTree Bytes :=
  let dirs := ["/a", "/b", "/h/cache/wheels"].foldl
    (fun tree d => ((PyPath.ofString d).mkdirs [] tree true).2) FileTree.bare
  [("/a/x.whl", [1]), ("/b/x.whl", [2]), ("/b/y.whl", [3])].foldl
    (fun tree f => ((PyPath.ofString f.1).write [] tree f.2).toOption.getD tree) dirs

/-- The manager after a store of the wheel in `/a`. -/
def sampleStored : CacheManager :=
  (storeWheel sampleCacheEnv "p" "1" (PyPath.ofString "/a/x.whl") "" 1 1 ⟨sampleTree, ∅⟩).2

/-- The wheel of `/a` is found once it was stored. -/
theorem getWheel_hands_out_stored_sample :
    let op := CacheOp.storeWheel "p" "1" (PyPath.ofString "/a/x.whl") "" 1 1
    let ledger := (recorded sampleCacheEnv ⟨sampleTree, ∅⟩ op).toList
    let path := PyPath.ofString "/h/cache/wheels/x.whl"
    let s' := (getWheel sampleCacheEnv "p" "1" 2 sampleStored).2
    ∃ r b, lastStore ledger "p" "1" = some r ∧ path.read [] s'.tree = .ok b ∧
      sampleSha256 b = r.hash ∧ (r.supplied ≠ "" → r.hash = r.supplied) ∧
      (r.supplied = "" → r.source = .ok b) := by
  have got : (getWheel sampleCacheEnv "p" "1" 2 sampleStored).1 =
      .ok (some (PyPath.ofString "/h/cache/wheels/x.whl")) := by decide +kernel
  have plain :
      ∀ op ∈ [CacheOp.storeWheel "p" "1" (PyPath.ofString "/a/x.whl") "" 1 1], Plain op := by
    simp [Plain]
  exact getWheel_hands_out_stored sampleSha256_injective plain rfl (by decide) (Prod.ext got rfl)

end CacheManager

end Cpip
