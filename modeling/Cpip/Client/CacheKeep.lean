import Cpip.Client.CacheLedger

/-!
# Whether a stored wheel stays

A wheel is filed under the name of its file and found under its package and version.  A store that
gets its source past the eviction and to its destination is found again, until another package
brings a file of the same name, or is looked up at the same file with another hash.
-/

namespace Cpip

namespace CacheManager

variable {env : CacheEnv}

/-- `get_wheel` returns a file with the bytes, at any time. -/
def Returns (env : CacheEnv) (s : CacheManager) (p v : String) (b : Bytes) : Prop :=
  ∀ now, ∃ path s', getWheel env p v now s = (.ok (some path), s') ∧
    path.read env.cwd s'.tree = .ok b

/-! ## The stored wheel -/

/-- The index entry of a wheel is for the file with the bytes at a place. -/
structure Holds (env : CacheEnv) (p v : String) (source : PyPath) (l : Loc) (b : Bytes)
    (s : CacheManager) : Prop where
  entry : ∃ e, s.index.get? (wheelKey p v) = some e ∧ e.path = wheelDest env source ∧
    e.sha256 = env.sha256 b
  place : (wheelDest env source).locate env.cwd s.tree = .ok l
  file : s.tree.node? l = some (.file b)

variable {p v : String} {source : PyPath} {l : Loc} {b : Bytes} {s : CacheManager}

/-- What keeps the entry, up to its times, the directories, and the file keeps the wheel. -/
theorem Holds.of_same (h : Holds env p v source l b s) {s' : CacheManager}
    (entry : ∀ e, s.index.get? (wheelKey p v) = some e →
      ∃ e', s'.index.get? (wheelKey p v) = some e' ∧ e'.path = e.path ∧ e'.sha256 = e.sha256)
    (dirs : ∀ l', s.tree.IsDir l' → s'.tree.IsDir l') (file : s'.tree.node? l = s.tree.node? l) :
    Holds env p v source l b s' := by
  obtain ⟨e, he, path, hash⟩ := h.entry
  obtain ⟨e', he', path', hash'⟩ := entry e he
  exact ⟨⟨e', he', path'.trans path, hash'.trans hash⟩, PyPath.locate_mono dirs h.place,
    file.trans h.file⟩

theorem Holds.saveIndex (h : Holds env p v source l b s) :
    Holds env p v source l b (saveIndex env s) := by
  obtain ⟨dirs, others⟩ := saveIndex_tree env s
  refine h.of_same (fun e he => ⟨e, ?_, rfl, rfl⟩) (fun l' => (dirs l').2)
    (others l (locate_wheelDest_ne env h.place))
  rwa [saveIndex_index]

theorem Holds.returns (h : Holds env p v source l b s) : Returns env s p v b := by
  intro now
  have found := getWheel_lookup env p v now s
  obtain ⟨e, he, path, hash⟩ := h.entry
  have place : e.path.locate env.cwd s.tree = .ok l := path ▸ h.place
  generalize hr : getWheel env p v now s = r at found ⊢
  have entry_eq {e' : CacheEntry} (he' : s.index.get? (wheelKey p v) = some e') : e' = e :=
    Option.some.inj (he'.symm.trans he)
  cases found with
  | absent none => rw [he] at none; cases none
  | missing e' he' hn =>
    obtain rfl := entry_eq he'
    rw [PyPath.node?_eq_some_iff.2 ⟨l, place, h.file⟩] at hn
    cases hn
  | directory e' l' he' hl' dir =>
    obtain rfl := entry_eq he'
    obtain rfl := Except.ok.inj (place.symm.trans hl')
    rw [FileTree.IsDir, h.file] at dir
    cases dir
  | corrupt e' l' b' he' hl' hnode wrong =>
    obtain rfl := entry_eq he'
    obtain rfl := Except.ok.inj (place.symm.trans hl')
    obtain rfl := FileTree.Node.file.inj (Option.some.inj (h.file.symm.trans hnode))
    exact absurd hash.symm wrong
  | found e' l' b' he' hl' hnode =>
    obtain rfl := entry_eq he'
    refine ⟨_, _, rfl, ?_⟩
    have touched : Holds env p v source l b { s with
        index := s.index.set (wheelKey p v) { e' with lastAccessed := now } } :=
      h.of_same (fun e'' he'' => ⟨_, Dict.get?_set_self .., by rw [entry_eq he''], by
        rw [entry_eq he'']⟩) (fun _ => id) rfl
    have place' := touched.saveIndex.place
    rw [← path] at place'
    exact PyPath.read_eq_ok_iff.2 ⟨l, place', touched.saveIndex.file⟩

/-! ## Storing it -/

theorem Storable.storeWheel (h : Storable env (maybeEvict env s).tree source b)
    (p v : String) (cachedAt lastAccessed : ℚ) :
    ∃ l s',
      storeWheel env p v source "" cachedAt lastAccessed s = (.ok (wheelDest env source), s') ∧
        Holds env p v source l b s' := by
  obtain ⟨hread, dest⟩ := h
  have placed : ∃ l tree, (if source ≠ wheelDest env source then
        source.copy2 env.cwd (maybeEvict env s).tree (wheelDest env source)
      else .ok (maybeEvict env s).tree) = .ok tree ∧
      (wheelDest env source).locate env.cwd tree = .ok l ∧ tree.node? l = some (.file b) := by
    by_cases same : source = wheelDest env source
    · obtain ⟨l, hl, hnode⟩ := PyPath.read_eq_ok_iff.1 hread
      exact ⟨l, _, if_neg (not_not.2 same), same ▸ hl, hnode⟩
    · obtain ⟨l, tree, hl, copied, written⟩ := (dest.resolve_left same).copy2 hread
      obtain ⟨-, -, after⟩ := FileTree.write_eq_ok written
      refine ⟨l, tree, (if_pos same).trans copied, ?_, by rw [after, if_pos rfl]⟩
      exact PyPath.locate_mono (fun l => (FileTree.isDir_of_write written l).2) hl
  obtain ⟨l, tree, copied, place, file⟩ := placed
  have hashed : hashFile env { maybeEvict env s with tree := tree } (wheelDest env source) =
      .ok (env.sha256 b) := by
    rw [hashFile, PyPath.read_eq_ok_iff.2 ⟨l, place, file⟩]
    rfl
  have size : (wheelDest env source).statSize env.cwd tree List.length env.directorySize =
      .ok b.length := by
    rw [PyPath.statSize, PyPath.node?_eq_some_iff.2 ⟨l, place, file⟩]
  unfold CacheManager.storeWheel placeWheel
  simp only [copied, hashed, size]
  refine ⟨l, _, rfl, Holds.saveIndex ⟨?_, place, file⟩⟩
  exact ⟨_, Dict.get?_set_self .., rfl, rfl⟩

/-- A stored wheel is found with the bytes exactly when they can be stored. -/
theorem storeWheel_returns_iff (env : CacheEnv) (p v : String) (source : PyPath) (b : Bytes)
    (cachedAt lastAccessed : ℚ) (s : CacheManager) :
    (∃ dest s', storeWheel env p v source "" cachedAt lastAccessed s = (.ok dest, s') ∧
        Returns env s' p v b) ↔
      Storable env (maybeEvict env s).tree source b := by
  constructor
  · rintro ⟨dest, s', stored, returns⟩
    obtain ⟨-, _, -, -, -, unsupplied⟩ := storeWheel_eq_ok env stored
    obtain ⟨b', storable, -⟩ := unsupplied rfl
    obtain ⟨l, s'', stored', holds⟩ := storable.storeWheel p v cachedAt lastAccessed
    obtain rfl := (Prod.mk.inj (stored.symm.trans stored')).2
    obtain ⟨path, t, got, hread⟩ := returns 0
    obtain ⟨path', t', got', hread'⟩ := holds.returns 0
    obtain ⟨hpath, rfl⟩ := Prod.mk.inj (got.symm.trans got')
    obtain rfl := Option.some.inj (Except.ok.inj hpath)
    obtain rfl := Except.ok.inj (hread.symm.trans hread')
    exact storable
  · intro h
    obtain ⟨l, s', stored, holds⟩ := h.storeWheel p v cachedAt lastAccessed
    exact ⟨_, s', stored, holds.returns⟩

/-! ## Later operations -/

theorem Holds.getWheel (h : Holds env p v source l b s) {p' v' : String}
    (spared : ∀ e, s.index.get? (wheelKey p' v') = some e →
      e.path.locate env.cwd s.tree = .ok l → e.sha256 = env.sha256 b) (now : ℚ) :
    Holds env p v source l b (getWheel env p' v' now s).2 := by
  have found := getWheel_lookup env p' v' now s
  obtain ⟨e₀, he₀, path, hash⟩ := h.entry
  have place : e₀.path.locate env.cwd s.tree = .ok l := path ▸ h.place
  -- an entry that is removed is not the one of the wheel
  have kept (other : wheelKey p' v' = wheelKey p v → False) (e : CacheEntry)
      (he : s.index.get? (wheelKey p v) = some e) :
      (s.index.pop (wheelKey p' v')).get? (wheelKey p v) = some e := by
    rw [Dict.get?_pop, if_neg other, he]
  generalize CacheManager.getWheel env p' v' now s = r at found ⊢
  cases found with
  | absent => exact h
  | directory => exact h
  | missing e he hn =>
    refine Holds.saveIndex (h.of_same (fun e' he' => ⟨e', kept ?_ e' he', rfl, rfl⟩)
      (fun _ => id) rfl)
    intro same
    obtain rfl := Option.some.inj (he₀.symm.trans (same ▸ he))
    rw [PyPath.node?_eq_some_iff.2 ⟨l, place, h.file⟩] at hn
    cases hn
  | corrupt e l' b' he hl' hnode wrong =>
    have elsewhere : l ≠ l' := by
      rintro rfl
      obtain rfl := FileTree.Node.file.inj (Option.some.inj (h.file.symm.trans hnode))
      exact wrong (spared e he hl').symm
    refine Holds.saveIndex (h.of_same (fun e' he' => ⟨e', kept ?_ e' he', rfl, rfl⟩)
      (fun l₀ => (FileTree.isDir_prune_of_file hnode l₀).2) ?_)
    · intro same
      obtain rfl := Option.some.inj (he₀.symm.trans (same ▸ he))
      exact elsewhere (Except.ok.inj (place.symm.trans hl'))
    · exact (FileTree.node?_prune_of_file hnode l).trans (if_neg elsewhere)
  | found e l' b' he hl' hnode =>
    refine Holds.saveIndex (h.of_same (fun e' he' => ?_) (fun _ => id) rfl)
    by_cases same : wheelKey p' v' = wheelKey p v
    · obtain rfl := Option.some.inj (he'.symm.trans (same ▸ he))
      refine ⟨{ e' with lastAccessed := now }, ?_, rfl, rfl⟩
      rw [← same, Dict.get?_set_self]
    · exact ⟨e', by rw [Dict.get?_set, if_neg same, he'], rfl, rfl⟩

/-- Without eviction, `store_wheel` starts with saving the index. -/
theorem maybeEvict_of_fits (h : ¬ Overfull env s.index) : maybeEvict env s = saveIndex env s := by
  have loop (rounds : ℕ) : evictLoop env rounds s = s := by
    cases rounds with
    | zero => rfl
    | succ rounds => rw [evictLoop, if_neg h]
  rw [maybeEvict, loop]

/-- A copy for another file name goes to another place. -/
theorem locate_copyTarget_ne {tree : FileTree Bytes} {source' : PyPath}
    (place : (wheelDest env source).locate env.cwd tree = .ok l)
    (file : tree.node? l = some (.file b)) (name : source'.name ≠ source.name) {l' : Loc}
    (target : (source'.copyTarget env.cwd tree (wheelDest env source')).locate env.cwd tree =
      .ok l') (notDir : ¬ tree.IsDir l') : l' ≠ l := by
  have notDir' : ¬ tree.IsDir l := by
    intro dir
    rw [FileTree.IsDir, file] at dir
    cases dir
  obtain ⟨Y, hY, hjoin⟩ : ∃ Y, (Y = env.wheelsDir ∨ Y = wheelDest env source') ∧
      source'.copyTarget env.cwd tree (wheelDest env source') = Y.join source'.name := by
    unfold PyPath.copyTarget
    split_ifs
    · exact ⟨_, Or.inr rfl, rfl⟩
    · exact ⟨_, Or.inl rfl, rfl⟩
  rw [hjoin] at target
  by_cases unnamed : source'.name = ""
  · -- the copy would replace the directory of the wheel
    have wheels : Y = env.wheelsDir := by
      rcases hY with rfl | rfl
      · rfl
      · rw [wheelDest, unnamed, PyPath.join_empty]
    rw [unnamed, PyPath.join_empty, wheels] at target
    have named : source.name ≠ "" := fun none => name (unnamed.trans none.symm)
    obtain ⟨W, hW, dir, -⟩ :=
      PyPath.locate_join_of_not_isDir (PyPath.isPart_name named) place notDir'
    obtain rfl := Except.ok.inj (hW.symm.trans target)
    exact absurd dir notDir
  · obtain ⟨X, hX, dir, rfl⟩ :=
      PyPath.locate_join_of_not_isDir (PyPath.isPart_name unnamed) target notDir
    rintro rfl
    by_cases named : source.name = ""
    · -- the wheel is where the directory of the copy should be
      rw [wheelDest, named, PyPath.join_empty] at place
      rcases hY with rfl | rfl
      · obtain same := Except.ok.inj (hX.symm.trans place)
        simp at same
      · obtain ⟨W, hW, dir', -⟩ := (PyPath.locate_join_eq_ok (PyPath.isPart_name unnamed)).1 hX
        obtain rfl := Except.ok.inj (hW.symm.trans place)
        exact notDir' dir'
    · obtain ⟨W, -, -, same⟩ :=
        PyPath.locate_join_of_not_isDir (PyPath.isPart_name named) place notDir'
      obtain ⟨-, names⟩ := List.append_inj' same rfl
      exact name (List.singleton_inj.1 names)

/-- A copy under another file name, or of the same bytes, keeps the wheel. -/
theorem Holds.copy2 (h : Holds env p v source l b s) {source' : PyPath} {tree : FileTree Bytes}
    (harmless : source'.name ≠ source.name ∨
      ∀ b', source'.read env.cwd s.tree = .ok b' → b' = b)
    (copied : source'.copy2 env.cwd s.tree (wheelDest env source') = .ok tree) :
    Holds env p v source l b { s with tree := tree } := by
  obtain ⟨l', b', target, -, hread, written⟩ := PyPath.copy2_eq_ok copied
  obtain ⟨notDir, -, after⟩ := FileTree.write_eq_ok written
  refine h.of_same (fun e he => ⟨e, he, rfl, rfl⟩)
    (fun l₀ => (FileTree.isDir_of_write written l₀).2) ?_
  rw [after, h.file]
  split_ifs with same
  · rcases harmless with name | bytes
    · exact absurd same (locate_copyTarget_ne h.place h.file name target notDir)
    · rw [bytes b' hread]
  · rfl

/-- A store under another key keeps the wheel when it evicts nothing, and copies no file of the same
name with other bytes. -/
theorem Holds.storeWheel (h : Holds env p v source l b s) {p' v' sha256 : String} {source' : PyPath}
    (key : wheelKey p' v' ≠ wheelKey p v) (fits : ¬ Overfull env s.index)
    (harmless : source' = wheelDest env source' ∨ source'.name ≠ source.name ∨
      ∀ b', source'.read env.cwd (maybeEvict env s).tree = .ok b' → b' = b)
    (cachedAt lastAccessed : ℚ) : Holds env p v source l b
      (storeWheel env p' v' source' sha256 cachedAt lastAccessed s).2 := by
  have saved : Holds env p v source l b (maybeEvict env s) := by
    rw [maybeEvict_of_fits fits]
    exact h.saveIndex
  unfold CacheManager.storeWheel placeWheel
  dsimp only
  split
  · exact saved
  · next tree copied =>
    have placed : Holds env p v source l b { maybeEvict env s with tree := tree } := by
      by_cases same : source' = wheelDest env source'
      · rw [if_neg (not_not.2 same)] at copied
        obtain rfl := Except.ok.inj copied
        exact saved
      · rw [if_pos same] at copied
        exact saved.copy2 (harmless.resolve_left same) copied
    split
    · exact placed
    · split
      · exact placed
      · refine Holds.saveIndex (placed.of_same (fun e he => ⟨e, ?_, rfl, rfl⟩) (fun _ => id) rfl)
        exact (Dict.get?_set ..).trans ((if_neg key).trans he)

/-! ## Runs -/

/-- The operation of another package spares a wheel: a look-up finds at its file no hash but its
own; a store has another key, evicts nothing, and copies no file of the same name with other
bytes. -/
def Spares (env : CacheEnv) (p v : String) (source : PyPath) (b : Bytes) (s : CacheManager) :
    CacheOp → Prop
  | .getWheel p' v' _ => ∀ e, s.index.get? (wheelKey p' v') = some e →
    e.path.locate env.cwd s.tree = (wheelDest env source).locate env.cwd s.tree →
      e.sha256 = env.sha256 b
  | .storeWheel p' v' source' _ _ _ => wheelKey p' v' ≠ wheelKey p v ∧ ¬ Overfull env s.index ∧
    (source' = wheelDest env source' ∨ source'.name ≠ source.name ∨
      ∀ b', source'.read env.cwd (maybeEvict env s).tree = .ok b' → b' = b)
  | _ => False

/-- A step of the manager. -/
def step (env : CacheEnv) (s : CacheManager) (op : CacheOp) : Option CacheManager :=
  some (perform env s op)

theorem Holds.step (h : Holds env p v source l b s) {op : CacheOp} {s' : CacheManager}
    (spared : Spares env p v source b s op) (next : step env s op = some s') :
    Holds env p v source l b s' := by
  obtain rfl := Option.some.inj next
  cases op with
  | getWheel p' v' now =>
    exact h.getWheel (fun e he place => spared e he (place.trans h.place.symm)) now
  | storeWheel p' v' source' sha256 cachedAt lastAccessed =>
    obtain ⟨key, fits, harmless⟩ := spared
    exact h.storeWheel key fits harmless cachedAt lastAccessed
  | _ => exact spared.elim

theorem storable_sample : Storable sampleCacheEnv
    (maybeEvict sampleCacheEnv ⟨sampleTree, ∅⟩).tree (PyPath.ofString "/a/x.whl") [1] := by
  refine ⟨by decide +kernel, Or.inr ⟨["h", "cache", "wheels", "x.whl"], ?_, ?_, ?_⟩⟩
  · decide +kernel
  · decide +kernel
  · decide +kernel

/-- In every state: the call returns and the wheel is found with the bytes of its source exactly
when the source can be stored after the eviction that the call starts with.  It is then found after
every run of look-ups and stores of other packages that spare it. -/
theorem stored_wheel_kept_iff (env : CacheEnv) (s : CacheManager) (p v : String) (source : PyPath)
    (b : Bytes) (cachedAt lastAccessed : ℚ) :
    ((∃ dest s', storeWheel env p v source "" cachedAt lastAccessed s = (.ok dest, s') ∧
        Returns env s' p v b) ↔
      Storable env (maybeEvict env s).tree source b) ∧
    ∀ dest s' ops t, Storable env (maybeEvict env s).tree source b →
      storeWheel env p v source "" cachedAt lastAccessed s = (.ok dest, s') →
      Machine.Along (step env) (Spares env p v source b) s' ops →
      Machine.run (step env) s' ops = some t → Returns env t p v b := by
  refine ⟨storeWheel_returns_iff env p v source b cachedAt lastAccessed s, ?_⟩
  intro dest s' ops t storable stored spared ran
  obtain ⟨l, s'', stored', holds⟩ := storable.storeWheel p v cachedAt lastAccessed
  obtain rfl := (Prod.mk.inj (stored.symm.trans stored')).2
  have kept : Holds env p v source l b t :=
    Machine.invariant_along (fun s op s' spared holds => holds.step spared) holds spared ran
  exact kept.returns

/-- The wheel of `/a` is found after a store of a wheel of another name. -/
theorem stored_wheel_kept_sample : Returns sampleCacheEnv
    (storeWheel sampleCacheEnv "q" "1" (PyPath.ofString "/b/y.whl") "" 2 2 sampleStored).2
    "p" "1" [1] := by
  have spec := stored_wheel_kept_iff sampleCacheEnv ⟨sampleTree, ∅⟩ "p" "1"
    (PyPath.ofString "/a/x.whl") [1] 1 1
  obtain ⟨dest, s', stored, -⟩ := spec.1.2 storable_sample
  have same : sampleStored = s' := congrArg Prod.snd stored
  have fits : ¬ Overfull sampleCacheEnv sampleStored.index := by decide +kernel
  rw [same] at fits ⊢
  exact spec.2 dest s' [.storeWheel "q" "1" (PyPath.ofString "/b/y.whl") "" 2 2] _ storable_sample
    stored ⟨⟨by decide, fits, Or.inr (Or.inl (by decide))⟩, fun _ _ => trivial⟩ rfl

/-- The wheel of `/a` is lost when another package brings a wheel of the same name, although nothing
is evicted. -/
theorem stored_wheel_lost : Returns sampleCacheEnv sampleStored "p" "1" [1] ∧
    ¬ Overfull sampleCacheEnv sampleStored.index ∧
    ¬ Returns sampleCacheEnv
      (storeWheel sampleCacheEnv "q" "1" (PyPath.ofString "/b/x.whl") "" 2 2 sampleStored).2
      "p" "1" [1] := by
  refine ⟨?_, by decide +kernel, ?_⟩
  · obtain ⟨l, s', stored, holds⟩ := storable_sample.storeWheel "p" "1" 1 1
    have same : sampleStored = s' := congrArg Prod.snd stored
    exact same ▸ holds.returns
  · intro returns
    obtain ⟨path, s', got, -⟩ := returns 3
    have lost : (getWheel sampleCacheEnv "p" "1" 3 (storeWheel sampleCacheEnv "q" "1"
        (PyPath.ofString "/b/x.whl") "" 2 2 sampleStored).2).1 = .ok none := by decide +kernel
    rw [got] at lost
    cases lost

end CacheManager

end Cpip
