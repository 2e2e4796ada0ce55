import Cpip.Client.Cache

/-!
# What the operations do to the index

Apart from the entry that a store sets, every entry after an operation was there before it, for the
same file with the same hash (`Descends`).
-/

namespace Cpip

namespace CacheManager

/-! ## Keys -/

theorem wheelKey_toList (package version : String) : (wheelKey package version).toList =
    "wheel:".toList ++ (package.toList ++ ':' :: version.toList) := by
  simp [wheelKey]

/-- What stands before the first colon is determined. -/
theorem eq_of_append_colon {l l' rest rest' : List Char} (h : ':' ∉ l') (longer : l <+: l')
    (same : l ++ ':' :: rest = l' ++ ':' :: rest') : l = l' ∧ rest = rest' := by
  obtain ⟨c, rfl⟩ := longer
  rw [List.append_assoc, List.append_cancel_left_eq] at same
  cases c with
  | nil => exact ⟨(List.append_nil l).symm, (List.cons.inj same).2⟩
  | cons x c =>
    obtain rfl := (List.cons.inj same).1
    exact absurd (by simp) h

/-- The key of a wheel names its package and version, when the package has no colon. -/
theorem wheelKey_inj {p v p' v' : String} (hp : ':' ∉ p.toList) (hp' : ':' ∉ p'.toList)
    (h : wheelKey p v = wheelKey p' v') : p = p' ∧ v = v' := by
  have lists := congrArg String.toList h
  rw [wheelKey_toList, wheelKey_toList, List.append_cancel_left_eq] at lists
  have parts : p.toList = p'.toList ∧ v.toList = v'.toList := by
    rcases List.prefix_or_prefix_of_prefix (List.prefix_append p.toList _)
      (lists ▸ List.prefix_append p'.toList _) with longer | longer
    · exact eq_of_append_colon hp' longer lists
    · obtain ⟨hp, hv⟩ := eq_of_append_colon hp longer lists.symm
      exact ⟨hp.symm, hv.symm⟩
  exact ⟨String.toList_inj.1 parts.1, String.toList_inj.1 parts.2⟩

theorem wheelKey_ne_layerKey (p v layerId : String) : wheelKey p v ≠ layerKey layerId := by
  intro h
  have lists := congrArg String.toList h
  simp [wheelKey, layerKey] at lists

/-! ## Descent -/

/-- Every entry is, up to its times, an entry that another index has under the key. -/
def Descends (index before : CacheIndex) : Prop :=
  ∀ key e, index.get? key = some e →
    ∃ e₀, before.get? key = some e₀ ∧ e₀.path = e.path ∧ e₀.sha256 = e.sha256

theorem Descends.refl (index : CacheIndex) : Descends index index :=
  fun _ e h => ⟨e, h, rfl, rfl⟩

theorem Descends.trans {index middle before : CacheIndex} (h : Descends index middle)
    (h' : Descends middle before) : Descends index before := by
  intro key e he
  obtain ⟨e₁, he₁, path₁, sha₁⟩ := h key e he
  obtain ⟨e₀, he₀, path₀, sha₀⟩ := h' key e₁ he₁
  exact ⟨e₀, he₀, path₀.trans path₁, sha₀.trans sha₁⟩

theorem descends_empty (before : CacheIndex) : Descends ∅ before := by
  intro key e h
  simp at h

theorem descends_pop (index : CacheIndex) (key : String) : Descends (index.pop key) index :=
  fun _ e h => ⟨e, (Dict.get?_of_get?_pop h).1, rfl, rfl⟩

/-- Reading an entry changes its time only. -/
theorem descends_touch {index : CacheIndex} {key : String} {e : CacheEntry}
    (h : index.get? key = some e) (now : ℚ) :
    Descends (index.set key { e with lastAccessed := now }) index := by
  intro key' e' he'
  rw [Dict.get?_set] at he'
  split_ifs at he' with same
  · obtain rfl := Option.some.inj he'
    exact ⟨e, same ▸ h, rfl, rfl⟩
  · exact ⟨e', he', rfl, rfl⟩

/-- What an index becomes when entries are only removed and read. -/
inductive Reduces (before : CacheIndex) : CacheIndex → Prop where
  | refl : Reduces before before
  | pop {index : CacheIndex} (h : Reduces before index) (key : String) :
    Reduces before (index.pop key)
  | touch {index : CacheIndex} {key : String} {e : CacheEntry} (h : Reduces before index)
    (entry : index.get? key = some e) (now : ℚ) :
    Reduces before (index.set key { e with lastAccessed := now })
  | clear : Reduces before ∅

theorem Reduces.trans {before middle index : CacheIndex} (h : Reduces before middle)
    (h' : Reduces middle index) : Reduces before index := by
  induction h' with
  | refl => exact h
  | pop _ key ih => exact ih.pop key
  | touch _ entry now ih => exact ih.touch entry now
  | clear => exact .clear

theorem Reduces.descends {before index : CacheIndex} (h : Reduces before index) :
    Descends index before := by
  induction h with
  | refl => exact .refl before
  | pop _ key ih => exact (descends_pop _ key).trans ih
  | touch _ entry now ih => exact (descends_touch entry now).trans ih
  | clear => exact descends_empty before

variable (env : CacheEnv)

@[simp]
theorem saveIndex_index (s : CacheManager) : (saveIndex env s).index = s.index := by
  unfold saveIndex
  split <;> rfl

theorem reduces_evictLoop (rounds : ℕ) (s : CacheManager) :
    Reduces s.index (evictLoop env rounds s).index := by
  induction rounds generalizing s with
  | zero => exact .refl
  | succ rounds ih =>
    unfold evictLoop
    split_ifs
    · split
      · exact .refl
      · next key entry _ =>
        exact (Reduces.refl.pop key).trans (ih ⟨removePath env s.tree entry.path, s.index.pop key⟩)
    · exact .refl

theorem reduces_maybeEvict (s : CacheManager) : Reduces s.index (maybeEvict env s).index := by
  rw [maybeEvict, saveIndex_index]
  exact reduces_evictLoop env _ s

theorem descends_maybeEvict (s : CacheManager) : Descends (maybeEvict env s).index s.index :=
  (reduces_maybeEvict env s).descends

/-- What `get_wheel` finds, and what it does then. -/
inductive Lookup (p v : String) (now : ℚ) (s : CacheManager) :
    Except FileError (Option PyPath) × CacheManager → Prop where
  | absent : s.index.get? (wheelKey p v) = none → Lookup p v now s (.ok none, s)
  | missing (e : CacheEntry) : s.index.get? (wheelKey p v) = some e →
    e.path.node? env.cwd s.tree = none →
      Lookup p v now s (.ok none, saveIndex env { s with index := s.index.pop (wheelKey p v) })
  | directory (e : CacheEntry) (l : Loc) : s.index.get? (wheelKey p v) = some e →
    e.path.locate env.cwd s.tree = .ok l → s.tree.IsDir l →
      Lookup p v now s (.error .isADirectory, s)
  | corrupt (e : CacheEntry) (l : Loc) (b : Bytes) : s.index.get? (wheelKey p v) = some e →
    e.path.locate env.cwd s.tree = .ok l → s.tree.node? l = some (.file b) →
      env.sha256 b ≠ e.sha256 →
      Lookup p v now s (.ok none,
        saveIndex env { tree := s.tree.prune l, index := s.index.pop (wheelKey p v) })
  | found (e : CacheEntry) (l : Loc) (b : Bytes) : s.index.get? (wheelKey p v) = some e →
    e.path.locate env.cwd s.tree = .ok l → s.tree.node? l = some (.file b) →
      env.sha256 b = e.sha256 →
      Lookup p v now s (.ok (some e.path), saveIndex env
        { s with index := s.index.set (wheelKey p v) { e with lastAccessed := now } })

theorem getWheel_lookup (p v : String) (now : ℚ) (s : CacheManager) :
    Lookup env p v now s (getWheel env p v now s) := by
  unfold getWheel
  dsimp only
  cases he : s.index.get? (wheelKey p v) with
  | none => exact .absent he
  | some e =>
    dsimp only
    cases hn : e.path.node? env.cwd s.tree with
    | none =>
      rw [if_pos (by simp [PyPath.exist, hn])]
      exact .missing e he hn
    | some n =>
      rw [if_neg (by simp [PyPath.exist, hn]), hashFile]
      obtain ⟨l, hl, hnode⟩ := PyPath.node?_eq_some_iff.1 hn
      cases n with
      | dir =>
        rw [PyPath.read_of_isDir hl hnode]
        exact .directory e l he hl hnode
      | file b =>
        rw [PyPath.read_eq_ok_iff.2 ⟨l, hl, hnode⟩, PyPath.unlink_of_file hl hnode]
        by_cases hash : env.sha256 b = e.sha256
        · simpa [Except.map, hash] using Lookup.found e l b he hl hnode hash
        · simpa [Except.map, hash] using Lookup.corrupt e l b he hl hnode hash

theorem reduces_getWheel (p v : String) (now : ℚ) (s : CacheManager) :
    Reduces s.index (getWheel env p v now s).2.index := by
  have found := getWheel_lookup env p v now s
  generalize getWheel env p v now s = r at found ⊢
  cases found with
  | absent => exact .refl
  | directory => exact .refl
  | missing e he =>
    rw [saveIndex_index]
    exact Reduces.refl.pop _
  | corrupt e l b he =>
    rw [saveIndex_index]
    exact Reduces.refl.pop _
  | found e l b he =>
    rw [saveIndex_index]
    exact Reduces.refl.touch he now

theorem descends_getWheel (p v : String) (now : ℚ) (s : CacheManager) :
    Descends (getWheel env p v now s).2.index s.index := (reduces_getWheel env p v now s).descends

theorem reduces_getLayer (layerId : String) (now : ℚ) (s : CacheManager) :
    Reduces s.index (getLayer env layerId now s).2.index := by
  unfold getLayer
  dsimp only
  split
  · exact .refl
  · next entry hentry =>
    split_ifs
    · rw [saveIndex_index]
      exact Reduces.refl.touch hentry now
    · rw [saveIndex_index]
      exact Reduces.refl.pop _

theorem reduces_clear (s : CacheManager) : Reduces s.index (clear env s).2.index := by
  unfold clear
  split
  · exact .refl
  · rw [saveIndex_index]
    exact .clear

theorem reduces_verifyEntry (s : CacheManager) (key : String) (entry : CacheEntry) :
    Reduces s.index (verifyEntry env s key entry).1.index := by
  unfold verifyEntry
  split
  · exact Reduces.refl.pop _
  · exact .refl
  · split_ifs
    · exact Reduces.refl.pop _
    · exact .refl

theorem reduces_verifyEntries (s : CacheManager) (entries : List (String × CacheEntry)) :
    Reduces s.index (verifyEntries env s entries).1.index := by
  induction entries generalizing s with
  | nil => exact .refl
  | cons e rest ih => exact (reduces_verifyEntry env s e.1 e.2).trans (ih _)

theorem reduces_verifyIntegrity (s : CacheManager) :
    Reduces s.index (verifyIntegrity env s).2.index := by
  have verified := reduces_verifyEntries env s s.index.entries
  unfold verifyIntegrity
  dsimp only
  split_ifs
  · rw [saveIndex_index]
    exact verified
  · exact verified

/-! ## Stores -/

theorem hashFile_eq_ok {s : CacheManager} {path : PyPath} {hash : String}
    (h : hashFile env s path = .ok hash) :
    ∃ b, path.read env.cwd s.tree = .ok b ∧ hash = env.sha256 b := by
  unfold hashFile at h
  cases hread : path.read env.cwd s.tree with
  | error e =>
    rw [hread] at h
    cases h
  | ok b =>
    rw [hread] at h
    exact ⟨b, rfl, (Except.ok.inj h).symm⟩

/-- The source is there, and the destination is the source itself or can be written apart from
it. -/
def Storable (env : CacheEnv) (tree : FileTree Bytes) (source : PyPath) (b : Bytes) : Prop :=
  source.read env.cwd tree = .ok b ∧
    (source = wheelDest env source ∨ PyPath.Apart env.cwd tree source (wheelDest env source))

/-- What a successful `store_wheel` files: the entry for its destination, with the hash that was
supplied or else the hash of the source file, as it was read. -/
theorem storeWheel_eq_ok {p v sha256 : String} {source dest : PyPath} {cachedAt lastAccessed : ℚ}
    {s s' : CacheManager}
    (h : storeWheel env p v source sha256 cachedAt lastAccessed s = (.ok dest, s')) :
    dest = wheelDest env source ∧ ∃ entry : CacheEntry, entry.path = dest ∧
      s'.index = (maybeEvict env s).index.set (wheelKey p v) entry ∧
      (sha256 ≠ "" → entry.sha256 = sha256) ∧
      (sha256 = "" → ∃ b, Storable env (maybeEvict env s).tree source b ∧
        entry.sha256 = env.sha256 b) := by
  unfold storeWheel placeWheel at h
  dsimp only at h
  split at h
  · cases h
  · next tree copied =>
    split at h
    · cases h
    · next actual hashed =>
      split at h
      · cases h
      · next size _ =>
        obtain ⟨hdest, rfl⟩ := Prod.mk.inj h
        obtain rfl := Except.ok.inj hdest
        rw [saveIndex_index]
        refine ⟨rfl, _, rfl, rfl, ?_, ?_⟩
        · intro supplied
          rw [if_pos supplied] at hashed
          exact (Except.ok.inj hashed).symm
        · rintro rfl
          rw [if_neg (by simp)] at hashed
          obtain ⟨b, hread, rfl⟩ := hashFile_eq_ok env hashed
          refine ⟨b, ?_, rfl⟩
          by_cases same : source = wheelDest env source
          · rw [if_neg (not_not.2 same)] at copied
            obtain rfl := Except.ok.inj copied
            exact ⟨same ▸ hread, Or.inl same⟩
          · rw [if_pos same] at copied
            exact (PyPath.read_of_copy2 copied hread).imp id Or.inr

theorem descends_of_storeWheel_error {p v sha256 : String} {source : PyPath}
    {cachedAt lastAccessed : ℚ} {s s' : CacheManager} {e : FileError}
    (h : storeWheel env p v source sha256 cachedAt lastAccessed s = (.error e, s')) :
    Descends s'.index s.index := by
  unfold storeWheel placeWheel at h
  dsimp only at h
  split at h
  · obtain rfl := (Prod.mk.inj h).2
    exact descends_maybeEvict env s
  · split at h
    · obtain rfl := (Prod.mk.inj h).2
      exact descends_maybeEvict env s
    · split at h
      · obtain rfl := (Prod.mk.inj h).2
        exact descends_maybeEvict env s
      · cases h

/-- `store_layer` sets at most the entry of its layer. -/
theorem storeLayer_index (layerId : String) (source : PyPath) (sha256 : String)
    (cachedAt lastAccessed : ℚ) (s : CacheManager) :
    let s' := (storeLayer env layerId source sha256 cachedAt lastAccessed s).2
    s'.index = (maybeEvict env s).index ∨
      ∃ entry, s'.index = (maybeEvict env s).index.set (layerKey layerId) entry := by
  unfold storeLayer
  dsimp only
  split
  · exact Or.inl rfl
  · rw [saveIndex_index]
    exact Or.inr ⟨_, rfl⟩

end CacheManager

end Cpip
