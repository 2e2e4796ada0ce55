import Cpip.Client.CacheKeep
import Cpip.Lib.StableSort

/-!
# The size of the cache

The eviction removes the entries that were not accessed for longest, one after the other, until the
others fit into nine tenths of the limit.  What is stored then is added whatever its size.
-/

namespace Cpip

namespace CacheManager

variable {env : CacheEnv}

/-! ## The size of an index -/

/-- The sizes of index entries, added up. -/
def sizes (entries : List (String × CacheEntry)) : ℕ := (entries.map fun e => e.2.size).sum

theorem sizes_cons (e : String × CacheEntry) (entries : List (String × CacheEntry)) :
    sizes (e :: entries) = e.2.size + sizes entries := by
  simp [sizes]

theorem sizes_perm {l l' : List (String × CacheEntry)} (h : l.Perm l') : sizes l = sizes l' :=
  (h.map _).sum_nat

theorem sizes_remove_le (key : String) (l : List (String × CacheEntry)) :
    sizes (Dict.remove key l) ≤ sizes l := by
  induction l with
  | nil => exact le_rfl
  | cons e l ih =>
    by_cases same : e.1 = key
    · have gone : Dict.remove key (e :: l) = Dict.remove key l := by simp [Dict.remove, same]
      rw [gone, sizes_cons]
      omega
    · have kept : Dict.remove key (e :: l) = e :: Dict.remove key l := by simp [Dict.remove, same]
      rw [kept, sizes_cons, sizes_cons]
      omega

theorem sizes_assign {key : String} (e : CacheEntry) {l : List (String × CacheEntry)}
    (nodup : (l.map Prod.fst).Nodup) :
    sizes (Dict.assign key e l) = sizes (Dict.remove key l) + e.size := by
  induction l with
  | nil => simp [Dict.assign, Dict.remove, sizes]
  | cons x l ih =>
    obtain ⟨k, x⟩ := x
    rw [List.map_cons, List.nodup_cons] at nodup
    by_cases same : k = key
    · have others : Dict.remove key ((k, x) :: l) = l := by
        rw [Dict.remove, List.filter_cons_of_neg (by simpa using same), List.filter_eq_self]
        intro y hy
        have : y.1 ∈ l.map Prod.fst := List.mem_map_of_mem hy
        grind
      rw [others, Dict.assign, if_pos same, sizes_cons]
      exact Nat.add_comm ..
    · have kept : Dict.remove key ((k, x) :: l) = (k, x) :: Dict.remove key l := by
        simp [Dict.remove, same]
      rw [kept, Dict.assign, if_neg same, sizes_cons, sizes_cons, ih nodup.2]
      omega

theorem totalSize_set (index : CacheIndex) (key : String) (e : CacheEntry) :
    totalSize (index.set key e) = totalSize (index.pop key) + e.size :=
  sizes_assign e index.nodup

theorem totalSize_pop_le (index : CacheIndex) (key : String) :
    totalSize (index.pop key) ≤ totalSize index := sizes_remove_le key index.entries

/-- Reading an entry does not change the size of the index. -/
theorem totalSize_touch {index : CacheIndex} {key : String} {e : CacheEntry}
    (h : index.get? key = some e) (now : ℚ) :
    totalSize (index.set key { e with lastAccessed := now }) = totalSize index := by
  rw [totalSize_set]
  show totalSize (index.pop key) + e.size = totalSize index
  rw [← totalSize_set, Dict.set_of_get?_eq_some h]

theorem Reduces.totalSize_le {before index : CacheIndex} (h : Reduces before index) :
    totalSize index ≤ totalSize before := by
  induction h with
  | refl => exact le_rfl
  | pop _ key ih => exact (totalSize_pop_le _ key).trans ih
  | touch _ entry now ih => exact (totalSize_touch entry now).trans_le ih
  | clear => exact Nat.zero_le _

/-! ## What the eviction leaves -/

/-- The first entry was accessed no later than the second. -/
def Older (a b : String × CacheEntry) : Prop := a.2.lastAccessed ≤ b.2.lastAccessed

instance : DecidableRel Older := fun a b =>
  inferInstanceAs (Decidable (a.2.lastAccessed ≤ b.2.lastAccessed))

instance : Std.Total Older := ⟨fun a b => le_total a.2.lastAccessed b.2.lastAccessed⟩

instance : IsTrans (String × CacheEntry) Older := ⟨fun _ _ _ => le_trans⟩

/-- The entries, the one that was not accessed for longest first. -/
def byAge (index : CacheIndex) : List (String × CacheEntry) := index.entries.insertionSort Older

theorem perm_byAge (index : CacheIndex) : (byAge index).Perm index.entries :=
  List.perm_insertionSort Older index.entries

/-- The entries are too large to stay together. -/
def TooLarge (env : CacheEnv) (entries : List (String × CacheEntry)) : Prop :=
  (env.maxSizeMb * (9 / 10) : ℚ) < sizes entries / (1024 * 1024)

instance (env : CacheEnv) (entries : List (String × CacheEntry)) :
    Decidable (TooLarge env entries) := inferInstanceAs (Decidable (_ < _))

/-- The first of the entries, without which the others are not too large. -/
def victims (env : CacheEnv) : List (String × CacheEntry) → List (String × CacheEntry)
  | [] => []
  | e :: rest => if TooLarge env (e :: rest) then e :: victims env rest else []

/-- The others. -/
def survivors (env : CacheEnv) : List (String × CacheEntry) → List (String × CacheEntry)
  | [] => []
  | e :: rest => if TooLarge env (e :: rest) then survivors env rest else e :: rest

/-- Removes the entries and what they point to. -/
def removeAll (env : CacheEnv) (s : CacheManager) (entries : List (String × CacheEntry)) :
    CacheManager :=
  entries.foldl (fun s e => ⟨removePath env s.tree e.2.path, s.index.pop e.1⟩) s

theorem leastRecent_of_byAge {index : CacheIndex} {e : String × CacheEntry}
    {rest : List (String × CacheEntry)} (h : byAge index = e :: rest) :
    leastRecent index = some e ∧ byAge (index.pop e.1) = rest := by
  obtain ⟨before, after, split, hbefore, hafter, hrest⟩ :=
    StableSort.split_of_insertionSort_eq_cons h
  have fresh : e ∉ before := fun he => hbefore e he le_rfl
  constructor
  · refine List.argmin_eq_some_iff.2 ⟨by simp [split], fun x hx => ?_, fun x hx least => ?_⟩
    · rw [split, List.mem_append, List.mem_cons] at hx
      rcases hx with hx | rfl | hx
      · exact StableSort.rel_of_not_rel (hbefore x hx)
      · exact le_rfl
      · exact hafter x hx
    · have later : x ∉ before := fun hx => hbefore x hx least
      simp only [split, List.idxOf_append, fresh, later, if_false, List.idxOf_cons_self]
      omega
  · rw [hrest]
    show (Dict.remove e.1 index.entries).insertionSort Older = _
    have nodup := index.nodup
    rw [split, List.map_append, List.map_cons, List.nodup_middle, List.nodup_cons,
      ← List.map_append] at nodup
    have others : ∀ x ∈ before ++ after, x.1 ≠ e.1 := fun x hx same =>
      nodup.1 (same ▸ List.mem_map_of_mem hx)
    have kept : Dict.remove e.1 index.entries = before ++ after := by
      rw [split, Dict.remove, List.filter_append, List.filter_cons_of_neg (by simp),
        ← List.filter_append, List.filter_eq_self]
      exact fun x hx => by simpa using others x hx
    rw [kept]

theorem overfull_iff_tooLarge (index : CacheIndex) :
    Overfull env index ↔ TooLarge env (byAge index) := by
  unfold Overfull TooLarge currentSizeMb
  rw [sizes_perm (perm_byAge index)]
  rfl

/-- The loop removes the victims, and the survivors stay. -/
theorem evictLoop_eq_removeAll {rounds : ℕ} {s : CacheManager}
    {entries : List (String × CacheEntry)} (h : byAge s.index = entries)
    (enough : entries.length ≤ rounds) :
    evictLoop env rounds s = removeAll env s (victims env entries) ∧
      byAge (evictLoop env rounds s).index = survivors env entries := by
  induction rounds generalizing s entries with
  | zero =>
    obtain rfl := List.length_eq_zero_iff.1 (Nat.le_zero.1 enough)
    exact ⟨rfl, h⟩
  | succ rounds ih =>
    have large_iff : Overfull env s.index ↔ TooLarge env entries :=
      h ▸ overfull_iff_tooLarge s.index
    unfold evictLoop
    cases entries with
    | nil =>
      have empty : leastRecent s.index = none := by
        have none : s.index.entries = [] := by
          have perm := perm_byAge s.index
          rw [h] at perm
          exact perm.nil_eq.symm
        rw [leastRecent, none, List.argmin_nil]
      simp only [empty, ite_self]
      exact ⟨rfl, h⟩
    | cons e rest =>
      obtain ⟨first, tail⟩ := leastRecent_of_byAge h
      by_cases large : TooLarge env (e :: rest)
      · simp only [if_pos (large_iff.2 large), if_pos large, first, victims, survivors]
        exact ih tail (Nat.le_of_succ_le_succ enough)
      · simp only [if_neg (mt large_iff.1 large), if_neg large, victims, survivors]
        exact ⟨rfl, h⟩

/-- What the eviction leaves of the files and of the index. -/
def evicted (env : CacheEnv) (s : CacheManager) : CacheManager :=
  saveIndex env (removeAll env s (victims env (byAge s.index)))

theorem maybeEvict_eq_evicted (s : CacheManager) : maybeEvict env s = evicted env s := by
  rw [maybeEvict, evicted, (evictLoop_eq_removeAll rfl (perm_byAge s.index).length_eq.le).1]

/-- The entries that the eviction leaves are the survivors. -/
theorem perm_entries_maybeEvict (s : CacheManager) :
    (maybeEvict env s).index.entries.Perm (survivors env (byAge s.index)) := by
  rw [maybeEvict, saveIndex_index,
    ← (evictLoop_eq_removeAll rfl (perm_byAge s.index).length_eq.le).2]
  exact (perm_byAge _).symm

/-! ## What a store adds -/

/-- The size that a wheel is filed with: the store copies it, finds its hash if none is supplied,
and asks for its size. -/
def WheelSize (env : CacheEnv) (source : PyPath) (sha256 : String) (tree : FileTree Bytes)
    (size : ℕ) : Prop :=
  ∃ tree', (if source ≠ wheelDest env source then
      source.copy2 env.cwd tree (wheelDest env source) else .ok tree) = .ok tree' ∧
    (sha256 = "" → ∃ b, (wheelDest env source).read env.cwd tree' = .ok b) ∧
    (wheelDest env source).statSize env.cwd tree' List.length env.directorySize = .ok size

/-- The size that a layer is filed with: the store copies it and adds up its files. -/
def LayerSize (env : CacheEnv) (layerId : String) (source : PyPath) (tree : FileTree Bytes)
    (size : ℕ) : Prop :=
  ∃ tree', (if source ≠ env.layersDir.join layerId then
      replaceTree env tree source (env.layersDir.join layerId) else (.ok (), tree)) =
        (.ok (), tree') ∧
    (env.layersDir.join layerId).dirSize env.cwd tree' List.length = size

/-- The hash of a stored wheel is supplied, or that of a file that can be read. -/
theorem hash_eq_ok_iff (sha256 : String) (dest : PyPath) (s : CacheManager) :
    (∃ hash, (if sha256 ≠ "" then .ok sha256 else hashFile env s dest) = .ok hash) ↔
      (sha256 = "" → ∃ b, dest.read env.cwd s.tree = .ok b) := by
  unfold hashFile
  by_cases supplied : sha256 = ""
  · cases dest.read env.cwd s.tree <;> simp [supplied, Except.map]
  · simp [supplied]

/-- A wheel that was stored has its size; otherwise the index is as the eviction left it. -/
theorem placeWheel_index (p v : String) (source : PyPath) (sha256 : String)
    (cachedAt lastAccessed : ℚ) (s : CacheManager) :
    let s' := (placeWheel env p v source sha256 cachedAt lastAccessed s).2
    (∃ size e, WheelSize env source sha256 s.tree size ∧ e.size = size ∧
      s'.index = s.index.set (wheelKey p v) e) ∨
    ((∀ size, ¬ WheelSize env source sha256 s.tree size) ∧ s'.index = s.index) := by
  unfold placeWheel WheelSize
  dsimp only
  generalize (if source ≠ wheelDest env source then
    source.copy2 env.cwd s.tree (wheelDest env source) else .ok s.tree) = copied
  cases copied with
  | error e => exact .inr ⟨nofun, rfl⟩
  | ok tree =>
    have hash_iff := @hash_eq_ok_iff env sha256 (wheelDest env source) { s with tree := tree }
    dsimp only
    generalize (if sha256 ≠ "" then .ok sha256
      else hashFile env { s with tree := tree } (wheelDest env source)) = hash at hash_iff ⊢
    cases hash with
    | error e =>
      refine .inr ⟨?_, rfl⟩
      rintro size ⟨tree', same, hashed, -⟩
      obtain rfl := Except.ok.inj same
      obtain ⟨hash, h⟩ := hash_iff.2 hashed
      cases h
    | ok hash =>
      cases stat : (wheelDest env source).statSize env.cwd tree List.length env.directorySize with
      | error e =>
        refine .inr ⟨?_, rfl⟩
        rintro size ⟨tree', same, -, found⟩
        obtain rfl := Except.ok.inj same
        rw [stat] at found
        cases found
      | ok size =>
        exact .inl ⟨size, _, ⟨tree, rfl, hash_iff.1 ⟨hash, rfl⟩, stat⟩, rfl, saveIndex_index env _⟩

/-- A layer that was stored has its size; otherwise the index is as the eviction left it. -/
theorem storeLayer_size (layerId : String) (source : PyPath) (sha256 : String)
    (cachedAt lastAccessed : ℚ) (s : CacheManager) :
    let s' := (storeLayer env layerId source sha256 cachedAt lastAccessed s).2
    (∃ size e, LayerSize env layerId source (maybeEvict env s).tree size ∧ e.size = size ∧
      s'.index = (maybeEvict env s).index.set (layerKey layerId) e) ∨
    ((∀ size, ¬ LayerSize env layerId source (maybeEvict env s).tree size) ∧
      s'.index = (maybeEvict env s).index) := by
  unfold storeLayer LayerSize
  dsimp only
  generalize (if source ≠ env.layersDir.join layerId then
    replaceTree env (maybeEvict env s).tree source (env.layersDir.join layerId)
    else (.ok (), (maybeEvict env s).tree)) = copied
  obtain ⟨outcome, tree⟩ := copied
  cases outcome with
  | error e => exact .inr ⟨nofun, rfl⟩
  | ok _ => exact .inl ⟨_, _, ⟨tree, rfl, rfl⟩, rfl, saveIndex_index env _⟩

/-! ## Runs -/

/-- The sum of the sizes of the entries is at most the limit. -/
def Bounded (env : CacheEnv) (s : CacheManager) : Prop :=
  (totalSize s.index : ℤ) ≤ env.maxSizeMb * 1024 ^ 2

/-- An item of the size fits under the key: with the entries that the eviction lets survive, without
the one that it replaces, it is within the limit. -/
def HasRoom (env : CacheEnv) (s : CacheManager) (key : String) (size : ℕ) : Prop :=
  (sizes (Dict.remove key (survivors env (byAge s.index))) + size : ℤ) ≤ env.maxSizeMb * 1024 ^ 2

/-- What a store adds has room. -/
def Roomy (env : CacheEnv) (s : CacheManager) : CacheOp → Prop
  | .storeWheel p v source sha256 _ _ =>
    ∀ size, WheelSize env source sha256 (evicted env s).tree size →
      HasRoom env s (wheelKey p v) size
  | .storeLayer layerId source _ _ _ =>
    ∀ size, LayerSize env layerId source (evicted env s).tree size →
      HasRoom env s (layerKey layerId) size
  | _ => True

theorem WheelSize.unique {source : PyPath} {sha256 : String} {tree : FileTree Bytes}
    {size size' : ℕ} (h : WheelSize env source sha256 tree size)
    (h' : WheelSize env source sha256 tree size') : size = size' := by
  obtain ⟨t, copied, -, stat⟩ := h
  obtain ⟨t', copied', -, stat'⟩ := h'
  obtain rfl := Except.ok.inj (copied.symm.trans copied')
  exact Except.ok.inj (stat.symm.trans stat')

theorem LayerSize.unique {layerId : String} {source : PyPath} {tree : FileTree Bytes}
    {size size' : ℕ} (h : LayerSize env layerId source tree size)
    (h' : LayerSize env layerId source tree size') : size = size' := by
  obtain ⟨t, copied, rfl⟩ := h
  obtain ⟨t', copied', rfl⟩ := h'
  obtain rfl := (Prod.mk.inj (copied.symm.trans copied')).2
  rfl

/-- An entry has room exactly when the index that it is set in is within the limit. -/
theorem hasRoom_iff {s s' : CacheManager} {key : String} {e : CacheEntry}
    (h : s'.index = (maybeEvict env s).index.set key e) :
    HasRoom env s key e.size ↔ Bounded env s' := by
  have left : totalSize ((maybeEvict env s).index.pop key) =
      sizes (Dict.remove key (survivors env (byAge s.index))) :=
    sizes_perm ((perm_entries_maybeEvict s).filter _)
  rw [Bounded, HasRoom, h, totalSize_set, left, Nat.cast_add]

theorem Bounded.of_reduces {s s' : CacheManager} (h : Bounded env s)
    (fewer : Reduces s.index s'.index) : Bounded env s' :=
  (Int.ofNat_le.2 fewer.totalSize_le).trans h

/-- A step keeps the bound exactly when what it stores has room. -/
theorem roomy_iff_bounded {s s' : CacheManager} {op : CacheOp} (h : Bounded env s)
    (hs : step env s op = some s') : Roomy env s op ↔ Bounded env s' := by
  obtain rfl := Option.some.inj hs
  have evicted : Bounded env (maybeEvict env s) := h.of_reduces (reduces_maybeEvict env s)
  cases op with
  | storeWheel p v source sha256 cachedAt lastAccessed =>
    simp only [Roomy, ← maybeEvict_eq_evicted]
    rcases @placeWheel_index env p v source sha256 cachedAt lastAccessed
      (maybeEvict env s) with ⟨size, e, found, rfl, index⟩ | ⟨none, index⟩
    · refine Iff.trans ?_ (hasRoom_iff index)
      exact ⟨fun room => room _ found, fun room size h => (h.unique found).symm ▸ room⟩
    · refine iff_of_true (fun size h => absurd h (none size)) (evicted.of_reduces ?_)
      exact index ▸ .refl
  | storeLayer layerId source sha256 cachedAt lastAccessed =>
    simp only [Roomy, ← maybeEvict_eq_evicted]
    rcases @storeLayer_size env layerId source sha256 cachedAt lastAccessed s with
      ⟨size, e, found, rfl, index⟩ | ⟨none, index⟩
    · refine Iff.trans ?_ (hasRoom_iff index)
      exact ⟨fun room => room _ found, fun room size h => (h.unique found).symm ▸ room⟩
    · refine iff_of_true (fun size h => absurd h (none size)) (evicted.of_reduces ?_)
      exact index ▸ .refl
  | getWheel p v now => exact iff_of_true trivial (h.of_reduces (reduces_getWheel env p v now s))
  | getLayer layerId now =>
    exact iff_of_true trivial (h.of_reduces (reduces_getLayer env layerId now s))
  | verifyIntegrity => exact iff_of_true trivial (h.of_reduces (reduces_verifyIntegrity env s))
  | clear => exact iff_of_true trivial (h.of_reduces (reduces_clear env s))
  | maybeEvict => exact iff_of_true trivial evicted
  | external tree => exact iff_of_true trivial h

/-- The runs from an empty cache in which the index is within the limit throughout are those with a
limit that is not negative in which everything that is stored has room. -/
theorem bounded_throughout_iff (env : CacheEnv) (tree : FileTree Bytes) (ops : List CacheOp) :
    (0 ≤ env.maxSizeMb ∧ Machine.Along (step env) (Roomy env) ⟨tree, ∅⟩ ops) ↔
      Machine.Throughout (step env) (Bounded env) ⟨tree, ∅⟩ ops := by
  have start : Bounded env ⟨tree, ∅⟩ ↔ 0 ≤ env.maxSizeMb := by
    have zero : totalSize (∅ : CacheIndex) = 0 := rfl
    rw [Bounded, zero]
    omega
  have total : ∀ s op, ∃ s', step env s op = some s' := fun s op => ⟨perform env s op, rfl⟩
  obtain ⟨t, ran⟩ := Machine.exists_run total ⟨tree, ∅⟩ ops
  have along (h : Bounded env ⟨tree, ∅⟩) :=
    Machine.along_iff_throughout (I := Bounded env) (E := Bounded env) (P := Roomy env)
      (fun _ h => h) (fun s op s' roomy h hs => (roomy_iff_bounded h hs).1 roomy)
      (fun s op s' h hs after => (roomy_iff_bounded h hs).2 after) h ran
  constructor
  · rintro ⟨nonneg, roomy⟩
    exact (along (start.2 nonneg)).1 roomy
  · intro throughout
    exact ⟨start.1 throughout.head, (along throughout.head).2 throughout⟩

/-- A cache with a limit of one megabyte. -/
def smallCacheEnv : CacheEnv := { sampleCacheEnv with maxSizeMb := 1 }

/-- The store of a wheel from `/x.whl`, with a hash. -/
def storeLarge : CacheOp := .storeWheel "p" "1" (PyPath.ofString "/x.whl") emptySha256 1 1

/-- The directory of the wheels, and a wheel at the top. -/
def largeTree (b : Bytes) : FileTree Bytes :=
  let dirs := ((PyPath.ofString "/h/cache/wheels").mkdirs [] FileTree.bare true).2
  ((PyPath.ofString "/x.whl").write [] dirs b).toOption.getD dirs

theorem totalSize_storeLarge (b : Bytes) :
    totalSize (perform smallCacheEnv ⟨largeTree b, ∅⟩ storeLarge).index = b.length := by
  rfl

/-- A wheel that is larger than the limit is stored in the empty cache. -/
theorem stored_beyond_limit :
    ∃ s, Machine.run (step smallCacheEnv) ⟨largeTree (List.replicate (1024 ^ 2 + 1) 0), ∅⟩
      [storeLarge] = some s ∧ ¬ Bounded smallCacheEnv s := by
  refine ⟨perform smallCacheEnv _ storeLarge, rfl, ?_⟩
  rw [Bounded, totalSize_storeLarge, List.length_replicate]
  show ¬ ((1024 ^ 2 + 1 : ℕ) : ℤ) ≤ 1 * 1024 ^ 2
  omega

end CacheManager

end Cpip
