import Cpip.Client.CacheSize
import Mathlib.Tactic.NormNum

/-!
# What the eviction removes

The eviction removes the fewest entries, in the order of their last access, that leave no more than
nine tenths of the limit.
-/

namespace Cpip

namespace CacheManager

variable {env : CacheEnv}

/-- The entries of an index in the order of their last access, and in the order of the index where
they were accessed at the same time. -/
structure InAccessOrder (index : CacheIndex) (entries : List (String × CacheEntry)) : Prop where
  perm : entries.Perm index.entries
  sorted : entries.Pairwise Older
  stable : ∀ time, (entries.filter fun e => e.2.lastAccessed = time) =
    index.entries.filter fun e => e.2.lastAccessed = time

theorem inAccessOrder_byAge (index : CacheIndex) : InAccessOrder index (byAge index) where
  perm := perm_byAge index
  sorted := List.pairwise_insertionSort Older index.entries
  stable := by
    intro time
    refine StableSort.filter_insertionSort (fun a b ha hb => ?_) index.entries
    simp only [decide_eq_true_eq] at ha hb
    exact (ha.trans hb.symm).le

theorem victims_append_survivors (entries : List (String × CacheEntry)) :
    victims env entries ++ survivors env entries = entries := by
  induction entries with
  | nil => rfl
  | cons e rest ih =>
    unfold victims survivors
    split_ifs
    · rw [List.cons_append, ih]
    · rfl

theorem not_tooLarge_survivors (limit : 0 ≤ env.maxSizeMb) (entries : List (String × CacheEntry)) :
    ¬ TooLarge env (survivors env entries) := by
  induction entries with
  | nil =>
    have bound : (0 : ℚ) ≤ env.maxSizeMb := by exact_mod_cast limit
    simp only [survivors, TooLarge, sizes, List.map_nil, List.sum_nil, not_lt, Nat.cast_zero,
      zero_div]
    exact mul_nonneg bound (by norm_num)
  | cons e rest ih =>
    unfold survivors
    split_ifs with large
    · exact ih
    · exact large

/-- Each victim is removed because what is left with it is too large. -/
theorem tooLarge_of_victims {entries before after : List (String × CacheEntry)}
    {e : String × CacheEntry} (h : victims env entries = before ++ e :: after) :
    TooLarge env (e :: after ++ survivors env entries) := by
  induction entries generalizing before with
  | nil => simp [victims] at h
  | cons x rest ih =>
    unfold victims at h
    unfold survivors
    split_ifs at h ⊢ with large
    · cases before with
      | nil =>
        obtain ⟨rfl, tail⟩ := List.cons.inj h
        rw [← tail, List.cons_append, victims_append_survivors]
        exact large
      | cons y before => exact ih (List.cons.inj h).2
    · simp at h

/-- More rounds than there are entries change nothing: the loop has ended by then. -/
theorem evictLoop_of_le {rounds : ℕ} {s : CacheManager} (enough : s.index.entries.length ≤ rounds) :
    evictLoop env rounds s = evictLoop env s.index.entries.length s := by
  have same := (perm_byAge s.index).length_eq
  rw [(evictLoop_eq_removeAll rfl (same.le.trans enough)).1, (evictLoop_eq_removeAll rfl same.le).1]

theorem index_removeAll (s : CacheManager) (entries : List (String × CacheEntry)) :
    (removeAll env s entries).index = (entries.map Prod.fst).foldl Dict.pop s.index := by
  rw [removeAll]
  induction entries generalizing s with
  | nil => rfl
  | cons e rest ih => exact ih _

/-- An entry that is no victim survives. -/
theorem kept_iff {index : CacheIndex} {entries : List (String × CacheEntry)}
    (order : InAccessOrder index entries) {e : String × CacheEntry} (he : e ∈ index.entries) :
    e.1 ∉ (victims env entries).map Prod.fst ↔ e ∈ survivors env entries := by
  have whole := @victims_append_survivors env entries
  have here := order.perm.mem_iff.2 he
  have keys := (order.perm.map Prod.fst).nodup_iff.2 index.nodup
  rw [← whole, List.map_append, List.nodup_append] at keys
  constructor
  · intro spared
    rw [← whole] at here
    exact (List.mem_append.1 here).resolve_left fun victim => spared (List.mem_map_of_mem victim)
  · intro survives victim
    exact keys.2.2 e.1 victim e.1 (List.mem_map_of_mem survives) rfl

/-- `_maybe_evict` ends.  The entries that it removes are the first ones in the order of their last
access, no more than are needed for the others to have at most nine tenths of the limit, and the
others stay as they are. -/
theorem maybeEvict_exact (limit : 0 ≤ env.maxSizeMb) (s : CacheManager) :
    (∀ rounds, s.index.entries.length ≤ rounds →
      evictLoop env rounds s = evictLoop env s.index.entries.length s) ∧
    currentSizeMb (maybeEvict env s).index ≤ env.maxSizeMb * (9 / 10) ∧
    ∃ evicted kept, InAccessOrder s.index (evicted ++ kept) ∧
      (maybeEvict env s).index.entries = s.index.entries.filter (· ∈ kept) ∧
      (∀ e ∈ evicted, ∀ e' ∈ kept, e.2.lastAccessed ≤ e'.2.lastAccessed) ∧
      ∀ before e after, evicted = before ++ e :: after → TooLarge env (e :: after ++ kept) := by
  have order := inAccessOrder_byAge s.index
  have whole := @victims_append_survivors env (byAge s.index)
  refine ⟨fun rounds => evictLoop_of_le, ?_, victims env (byAge s.index),
    survivors env (byAge s.index), whole.symm ▸ order, ?_, fun e he e' he' => ?_,
    fun before e after => tooLarge_of_victims⟩
  · have fits := not_tooLarge_survivors limit (byAge s.index)
    rw [TooLarge, ← sizes_perm (perm_entries_maybeEvict s), not_lt] at fits
    exact fits
  · rw [maybeEvict, saveIndex_index, (evictLoop_eq_removeAll rfl order.perm.length_eq.le).1,
      index_removeAll, Dict.entries_foldl_pop]
    refine List.filter_congr fun e he => ?_
    exact decide_eq_decide.2 (kept_iff order he)
  · have sorted := order.sorted
    rw [← whole] at sorted
    exact (List.pairwise_append.1 sorted).2.2 e he e' he'

/-- Three layers of half a megabyte, two of which were last accessed at the same time. -/
def threeLayers : CacheManager where
  tree := .bare
  index :=
    let layer (layerId : String) (lastAccessed : ℚ) : CacheEntry :=
      ⟨(smallCacheEnv.layersDir).join layerId, .layer layerId, "", 524288, 1, lastAccessed⟩
    ((Dict.empty.set "layer:a" (layer "a" 3)).set "layer:b" (layer "b" 2)).set
      "layer:c" (layer "c" 2)

/-- The layer that was filed first of the two goes first, and one layer fits. -/
example : ((maybeEvict smallCacheEnv threeLayers).index.entries.map Prod.fst) = ["layer:a"] := by
  decide +kernel

/-- With at most one megabyte. -/
theorem maybeEvict_exact_three_layers :
    currentSizeMb (maybeEvict smallCacheEnv threeLayers).index ≤ (1 : ℤ) * (9 / 10) :=
  (maybeEvict_exact (by decide) threeLayers).2.1

end CacheManager

end Cpip
