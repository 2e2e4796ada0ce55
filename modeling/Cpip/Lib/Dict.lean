import Mathlib.Data.List.Nodup
import Mathlib.Data.List.Basic
import Mathlib.Data.List.Perm.Subperm

/-!
# Insertion-ordered dictionaries

A dictionary is a list of entries with pairwise different keys, in the order in which the keys were
first inserted.  Assigning to a present key keeps its place (`set`), a new key goes to the end, and
`pop` removes a key.  `assignAll` is what a sequence of assignments leaves: a key stands where it
was first assigned and holds the value it was assigned last.

The operations are defined on entry lists first (`assign`, `remove`, with `List.lookup` to read), so
that a nested datatype can store its dictionaries as plain lists.
-/

namespace Dict

variable {κ ν : Type*} [DecidableEq κ]

/-! ## Entry lists -/

/-- `l[k] = v`: in place when `k` is present, at the end otherwise. -/
def assign (k : κ) (v : ν) : List (κ × ν) → List (κ × ν)
  | [] => [(k, v)]
  | (k', v') :: rest => if k' = k then (k', v) :: rest else (k', v') :: assign k v rest

/-- The entries whose key is not `k`. -/
def remove (k : κ) (l : List (κ × ν)) : List (κ × ν) := l.filter fun e => e.1 ≠ k

/-- The entries left by assigning the pairs from left to right. -/
def assignAll (l : List (κ × ν)) (pairs : List (κ × ν)) : List (κ × ν) :=
  pairs.foldl (fun acc e => assign e.1 e.2 acc) l

theorem lookup_cons (k k' : κ) (v : ν) (l : List (κ × ν)) :
    List.lookup k ((k', v) :: l) = if k' = k then some v else List.lookup k l := by
  by_cases h : k' = k
  · simp [h]
  · simp [List.lookup_cons, h, beq_eq_false_iff_ne.2 (Ne.symm h)]

theorem mem_keys_iff_lookup_isSome (k : κ) (l : List (κ × ν)) :
    k ∈ l.map Prod.fst ↔ (List.lookup k l).isSome := by
  induction l with
  | nil => simp
  | cons e rest ih =>
    obtain ⟨k', v⟩ := e
    by_cases h : k' = k
    · simp [h]
    · simp [lookup_cons, h, ← ih, Ne.symm h]

theorem lookup_assign (k j : κ) (v : ν) (l : List (κ × ν)) :
    List.lookup j (assign k v l) = if k = j then some v else List.lookup j l := by
  induction l with
  | nil => simp [assign, lookup_cons]
  | cons e rest ih =>
    obtain ⟨k', v'⟩ := e
    by_cases h : k' = k
    · subst h
      by_cases hj : k' = j <;> simp [assign, lookup_cons, hj]
    · by_cases hj : k' = j
      · subst hj
        simp [assign, h, Ne.symm h]
      · simp [assign, lookup_cons, h, hj, ih]

theorem lookup_remove (k j : κ) (l : List (κ × ν)) :
    List.lookup j (remove k l) = if k = j then none else List.lookup j l := by
  induction l with
  | nil => simp [remove]
  | cons e rest ih =>
    obtain ⟨k', v'⟩ := e
    unfold remove at ih ⊢
    by_cases h : k' = k
    · subst h
      rw [List.filter_cons_of_neg (by simp), ih, lookup_cons]
      by_cases hj : k' = j <;> simp [hj]
    · rw [List.filter_cons_of_pos (by simpa using h), lookup_cons, lookup_cons, ih]
      by_cases hj : k' = j
      · simp [hj, show k ≠ j from fun e => h (hj.trans e.symm)]
      · simp [hj]

theorem lookup_filter (p : κ → Bool) (j : κ) (l : List (κ × ν)) :
    List.lookup j (l.filter fun e => p e.1) = if p j then List.lookup j l else none := by
  induction l with
  | nil => simp
  | cons e rest ih =>
    obtain ⟨k', v'⟩ := e
    by_cases h : p k'
    · rw [List.filter_cons_of_pos (by simpa using h), lookup_cons, lookup_cons, ih]
      by_cases hj : k' = j
      · simp [← hj, h]
      · simp [hj]
    · rw [List.filter_cons_of_neg (by simpa using h), ih, lookup_cons]
      by_cases hj : k' = j
      · simp [← hj, h]
      · simp [hj]

theorem lookup_eq_some_iff_mem {l : List (κ × ν)} (h : (l.map Prod.fst).Nodup) (j : κ) (v : ν) :
    List.lookup j l = some v ↔ (j, v) ∈ l := by
  induction l with
  | nil => simp
  | cons e rest ih =>
    obtain ⟨k', v'⟩ := e
    rw [List.map_cons, List.nodup_cons] at h
    rw [lookup_cons, List.mem_cons, Prod.mk.injEq]
    split_ifs with hj
    · subst hj
      have absent : (k', v) ∉ rest := fun hmem => h.1 (List.mem_map.2 ⟨_, hmem, rfl⟩)
      simp [absent, eq_comm]
    · simp [ih h.2, Ne.symm hj]

theorem keys_assign_of_mem {k : κ} {l : List (κ × ν)} (h : k ∈ l.map Prod.fst) (v : ν) :
    (assign k v l).map Prod.fst = l.map Prod.fst := by
  induction l with
  | nil => simp at h
  | cons e rest ih =>
    obtain ⟨k', v'⟩ := e
    by_cases hk : k' = k
    · simp [assign, hk]
    · have hr : k ∈ rest.map Prod.fst := by simpa [Ne.symm hk] using h
      simp [assign, hk, ih hr]

theorem assign_of_not_mem {k : κ} {l : List (κ × ν)} (h : k ∉ l.map Prod.fst) (v : ν) :
    assign k v l = l ++ [(k, v)] := by
  induction l with
  | nil => rfl
  | cons e rest ih =>
    obtain ⟨k', v'⟩ := e
    simp only [List.map_cons, List.mem_cons, not_or] at h
    simp [assign, Ne.symm h.1, ih h.2]

theorem nodup_assign (k : κ) (v : ν) {l : List (κ × ν)} (h : (l.map Prod.fst).Nodup) :
    ((assign k v l).map Prod.fst).Nodup := by
  by_cases hk : k ∈ l.map Prod.fst
  · rwa [keys_assign_of_mem hk]
  · rw [assign_of_not_mem hk, List.map_append]
    exact List.Nodup.append h (by simp) (by simpa using hk)

theorem nodup_remove (k : κ) {l : List (κ × ν)} (h : (l.map Prod.fst).Nodup) :
    ((remove k l).map Prod.fst).Nodup :=
  h.sublist (List.filter_sublist.map _)

theorem nodup_assignAll {l : List (κ × ν)} (h : (l.map Prod.fst).Nodup) (pairs : List (κ × ν)) :
    ((assignAll l pairs).map Prod.fst).Nodup := by
  induction pairs generalizing l with
  | nil => exact h
  | cons e rest ih => exact ih (nodup_assign e.1 e.2 h)

/-- Assigning pairs with new, pairwise different keys appends them. -/
theorem assignAll_of_nodup {l pairs : List (κ × ν)} (h : ((l ++ pairs).map Prod.fst).Nodup) :
    assignAll l pairs = l ++ pairs := by
  induction pairs generalizing l with
  | nil => simp [assignAll]
  | cons e rest ih =>
    have hn : e.1 ∉ l.map Prod.fst := by
      simp only [List.map_append, List.map_cons, List.nodup_append] at h
      exact fun hm => h.2.2 _ hm _ (List.mem_cons_self ..) rfl
    have hl : l ++ [e] ++ rest = l ++ e :: rest := by simp
    calc assignAll l (e :: rest) = assignAll (assign e.1 e.2 l) rest := rfl
      _ = assignAll (l ++ [e]) rest := by rw [assign_of_not_mem hn]
      _ = l ++ e :: rest := by rw [ih (by rwa [hl]), hl]

theorem mem_assign {k : κ} {v : ν} {l : List (κ × ν)} {e : κ × ν} (h : e ∈ assign k v l) :
    e = (k, v) ∨ e ∈ l := by
  induction l with
  | nil => exact Or.inl (List.mem_singleton.1 h)
  | cons e' rest ih =>
    obtain ⟨k', v'⟩ := e'
    unfold assign at h
    split_ifs at h with hk
    · subst hk
      rcases List.mem_cons.1 h with h | h
      · exact Or.inl h
      · exact Or.inr (List.mem_cons_of_mem _ h)
    · rcases List.mem_cons.1 h with h | h
      · exact Or.inr (h ▸ List.mem_cons_self ..)
      · exact (ih h).imp id (List.mem_cons_of_mem _)

/-- Every entry left by assignments was there before or was assigned. -/
theorem mem_assignAll {l pairs : List (κ × ν)} {e : κ × ν} (h : e ∈ assignAll l pairs) :
    e ∈ l ∨ e ∈ pairs := by
  induction pairs generalizing l with
  | nil => exact Or.inl h
  | cons p rest ih =>
    rcases ih (l := assign p.1 p.2 l) h with h | h
    · rcases mem_assign h with h | h
      · exact Or.inr (h ▸ List.mem_cons_self ..)
      · exact Or.inl h
    · exact Or.inr (List.mem_cons_of_mem _ h)

/-- When every assignment made an entry, the keys were pairwise different. -/
theorem nodup_of_length_assignAll {pairs : List (κ × ν)}
    (h : (assignAll [] pairs).length = pairs.length) : (pairs.map Prod.fst).Nodup := by
  have distinct := nodup_assignAll (l := []) List.nodup_nil pairs
  have within : (assignAll [] pairs).map Prod.fst ⊆ pairs.map Prod.fst := by
    intro k hk
    obtain ⟨e, he, rfl⟩ := List.mem_map.1 hk
    exact List.mem_map_of_mem ((mem_assignAll he).resolve_left List.not_mem_nil)
  have perm := (List.subperm_of_subset distinct within).perm_of_length_le (by simp [h])
  exact perm.nodup_iff.1 distinct

end Dict

/-- A dictionary: entries in insertion order, with pairwise different keys. -/
structure Dict (κ ν : Type*) where
  entries : List (κ × ν)
  nodup : (entries.map Prod.fst).Nodup

namespace Dict

variable {κ ν : Type*}

/-! ## Dictionaries -/

@[ext]
theorem ext {d d' : Dict κ ν} (h : d.entries = d'.entries) : d = d' := by
  cases d; cases d'; cases h; rfl

instance [DecidableEq κ] [DecidableEq ν] : DecidableEq (Dict κ ν) := fun d d' =>
  decidable_of_iff (d.entries = d'.entries) ⟨ext, fun h => h ▸ rfl⟩

variable [DecidableEq κ]

def empty : Dict κ ν := ⟨[], List.nodup_nil⟩

instance : EmptyCollection (Dict κ ν) := ⟨empty⟩

/-- `d.get(k)`. -/
def get? (d : Dict κ ν) (k : κ) : Option ν := List.lookup k d.entries

/-- `d[k] = v`. -/
def set (d : Dict κ ν) (k : κ) (v : ν) : Dict κ ν :=
  ⟨assign k v d.entries, nodup_assign k v d.nodup⟩

/-- `d.pop(k, None)`, without its result. -/
def pop (d : Dict κ ν) (k : κ) : Dict κ ν := ⟨remove k d.entries, nodup_remove k d.nodup⟩

/-- The entries whose keys satisfy `p`. -/
def filter (p : κ → Bool) (d : Dict κ ν) : Dict κ ν :=
  ⟨d.entries.filter fun e => p e.1, d.nodup.sublist (List.filter_sublist.map _)⟩

/-- `list(d.keys())`. -/
def keys (d : Dict κ ν) : List κ := d.entries.map Prod.fst

@[simp]
theorem get?_empty (k : κ) : (∅ : Dict κ ν).get? k = none := rfl

theorem get?_set (d : Dict κ ν) (k j : κ) (v : ν) :
    (d.set k v).get? j = if k = j then some v else d.get? j := lookup_assign k j v d.entries

@[simp]
theorem get?_set_self (d : Dict κ ν) (k : κ) (v : ν) : (d.set k v).get? k = some v := by
  simp [get?_set]

theorem get?_pop (d : Dict κ ν) (k j : κ) :
    (d.pop k).get? j = if k = j then none else d.get? j := lookup_remove k j d.entries

/-- Setting a key to the value it has changes nothing. -/
theorem set_of_get?_eq_some {d : Dict κ ν} {k : κ} {v : ν} (h : d.get? k = some v) :
    d.set k v = d := by
  have same : ∀ l : List (κ × ν), List.lookup k l = some v → assign k v l = l := by
    intro l
    induction l with
    | nil => exact nofun
    | cons e rest ih =>
      intro found
      rw [lookup_cons] at found
      rw [assign]
      split_ifs at found ⊢ with here
      · rw [← Option.some.inj found]
      · rw [ih found]
  exact ext (same d.entries h)

@[simp]
theorem get?_pop_self (d : Dict κ ν) (k : κ) : (d.pop k).get? k = none := by
  simp [get?_pop]

/-- Removing the keys of a list one by one. -/
theorem entries_foldl_pop (ks : List κ) (d : Dict κ ν) :
    (ks.foldl pop d).entries = d.entries.filter fun e => e.1 ∉ ks := by
  induction ks generalizing d with
  | nil => simp
  | cons k ks ih =>
    rw [List.foldl_cons, ih]
    show (d.entries.filter fun e => e.1 ≠ k).filter (fun e => e.1 ∉ ks) = _
    rw [List.filter_filter]
    refine List.filter_congr fun e _ => ?_
    simp [Bool.and_comm]

theorem get?_filter (p : κ → Bool) (d : Dict κ ν) (j : κ) :
    (d.filter p).get? j = if p j then d.get? j else none := lookup_filter p j d.entries

/-- Removing a key leaves only entries that were there. -/
theorem get?_of_get?_pop {d : Dict κ ν} {k j : κ} {v : ν} (h : (d.pop k).get? j = some v) :
    d.get? j = some v ∧ k ≠ j := by
  rw [get?_pop] at h
  split_ifs at h with hk
  exact ⟨h, hk⟩

theorem get?_eq_some_iff (d : Dict κ ν) (k : κ) (v : ν) :
    d.get? k = some v ↔ (k, v) ∈ d.entries := lookup_eq_some_iff_mem d.nodup k v

/-- The dictionary with new entries at its end. -/
def extend (d : Dict κ ν) (l : List (κ × ν)) (h : ((d.entries ++ l).map Prod.fst).Nodup) :
    Dict κ ν := ⟨d.entries ++ l, h⟩

theorem get?_extend_eq_some_iff {d : Dict κ ν} {l : List (κ × ν)}
    {h : ((d.entries ++ l).map Prod.fst).Nodup} {k : κ} {v : ν} :
    (d.extend l h).get? k = some v ↔ d.get? k = some v ∨ (k, v) ∈ l := by
  rw [get?_eq_some_iff, get?_eq_some_iff]
  exact List.mem_append

theorem mem_keys_iff (d : Dict κ ν) (k : κ) : k ∈ d.keys ↔ (d.get? k).isSome :=
  mem_keys_iff_lookup_isSome k d.entries

/-- A present key keeps its place, and a new one goes to the end. -/
theorem keys_set (d : Dict κ ν) (k : κ) (v : ν) :
    (d.set k v).keys = if k ∈ d.keys then d.keys else d.keys ++ [k] := by
  have keys : (d.set k v).keys = (assign k v d.entries).map Prod.fst := rfl
  rw [keys]
  split_ifs with mem
  · exact keys_assign_of_mem mem v
  · rw [assign_of_not_mem mem, List.map_append]
    rfl

/-- The values of some entries are what is found under their keys. -/
theorem filterMap_get? (d : Dict κ ν) {l : List (κ × ν)} (sub : l ⊆ d.entries) :
    (l.map Prod.fst).filterMap d.get? = l.map Prod.snd := by
  rw [List.filterMap_map, ← List.filterMap_eq_map]
  apply List.filterMap_congr
  intro e mem
  exact (d.get?_eq_some_iff e.1 e.2).2 (sub mem)

theorem pop_filter (p : κ → Bool) (d : Dict κ ν) (k : κ) :
    (d.filter p).pop k = d.filter fun j => p j && j ≠ k := by
  refine ext ?_
  show (d.entries.filter fun e => p e.1).filter (fun e => e.1 ≠ k) = _
  rw [List.filter_filter]
  exact List.filter_congr fun e _ => Bool.and_comm ..

/-- Removing a key that is not there changes nothing. -/
theorem pop_of_get?_eq_none {d : Dict κ ν} {k : κ} (h : d.get? k = none) : d.pop k = d := by
  have absent : k ∉ d.keys := by
    rw [mem_keys_iff, h]
    exact Bool.false_ne_true
  refine ext (List.filter_eq_self.2 fun e mem => ?_)
  rw [decide_eq_true_eq]
  rintro rfl
  exact absent (List.mem_map_of_mem mem)

/-! ## Values under their own keys -/

section Own

variable [DecidableEq ν] (key : ν → κ) {d : Dict κ ν} {v : ν}

/-- A value that is stored under its own key, where no value with this key was, is there once
more. -/
theorem own_set (free : ∀ u, key v = key u → d.get? (key u) ≠ some u) (u : ν) :
    (if (d.set (key v) v).get? (key u) = some u then 1 else 0)
      = (if d.get? (key u) = some u then 1 else 0) + if v = u then 1 else 0 := by
  rw [get?_set]
  by_cases same : key v = key u
  · rw [if_pos same, if_neg (free u same)]
    simp only [Option.some.injEq, Nat.zero_add]
  · have other : v ≠ u := fun h => same (congrArg key h)
    rw [if_neg same, if_neg other]
    rfl

/-- A value that is taken from its own key is there once less. -/
theorem own_pop (stored : d.get? (key v) = some v) (u : ν) :
    (if (d.pop (key v)).get? (key u) = some u then 1 else 0) + (if v = u then 1 else 0)
      = if d.get? (key u) = some u then 1 else 0 := by
  rw [get?_pop]
  by_cases same : key v = key u
  · rw [if_pos same, if_neg nofun, ← same, stored]
    simp only [Option.some.injEq, Nat.zero_add]
  · have other : v ≠ u := fun h => same (congrArg key h)
    rw [if_neg same, if_neg other]
    rfl

end Own

end Dict
