import Cpip.Python.JsonLimits
import Cpip.Runtime.Serialization

/-!
# What arrives of a serialized value

The sender writes `json.dumps(serialize_value(v))`, the receiver reads it with
`deserialize_result(json.loads(...))`.  For values built from the kinds of the wire format
(`IsData`) the sender raises exactly when some dictionary key has no member name or some integer has
too many digits, and otherwise the receiver gets the value back, with lists for tuples, exactly when
all dictionary keys are strings, no set has a tuple among its elements and all strings are read as
they were (`received_iff`).
-/

namespace Cpip.Serialization

open PyVal
open JsonChars (Apart)

variable (env : Env) (py : PyText)

/-! ## The values of the wire format -/

/-- Built to any depth from `None`, booleans, numbers, strings, bytes, lists, tuples, sets and
dictionaries.  The elements of a set and the keys of a dictionary are pairwise different. -/
def IsData (v : PyVal) : Prop :=
  v.Everywhere fun u => (∀ o, u ≠ .object o) ∧ (∀ arr, u ≠ .ndarray arr) ∧
    (∀ k ∈ u.ownElements, ∀ o, k ≠ .atom (.object o)) ∧
    (u.ownElements.map PyKey.norm).Nodup ∧ (u.ownKeys.map PyKey.norm).Nodup

/-- Every key of every dictionary is one that `json.dumps` can turn into a member name. -/
def Encodable (v : PyVal) : Prop :=
  v.Everywhere fun u => ∀ k ∈ u.ownKeys, ∃ name, py.memberName k = .ok name

/-- Every key of every dictionary is a string. -/
def StringKeyed (v : PyVal) : Prop := v.Everywhere fun u => ∀ k ∈ u.ownKeys, ∃ s, k = .str s

/-- No element of any set is a tuple. -/
def AtomicSets (v : PyVal) : Prop := v.Everywhere fun u => ∀ k ∈ u.ownElements, ∃ a, k = .atom a

/-- Every string, as a value, a key and an element, has the property. -/
def Strings (p : String → Prop) (v : PyVal) : Prop :=
  v.Everywhere fun u => (∀ s, u = .str s → p s) ∧ (∀ s, .str s ∈ u.ownKeys → p s) ∧
    ∀ s, .str s ∈ u.ownElements → p s

/-- The integers, as values, keys and elements, are short. -/
def Brief (allows : ℕ → Bool) (v : PyVal) : Prop :=
  v.Everywhere fun u => u.shortNode allows ∧ ∀ k ∈ u.ownElements, k.short allows

/-- No tuples, other than as keys and elements. -/
def TupleFree (v : PyVal) : Prop := v.Everywhere fun u => ∀ xs, u ≠ .tuple xs

mutual

/-- The value with lists for its tuples. -/
def listify : PyVal → PyVal
  | .list xs => .list (listifyList xs)
  | .tuple xs => .list (listifyList xs)
  | .dict items => .dict (listifyItems items)
  | v => v

def listifyList : List PyVal → List PyVal
  | [] => []
  | x :: xs => listify x :: listifyList xs

def listifyItems : List (PyKey × PyVal) → List (PyKey × PyVal)
  | [] => []
  | (k, x) :: rest => (k, listify x) :: listifyItems rest

end

/-! ## One tagged object -/

theorem dumps_tagged {tag field : String} {x : PyVal} {t : JsonText} (h : py.dumps x = .ok t) :
    py.dumps (tagged tag [(field, x)]) = .ok (.obj [("__type__", .str tag), (field, t)]) := by
  simp only [tagged, List.map_cons, List.map_nil, PyText.dumps, PyText.dumpsItems, h]
  rfl

theorem dumps_tagged_eq_ok {tag field : String} {x : PyVal} {t : JsonText} :
    py.dumps (tagged tag [(field, x)]) = .ok t ↔
      ∃ t', py.dumps x = .ok t' ∧ t = .obj [("__type__", .str tag), (field, t')] := by
  constructor
  · intro h
    cases hx : py.dumps x with
    | error e => simp [tagged, PyText.dumps, PyText.dumpsItems, PyText.memberName, hx, bind,
        Except.bind, Except.map] at h
    | ok t' =>
      rw [dumps_tagged py hx] at h
      exact ⟨t', rfl, (Except.ok.inj h).symm⟩
  · rintro ⟨t', hx, rfl⟩
    exact dumps_tagged py hx

/-- How the receiver reads strings: `f s` where `s` was spelled.  ASCII is read as it was. -/
structure Reads (f : String → String) : Prop where
  ascii : ∀ s : String, s.ascii → f s = s

theorem Reads.tagged {f : String → String} (reads : Reads f) {tag field : String}
    (htag : tag.ascii) (hfield : field.ascii) (t : JsonText) :
    (JsonText.obj [("__type__", .str tag), (field, t)]).mapStr f =
      .obj [("__type__", .str tag), (field, t.mapStr f)] := by
  simp only [JsonText.mapStr, JsonText.mapStrMembers, reads.ascii "__type__" rfl,
    reads.ascii _ htag, reads.ascii _ hfield]

theorem deserialize_list (ts : List JsonText) :
    deserializeResult env (JsonText.obj [("__type__", .str "list"), ("values", .arr ts)]).loads =
      (do return .list (← deserializeList env (JsonText.loadsList ts))) := rfl

theorem deserialize_set (ts : List JsonText) :
    deserializeResult env (JsonText.obj [("__type__", .str "set"), ("values", .arr ts)]).loads =
      (do return .set (← deserializeSet env (JsonText.loadsList ts) [])) := rfl

theorem deserialize_taggedDict (ms : List (String × JsonText)) :
    deserializeResult env (JsonText.obj [("__type__", .str "dict"), ("items", .obj ms)]).loads =
      (do return .dict (← deserializeItems env ((Dict.assignAll []
        (JsonText.loadsMembers ms)).map fun e => (PyKey.str e.1, e.2)))) := rfl

theorem ascii_encode (b : Bytes) : (Base64.encode b).ascii := by
  simpa [Base64.encode, String.ascii] using Base64.encodeChars_ascii b

theorem b64decode_encode (b : Bytes) : b64decode (.str (Base64.encode b)) = pure b := by
  have ascii : (Base64.encode b).toList.all (fun c => c.toNat < 128) = true := ascii_encode b
  simp only [b64decode, ascii, Base64.decode_encode, if_true]

/-! ## Scalars and set elements -/

/-- The scalar that is received. -/
def readAtom (f : String → String) : PyAtom → PyAtom
  | .str s => .str (f s)
  | a => a

theorem readAtom_eq_self_iff {f : String → String} {a : PyAtom} :
    readAtom f a = a ↔ ∀ s, a = .str s → f s = s := by
  cases a <;> simp [readAtom]

variable {f : String → String} (reads : Reads f)

include reads in
theorem atom_received {a : PyAtom} (h : ∀ o, a ≠ .object o) :
    ∃ t, py.dumps (serializeAtom a) = .ok t ∧
      (deserializeResult env (t.mapStr f).loads).out = .ok (.atom (readAtom f a)) := by
  cases a with
  | bytes b =>
    refine ⟨_, dumps_tagged py rfl, ?_⟩
    rw [reads.tagged rfl rfl, JsonText.mapStr, reads.ascii _ (ascii_encode b)]
    change (do return PyVal.bytes (← b64decode (.str (Base64.encode b))) : Deser PyVal).out = _
    rw [b64decode_encode]
    rfl
  | object o => exact absurd rfl (h o)
  | none => exact ⟨_, rfl, rfl⟩
  | bool b => exact ⟨_, rfl, rfl⟩
  | int i => exact ⟨_, rfl, rfl⟩
  | float f => exact ⟨_, rfl, rfl⟩
  | str s => exact ⟨_, rfl, rfl⟩
  | complex re im =>
    refine ⟨_, rfl, ?_⟩
    simp only [JsonText.mapStr, JsonText.mapStrMembers, reads.ascii "__type__" rfl,
      reads.ascii "complex" rfl, reads.ascii "real" rfl, reads.ascii "imag" rfl]
    rfl

theorem dumps_serializeAtom (a : PyAtom) : ∃ t, py.dumps (serializeAtom a) = .ok t := by
  cases a with
  | object o =>
    simp only [serializeAtom]
    split_ifs
    · exact ⟨_, rfl⟩
    · exact ⟨_, rfl⟩
  | bytes b => exact ⟨_, rfl⟩
  | none => exact ⟨_, rfl⟩
  | bool b => exact ⟨_, rfl⟩
  | int i => exact ⟨_, rfl⟩
  | float f => exact ⟨_, rfl⟩
  | str s => exact ⟨_, rfl⟩
  | complex re im => exact ⟨_, rfl⟩

mutual

/-- Hashable values contain no dictionaries, so their encoding never fails. -/
theorem dumps_serializeKey : ∀ k : PyKey, ∃ t, py.dumps (serializeKey k) = .ok t
  | .atom a => dumps_serializeAtom py a
  | .tuple items => by
    obtain ⟨ts, hts⟩ := dumps_serializeKeys items
    exact ⟨_, dumps_tagged py (t := .arr ts) (by simp [PyText.dumps, hts, Except.map])⟩

theorem dumps_serializeKeys : ∀ ks : List PyKey, ∃ ts, py.dumpsList (serializeKeys ks) = .ok ts
  | [] => ⟨[], rfl⟩
  | k :: ks => by
    obtain ⟨t, ht⟩ := dumps_serializeKey k
    obtain ⟨ts, hts⟩ := dumps_serializeKeys ks
    exact ⟨t :: ts, by simp only [serializeKeys, PyText.dumpsList, ht, hts]; rfl⟩

end

include reads in
/-- A tuple arrives as a list, which has no hash. -/
theorem toKey?_of_tuple {items : List PyKey} {t : JsonText} {v : PyVal}
    (ht : py.dumps (serializeKey (.tuple items)) = .ok t)
    (hv : (deserializeResult env (t.mapStr f).loads).out = .ok v) : v.toKey? = Option.none := by
  obtain ⟨t', h, rfl⟩ := (dumps_tagged_eq_ok py).1 ht
  obtain ⟨ts, -, rfl⟩ := except_map_eq_ok.1 h
  rw [reads.tagged rfl rfl, JsonText.mapStr, deserialize_list, Deser.out_bind_eq_ok] at hv
  obtain ⟨vs, -, hv⟩ := hv
  obtain rfl := Except.ok.inj hv
  rfl

theorem hashInto_atom {a : PyAtom} (h : ∀ o, a ≠ .object o) (acc : List PyKey) :
    hashInto acc (.atom a) = pure (addToSet acc (.atom a)) := by
  have hkey : PyVal.toKey? (.atom a) = some (.atom a) := by
    cases a <;> first | rfl | exact absurd rfl (h _)
  rw [hashInto, hkey]

include reads in
/-- Pairwise different scalars are added to the set one after the other. -/
theorem deserializeSet_of_atoms {xs acc : List PyKey} {ts : List JsonText}
    (atoms : ∀ k ∈ xs, ∃ a, k = .atom a) (data : ∀ k ∈ xs, ∀ o, k ≠ .atom (.object o))
    (different : ((acc ++ xs).map PyKey.norm).Nodup) (kept : ∀ s, .str s ∈ xs → f s = s)
    (hts : py.dumpsList (serializeKeys xs) = .ok ts) :
    (deserializeSet env (JsonText.loadsList (JsonText.mapStrList f ts)) acc).out =
      .ok (acc ++ xs) := by
  induction xs generalizing acc ts with
  | nil =>
    obtain rfl := Except.ok.inj hts
    rw [List.append_nil]
    rfl
  | cons k xs ih =>
    obtain ⟨a, rfl⟩ := atoms k (by simp)
    have ha : ∀ o, a ≠ .object o := fun o h => data _ (List.mem_cons_self ..) o (by rw [h])
    obtain ⟨t, ts', ht, hts', rfl⟩ := py.dumpsList_cons_eq_ok.1 hts
    obtain ⟨t', ht', received⟩ := atom_received env py reads ha
    obtain rfl : t = t' := Except.ok.inj (ht.symm.trans ht')
    have same : readAtom f a = a :=
      readAtom_eq_self_iff.2 fun s hs => kept s (by simp [hs])
    have hnew : PyKey.norm (.atom a) ∉ acc.map PyKey.norm := by
      simp only [List.map_append, List.map_cons, List.nodup_append] at different
      exact fun hm => different.2.2 _ hm _ (List.mem_cons_self ..) rfl
    have hadd : addToSet acc (.atom a) = acc ++ [.atom a] := if_neg hnew
    have hrest := @ih (acc ++ [.atom a]) ts' (fun k hk => atoms k (by simp [hk]))
      (fun k hk => data k (by simp [hk])) (by simpa using different)
      (fun s hs => kept s (by simp [hs])) hts'
    simp only [JsonText.mapStrList, JsonText.loadsList, deserializeSet, Deser.out_bind_eq_ok]
    refine ⟨_, received, acc ++ [.atom a], ?_, by simpa using hrest⟩
    rw [same, hashInto_atom ha, hadd]
    rfl

/-- Adding to a set keeps what it has, and adds at most one element for each value. -/
theorem deserializeSet_grows {vs : List PyVal} {acc ys : List PyKey}
    (h : (deserializeSet env vs acc).out = .ok ys) :
    acc <+: ys ∧ ys.length ≤ acc.length + vs.length := by
  induction vs generalizing acc with
  | nil =>
    obtain rfl := Except.ok.inj h
    exact ⟨List.prefix_rfl, Nat.le_refl _⟩
  | cons v vs ih =>
    simp only [deserializeSet, Deser.out_bind_eq_ok] at h
    obtain ⟨x, -, acc', added, h⟩ := h
    obtain ⟨kept, few⟩ := ih h
    have one : acc <+: acc' ∧ acc'.length ≤ acc.length + 1 := by
      unfold hashInto at added
      split at added
      · obtain rfl := Except.ok.inj added
        unfold addToSet
        split_ifs
        · exact ⟨List.prefix_rfl, Nat.le_succ _⟩
        · exact ⟨List.prefix_append .., by simp⟩
      · cases added
    refine ⟨one.1.trans kept, ?_⟩
    rw [List.length_cons]
    omega

theorem length_of_dumpsList {xs : List PyVal} {ts : List JsonText}
    (hts : py.dumpsList xs = .ok ts) :
    (JsonText.loadsList (JsonText.mapStrList f ts)).length = xs.length := by
  induction xs generalizing ts with
  | nil =>
    obtain rfl := Except.ok.inj hts
    rfl
  | cons x xs ih =>
    obtain ⟨t, ts', -, hts', rfl⟩ := py.dumpsList_cons_eq_ok.1 hts
    simp [JsonText.mapStrList, JsonText.loadsList, ih hts']

theorem length_serializeKeys (xs : List PyKey) : (serializeKeys xs).length = xs.length := by
  induction xs with
  | nil => rfl
  | cons k xs ih => simp [serializeKeys, ih]

include reads in
/-- A set of scalars that arrives has the strings that were sent. -/
theorem kept_of_deserializeSet {xs acc : List PyKey} {ts : List JsonText}
    (atoms : ∀ k ∈ xs, ∃ a, k = .atom a) (data : ∀ k ∈ xs, ∀ o, k ≠ .atom (.object o))
    (hts : py.dumpsList (serializeKeys xs) = .ok ts)
    (h : (deserializeSet env (JsonText.loadsList (JsonText.mapStrList f ts)) acc).out =
      .ok (acc ++ xs)) : ∀ s, .str s ∈ xs → f s = s := by
  induction xs generalizing acc ts with
  | nil => simp
  | cons k xs ih =>
    obtain ⟨a, rfl⟩ := atoms k (by simp)
    have ha : ∀ o, a ≠ .object o := fun o h => data _ (List.mem_cons_self ..) o (by rw [h])
    obtain ⟨t, ts', ht, hts', rfl⟩ := py.dumpsList_cons_eq_ok.1 hts
    obtain ⟨t', ht', received⟩ := atom_received env py reads ha
    obtain rfl : t = t' := Except.ok.inj (ht.symm.trans ht')
    have hr : ∀ o, readAtom f a ≠ .object o := by
      cases a <;> first | exact absurd rfl (ha _) | simp [readAtom]
    simp only [JsonText.mapStrList, JsonText.loadsList, deserializeSet, Deser.out_bind_eq_ok] at h
    obtain ⟨v, hv, acc', added, h⟩ := h
    obtain rfl := Except.ok.inj (hv.symm.trans received)
    rw [hashInto_atom hr] at added
    obtain rfl := Except.ok.inj added
    obtain ⟨kept, few⟩ := deserializeSet_grows env h
    rw [length_of_dumpsList py hts', length_serializeKeys] at few
    unfold addToSet at kept few h
    split_ifs at kept few h with present
    · -- an element that was merged into another is missing at the end
      simp only [List.length_append, List.length_cons] at few
      omega
    · have same : readAtom f a = a := by
        obtain ⟨rest, hrest⟩ := kept
        rw [List.append_assoc, List.append_cancel_left_eq] at hrest
        exact PyKey.atom.inj (List.cons.inj hrest).1
      rw [same, List.append_cons acc _ xs] at h
      have strings := ih (fun k hk => atoms k (by simp [hk])) (fun k hk => data k (by simp [hk]))
        hts' h
      intro s hs
      rcases List.mem_cons.1 hs with first | hs
      · exact readAtom_eq_self_iff.1 same s (PyKey.atom.inj first).symm
      · exact strings s hs

include reads in
/-- A tuple among the elements makes the receiver raise. -/
theorem deserializeSet_of_tuple {xs acc ys : List PyKey} {ts : List JsonText} {items : List PyKey}
    (tuple : PyKey.tuple items ∈ xs) (hts : py.dumpsList (serializeKeys xs) = .ok ts) :
    (deserializeSet env (JsonText.loadsList (JsonText.mapStrList f ts)) acc).out ≠ .ok ys := by
  induction xs generalizing acc ts with
  | nil => simp at tuple
  | cons k xs ih =>
    obtain ⟨t, ts', ht, hts', rfl⟩ := py.dumpsList_cons_eq_ok.1 hts
    intro h
    simp only [JsonText.mapStrList, JsonText.loadsList, deserializeSet, Deser.out_bind_eq_ok] at h
    obtain ⟨v, hv, acc', hacc, h⟩ := h
    rcases List.mem_cons.1 tuple with rfl | hmem
    · rw [hashInto, toKey?_of_tuple env py reads ht hv] at hacc
      exact absurd hacc (by simp [Deser.raise])
    · exact ih hmem hts' h

/-! ## Whole values -/

include reads in
/-- A set is received as sent exactly when it has no tuples and its strings are read as they
were. -/
theorem deserializeSet_eq_ok_iff {xs : List PyKey} {ts : List JsonText}
    (data : ∀ k ∈ xs, ∀ o, k ≠ .atom (.object o)) (different : (xs.map PyKey.norm).Nodup)
    (hts : py.dumpsList (serializeKeys xs) = .ok ts) :
    (deserializeSet env (JsonText.loadsList (JsonText.mapStrList f ts)) []).out = .ok xs ↔
      (∀ k ∈ xs, ∃ a, k = .atom a) ∧ ∀ s, .str s ∈ xs → f s = s := by
  constructor
  · intro h
    have atoms : ∀ k ∈ xs, ∃ a, k = .atom a := by
      intro k hk
      cases k with
      | atom a => exact ⟨a, rfl⟩
      | tuple items => exact absurd h (deserializeSet_of_tuple env py reads hk hts)
    exact ⟨atoms, kept_of_deserializeSet env py reads atoms data hts
      (show _ = Except.ok ([] ++ xs) from h)⟩
  · rintro ⟨atoms, kept⟩
    exact deserializeSet_of_atoms env py reads atoms data different kept hts

/-- Deserializing the entries keeps the keys. -/
theorem keys_of_deserializeItems {l r : List (PyKey × PyVal)}
    (h : (deserializeItems env l).out = .ok r) : r.map Prod.fst = l.map Prod.fst := by
  induction l generalizing r with
  | nil =>
    obtain rfl := Except.ok.inj h
    rfl
  | cons e rest ih =>
    obtain ⟨k, x⟩ := e
    simp only [deserializeItems, Deser.out_bind_eq_ok] at h
    obtain ⟨v, -, vs, hvs, h⟩ := h
    obtain rfl := Except.ok.inj h
    simp [ih hvs]

theorem keys_listifyItems (items : List (PyKey × PyVal)) :
    (listifyItems items).map Prod.fst = items.map Prod.fst := by
  induction items with
  | nil => rfl
  | cons e rest ih => simp [listifyItems, ih]

/-- Encoding a list succeeds exactly when encoding each of its elements does. -/
theorem dumps_tagged_isOk_iff (tag field : String) (x : PyVal) :
    (∃ t, py.dumps (tagged tag [(field, x)]) = .ok t) ↔ ∃ t, py.dumps x = .ok t := by
  simp only [dumps_tagged_eq_ok]
  exact ⟨fun ⟨_, t, ht, _⟩ => ⟨t, ht⟩, fun ⟨t, ht⟩ => ⟨_, t, ht, rfl⟩⟩

theorem serializeValues_eq_map (xs : List PyVal) : serializeValues xs = xs.map serializeValue := by
  induction xs with
  | nil => rfl
  | cons x xs ih => simp [serializeValues, ih]

theorem serializeItems_eq_map (items : List (PyKey × PyVal)) :
    serializeItems items = items.map fun e => (e.1, serializeValue e.2) := by
  induction items with
  | nil => rfl
  | cons e rest ih => simp [serializeItems, ih]

theorem keys_serializeItems (items : List (PyKey × PyVal)) :
    (serializeItems items).map Prod.fst = items.map Prod.fst := by
  simp [serializeItems_eq_map]

/-- Without a limit on integers the sender fails exactly on keys without a member name. -/
theorem dumps_serializeValue_isOk_iff (v : PyVal) (data : IsData v) :
    (∃ t, py.dumps (serializeValue v) = .ok t) ↔ Encodable py v := by
  induction v using PyVal.inductionOn with
  | atom a =>
    exact iff_of_true (dumps_serializeAtom py a) (by simp [Encodable, Everywhere, ownKeys])
  | ndarray arr => exact absurd rfl (data.2.1 arr)
  | set xs =>
    obtain ⟨ts, hts⟩ := dumps_serializeKeys py xs
    refine iff_of_true ?_ (by simp [Encodable, Everywhere, ownKeys])
    rw [serializeValue, dumps_tagged_isOk_iff, py.dumps_list_isOk_iff]
    exact ⟨ts, hts⟩
  | list xs ih =>
    have parts := ((everywhere_list_iff xs).1 data).2
    rw [serializeValue, dumps_tagged_isOk_iff, py.dumps_list_isOk_iff, py.dumpsList_isOk_iff,
      Encodable, everywhere_list_iff, serializeValues_eq_map, List.forall_mem_map]
    simp only [ownKeys, List.not_mem_nil, false_implies, implies_true, true_and]
    exact forall₂_congr fun x hx => ih x hx (parts x hx)
  | tuple xs ih =>
    have parts := ((everywhere_tuple_iff xs).1 data).2
    rw [serializeValue, dumps_tagged_isOk_iff, py.dumps_list_isOk_iff, py.dumpsList_isOk_iff,
      Encodable, everywhere_tuple_iff, serializeValues_eq_map, List.forall_mem_map]
    simp only [ownKeys, List.not_mem_nil, false_implies, implies_true, true_and]
    exact forall₂_congr fun x hx => ih x hx (parts x hx)
  | dict items ih =>
    have parts := ((everywhere_dict_iff items).1 data).2
    rw [serializeValue, dumps_tagged_isOk_iff, py.dumps_dict_isOk_iff, Encodable,
      everywhere_dict_iff, serializeItems_eq_map, List.forall_mem_map, forall₂_and]
    refine and_congr ?_ (forall₂_congr fun e he => ih e he (parts e he))
    rw [ownKeys, List.forall_mem_map]

section Limit

variable (allows : ℕ → Bool)

theorem short_tagged_iff (tag field : String) (x : PyVal) :
    (tagged tag [(field, x)]).Short allows ↔ x.Short allows := by
  simp [tagged, Short, everywhere_dict_iff, Everywhere, shortNode, PyKey.short, PyAtom.short]

theorem short_serializeAtom (a : PyAtom) : (serializeAtom a).Short allows ↔ a.short allows := by
  cases a with
  | object o =>
    rw [serializeAtom]
    split_ifs <;> simp [serializePickle, tagged, Short, everywhere_dict_iff, Everywhere, shortNode,
      PyKey.short, PyAtom.short]
  | _ => simp [serializeAtom, tagged, Short, everywhere_dict_iff, Everywhere, shortNode,
      PyKey.short, PyAtom.short]

mutual

theorem short_serializeKey : ∀ k : PyKey, (serializeKey k).Short allows ↔ k.short allows
  | .atom a => short_serializeAtom allows a
  | .tuple items => by
    rw [serializeKey, short_tagged_iff, PyKey.short, ← short_serializeKeys items]
    simp [Short, everywhere_list_iff, shortNode]

theorem short_serializeKeys : ∀ ks : List PyKey,
    (∀ x ∈ serializeKeys ks, x.Short allows) ↔ PyKey.shortList allows ks
  | [] => by simp [serializeKeys, PyKey.shortList]
  | k :: ks => by
    rw [serializeKeys, List.forall_mem_cons, short_serializeKey k, short_serializeKeys ks,
      PyKey.shortList, Bool.and_eq_true]

end

theorem shortList_iff (ks : List PyKey) :
    PyKey.shortList allows ks ↔ ∀ k ∈ ks, k.short allows := by
  induction ks with
  | nil => simp [PyKey.shortList]
  | cons k ks ih => simp [PyKey.shortList, ih]

/-- The integers that are spelled are those of the value. -/
theorem short_serializeValue_iff (v : PyVal) (data : IsData v) :
    (serializeValue v).Short allows ↔ Brief allows v := by
  induction v using PyVal.inductionOn with
  | atom a =>
    rw [serializeValue, short_serializeAtom]
    simp [Brief, Everywhere, shortNode, ownElements]
  | ndarray arr => exact absurd rfl (data.2.1 arr)
  | set xs =>
    rw [serializeValue, short_tagged_iff, Short, everywhere_list_iff]
    refine (and_iff_right rfl).trans ((short_serializeKeys allows xs).trans ?_)
    rw [shortList_iff]
    simp [Brief, Everywhere, shortNode, ownElements]
  | list xs ih =>
    have parts := ((everywhere_list_iff xs).1 data).2
    rw [serializeValue, short_tagged_iff, Short, everywhere_list_iff, Brief, everywhere_list_iff,
      serializeValues_eq_map, List.forall_mem_map]
    refine and_congr (by simp [shortNode, ownElements]) (forall₂_congr fun x hx => ?_)
    exact ih x hx (parts x hx)
  | tuple xs ih =>
    have parts := ((everywhere_tuple_iff xs).1 data).2
    rw [serializeValue, short_tagged_iff, Short, everywhere_list_iff, Brief, everywhere_tuple_iff,
      serializeValues_eq_map, List.forall_mem_map]
    refine and_congr (by simp [shortNode, ownElements]) (forall₂_congr fun x hx => ?_)
    exact ih x hx (parts x hx)
  | dict items ih =>
    have parts := ((everywhere_dict_iff items).1 data).2
    rw [serializeValue, short_tagged_iff, Short, everywhere_dict_iff, Brief, everywhere_dict_iff,
      serializeItems_eq_map, List.forall_mem_map]
    refine and_congr (by simp [shortNode, ownElements]) (forall₂_congr fun e he => ?_)
    exact ih e he (parts e he)

/-- The sender fails exactly on keys without a member name and on long integers. -/
theorem dumpsWithin_serializeValue_isOk_iff (v : PyVal) (data : IsData v) :
    (∃ t, py.dumpsWithin allows (serializeValue v) = .ok t) ↔
      Encodable py v ∧ Brief allows v := by
  rw [← dumps_serializeValue_isOk_iff py v data, ← short_serializeValue_iff allows v data]
  simp only [py.dumpsWithin_eq_ok_iff, exists_and_right]

end Limit

/-- A list is received as sent exactly when each of its elements is. -/
theorem deserializeList_eq_ok_iff {xs : List PyVal} {ts : List JsonText} {Q : PyVal → Prop}
    (elements : ∀ x ∈ xs, ∀ t, py.dumps (serializeValue x) = .ok t →
      ((deserializeResult env (t.mapStr f).loads).out = .ok (listify x) ↔ Q x))
    (hts : py.dumpsList (serializeValues xs) = .ok ts) :
    (deserializeList env (JsonText.loadsList (JsonText.mapStrList f ts))).out =
      .ok (listifyList xs) ↔ ∀ x ∈ xs, Q x := by
  induction xs generalizing ts with
  | nil =>
    obtain rfl := Except.ok.inj hts
    exact iff_of_true rfl (by simp)
  | cons x xs ih =>
    obtain ⟨t, ts', ht, hts', rfl⟩ := py.dumpsList_cons_eq_ok.1 hts
    rw [List.forall_mem_cons, ← elements x (by simp) t ht,
      ← ih (fun y hy => elements y (by simp [hy])) hts']
    simp only [JsonText.mapStrList, JsonText.loadsList, deserializeList, listifyList,
      Deser.out_bind_eq_ok]
    constructor
    · rintro ⟨v, hv, vs, hvs, h⟩
      obtain ⟨rfl, rfl⟩ := List.cons.inj (Except.ok.inj h)
      exact ⟨hv, hvs⟩
    · rintro ⟨hv, hvs⟩
      exact ⟨_, hv, _, hvs, rfl⟩

/-- Entries with string keys are received as sent exactly when each key and each value is. -/
theorem deserializeItems_eq_ok_iff {items : List (PyKey × PyVal)} {ms : List (String × JsonText)}
    {Q : PyVal → Prop}
    (values : ∀ e ∈ items, ∀ t, py.dumps (serializeValue e.2) = .ok t →
      ((deserializeResult env (t.mapStr f).loads).out = .ok (listify e.2) ↔ Q e.2))
    (strings : ∀ k ∈ items.map Prod.fst, ∃ s, k = .str s)
    (hms : py.dumpsItems (serializeItems items) = .ok ms) :
    (deserializeItems env (JsonText.readMembers (JsonText.mapStrMembers f ms))).out =
      .ok (listifyItems items) ↔
        (∀ s, .str s ∈ items.map Prod.fst → f s = s) ∧ ∀ e ∈ items, Q e.2 := by
  induction items generalizing ms with
  | nil =>
    obtain rfl := Except.ok.inj hms
    exact iff_of_true rfl (by simp)
  | cons e rest ih =>
    obtain ⟨k, x⟩ := e
    obtain ⟨s, rfl⟩ := strings k (by simp)
    obtain ⟨name, t, ms', hn, ht, hms', rfl⟩ := py.dumpsItems_cons_eq_ok.1 hms
    obtain rfl := Except.ok.inj hn
    have hrest := ih (fun e he => values e (by simp [he]))
      (fun k hk => strings k (by simp only [List.map_cons, List.mem_cons]; exact Or.inr hk)) hms'
    rw [List.forall_mem_cons, ← values _ (by simp) t ht]
    simp only [JsonText.mapStrMembers, JsonText.readMembers, JsonText.loadsMembers, List.map_cons,
      deserializeItems, listifyItems, Deser.out_bind_eq_ok]
    constructor
    · rintro ⟨v, hv, vs, hvs, h⟩
      obtain ⟨he, rfl⟩ := List.cons.inj (Except.ok.inj h)
      obtain ⟨key, rfl⟩ := Prod.mk.inj he
      obtain ⟨keys, parts⟩ := hrest.1 hvs
      refine ⟨fun s' hs => ?_, hv, parts⟩
      rcases List.mem_cons.1 hs with first | hs
      · obtain rfl : s' = s := by cases first; rfl
        exact PyAtom.str.inj (PyKey.atom.inj key)
      · exact keys s' hs
    · rintro ⟨keys, hv, parts⟩
      refine ⟨_, hv, _, hrest.2 ⟨fun s' hs => keys s' (List.mem_cons_of_mem _ hs), parts⟩, ?_⟩
      rw [keys s (List.mem_cons_self ..)]
      rfl

theorem out_map_eq_ok_iff {α β : Type} {x : Deser α} {f : α → β} (inj : Function.Injective f)
    {a : α} : (do return f (← x) : Deser β).out = .ok (f a) ↔ x.out = .ok a := by
  rw [Deser.out_bind_eq_ok]
  constructor
  · rintro ⟨b, hb, h⟩
    rw [hb, inj (Except.ok.inj h)]
  · intro h
    exact ⟨a, h, rfl⟩

/-- The names of the members that the receiver reads. -/
theorem names_loadsMembers (ms : List (String × JsonText)) :
    (JsonText.loadsMembers (JsonText.mapStrMembers f ms)).map Prod.fst =
      (ms.map Prod.fst).map f := by
  induction ms with
  | nil => rfl
  | cons m ms ih => simp [JsonText.mapStrMembers, JsonText.loadsMembers, ih]

theorem keys_of_dumpsItems {items : List (PyKey × PyVal)} {ms : List (String × JsonText)}
    (strings : ∀ k ∈ items.map Prod.fst, ∃ s, k = .str s)
    (hms : py.dumpsItems (serializeItems items) = .ok ms) :
    items.map Prod.fst = (ms.map Prod.fst).map PyKey.str := by
  have keys := keys_serializeItems items
  rw [← keys, ← py.keys_readMembers (keys ▸ strings) hms, ← List.map_id (ms.map Prod.fst),
    ← names_loadsMembers (f := id), JsonText.mapStrMembers_id]
  simp [JsonText.readMembers]

/-- A dictionary is received as sent exactly when its keys are strings, and each of them and each
value is read as it was. -/
theorem deserialize_members_eq_ok_iff {items : List (PyKey × PyVal)}
    {ms : List (String × JsonText)} {Q : PyVal → Prop}
    (values : ∀ e ∈ items, ∀ t, py.dumps (serializeValue e.2) = .ok t →
      ((deserializeResult env (t.mapStr f).loads).out = .ok (listify e.2) ↔ Q e.2))
    (distinct : ((items.map Prod.fst).map PyKey.norm).Nodup)
    (hms : py.dumpsItems (serializeItems items) = .ok ms) :
    (deserializeItems env ((Dict.assignAll []
      (JsonText.loadsMembers (JsonText.mapStrMembers f ms))).map fun e =>
        (PyKey.str e.1, e.2))).out = .ok (listifyItems items) ↔
      (∀ k ∈ items.map Prod.fst, ∃ s, k = .str s) ∧
        (∀ s, .str s ∈ items.map Prod.fst → f s = s) ∧ ∀ e ∈ items, Q e.2 := by
  by_cases strings : ∀ k ∈ items.map Prod.fst, ∃ s, k = .str s
  · rw [and_iff_right strings]
    have keys := keys_of_dumpsItems py strings hms
    have names := names_loadsMembers (f := f) ms
    by_cases different : ((JsonText.loadsMembers (JsonText.mapStrMembers f ms)).map Prod.fst).Nodup
    · rw [Dict.assignAll_of_nodup (by simpa using different), List.nil_append]
      exact deserializeItems_eq_ok_iff env py values strings hms
    · -- names that were different have become the same
      refine iff_of_false (fun h => different ?_) fun h => different ?_
      · have same := congrArg List.length (keys_of_deserializeItems env h)
        rw [keys_listifyItems, keys] at same
        refine Dict.nodup_of_length_assignAll ?_
        have count := congrArg List.length names
        simp only [List.length_map] at same count
        rw [count, same]
      · have same : (ms.map Prod.fst).map f = ms.map Prod.fst := by
          refine (List.map_congr_left fun s hs => ?_).trans (List.map_id _)
          refine h.1 s ?_
          rw [keys]
          exact List.mem_map_of_mem hs
        rw [names, same]
        have distinct := distinct.of_map PyKey.norm
        rw [keys] at distinct
        exact distinct.of_map _
  · -- a key that is not a string is not among the keys of the decoded dictionary
    refine iff_of_false (fun h => strings ?_) fun h => strings h.1
    have keys := keys_of_deserializeItems env h
    rw [keys_listifyItems, List.map_map] at keys
    intro k hk
    rw [keys, List.mem_map] at hk
    obtain ⟨e, -, rfl⟩ := hk
    exact ⟨e.1, rfl⟩

include reads in
/-- What the sender encodes is received, with lists for tuples, exactly when dictionary keys are
strings, sets have no tuples and strings are read as they were. -/
theorem received_iff (v : PyVal) (data : IsData v) {t : JsonText}
    (ht : py.dumps (serializeValue v) = .ok t) :
    (deserializeResult env (t.mapStr f).loads).out = .ok (listify v) ↔
      StringKeyed v ∧ AtomicSets v ∧ Strings (fun s => f s = s) v := by
  induction v using PyVal.inductionOn generalizing t with
  | atom a =>
    obtain ⟨t', ht', received⟩ := atom_received env py reads (a := a)
      fun o h => data.1 o (by rw [h])
    obtain rfl : t = t' := Except.ok.inj (ht.symm.trans ht')
    have same : readAtom f a = a ↔ Strings (fun s => f s = s) (.atom a) := by
      simp [readAtom_eq_self_iff, Strings, Everywhere, ownKeys, ownElements]
    rw [received, ← same]
    simp [StringKeyed, AtomicSets, Everywhere, ownKeys, ownElements, listify]
  | ndarray arr => exact absurd rfl (data.2.1 arr)
  | set xs =>
    obtain ⟨-, -, objectFree, distinct, -⟩ := data
    rw [ownElements] at objectFree distinct
    obtain ⟨t', h, rfl⟩ := (dumps_tagged_eq_ok py).1 ht
    obtain ⟨ts, hts, rfl⟩ := except_map_eq_ok.1 h
    rw [reads.tagged rfl rfl, JsonText.mapStr, deserialize_set,
      show listify (.set xs) = .set xs from rfl, out_map_eq_ok_iff fun _ _ h => PyVal.set.inj h,
      deserializeSet_eq_ok_iff env py reads objectFree distinct hts]
    simp [StringKeyed, AtomicSets, Strings, Everywhere, ownKeys, ownElements]
  | list xs ih =>
    have parts := ((everywhere_list_iff xs).1 data).2
    obtain ⟨t', h, rfl⟩ := (dumps_tagged_eq_ok py).1 ht
    obtain ⟨ts, hts, rfl⟩ := except_map_eq_ok.1 h
    rw [reads.tagged rfl rfl, JsonText.mapStr, deserialize_list, listify,
      out_map_eq_ok_iff fun _ _ h => PyVal.list.inj h,
      deserializeList_eq_ok_iff env py (fun x hx t ht => ih x hx (parts x hx) ht) hts]
    simp [StringKeyed, AtomicSets, Strings, everywhere_list_iff, ownKeys, ownElements, forall_and]
  | tuple xs ih =>
    have parts := ((everywhere_tuple_iff xs).1 data).2
    obtain ⟨t', h, rfl⟩ := (dumps_tagged_eq_ok py).1 ht
    obtain ⟨ts, hts, rfl⟩ := except_map_eq_ok.1 h
    rw [reads.tagged rfl rfl, JsonText.mapStr, deserialize_list, listify,
      out_map_eq_ok_iff fun _ _ h => PyVal.list.inj h,
      deserializeList_eq_ok_iff env py (fun x hx t ht => ih x hx (parts x hx) ht) hts]
    simp [StringKeyed, AtomicSets, Strings, everywhere_tuple_iff, ownKeys, ownElements, forall_and]
  | dict items ih =>
    obtain ⟨own, parts⟩ := (everywhere_dict_iff items).1 data
    obtain ⟨t', h, rfl⟩ := (dumps_tagged_eq_ok py).1 ht
    obtain ⟨ms, hms, rfl⟩ := except_map_eq_ok.1 h
    rw [reads.tagged rfl rfl, JsonText.mapStr, deserialize_taggedDict, listify,
      out_map_eq_ok_iff fun _ _ h => PyVal.dict.inj h]
    rw [deserialize_members_eq_ok_iff env py
      (Q := fun x => StringKeyed x ∧ AtomicSets x ∧ Strings (fun s => f s = s) x)
      (fun e he t ht => ih e he (parts e he) ht) own.2.2.2.2 hms]
    simp only [StringKeyed, AtomicSets, Strings, everywhere_dict_iff, forall₂_and]
    simp [ownKeys, ownElements]
    tauto

/-! ## Round trips -/

theorem listify_of_tupleFree (v : PyVal) (h : TupleFree v) : listify v = v := by
  induction v using PyVal.inductionOn with
  | atom a => rfl
  | ndarray arr => rfl
  | set xs => rfl
  | tuple xs ih => exact absurd rfl (((everywhere_tuple_iff xs).1 h).1 xs)
  | list xs ih =>
    have parts := ((everywhere_list_iff xs).1 h).2
    have same : listifyList xs = xs := by
      clear h
      induction xs with
      | nil => rfl
      | cons x xs ihxs =>
        rw [List.forall_mem_cons] at ih parts
        rw [listifyList, ih.1 parts.1, ihxs ih.2 parts.2]
    rw [listify, same]
  | dict items ih =>
    have parts := ((everywhere_dict_iff items).1 h).2
    have same : listifyItems items = items := by
      clear h
      induction items with
      | nil => rfl
      | cons e rest ihrest =>
        rw [List.forall_mem_cons] at ih parts
        rw [listifyItems, ih.1 parts.1, ihrest ih.2 parts.2]
    rw [listify, same]

theorem Encodable.of_stringKeyed {v : PyVal} (h : StringKeyed v) : Encodable py v :=
  h.mono fun _ keys k hk => by
    obtain ⟨s, rfl⟩ := keys k hk
    exact ⟨s, rfl⟩

/-- The values that survive unchanged: built from `None`, booleans, numbers, strings, bytes, lists,
dictionaries with string keys (any strings) and sets of values without parts. -/
structure IsPlain (v : PyVal) : Prop where
  data : IsData v
  tupleFree : TupleFree v
  stringKeyed : StringKeyed v
  atomicSets : AtomicSets v

/-- Such a value is encoded, and the receiver gets it back. -/
theorem deserialize_serialize_of_isPlain (v : PyVal) (plain : IsPlain v) :
    ∃ t, py.dumps (serializeValue v) = .ok t ∧ (deserializeResult env t.loads).out = .ok v := by
  obtain ⟨t, ht⟩ := (dumps_serializeValue_isOk_iff py v plain.data).2
    (.of_stringKeyed py plain.stringKeyed)
  refine ⟨t, ht, ?_⟩
  have kept : Strings (fun s => id s = s) v :=
    plain.data.mono fun _ _ => ⟨by simp, by simp, by simp⟩
  have received := (received_iff env py (f := id) ⟨fun _ _ => rfl⟩ v plain.data ht).2
    ⟨plain.stringKeyed, plain.atomicSets, kept⟩
  rwa [listify_of_tupleFree v plain.tupleFree, JsonText.mapStr_id] at received

/-- An interpreter without NumPy and PyTorch, in which every unpickling raises. -/
def bareEnv : Env := ⟨fun _ => .error (.other "UnpicklingError"), none, none⟩

/-- A user dictionary that mimics the tags of the encoder. -/
theorem deserialize_serialize_of_isPlain_mimic :
    ∃ t, plainText.dumps (serializeValue (.dict [(.str "__type__", .str "set"),
        (.str "values", .list [.bytes [1, 255], .dict [(.str "items", .none)]]),
        (.str "data", .set [.atom (.int 2), .atom (.str "2")])])) = .ok t ∧
      (deserializeResult bareEnv t.loads).out = .ok (.dict [(.str "__type__", .str "set"),
        (.str "values", .list [.bytes [1, 255], .dict [(.str "items", .none)]]),
        (.str "data", .set [.atom (.int 2), .atom (.str "2")])]) :=
  deserialize_serialize_of_isPlain bareEnv plainText _
    { data := by simp [IsData, Everywhere, EverywhereItems, EverywhereList, ownKeys, ownElements,
        PyKey.norm, PyAtom.norm, PyAtom.number?]
      tupleFree := by simp [TupleFree, Everywhere, EverywhereItems, EverywhereList]
      stringKeyed := by simp [StringKeyed, Everywhere, EverywhereItems, EverywhereList, ownKeys]
      atomicSets := by simp [AtomicSets, Everywhere, EverywhereItems, EverywhereList, ownElements] }

variable (st : PyStrings) (allows : ℕ → Bool)

theorem reads_reread : Reads st.reread := ⟨fun _ ascii => st.reread_of_ascii ascii⟩

/-- Either the sender raises while encoding `v`, or the receiver gets `v` without raising, with
lists for its tuples and nothing else changed.  Both have the same limit on the digits of integers,
and strings are those of Python, surrogates included. -/
def Faithful (v : PyVal) : Prop :=
  ∀ t, py.dumpsWithin allows (serializeValue v) = .ok t →
    ∃ data, (t.mapStr st.reread).loadsWithin allows = .ok data ∧
      (deserializeResult env data).out = .ok (listify v)

/-- The wire format is faithful to a value exactly when the sender raises, as some dictionary has a
key that is not a scalar of JSON or some integer has too many digits, or all dictionary keys are
strings, no set has a tuple in it and no string has a low half of a surrogate pair directly behind a
high one. -/
theorem faithful_iff (v : PyVal) (data : IsData v) :
    Faithful env py st allows v ↔ ¬ Encodable py v ∨ ¬ Brief allows v ∨
      StringKeyed v ∧ AtomicSets v ∧ Strings (fun s => Apart (st.points s)) v := by
  have apart : Strings (fun s => Apart (st.points s)) v ↔ Strings (fun s => st.reread s = s) v := by
    simp only [Strings, st.reread_eq_self_iff]
  rw [apart]
  have sends := dumpsWithin_serializeValue_isOk_iff py allows v data
  by_cases sent : Encodable py v ∧ Brief allows v
  · obtain ⟨t, ht⟩ := sends.2 sent
    have dumped := (py.dumpsWithin_eq_ok_iff.1 ht).1
    have loaded := py.loadsWithin_of_dumpsWithin st.reread ht
    have received := received_iff env py (reads_reread st) v data dumped
    rw [← received]
    constructor
    · intro h
      obtain ⟨u, hu, out⟩ := h t ht
      obtain rfl := Except.ok.inj (hu.symm.trans loaded)
      exact .inr (.inr out)
    · rintro (enc | brief | out) t' ht'
      · exact absurd sent.1 enc
      · exact absurd sent.2 brief
      · obtain rfl := Except.ok.inj (ht.symm.trans ht')
        exact ⟨_, loaded, out⟩
  · refine iff_of_true (fun t ht => absurd (sends.1 ⟨t, ht⟩) sent) ?_
    rcases not_and_or.1 sent with enc | brief
    · exact .inl enc
    · exact .inr (.inl brief)

/-- A dictionary with one integer key. -/
def intKeyed : PyVal := .dict [(.atom (.int 1), .str "one")]

theorem faithful_iff_intKeyed :
    Faithful bareEnv plainText .withSurrogates (· ≤ 4300) intKeyed ↔
      ¬ Encodable plainText intKeyed ∨ ¬ Brief (· ≤ 4300) intKeyed ∨
        StringKeyed intKeyed ∧ AtomicSets intKeyed ∧
          Strings (fun s => Apart (PyStrings.withSurrogates.points s)) intKeyed :=
  faithful_iff bareEnv plainText .withSurrogates (· ≤ 4300) intKeyed
    (by simp [intKeyed, IsData, Everywhere, EverywhereItems, ownKeys, ownElements])

/-- The integer key arrives as a string. -/
theorem not_faithful :
    ¬ ∀ v, IsData v → Faithful bareEnv plainText .withSurrogates (· ≤ 4300) v := by
  intro h
  have data : IsData intKeyed := by
    simp [intKeyed, IsData, Everywhere, EverywhereItems, ownKeys, ownElements]
  obtain ⟨u, hu, received⟩ := h intKeyed data _ rfl
  obtain rfl := Except.ok.inj hu
  cases Except.ok.inj received

/-- The decoder raises on what the encoder makes of a set with a tuple in it. -/
example : ¬ Faithful bareEnv plainText .withSurrogates (· ≤ 4300)
    (.set [.tuple [.atom (.int 1), .atom (.int 2)]]) := by
  intro h
  obtain ⟨u, hu, received⟩ := h _ rfl
  obtain rfl := Except.ok.inj hu
  cases received

end Cpip.Serialization
