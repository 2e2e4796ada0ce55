import Cpip.Runtime.RoundTrip

/-!
# The two encoders of arguments (`runtime/serialization.py`)

`serialize_args` leaves the outermost container of the arguments untagged, where `serialize_value`
tags it.  For lists and tuples the receiver cannot tell.  A keyword dictionary it reads as it is,
unless the dictionary has the key `__type__` itself: then the value of that keyword is taken for the
tag of the encoder.
-/

namespace Cpip.Serialization

open PyVal

variable (env : Env)

/-! ## Reading what was never written to a text -/

theorem deserialize_tagged_list (xs : List PyVal) :
    deserializeResult env (tagged "list" [("values", .list xs)]) =
      (do return .list (← deserializeList env xs)) := rfl

theorem deserialize_tagged_set (xs : List PyVal) :
    deserializeResult env (tagged "set" [("values", .list xs)]) =
      (do return .set (← deserializeSet env xs [])) := rfl

theorem deserialize_tagged_dict (items : List (PyKey × PyVal)) :
    deserializeResult env (tagged "dict" [("items", .dict items)]) =
      (do return .dict (← deserializeItems env items)) := rfl

theorem deserialize_serializeAtom {a : PyAtom} (h : ∀ o, a ≠ .object o) :
    (deserializeResult env (serializeAtom a)).out = .ok (.atom a) := by
  cases a with
  | bytes b =>
    change (do return PyVal.bytes (← b64decode (.str (Base64.encode b))) : Deser PyVal).out = _
    rw [b64decode_encode]
    rfl
  | object o => exact absurd rfl (h o)
  | _ => rfl

theorem isJson_serializeAtom {a : PyAtom} (h : ∀ o, a ≠ .object o) : (serializeAtom a).IsJson := by
  cases a with
  | bytes b =>
    exact JsonText.isJson_loads
      (.obj [("__type__", .str "bytes"), ("data", .str (Base64.encode b))])
  | complex re im =>
    exact JsonText.isJson_loads
      (.obj [("__type__", .str "complex"), ("real", .float re), ("imag", .float im)])
  | object o => exact absurd rfl (h o)
  | _ => trivial

theorem deserializeSet_serializeKeys {xs acc : List PyKey} (atoms : ∀ k ∈ xs, ∃ a, k = .atom a)
    (data : ∀ k ∈ xs, ∀ o, k ≠ .atom (.object o))
    (different : ((acc ++ xs).map PyKey.norm).Nodup) :
    (deserializeSet env (serializeKeys xs) acc).out = .ok (acc ++ xs) := by
  have json : ∀ x ∈ serializeKeys xs, x.IsJson := by
    clear different
    induction xs with
    | nil => exact nofun
    | cons k xs ih =>
      rw [List.forall_mem_cons] at atoms data
      rw [serializeKeys, List.forall_mem_cons]
      obtain ⟨a, rfl⟩ := atoms.1
      refine ⟨isJson_serializeAtom fun o h => data.1 o (by rw [h]), ih atoms.2 data.2⟩
  obtain ⟨ts, hts, same⟩ :=
    plainText.dumpsList_of_isJson fun x hx => plainText.loads_dumps (json x hx)
  have received := deserializeSet_of_atoms env plainText (f := id) ⟨fun _ _ => rfl⟩ atoms data
    different (fun _ _ => rfl) hts
  rwa [JsonText.mapStrList_id, same] at received

theorem deserializeList_eq_ok {xs : List PyVal}
    (elements : ∀ x ∈ xs, (deserializeResult env (serializeValue x)).out = .ok (listify x)) :
    (deserializeList env (serializeValues xs)).out = .ok (listifyList xs) := by
  induction xs with
  | nil => rfl
  | cons x xs ih =>
    rw [List.forall_mem_cons] at elements
    rw [serializeValues, deserializeList, Deser.out_bind_eq_ok]
    refine ⟨_, elements.1, ?_⟩
    rw [Deser.out_bind_eq_ok]
    exact ⟨_, ih elements.2, rfl⟩

theorem deserializeItems_eq_ok {items : List (PyKey × PyVal)}
    (values : ∀ e ∈ items, (deserializeResult env (serializeValue e.2)).out = .ok (listify e.2)) :
    (deserializeItems env (serializeItems items)).out = .ok (listifyItems items) := by
  induction items with
  | nil => rfl
  | cons e rest ih =>
    obtain ⟨k, x⟩ := e
    rw [List.forall_mem_cons] at values
    rw [serializeItems, deserializeItems, Deser.out_bind_eq_ok]
    refine ⟨_, values.1, ?_⟩
    rw [Deser.out_bind_eq_ok]
    exact ⟨_, ih values.2, rfl⟩

/-- Data whose sets have no tuples is read as it was, with lists for tuples. -/
theorem deserialize_serializeValue (v : PyVal) (data : IsData v) (atomic : AtomicSets v) :
    (deserializeResult env (serializeValue v)).out = .ok (listify v) := by
  induction v using PyVal.inductionOn with
  | atom a => exact deserialize_serializeAtom env fun o h => data.1 o (by rw [h])
  | ndarray arr => exact absurd rfl (data.2.1 arr)
  | set xs =>
    rw [serializeValue, deserialize_tagged_set, show listify (.set xs) = .set xs from rfl,
      out_map_eq_ok_iff fun _ _ h => PyVal.set.inj h]
    exact deserializeSet_serializeKeys env atomic data.2.2.1
      (by simpa [ownElements] using data.2.2.2.1)
  | list xs ih =>
    have parts := ((everywhere_list_iff xs).1 data).2
    have sets := ((everywhere_list_iff xs).1 atomic).2
    rw [serializeValue, deserialize_tagged_list, listify,
      out_map_eq_ok_iff fun _ _ h => PyVal.list.inj h]
    exact deserializeList_eq_ok env fun x hx => ih x hx (parts x hx) (sets x hx)
  | tuple xs ih =>
    have parts := ((everywhere_tuple_iff xs).1 data).2
    have sets := ((everywhere_tuple_iff xs).1 atomic).2
    rw [serializeValue, deserialize_tagged_list, listify,
      out_map_eq_ok_iff fun _ _ h => PyVal.list.inj h]
    exact deserializeList_eq_ok env fun x hx => ih x hx (parts x hx) (sets x hx)
  | dict items ih =>
    have parts := ((everywhere_dict_iff items).1 data).2
    have sets := ((everywhere_dict_iff items).1 atomic).2
    rw [serializeValue, deserialize_tagged_dict, listify,
      out_map_eq_ok_iff fun _ _ h => PyVal.dict.inj h]
    exact deserializeItems_eq_ok env fun e he => ih e he (parts e he) (sets e he)

/-! ## What reads as it was sent -/

/-- A value that both encoders leave as it is: `None`, a boolean, a number or a string. -/
def IsScalar : PyVal → Prop
  | .none | .bool _ | .int _ | .float _ | .str _ => True
  | _ => False

mutual

/-- How many values there are in a value. -/
def nodes : PyVal → ℕ
  | .list xs => nodesList xs + 1
  | .tuple xs => nodesList xs + 1
  | .dict items => nodesItems items + 1
  | _ => 1

def nodesList : List PyVal → ℕ
  | [] => 0
  | x :: xs => nodes x + nodesList xs

def nodesItems : List (PyKey × PyVal) → ℕ
  | [] => 0
  | (_, x) :: rest => nodes x + nodesItems rest

end

mutual

theorem nodes_listify : ∀ v : PyVal, nodes (listify v) = nodes v
  | .atom _ => rfl
  | .set _ => rfl
  | .ndarray _ => rfl
  | .list xs => by rw [listify, nodes, nodes, nodesList_listifyList xs]
  | .tuple xs => by rw [listify, nodes, nodes, nodesList_listifyList xs]
  | .dict items => by rw [listify, nodes, nodes, nodesItems_listifyItems items]

theorem nodesList_listifyList : ∀ xs : List PyVal, nodesList (listifyList xs) = nodesList xs
  | [] => rfl
  | x :: xs => by rw [listifyList, nodesList, nodesList, nodes_listify x, nodesList_listifyList xs]

theorem nodesItems_listifyItems : ∀ items : List (PyKey × PyVal),
    nodesItems (listifyItems items) = nodesItems items
  | [] => rfl
  | (k, x) :: rest => by
    rw [listifyItems, nodesItems, nodesItems, nodes_listify x, nodesItems_listifyItems rest]

end

theorem nodes_pos (v : PyVal) : 0 < nodes v := by
  cases v with
  | atom a => exact Nat.one_pos
  | set xs => exact Nat.one_pos
  | ndarray arr => exact Nat.one_pos
  | list xs => exact Nat.succ_pos _
  | tuple xs => exact Nat.succ_pos _
  | dict items => exact Nat.succ_pos _

mutual

/-- Encoding adds to a value. -/
theorem nodes_le_serializeValue : ∀ v : PyVal, nodes v ≤ nodes (serializeValue v)
  | .atom a => nodes_pos _
  | .set _ => nodes_pos _
  | .ndarray _ => nodes_pos _
  | .list xs => by
    have rest := nodesList_le_serializeValues xs
    simp only [serializeValue, tagged, List.map_cons, List.map_nil, nodes, nodesItems]
    omega
  | .tuple xs => by
    have rest := nodesList_le_serializeValues xs
    simp only [serializeValue, tagged, List.map_cons, List.map_nil, nodes, nodesItems]
    omega
  | .dict items => by
    have rest := nodesItems_le_serializeItems items
    simp only [serializeValue, tagged, List.map_cons, List.map_nil, nodes, nodesItems]
    omega

theorem nodesList_le_serializeValues : ∀ xs : List PyVal,
    nodesList xs ≤ nodesList (serializeValues xs)
  | [] => le_rfl
  | x :: xs => Nat.add_le_add (nodes_le_serializeValue x) (nodesList_le_serializeValues xs)

theorem nodesItems_le_serializeItems : ∀ items : List (PyKey × PyVal),
    nodesItems items ≤ nodesItems (serializeItems items)
  | [] => le_rfl
  | (_, x) :: rest => Nat.add_le_add (nodes_le_serializeValue x) (nodesItems_le_serializeItems rest)

end

/-- Only a scalar is its own encoding and is read as such. -/
theorem isScalar_of_serializeValue_eq {v : PyVal} (same : serializeValue v = listify v) :
    IsScalar v := by
  cases v with
  | atom a =>
    cases a with
    | bytes b => cases same
    | complex re im => cases same
    | object o =>
      simp only [serializeValue, serializeAtom] at same
      split_ifs at same
      · cases same
      · cases same
    | _ => trivial
  | list xs => cases same
  | tuple xs => cases same
  | set xs => cases same
  | ndarray arr => cases same
  | dict items =>
    have more : nodes (.dict items) < nodes (serializeValue (.dict items)) := by
      have rest := nodesItems_le_serializeItems items
      simp only [serializeValue, tagged, List.map_cons, List.map_nil, nodes, nodesItems]
      omega
    rw [same, nodes_listify] at more
    exact absurd more (lt_irrefl _)

theorem serializeValue_of_isScalar {v : PyVal} (scalar : IsScalar v) :
    serializeValue v = v ∧ listify v = v := by
  cases v with
  | atom a =>
    cases a with
    | bytes b => exact scalar.elim
    | complex re im => exact scalar.elim
    | object o => exact scalar.elim
    | _ => exact ⟨rfl, rfl⟩
  | _ => exact scalar.elim

theorem serializeItems_eq_listifyItems_iff (items : List (PyKey × PyVal)) :
    serializeItems items = listifyItems items ↔ ∀ e ∈ items, IsScalar e.2 := by
  induction items with
  | nil => exact iff_of_true rfl nofun
  | cons e rest ih =>
    obtain ⟨k, x⟩ := e
    rw [serializeItems, listifyItems, List.forall_mem_cons, ← ih]
    constructor
    · intro same
      obtain ⟨head, tail⟩ := List.cons.inj same
      exact ⟨isScalar_of_serializeValue_eq (Prod.mk.inj head).2, tail⟩
    · rintro ⟨scalar, tail⟩
      obtain ⟨own, read⟩ := serializeValue_of_isScalar scalar
      rw [own, read, tail]

/-! ## What the receiver makes of a tag -/

/-- The tags that `_deserialize_typed` knows. -/
def typeTags : List String :=
  ["list", "dict", "bytes", "complex", "set", "ndarray", "tensor", "pickle", "repr"]

/-- NumPy and PyTorch make arrays and tensors, no dictionaries. -/
structure ArraysOnly : Prop where
  reshape : ∀ np, env.numpy = some np → ∀ arr shape items, np.reshape arr shape ≠ .ok (.dict items)
  fromNumpy : ∀ f, env.torch = some f → ∀ arr items, f arr ≠ .ok (.dict items)

/-- `_deserialize_typed` gives the dictionary back as it is. -/
def Returned (tag : PyVal) (data : List (PyKey × PyVal)) : Prop :=
  (∀ s ∈ typeTags, tag.asStr? ≠ some s) ∨
    (tag.asStr? = some "ndarray" ∨ tag.asStr? = some "tensor") ∧ env.numpy = Option.none ∨
    tag.asStr? = some "pickle" ∧ ∃ path, classPath? data = some path ∧
      topModule path ∉ pickleAllowlist

/-- `_deserialize_typed` gives what `pickle.loads` makes of the dictionary. -/
def Unpickled (tag : PyVal) (data : List (PyKey × PyVal)) (v : PyVal) : Prop :=
  tag.asStr? = some "pickle" ∧ (∃ path, classPath? data = some path ∧
    topModule path ∈ pickleAllowlist) ∧ ∃ b, (b64data data).out = .ok b ∧ env.pickleLoads b = .ok v

variable {env}

theorem out_return_ne_dict {α : Type} {x : Deser α} {f : α → PyVal} {items : List (PyKey × PyVal)}
    (ne : ∀ a, f a ≠ .dict items) : (do return f (← x) : Deser PyVal).out ≠ .ok (.dict items) := by
  rw [Ne, Deser.out_bind_eq_ok]
  rintro ⟨a, -, h⟩
  exact ne a (Except.ok.inj h)

theorem deserializeNumpy_eq_dict (arrays : ArraysOnly env) {data out : List (PyKey × PyVal)}
    (h : (deserializeNumpy env data).out = .ok (.dict out)) :
    env.numpy = Option.none ∧ out = data := by
  unfold deserializeNumpy at h
  split at h
  · next absent => exact ⟨absent, (PyVal.dict.inj (Except.ok.inj h)).symm⟩
  · next np present =>
    simp only [Deser.out_bind_eq_ok] at h
    obtain ⟨_, -, _, -, arr, -, shape, -, made⟩ := h
    exact absurd made (arrays.reshape np present arr shape out)

theorem deserializeTensor_eq_dict (arrays : ArraysOnly env) {data out : List (PyKey × PyVal)}
    (h : (deserializeTensor env data).out = .ok (.dict out)) :
    env.numpy = Option.none ∧ out = data := by
  unfold deserializeTensor at h
  split at h
  · next f np torch numpy =>
    simp only [Deser.out_bind_eq_ok] at h
    obtain ⟨_, -, _, -, _, -, arr, -, made⟩ := h
    exact absurd made (arrays.fromNumpy f torch arr out)
  · exact deserializeNumpy_eq_dict arrays h

theorem deserializePickle_eq_dict {data out : List (PyKey × PyVal)}
    (h : (deserializePickle env data).out = .ok (.dict out)) :
    (∃ path, classPath? data = some path ∧ topModule path ∉ pickleAllowlist) ∧ out = data ∨
      (∃ path, classPath? data = some path ∧ topModule path ∈ pickleAllowlist) ∧
        ∃ b, (b64data data).out = .ok b ∧ env.pickleLoads b = .ok (.dict out) := by
  unfold deserializePickle at h
  split at h
  · next path named =>
    split_ifs at h with allowed
    · rw [Deser.out_bind_eq_ok] at h
      obtain ⟨b, decoded, loaded⟩ := h
      exact .inr ⟨⟨path, named, allowed⟩, b, decoded, loaded⟩
    · exact .inl ⟨⟨path, named, allowed⟩, (PyVal.dict.inj (Except.ok.inj h)).symm⟩
  · cases h

/-- When a tagged dictionary is read as a dictionary. -/
theorem deserializeTyped_eq_dict (arrays : ArraysOnly env) {tag : PyVal}
    {data out : List (PyKey × PyVal)} {parts : Parts}
    (h : (deserializeTyped env tag data parts).out = .ok (.dict out)) :
    tag.asStr? = some "dict" ∧ parts.items.out = .ok out ∨
      tag.asStr? = some "repr" ∧ (PyVal.getStr "value" data).getD (.str "") = .dict out ∨
      Unpickled env tag data (.dict out) ∨ Returned env tag data ∧ out = data := by
  unfold deserializeTyped at h
  split_ifs at h with list dict bytes complex set ndarray tensor pickle repr
  · exact absurd h (out_return_ne_dict fun _ => nofun)
  · rw [Deser.out_bind_eq_ok] at h
    obtain ⟨items, read, same⟩ := h
    obtain rfl := PyVal.dict.inj (Except.ok.inj same)
    exact .inl ⟨dict, read⟩
  · exact absurd h (out_return_ne_dict fun _ => nofun)
  · simp only [Deser.out_bind_eq_ok] at h
    obtain ⟨re, -, im, -, made⟩ := h
    unfold mkComplex at made
    split at made
    · simp only [Deser.out_bind_eq_ok] at made
      obtain ⟨re, -, im, -, same⟩ := made
      cases same
    · cases made
  · exact absurd h (out_return_ne_dict fun _ => nofun)
  · obtain ⟨absent, same⟩ := deserializeNumpy_eq_dict arrays h
    exact .inr (.inr (.inr ⟨.inr (.inl ⟨.inl ndarray, absent⟩), same⟩))
  · obtain ⟨absent, same⟩ := deserializeTensor_eq_dict arrays h
    exact .inr (.inr (.inr ⟨.inr (.inl ⟨.inr tensor, absent⟩), same⟩))
  · rcases deserializePickle_eq_dict h with ⟨refused, same⟩ | ⟨allowed, loaded⟩
    · exact .inr (.inr (.inr ⟨.inr (.inr ⟨pickle, refused⟩), same⟩))
    · exact .inr (.inr (.inl ⟨pickle, allowed, loaded⟩))
  · exact .inr (.inl ⟨repr, Except.ok.inj h⟩)
  · refine .inr (.inr (.inr ⟨.inl fun s hs => ?_, (PyVal.dict.inj (Except.ok.inj h)).symm⟩))
    simp only [typeTags, List.mem_cons, List.not_mem_nil, or_false] at hs
    rcases hs with rfl | rfl | rfl | rfl | rfl | rfl | rfl | rfl | rfl <;> assumption

theorem deserializeTyped_of_returned {tag : PyVal} {data : List (PyKey × PyVal)} {parts : Parts}
    (h : Returned env tag data) : (deserializeTyped env tag data parts).out = .ok (.dict data) := by
  unfold deserializeTyped
  rcases h with unknown | ⟨tag | tag, absent⟩ | ⟨tag, path, named, refused⟩
  · simp only [typeTags, List.forall_mem_cons, List.not_mem_nil, false_implies, implies_true,
      and_true] at unknown
    obtain ⟨h₁, h₂, h₃, h₄, h₅, h₆, h₇, h₈, h₉⟩ := unknown
    rw [if_neg h₁, if_neg h₂, if_neg h₃, if_neg h₄, if_neg h₅, if_neg h₆, if_neg h₇, if_neg h₈,
      if_neg h₉]
    rfl
  · simp only [tag, Option.some.injEq, String.reduceEq, if_false, if_true]
    rw [deserializeNumpy, absent]
    rfl
  · simp only [tag, Option.some.injEq, String.reduceEq, if_false, if_true]
    rw [deserializeTensor, absent, deserializeNumpy, absent]
    split
    · next numpy => cases numpy
    · rfl
  · simp only [tag, Option.some.injEq, String.reduceEq, if_false, if_true]
    rw [deserializePickle, named]
    dsimp only
    rw [if_neg refused]
    rfl

theorem deserializeTyped_of_unpickled {tag v : PyVal} {data : List (PyKey × PyVal)} {parts : Parts}
    (h : Unpickled env tag data v) : (deserializeTyped env tag data parts).out = .ok v := by
  obtain ⟨tag, ⟨path, named, allowed⟩, b, decoded, loaded⟩ := h
  unfold deserializeTyped
  simp only [tag, Option.some.injEq, String.reduceEq, if_false, if_true]
  rw [deserializePickle, named]
  dsimp only
  rw [if_pos allowed, Deser.out_bind_eq_ok]
  exact ⟨b, decoded, loaded⟩

/-! ## Keyword dictionaries -/

/-- The keyword `__type__`. -/
def typeKeyword (items : List (PyKey × PyVal)) : PyVal := (PyVal.getStr "__type__" items).getD .none

/-- There is no keyword `__type__`, or it is `None`, `False`, a zero or the empty string. -/
def Untagged (items : List (PyKey × PyVal)) : Prop :=
  IsScalar (typeKeyword items) ∧ (typeKeyword items).truthy = false

/-- The keyword dictionaries that the receiver reads as they were meant: without a tag; with scalars
only, under a tag that gives the dictionary back; of the shape of a tagged dictionary around such a
dictionary; or one that spells its own pickle. -/
inductive Harmless (env : Env) : List (PyKey × PyVal) → Prop
  | untagged {items : List (PyKey × PyVal)} (h : Untagged items) : Harmless env items
  | returned {items : List (PyKey × PyVal)} (tag : Returned env (typeKeyword items) items)
      (scalars : ∀ e ∈ items, IsScalar e.2) : Harmless env items
  | literal {inner : List (PyKey × PyVal)} (h : Harmless env inner) :
      Harmless env [(.str "__type__", .str "dict"), (.str "items", .dict inner)]
  | unpickled {items : List (PyKey × PyVal)} {path text : String} {b : Bytes}
      (tag : typeKeyword items = .str "pickle") (named : classPath? items = some path)
      (allowed : topModule path ∈ pickleAllowlist)
      (data : PyVal.getStr "data" items = some (.str text))
      (decoded : (b64decode (.str text)).out = .ok b)
      (loaded : env.pickleLoads b = .ok (.dict (listifyItems items))) : Harmless env items

theorem getStr_serializeItems (name : String) (items : List (PyKey × PyVal)) :
    PyVal.getStr name (serializeItems items) = (PyVal.getStr name items).map serializeValue := by
  induction items with
  | nil => rfl
  | cons e rest ih =>
    obtain ⟨k, x⟩ := e
    simp only [PyVal.getItem, serializeItems, List.find?_cons] at ih ⊢
    cases decide (k.norm = (PyKey.str name).norm) with
    | true => rfl
    | false => exact ih

theorem typeKeyword_serializeItems (items : List (PyKey × PyVal)) :
    typeKeyword (serializeItems items) = serializeValue (typeKeyword items) := by
  unfold typeKeyword
  rw [getStr_serializeItems]
  cases PyVal.getStr "__type__" items <;> rfl

theorem asStr?_serializeValue (v : PyVal) : (serializeValue v).asStr? = v.asStr? := by
  cases v with
  | atom a =>
    cases a with
    | object o =>
      simp only [serializeValue, serializeAtom]
      split_ifs
      · rfl
      · rfl
    | _ => rfl
  | _ => rfl

theorem truthy_serializeValue {v : PyVal} :
    (serializeValue v).truthy = false ↔ IsScalar v ∧ v.truthy = false := by
  cases v with
  | atom a =>
    cases a with
    | object o =>
      simp only [serializeValue, serializeAtom]
      split_ifs
      · exact iff_of_false (by rintro ⟨⟩) fun h => h.1
      · exact iff_of_false (by rintro ⟨⟩) fun h => h.1
    | bytes b => exact iff_of_false (by rintro ⟨⟩) fun h => h.1
    | complex re im => exact iff_of_false (by rintro ⟨⟩) fun h => h.1
    | _ => exact (and_iff_right trivial).symm
  | _ => exact iff_of_false (by rintro ⟨⟩) fun h => h.1

theorem classPath?_serializeItems (items : List (PyKey × PyVal)) :
    classPath? (serializeItems items) = classPath? items := by
  unfold classPath?
  rw [getStr_serializeItems]
  cases PyVal.getStr "class" items with
  | none => rfl
  | some v => exact asStr?_serializeValue v

theorem returned_serializeItems (items : List (PyKey × PyVal)) :
    Returned env (serializeValue (typeKeyword items)) (serializeItems items) ↔
      Returned env (typeKeyword items) items := by
  unfold Returned
  rw [asStr?_serializeValue, classPath?_serializeItems]

/-- Bytes are tagged, so only a text is decoded. -/
theorem exists_text_of_b64decode {v : PyVal} {b : Bytes}
    (h : (b64decode (serializeValue v)).out = .ok b) :
    ∃ text, v = .str text ∧ (b64decode (.str text)).out = .ok b := by
  cases v with
  | atom a =>
    cases a with
    | str text => exact ⟨text, rfl, h⟩
    | object o =>
      simp only [serializeValue, serializeAtom] at h
      split_ifs at h
      · cases h
      · cases h
    | _ => cases h
  | _ => cases h

theorem unpickled_serializeItems {items : List (PyKey × PyVal)} {v : PyVal} :
    Unpickled env (serializeValue (typeKeyword items)) (serializeItems items) v ↔
      typeKeyword items = .str "pickle" ∧ (∃ path, classPath? items = some path ∧
        topModule path ∈ pickleAllowlist) ∧ ∃ text b,
          PyVal.getStr "data" items = some (.str text) ∧ (b64decode (.str text)).out = .ok b ∧
            env.pickleLoads b = .ok v := by
  unfold Unpickled b64data
  rw [asStr?_serializeValue, asStr?_eq_some_iff, classPath?_serializeItems]
  refine and_congr_right fun _ => and_congr_right fun _ => ?_
  simp only [Deser.out_bind_eq_ok, item_eq_ok_iff, getStr_serializeItems, Option.map_eq_some_iff]
  constructor
  · rintro ⟨b, ⟨_, ⟨v', found, rfl⟩, decoded⟩, loaded⟩
    obtain ⟨text, rfl, decoded⟩ := exists_text_of_b64decode decoded
    exact ⟨text, b, found, decoded, loaded⟩
  · rintro ⟨text, b, found, decoded, loaded⟩
    exact ⟨b, ⟨_, ⟨_, found, rfl⟩, decoded⟩, loaded⟩

/-- How the untagged encoding of a keyword dictionary is read. -/
theorem deserialize_serializeItems (items : List (PyKey × PyVal)) :
    deserializeResult env (.dict (serializeItems items)) =
      if (serializeValue (typeKeyword items)).truthy then
        deserializeTyped env (serializeValue (typeKeyword items)) (serializeItems items)
          ⟨listOfField env (serializeItems items), setOfField env (serializeItems items),
            itemsOfField env (serializeItems items)⟩
      else do return .dict (← deserializeItems env (serializeItems items)) := by
  rw [← typeKeyword_serializeItems]
  rfl

/-- The encoding of a value that is a dictionary is tagged, with the tag of its kind. -/
theorem tagged_of_serializeValue {v : PyVal} {data : List (PyKey × PyVal)}
    (h : serializeValue v = .dict data) : ∃ t rest, data = (.str "__type__", .str t) :: rest ∧
      (t = "dict" → ∃ d, v = .dict d ∧ rest = [(.str "items", .dict (serializeItems d))]) ∧
      (t = "repr" → ∃ o, v = .object o) := by
  cases v with
  | atom a =>
    cases a with
    | object o =>
      simp only [serializeValue, serializeAtom] at h
      split_ifs at h
      · exact ⟨_, _, (PyVal.dict.inj h).symm, by simp, fun _ => ⟨o, rfl⟩⟩
      · exact ⟨_, _, (PyVal.dict.inj h).symm, by simp, fun _ => ⟨o, rfl⟩⟩
    | bytes b => exact ⟨_, _, (PyVal.dict.inj h).symm, by simp, by simp⟩
    | complex re im => exact ⟨_, _, (PyVal.dict.inj h).symm, by simp, by simp⟩
    | _ => cases h
  | dict d => exact ⟨_, _, (PyVal.dict.inj h).symm, fun _ => ⟨d, rfl, rfl⟩, by simp⟩
  | _ => exact ⟨_, _, (PyVal.dict.inj h).symm, by simp, by simp⟩

theorem eq_str_of_listify {v : PyVal} {t : String} (h : listify v = .str t) : v = .str t := by
  cases v with
  | atom a => exact h
  | _ => cases h

theorem typeKeyword_of_listifyItems {items rest : List (PyKey × PyVal)} {t : String}
    (h : listifyItems items = (.str "__type__", .str t) :: rest) : typeKeyword items = .str t := by
  cases items with
  | nil => cases h
  | cons e items =>
    obtain ⟨k, x⟩ := e
    obtain ⟨head, -⟩ := List.cons.inj h
    obtain ⟨rfl, value⟩ := Prod.mk.inj head
    rw [eq_str_of_listify value, typeKeyword, PyVal.getStr_cons, if_pos rfl]
    rfl

theorem typeKeyword_of_read {items rest : List (PyKey × PyVal)} {t : String}
    (h : (deserializeItems env ((.str "__type__", .str t) :: rest)).out =
      .ok (listifyItems items)) :
    typeKeyword items = .str t := by
  simp only [deserializeItems, Deser.out_bind_eq_ok] at h
  obtain ⟨v, tag, vs, -, same⟩ := h
  obtain rfl : PyVal.str t = v := Except.ok.inj tag
  exact typeKeyword_of_listifyItems (Except.ok.inj same).symm

/-! ## Agreement -/

/-- The two encodings are read as the same value. -/
def Agree (env : Env) (x : PyVal) : Prop :=
  (deserializeResult env (serializeArgs x)).out = (deserializeResult env (serializeValue x)).out

theorem agree_of_untagged {items : List (PyKey × PyVal)} (h : Untagged items) :
    Agree env (.dict items) := by
  have falsy : (serializeValue (typeKeyword items)).truthy = false := truthy_serializeValue.2 h
  rw [Agree, serializeArgs, deserialize_serializeItems, falsy, serializeValue,
    deserialize_tagged_dict]
  rfl

theorem out_bind_congr {α β : Type} {x y : Deser α} {f : α → Deser β} (same : x.out = y.out) :
    (x >>= f).out = (y >>= f).out := by
  change (Deser.bind x f).out = (Deser.bind y f).out
  unfold Deser.bind
  rw [same]
  cases y.out <;> rfl

/-- A dictionary of the shape of a tagged one is read like what it has inside. -/
theorem agree_literal {inner : List (PyKey × PyVal)} (h : Agree env (.dict inner)) :
    Agree env (.dict [(.str "__type__", .str "dict"), (.str "items", .dict inner)]) := by
  show (do return .dict (← deserializeItems env [(.str "__type__", .str "dict"),
      (.str "items", serializeArgs (.dict inner))]) : Deser PyVal).out =
    (do return .dict (← deserializeItems env [(.str "__type__", .str "dict"),
      (.str "items", serializeValue (.dict inner))]) : Deser PyVal).out
  refine out_bind_congr ?_
  have entry (x : PyVal) : (deserializeItems env [(.str "__type__", .str "dict"),
      (.str "items", x)]).out = (do
        let v ← deserializeResult env x
        return [(.str "__type__", .str "dict"), (.str "items", v)] : Deser _).out := by
    simp only [deserializeItems, deserializeResult, bind, Deser.bind, pure, Deser.pure]
    cases (deserializeResult env x).out with
    | ok v => rfl
    | error e => rfl
  rw [entry, entry]
  exact out_bind_congr h

/-- What a tagged dictionary around another one is read as. -/
theorem exists_of_read_literal {x : PyVal} {out : List (PyKey × PyVal)} {t : String}
    (h : (deserializeItems env [(.str "__type__", .str t), (.str "items", x)]).out = .ok out) :
    ∃ u, (deserializeResult env x).out = .ok u ∧
      out = [(.str "__type__", .str t), (.str "items", u)] := by
  simp only [deserializeItems, Deser.out_bind_eq_ok] at h
  obtain ⟨v, tag, vs, ⟨u, inner, vs', last, tail⟩, same⟩ := h
  obtain rfl : PyVal.str t = v := Except.ok.inj tag
  obtain rfl : [] = vs' := Except.ok.inj last
  obtain rfl : [(PyKey.str "items", u)] = vs := Except.ok.inj tail
  exact ⟨u, inner, (Except.ok.inj same).symm⟩

theorem eq_literal_of_listifyItems {items d : List (PyKey × PyVal)} {u : PyVal}
    (h : listifyItems items = [(.str "__type__", .str "dict"), (.str "items", u)])
    (found : PyVal.getStr "items" items = some (.dict d)) :
    items = [(.str "__type__", .str "dict"), (.str "items", .dict d)] ∧ u = listify (.dict d) := by
  match items with
  | [] => cases h
  | [(_, _)] => simp [listifyItems] at h
  | [(k, x), (k', x')] =>
    simp only [listifyItems, List.cons.injEq, Prod.mk.injEq, and_true] at h
    obtain ⟨⟨rfl, tag⟩, rfl, rfl⟩ := h
    have last : x' = .dict d := by simpa [PyVal.getStr_cons] using found
    rw [last, eq_str_of_listify tag]
    exact ⟨rfl, rfl⟩
  | (_, _) :: (_, _) :: (_, _) :: _ => simp [listifyItems] at h

variable (arrays : ArraysOnly env)
include arrays

/-- What is read as it was meant is harmless. -/
theorem harmless_of_agree (v : PyVal) : ∀ items, v = .dict items → IsData v → AtomicSets v →
    Agree env v → Harmless env items := by
  induction v using PyVal.inductionOn with
  | dict items ih =>
    rintro _ ⟨⟩ data atomic agree
    by_cases untagged : Untagged items
    · exact .untagged untagged
    have truthy : (serializeValue (typeKeyword items)).truthy = true := by
      by_contra falsy
      exact untagged (truthy_serializeValue.1 (Bool.eq_false_iff.2 falsy))
    rw [Agree, deserialize_serializeValue env _ data atomic, serializeArgs,
      deserialize_serializeItems, if_pos truthy, listify] at agree
    have parts := ((everywhere_dict_iff items).1 data).2
    have sets := ((everywhere_dict_iff items).1 atomic).2
    rcases deserializeTyped_eq_dict arrays agree with ⟨tag, read⟩ | ⟨tag, value⟩ | loaded |
      ⟨returned, same⟩
    · rw [asStr?_serializeValue, asStr?_eq_some_iff] at tag
      dsimp only at read
      rw [itemsOfField_eq, getStr_serializeItems] at read
      cases found : PyVal.getStr "items" items with
      | none =>
        rw [found] at read
        have empty : items = [] := by
          cases items with
          | nil => rfl
          | cons e rest => cases Except.ok.inj read
        rw [empty] at tag
        cases tag
      | some w =>
        rw [found] at read
        dsimp only [Option.map_some] at read
        cases encoded : serializeValue w with
        | dict data' =>
          rw [encoded] at read
          obtain ⟨t, rest, rfl, isDict, -⟩ := tagged_of_serializeValue encoded
          have keyword := typeKeyword_of_read read
          obtain rfl : t = "dict" := by simpa using keyword.symm.trans tag
          obtain ⟨d, rfl, rfl⟩ := isDict rfl
          obtain ⟨e, first, value⟩ := Option.map_eq_some_iff.1 found
          have mem := List.mem_of_find?_eq_some first
          obtain ⟨u, inner, shape⟩ := exists_of_read_literal read
          obtain ⟨literal, rfl⟩ := eq_literal_of_listifyItems shape found
          rw [literal]
          refine .literal (ih e mem d value (parts e mem) (sets e mem) ?_)
          rw [Agree, deserialize_serializeValue env _ (parts e mem) (sets e mem), value]
          exact inner
        | _ =>
          rw [encoded] at read
          cases read
    · rw [asStr?_serializeValue, asStr?_eq_some_iff] at tag
      rw [getStr_serializeItems] at value
      cases found : PyVal.getStr "value" items with
      | none =>
        rw [found] at value
        cases value
      | some w =>
        rw [found] at value
        obtain ⟨t, rest, head, -, isObject⟩ := tagged_of_serializeValue value
        have keyword := typeKeyword_of_listifyItems head
        obtain ⟨o, rfl⟩ := isObject (by simpa using keyword.symm.trans tag)
        obtain ⟨e, first, object⟩ := Option.map_eq_some_iff.1 found
        have isData := parts e (List.mem_of_find?_eq_some first)
        rw [object] at isData
        exact absurd rfl (isData.1 o)
    · obtain ⟨tag, ⟨path, named, allowed⟩, text, b, found, decoded, loaded⟩ :=
        unpickled_serializeItems.1 loaded
      exact .unpickled tag named allowed found decoded loaded
    · refine .returned ((returned_serializeItems items).1 returned) ?_
      exact (serializeItems_eq_listifyItems_iff items).1 same.symm
  | _ => exact fun items h => by cases h

omit arrays in
/-- Scalars are read as they are. -/
theorem deserializeItems_of_scalars {items : List (PyKey × PyVal)}
    (scalars : ∀ e ∈ items, IsScalar e.2) :
    (deserializeItems env (serializeItems items)).out = .ok (listifyItems items) := by
  induction items with
  | nil => rfl
  | cons e rest ih =>
    obtain ⟨k, x⟩ := e
    obtain ⟨scalar, others⟩ := List.forall_mem_cons.1 scalars
    obtain ⟨own, same⟩ := serializeValue_of_isScalar scalar
    have read : (deserializeResult env (serializeValue x)).out = .ok x := by
      rw [own]
      cases x with
      | atom a => rfl
      | _ => exact scalar.elim
    simp only [serializeItems, deserializeItems, Deser.out_bind_eq_ok]
    exact ⟨x, read, listifyItems rest, ih others, by rw [listifyItems, same]; rfl⟩

omit arrays in
/-- Scalars under a tag that gives the dictionary back are read as they were meant. -/
theorem agree_of_returned {items : List (PyKey × PyVal)}
    (tag : Returned env (typeKeyword items) items) (scalars : ∀ e ∈ items, IsScalar e.2) :
    Agree env (.dict items) := by
  by_cases untagged : Untagged items
  · exact agree_of_untagged untagged
  have truthy : (serializeValue (typeKeyword items)).truthy = true := by
    by_contra falsy
    exact untagged (truthy_serializeValue.1 (Bool.eq_false_iff.2 falsy))
  have meant : (deserializeResult env (serializeValue (.dict items))).out =
      .ok (.dict (listifyItems items)) := by
    rw [serializeValue, deserialize_tagged_dict, Deser.out_bind_eq_ok]
    exact ⟨_, deserializeItems_of_scalars scalars, rfl⟩
  rw [Agree, meant, serializeArgs, deserialize_serializeItems, if_pos truthy,
    deserializeTyped_of_returned ((returned_serializeItems items).2 tag),
    (serializeItems_eq_listifyItems_iff items).2 scalars]

omit arrays in
/-- What is harmless is read as it was meant. -/
theorem agree_of_harmless {items : List (PyKey × PyVal)} (harmless : Harmless env items)
    (data : IsData (.dict items)) (atomic : AtomicSets (.dict items)) :
    Agree env (.dict items) := by
  induction harmless with
  | untagged h => exact agree_of_untagged h
  | returned tag scalars => exact agree_of_returned tag scalars
  | literal h ih =>
    rename_i inner
    have mem : (PyKey.str "items", PyVal.dict inner) ∈
        [(PyKey.str "__type__", PyVal.str "dict"), (PyKey.str "items", PyVal.dict inner)] := by simp
    exact agree_literal (ih (((everywhere_dict_iff _).1 data).2 _ mem)
      (((everywhere_dict_iff _).1 atomic).2 _ mem))
  | unpickled tag named allowed text decoded loaded =>
    rename_i items path text b
    have truthy : (serializeValue (typeKeyword items)).truthy = true := by
      rw [tag]
      decide
    rw [Agree, deserialize_serializeValue env _ data atomic, serializeArgs,
      deserialize_serializeItems, if_pos truthy]
    exact deserializeTyped_of_unpickled (unpickled_serializeItems.2
      ⟨tag, ⟨path, named, allowed⟩, _, b, text, decoded, loaded⟩)

/-- The receiver, where no pickle can be loaded. -/
def Env.pickleless (env : Env) : Env := { env with pickleLoads := fun _ => .error (.other "") }

omit arrays in
/-- What is harmless without loading a pickle is read as it was meant, whatever it holds. -/
theorem agree_of_pickleless {items : List (PyKey × PyVal)}
    (harmless : Harmless env.pickleless items) : Agree env (.dict items) := by
  induction harmless with
  | untagged h => exact agree_of_untagged h
  | returned tag scalars => exact agree_of_returned tag scalars
  | literal h ih => exact agree_literal ih
  | unpickled tag named allowed text decoded loaded => cases loaded

omit arrays in
/-- The arguments of a call: positional ones, or keywords. -/
inductive IsArguments : PyVal → Prop
  | list (xs : List PyVal) : IsArguments (.list xs)
  | tuple (xs : List PyVal) : IsArguments (.tuple xs)
  | keywords (items : List (PyKey × PyVal)) (strings : ∀ k ∈ items.map Prod.fst, ∃ s, k = .str s) :
      IsArguments (.dict items)

/-- Positional arguments are always read alike, and keywords that are harmless without loading a
pickle, such as those without a tag, whatever they hold; where the values can be read at all,
keywords are read alike exactly when they are harmless. -/
theorem serializeArgs_agrees_iff (x : PyVal) (args : IsArguments x) :
    ((∀ items, x = .dict items → Untagged items) → Agree env x) ∧
      ((∀ items, x = .dict items → Harmless env.pickleless items) → Agree env x) ∧
      (IsData x → AtomicSets x →
        (Agree env x ↔ ∀ items, x = .dict items → Harmless env items)) := by
  cases args with
  | list xs => exact ⟨fun _ => rfl, fun _ => rfl, fun _ _ => iff_of_true rfl nofun⟩
  | tuple xs => exact ⟨fun _ => rfl, fun _ => rfl, fun _ _ => iff_of_true rfl nofun⟩
  | keywords items strings =>
    refine ⟨fun untagged => agree_of_untagged (untagged items rfl),
      fun harmless => agree_of_pickleless (harmless items rfl), fun data atomic => ⟨?_, ?_⟩⟩
    · rintro agree _ ⟨⟩
      exact harmless_of_agree arrays _ items rfl data atomic agree
    · intro harmless
      exact agree_of_harmless (harmless items rfl) data atomic

omit arrays

theorem arraysOnly_bareEnv : ArraysOnly bareEnv := ⟨nofun, nofun⟩

/-- A keyword with a nested dictionary, beside a `__type__` that is `None`. -/
def plainKeywords : List (PyKey × PyVal) :=
  [(.str "__type__", .none), (.str "options", .dict [(.str "__type__", .str "set")])]

theorem serializeArgs_agrees_iff_plainKeywords :
    Agree bareEnv (.dict plainKeywords) ∧ Agree bareEnv (.tuple [.int 1, .bytes [2]]) := by
  constructor
  · refine (serializeArgs_agrees_iff arraysOnly_bareEnv _ (.keywords _ ?_)).1 ?_
    · simp [plainKeywords]
    · rintro _ ⟨⟩
      exact ⟨trivial, rfl⟩
  · exact (serializeArgs_agrees_iff arraysOnly_bareEnv _ (.tuple _)).1 nofun

/-- With a keyword `__type__` the other keywords arrive encoded. -/
theorem type_keyword_changes_others : ¬ ∀ (env : Env) (x : PyVal), ArraysOnly env →
    IsArguments x → IsData x → AtomicSets x → Agree env x := by
  intro claim
  have agree := claim bareEnv
    (.dict [(.str "__type__", .str "point"), (.str "x", .list [.int 1])]) arraysOnly_bareEnv
    (.keywords _ (by simp))
      (by simp [IsData, Everywhere, EverywhereItems, EverywhereList, ownElements,
      ownKeys, PyKey.norm, PyAtom.norm, PyAtom.number?])
    (by simp [AtomicSets, Everywhere, EverywhereItems, EverywhereList, ownElements])
  cases agree

end Cpip.Serialization
