import Mathlib.Data.Rat.Defs
import Mathlib.Data.List.Basic
import Cpip.Lib.Dict

/-!
# Python values

The values the program passes around: scalars (`PyAtom`), hashable values (`PyKey`), which are the
keys of dictionaries and the elements of sets, and all values (`PyVal`).  A list or a dictionary
cannot be a key by construction.

Two keys are the same key when they are equal in Python, where `True == 1 == 1.0 == (1+0j)`:
`PyKey.norm` picks one representative of each class.  A finite float is its exact rational value, so
`-0.0` is `0.0`.  Every NaN that `json.loads` produces is one and the same object, and dictionaries
compare keys by identity first, so `nan` is one key.
-/

/-- A Python float. -/
inductive PyFloat where
  | finite (q : ℚ)
  | inf (negative : Bool)
  | nan
  deriving DecidableEq, Repr

abbrev Bytes := List UInt8

/-- What the program reads of an object of any other class: `type(value).__module__`,
`type(value).__name__`, `repr(value)`, `pickle.dumps(value)` and whether it has a hash. -/
structure PyObject where
  module : String
  name : String
  repr : String
  pickled : Bytes
  hashable : Bool
  deriving DecidableEq, Repr

/-- Values without parts. -/
inductive PyAtom where
  | none
  | bool (b : Bool)
  | int (i : ℤ)
  | float (f : PyFloat)
  | str (s : String)
  | bytes (b : Bytes)
  | complex (re im : PyFloat)
  | object (o : PyObject)
  deriving DecidableEq, Repr

/-- Hashable values. -/
inductive PyKey where
  | atom (a : PyAtom)
  | tuple (items : List PyKey)
  deriving Repr

/-- A NumPy array: `str(arr.dtype)`, `list(arr.shape)` and `arr.tobytes()`. -/
structure NdArray where
  dtype : String
  shape : List ℕ
  data : Bytes
  deriving DecidableEq, Repr

inductive PyVal where
  | atom (a : PyAtom)
  | list (xs : List PyVal)
  | tuple (xs : List PyVal)
  | set (xs : List PyKey)
  | dict (items : List (PyKey × PyVal))
  | ndarray (a : NdArray)
  deriving Repr

/-- The exceptions the program tells apart, or that its callees raise. -/
inductive PyExc where
  | typeError (message : String)
  | valueError (message : String)
  | keyError (key : String)
  | attributeError (message : String)
  | jsonDecodeError
  | other (message : String)
  deriving DecidableEq, Repr

/-! ## Equality of keys -/

namespace PyKey

mutual

def decEq : (a b : PyKey) → Decidable (a = b)
  | .atom a, .atom b => decidable_of_iff (a = b) (by simp)
  | .tuple as, .tuple bs =>
    match decEqList as bs with
    | isTrue h => isTrue (by rw [h])
    | isFalse h => isFalse (by simpa using h)
  | .atom _, .tuple _ => isFalse (by simp)
  | .tuple _, .atom _ => isFalse (by simp)

def decEqList : (as bs : List PyKey) → Decidable (as = bs)
  | [], [] => isTrue rfl
  | a :: as, b :: bs =>
    match decEq a b, decEqList as bs with
    | isTrue h, isTrue hs => isTrue (by rw [h, hs])
    | isFalse h, _ => isFalse (by simp [h])
    | _, isFalse hs => isFalse (by simp [hs])
  | [], _ :: _ => isFalse (by simp)
  | _ :: _, [] => isFalse (by simp)

end

instance : DecidableEq PyKey := decEq

@[match_pattern]
abbrev str (s : String) : PyKey := .atom (.str s)

end PyKey

namespace PyAtom

/-- The value of a number, as a complex number. -/
def number? : PyAtom → Option (PyFloat × PyFloat)
  | .bool b => some (.finite (if b then 1 else 0), .finite 0)
  | .int i => some (.finite i, .finite 0)
  | .float f => some (f, .finite 0)
  | .complex re im => some (re, im)
  | _ => Option.none

/-- The representative of the values equal to this one. -/
def norm (a : PyAtom) : PyAtom :=
  match a.number? with
  | some (re, im) => .complex re im
  | Option.none => a

theorem norm_str (s : String) : norm (.str s) = .str s := rfl

theorem norm_eq_str_iff {a : PyAtom} {s : String} : a.norm = .str s ↔ a = .str s := by
  cases a <;> simp [norm, number?]

theorem norm_norm (a : PyAtom) : a.norm.norm = a.norm := by
  cases a <;> rfl

end PyAtom

namespace PyKey

mutual

/-- The representative of the keys equal to this one. -/
def norm : PyKey → PyKey
  | .atom a => .atom a.norm
  | .tuple items => .tuple (normList items)

def normList : List PyKey → List PyKey
  | [] => []
  | k :: ks => norm k :: normList ks

end

@[simp]
theorem norm_str (s : String) : norm (str s) = str s := rfl

theorem norm_eq_str_iff {k : PyKey} {s : String} : k.norm = str s ↔ k = str s := by
  cases k with
  | atom a => simp [norm, str, PyAtom.norm_eq_str_iff]
  | tuple items => simp [norm, str]

mutual

theorem norm_norm : ∀ k : PyKey, k.norm.norm = k.norm
  | .atom a => congrArg PyKey.atom a.norm_norm
  | .tuple items => congrArg PyKey.tuple (normList_normList items)

theorem normList_normList : ∀ ks : List PyKey, normList (normList ks) = normList ks
  | [] => rfl
  | k :: ks => congrArg₂ List.cons (norm_norm k) (normList_normList ks)

end

end PyKey

/-! ## Values -/

namespace PyVal

@[match_pattern]
abbrev none : PyVal := .atom .none

@[match_pattern]
abbrev bool (b : Bool) : PyVal := .atom (.bool b)

@[match_pattern]
abbrev int (i : ℤ) : PyVal := .atom (.int i)

@[match_pattern]
abbrev float (f : PyFloat) : PyVal := .atom (.float f)

@[match_pattern]
abbrev str (s : String) : PyVal := .atom (.str s)

@[match_pattern]
abbrev bytes (b : Bytes) : PyVal := .atom (.bytes b)

@[match_pattern]
abbrev complex (re im : PyFloat) : PyVal := .atom (.complex re im)

@[match_pattern]
abbrev object (o : PyObject) : PyVal := .atom (.object o)

mutual

/-- A key as a value. -/
def ofKey : PyKey → PyVal
  | .atom a => .atom a
  | .tuple items => .tuple (ofKeys items)

def ofKeys : List PyKey → List PyVal
  | [] => []
  | k :: ks => ofKey k :: ofKeys ks

end

mutual

/-- The value as a key, when it has a hash. -/
def toKey? : PyVal → Option PyKey
  | .atom (.object o) => if o.hashable then some (.atom (.object o)) else Option.none
  | .atom a => some (.atom a)
  | .tuple xs => (toKeys? xs).map .tuple
  | .list _ => Option.none
  | .set _ => Option.none
  | .dict _ => Option.none
  | .ndarray _ => Option.none

def toKeys? : List PyVal → Option (List PyKey)
  | [] => some []
  | x :: xs =>
    match toKey? x, toKeys? xs with
    | some k, some ks => some (k :: ks)
    | _, _ => Option.none

end

/-- The value's class of keys, when it has a hash: what a dictionary looks up. -/
def hash? (v : PyVal) : Option PyKey := v.toKey?.map PyKey.norm

/-- The truth value of `bool(v)`. -/
def truthy : PyVal → Bool
  | .atom .none => false
  | .atom (.bool b) => b
  | .atom (.int i) => i ≠ 0
  | .atom (.float f) => f ≠ .finite 0
  | .atom (.str s) => s ≠ ""
  | .atom (.bytes b) => b ≠ []
  | .atom (.complex re im) => re ≠ .finite 0 ∨ im ≠ .finite 0
  | .atom (.object _) => true
  | .list xs => !xs.isEmpty
  | .tuple xs => !xs.isEmpty
  | .set xs => !xs.isEmpty
  | .dict items => !items.isEmpty
  | .ndarray _ => true

/-- The string, when the value is one: `v == "list"` is `v.asStr? = some "list"`. -/
def asStr? : PyVal → Option String
  | .str s => some s
  | _ => Option.none

theorem asStr?_eq_some_iff {v : PyVal} {s : String} : v.asStr? = some s ↔ v = str s := by
  unfold asStr?
  split <;> simp_all

/-- The integer, when the value is one. -/
def asInt? : PyVal → Option ℤ
  | .int i => some i
  | _ => Option.none

/-- The truth value, when the value is one. -/
def asBool? : PyVal → Option Bool
  | .bool b => some b
  | _ => Option.none

/-- What the elements are, when the value is a list of such. -/
def asListOf? {α : Type} (item : PyVal → Option α) : PyVal → Option (List α)
  | .list xs => xs.mapM item
  | _ => Option.none

theorem asListOf?_map {α β : Type} {item : PyVal → Option β} {f : α → PyVal} {g : α → β}
    (h : ∀ x, item (f x) = some (g x)) (xs : List α) :
    asListOf? item (.list (xs.map f)) = some (xs.map g) := by
  rw [asListOf?]
  induction xs with
  | nil => rfl
  | cons x xs ih => simp [List.mapM_cons, h, ih]

/-- What a list was made from. -/
theorem asListOf?_map_self {α : Type} {item : PyVal → Option α} {f : α → PyVal}
    (h : ∀ x, item (f x) = some x) (xs : List α) : asListOf? item (.list (xs.map f)) = some xs := by
  rw [asListOf?_map h, List.map_id']

theorem asListOf?_strings (xs : List String) : asListOf? asStr? (.list (xs.map str)) = some xs :=
  @asListOf?_map_self _ asStr? str (fun _ => rfl) xs

/-- `v is None`. -/
def isNone : PyVal → Bool
  | .none => true
  | _ => false

/-- `a or b`. -/
def or (a b : PyVal) : PyVal := if a.truthy then a else b

theorem str_or {s : String} (h : s ≠ "") (v : PyVal) : (str s).or v = str s := by
  simp [PyVal.or, truthy, h]

/-- Only the string itself is looked up as a string. -/
theorem hash?_eq_str_iff {v : PyVal} {s : String} : v.hash? = some (.str s) ↔ v = str s := by
  constructor
  · intro h
    obtain ⟨k, hk, hnorm⟩ := Option.map_eq_some_iff.1 h
    obtain rfl := PyKey.norm_eq_str_iff.1 hnorm
    cases v with
    | atom a =>
      unfold toKey? at hk
      split at hk <;> simp_all
    | _ => simp [toKey?] at hk
  · rintro rfl
    rfl

theorem toKey?_atom_norm {a : PyAtom} {k : PyKey} (h : toKey? (.atom a) = some k) :
    k = .atom a ∧ toKey? (.atom a.norm) = some (.atom a.norm) := by
  cases a with
  | object o =>
    unfold toKey? at h
    split_ifs at h with hashable
    obtain rfl := Option.some.inj h
    exact ⟨rfl, if_pos hashable⟩
  | _ => exact ⟨(Option.some.inj h).symm, rfl⟩

mutual

/-- The representative of a hashable value is hashable. -/
theorem toKey?_ofKey_norm : ∀ (v : PyVal) (k : PyKey), toKey? v = some k →
    toKey? (ofKey k.norm) = some k.norm
  | .atom a, k, h => by
    obtain ⟨rfl, same⟩ := toKey?_atom_norm h
    exact same
  | .tuple xs, k, h => by
    unfold toKey? at h
    obtain ⟨ks, found, rfl⟩ := Option.map_eq_some_iff.1 h
    show (toKeys? (ofKeys (PyKey.normList ks))).map PyKey.tuple = _
    rw [toKeys?_ofKeys_normList xs ks found]
    rfl
  | .list _, _, h | .set _, _, h | .dict _, _, h | .ndarray _, _, h => by cases h

theorem toKeys?_ofKeys_normList : ∀ (xs : List PyVal) (ks : List PyKey), toKeys? xs = some ks →
    toKeys? (ofKeys (PyKey.normList ks)) = some (PyKey.normList ks)
  | [], ks, h => by
    cases h
    rfl
  | x :: xs, ks, h => by
    unfold toKeys? at h
    split at h
    · next k ks' hk hks =>
      cases h
      show (match toKey? (ofKey k.norm), toKeys? (ofKeys (PyKey.normList ks')) with
        | some k, some ks => some (k :: ks)
        | _, _ => Option.none) = _
      rw [toKey?_ofKey_norm x k hk, toKeys?_ofKeys_normList xs ks' hks]
      rfl
    · cases h

end

/-- What a value is looked up as is looked up as itself. -/
theorem hash?_ofKey {v : PyVal} {k : PyKey} (h : v.hash? = some k) : (ofKey k).hash? = some k := by
  obtain ⟨k', found, rfl⟩ := Option.map_eq_some_iff.1 h
  unfold hash?
  rw [toKey?_ofKey_norm v k' found, Option.map_some, PyKey.norm_norm]

/-- `items.get(k)` on the entries of a dictionary. -/
def getItem (k : PyKey) (items : List (PyKey × PyVal)) : Option PyVal :=
  (items.find? fun e => e.1.norm = k.norm).map Prod.snd

/-- `items.get(s)` for a string key. -/
abbrev getStr (s : String) (items : List (PyKey × PyVal)) : Option PyVal := getItem (.str s) items

theorem getStr_cons_key (j : String) (k : PyKey) (v : PyVal) (rest : List (PyKey × PyVal)) :
    getStr j ((k, v) :: rest) = if k = .str j then some v else getStr j rest := by
  simp only [getStr, getItem, List.find?_cons, PyKey.norm_str, PyKey.norm_eq_str_iff]
  by_cases h : k = .str j <;> simp [h]

theorem getStr_cons (s name : String) (x : PyVal) (rest : List (PyKey × PyVal)) :
    getStr name ((.str s, x) :: rest) = if s = name then some x else getStr name rest := by
  by_cases h : s = name
  · simp [getStr, getItem, h]
  · simp [getStr, getItem, h]

theorem getStr_append (s : String) (items items' : List (PyKey × PyVal)) :
    getStr s (items ++ items') = (getStr s items).or (getStr s items') := by
  simp only [getStr, getItem, List.find?_append]
  cases items.find? _ <;> rfl

/-! ### Nested values -/

/-- Induction over the nesting of values. -/
@[elab_as_elim]
theorem inductionOn {motive : PyVal → Prop} (v : PyVal) (atom : ∀ a, motive (.atom a))
    (list : ∀ xs, (∀ x ∈ xs, motive x) → motive (.list xs))
    (tuple : ∀ xs, (∀ x ∈ xs, motive x) → motive (.tuple xs))
    (set : ∀ xs, motive (.set xs))
    (dict : ∀ items, (∀ e ∈ items, motive e.2) → motive (.dict items))
    (ndarray : ∀ a, motive (.ndarray a)) : motive v :=
  @PyVal.rec motive (fun xs => ∀ x ∈ xs, motive x) (fun items => ∀ e ∈ items, motive e.2)
    (fun e => motive e.2) atom list tuple set dict ndarray
    (fun _ h => absurd h List.not_mem_nil)
    (fun _ _ hx hxs => List.forall_mem_cons.2 ⟨hx, hxs⟩)
    (fun _ h => absurd h List.not_mem_nil)
    (fun _ _ he hes => List.forall_mem_cons.2 ⟨he, hes⟩)
    (fun _ _ hv => hv) v

/-- The keys of a dictionary. -/
def ownKeys : PyVal → List PyKey
  | .dict items => items.map Prod.fst
  | _ => []

/-- The elements of a set. -/
def ownElements : PyVal → List PyKey
  | .set xs => xs
  | _ => []

section Everywhere

variable (p : PyVal → Prop)

mutual

/-- `p` holds of the value and of every value nested in it.  Keys and set elements do not count:
they are looked at through `ownKeys` and `ownElements`. -/
def Everywhere : PyVal → Prop
  | .list xs => p (.list xs) ∧ EverywhereList xs
  | .tuple xs => p (.tuple xs) ∧ EverywhereList xs
  | .dict items => p (.dict items) ∧ EverywhereItems items
  | v => p v

def EverywhereList : List PyVal → Prop
  | [] => True
  | x :: xs => Everywhere x ∧ EverywhereList xs

def EverywhereItems : List (PyKey × PyVal) → Prop
  | [] => True
  | (_, x) :: rest => Everywhere x ∧ EverywhereItems rest

end

variable {p}

theorem everywhereList_iff (xs : List PyVal) : EverywhereList p xs ↔ ∀ x ∈ xs, Everywhere p x := by
  induction xs with
  | nil => simp [EverywhereList]
  | cons x xs ih => simp [EverywhereList, ih]

theorem everywhereItems_iff (items : List (PyKey × PyVal)) :
    EverywhereItems p items ↔ ∀ e ∈ items, Everywhere p e.2 := by
  induction items with
  | nil => simp [EverywhereItems]
  | cons e rest ih => simp [EverywhereItems, ih]

theorem everywhere_list_iff (xs : List PyVal) :
    Everywhere p (.list xs) ↔ p (.list xs) ∧ ∀ x ∈ xs, Everywhere p x := by
  rw [Everywhere, everywhereList_iff]

theorem everywhere_tuple_iff (xs : List PyVal) :
    Everywhere p (.tuple xs) ↔ p (.tuple xs) ∧ ∀ x ∈ xs, Everywhere p x := by
  rw [Everywhere, everywhereList_iff]

theorem everywhere_dict_iff (items : List (PyKey × PyVal)) :
    Everywhere p (.dict items) ↔ p (.dict items) ∧ ∀ e ∈ items, Everywhere p e.2 := by
  rw [Everywhere, everywhereItems_iff]

theorem Everywhere.mono {q : PyVal → Prop} (h : ∀ v, p v → q v) {v : PyVal}
    (hv : Everywhere p v) : Everywhere q v := by
  induction v using PyVal.inductionOn with
  | atom a => exact h _ hv
  | set xs => exact h _ hv
  | ndarray a => exact h _ hv
  | list xs ih =>
    rw [everywhere_list_iff] at hv ⊢
    exact ⟨h _ hv.1, fun x hx => ih x hx (hv.2 x hx)⟩
  | tuple xs ih =>
    rw [everywhere_tuple_iff] at hv ⊢
    exact ⟨h _ hv.1, fun x hx => ih x hx (hv.2 x hx)⟩
  | dict items ih =>
    rw [everywhere_dict_iff] at hv ⊢
    exact ⟨h _ hv.1, fun e he => ih e he (hv.2 e he)⟩

mutual

def decEverywhere [DecidablePred p] : (v : PyVal) → Decidable (Everywhere p v)
  | .atom a => inferInstanceAs (Decidable (p (.atom a)))
  | .set xs => inferInstanceAs (Decidable (p (.set xs)))
  | .ndarray a => inferInstanceAs (Decidable (p (.ndarray a)))
  | .list xs => @instDecidableAnd _ _ (inferInstanceAs (Decidable (p _))) (decEverywhereList xs)
  | .tuple xs => @instDecidableAnd _ _ (inferInstanceAs (Decidable (p _))) (decEverywhereList xs)
  | .dict items =>
    @instDecidableAnd _ _ (inferInstanceAs (Decidable (p _))) (decEverywhereItems items)

def decEverywhereList [DecidablePred p] : (xs : List PyVal) → Decidable (EverywhereList p xs)
  | [] => isTrue trivial
  | x :: xs => @instDecidableAnd _ _ (decEverywhere x) (decEverywhereList xs)

def decEverywhereItems [DecidablePred p] :
    (items : List (PyKey × PyVal)) → Decidable (EverywhereItems p items)
  | [] => isTrue trivial
  | (_, x) :: rest => @instDecidableAnd _ _ (decEverywhere x) (decEverywhereItems rest)

end

instance [DecidablePred p] (v : PyVal) : Decidable (Everywhere p v) := decEverywhere v

end Everywhere

/-- Adding an element to a set: an element equal to one that is there changes nothing. -/
def addToSet (acc : List PyKey) (k : PyKey) : List PyKey :=
  if k.norm ∈ acc.map PyKey.norm then acc else acc ++ [k]

end PyVal
