import Mathlib.Algebra.Group.Nat.Defs
import Cpip.Lib.Base64
import Cpip.Python.Json

/-!
# The serialization engine (`runtime/serialization.py`)

`serializeValue` turns a Python value into tagged dictionaries, lists and scalars for the RPC
transport; `deserializeResult` reads such data back.  Reading can run `pickle.loads`, so a reading
(`Deser`) carries the byte strings it handed to `pickle.loads` beside its result.

NumPy, PyTorch and the effect of `pickle.loads` are parameters (`Env`).
-/

namespace Cpip.Serialization

/-- `_PICKLE_ALLOWLIST`. -/
def pickleAllowlist : List String :=
  ["builtins", "collections", "datetime", "decimal", "fractions", "numbers", "re", "uuid"]

/-- `path.split(".")[0]`. -/
def topModule (path : String) : String := String.ofList (path.toList.takeWhile (· ≠ '.'))

/-- `{"__type__": tag, **fields}`. -/
def tagged (tag : String) (fields : List (String × PyVal)) : PyVal :=
  .dict ((.str "__type__", .str tag) :: fields.map fun e => (.str e.1, e.2))

/-! ## Serialization -/

/-- `_serialize_pickle`. -/
def serializePickle (o : PyObject) : PyVal :=
  tagged "pickle" [("data", .str (Base64.encode o.pickled)),
    ("class", .str (o.module ++ "." ++ o.name))]

/-- `_serialize_numpy`. -/
def serializeNumpy (arr : NdArray) : PyVal :=
  tagged "ndarray" [("dtype", .str arr.dtype), ("shape", .list (arr.shape.map fun n => .int n)),
    ("data", .str (Base64.encode arr.data))]

/-- `serialize_value` on a value without parts. -/
def serializeAtom : PyAtom → PyVal
  | .bytes b => tagged "bytes" [("data", .str (Base64.encode b))]
  | .complex re im => tagged "complex" [("real", .float re), ("imag", .float im)]
  | .object o =>
    if topModule o.module ∈ pickleAllowlist then serializePickle o
    else tagged "repr" [("value", .str o.repr), ("class", .str o.name)]
  | a => .atom a

mutual

/-- `serialize_value` on a hashable value, that is on an element of a set. -/
def serializeKey : PyKey → PyVal
  | .atom a => serializeAtom a
  | .tuple items => tagged "list" [("values", .list (serializeKeys items))]

def serializeKeys : List PyKey → List PyVal
  | [] => []
  | k :: ks => serializeKey k :: serializeKeys ks

end

mutual

/-- `serialize_value`. -/
def serializeValue : PyVal → PyVal
  | .atom a => serializeAtom a
  | .list xs => tagged "list" [("values", .list (serializeValues xs))]
  | .tuple xs => tagged "list" [("values", .list (serializeValues xs))]
  | .dict items => tagged "dict" [("items", .dict (serializeItems items))]
  | .set xs => tagged "set" [("values", .list (serializeKeys xs))]
  | .ndarray arr => serializeNumpy arr

def serializeValues : List PyVal → List PyVal
  | [] => []
  | x :: xs => serializeValue x :: serializeValues xs

def serializeItems : List (PyKey × PyVal) → List (PyKey × PyVal)
  | [] => []
  | (k, v) :: rest => (k, serializeValue v) :: serializeItems rest

end

/-- `serialize_args`. -/
def serializeArgs : PyVal → PyVal
  | .list xs => .list (serializeValues xs)
  | .tuple xs => .list (serializeValues xs)
  | .dict items => .dict (serializeItems items)
  | args => serializeValue args

/-! ## Readings -/

/-- What deserializing does: the byte strings handed to `pickle.loads`, in order, and the value
returned or the exception raised. -/
structure Deser (α : Type) where
  loads : List Bytes
  out : Except PyExc α

namespace Deser

variable {α β : Type}

def pure (a : α) : Deser α := ⟨[], .ok a⟩

def raise (e : PyExc) : Deser α := ⟨[], .error e⟩

def bind (x : Deser α) (f : α → Deser β) : Deser β :=
  match x.out with
  | .ok a => ⟨x.loads ++ (f a).loads, (f a).out⟩
  | .error e => ⟨x.loads, .error e⟩

instance : Monad Deser where
  pure := pure
  bind := bind

def ofExcept (x : Except PyExc α) : Deser α := ⟨[], x⟩

theorem out_bind_eq_ok {x : Deser α} {f : α → Deser β} {b : β} :
    (x >>= f).out = .ok b ↔ ∃ a, x.out = .ok a ∧ (f a).out = .ok b := by
  change (Deser.bind x f).out = .ok b ↔ _
  unfold Deser.bind
  cases hx : x.out with
  | error e => simp
  | ok a => simp

end Deser

/-- `np.frombuffer(data, dtype=np.dtype(dtype))` and `arr.reshape(shape)`. -/
structure NumPy where
  frombuffer : Bytes → PyVal → Except PyExc PyVal
  reshape : PyVal → PyVal → Except PyExc PyVal

/-- The code outside the repository that deserialization calls: `pickle.loads`, NumPy and
`torch.from_numpy`, the last two when they can be imported. -/
structure Env where
  pickleLoads : Bytes → Except PyExc PyVal
  numpy : Option NumPy
  torch : Option (PyVal → Except PyExc PyVal)

/-- `data[key]`. -/
def item (key : String) (data : List (PyKey × PyVal)) : Deser PyVal :=
  match PyVal.getStr key data with
  | some v => pure v
  | none => Deser.raise (.keyError key)

theorem item_eq_ok_iff {key : String} {data : List (PyKey × PyVal)} {v : PyVal} :
    (item key data).out = .ok v ↔ PyVal.getStr key data = some v := by
  unfold item
  cases PyVal.getStr key data with
  | none => exact iff_of_false nofun nofun
  | some v' =>
    rw [Option.some_inj]
    exact ⟨fun h => Except.ok.inj h, fun h => congrArg Except.ok h⟩

/-- `base64.b64decode(value)`. -/
def b64decode : PyVal → Deser Bytes
  | .str s =>
    if s.toList.all fun c => c.toNat < 128 then
      match Base64.decode s with
      | some b => pure b
      | none => Deser.raise (.valueError "Incorrect padding")
    else Deser.raise (.valueError "string argument should contain only ASCII characters")
  | .bytes b =>
    match Base64.decode (String.ofList (b.map fun c => Char.ofNat c.toNat)) with
    | some b => pure b
    | none => Deser.raise (.valueError "Incorrect padding")
  | _ => Deser.raise (.typeError "argument should be a bytes-like object or ASCII string")

/-- `base64.b64decode(data["data"])`. -/
def b64data (data : List (PyKey × PyVal)) : Deser Bytes := do b64decode (← item "data" data)

/-- The number of 53 significant bits that is nearest to `n`, and of two such the one whose last bit
is zero. -/
def roundToBits (n : ℕ) : ℕ :=
  let e := n.log2 - 52
  let q := n / 2 ^ e
  let r := n % 2 ^ e
  (if 2 ^ e < 2 * r ∨ (2 ^ e = 2 * r ∧ q % 2 = 1) then q + 1 else q) * 2 ^ e

/-- `float(i)`. -/
def floatOfInt (i : ℤ) : Except PyExc PyFloat :=
  if roundToBits i.natAbs < 2 ^ 1024 then .ok (.finite (i.sign * roundToBits i.natAbs))
  else .error (.other "OverflowError: int too large to convert to float")

example : floatOfInt (-(2 ^ 53 + 1)) = .ok (.finite (-2 ^ 53)) := by decide +kernel

example : (floatOfInt (10 ^ 400)).toOption = none := by decide +kernel

/-- A number as a float, as `complex()` takes its arguments.  JSON data holds no complex numbers. -/
def toFloat? : PyVal → Option (Except PyExc PyFloat)
  | .bool b => some (.ok (.finite (if b then 1 else 0)))
  | .int i => some (floatOfInt i)
  | .float f => some (.ok f)
  | _ => none

/-- `complex(real, imag)`: both must be numbers before one of them is converted. -/
def mkComplex (real imag : PyVal) : Deser PyVal :=
  match toFloat? real, toFloat? imag with
  | some re, some im => do return .complex (← Deser.ofExcept re) (← Deser.ofExcept im)
  | _, _ => Deser.raise (.typeError "complex() argument must be a string or a number")

/-- The values that iterating over `v` yields, when `v` has no parts of its own to deserialize. -/
def leaves : PyVal → Deser (List PyVal)
  | .str s => pure (s.toList.map fun c => .str (String.ofList [c]))
  | .bytes b => pure (b.map fun c => .int c.toNat)
  | .set xs => pure (PyVal.ofKeys xs)
  | .dict items => pure (PyVal.ofKeys (items.map Prod.fst))
  | _ => Deser.raise (.typeError "object is not iterable")

/-- Adding a deserialized value to the set being built. -/
def hashInto (acc : List PyKey) (v : PyVal) : Deser (List PyKey) :=
  match v.toKey? with
  | some k => pure (PyVal.addToSet acc k)
  | none => Deser.raise (.typeError "unhashable type")

/-- A set built from values that need no deserialization. -/
def hashAllInto : List PyKey → List PyVal → Deser (List PyKey)
  | acc, [] => pure acc
  | acc, v :: vs => do
    let acc ← hashInto acc v
    hashAllInto acc vs

variable (env : Env)

/-- `_deserialize_numpy`. -/
def deserializeNumpy (data : List (PyKey × PyVal)) : Deser PyVal :=
  match env.numpy with
  | none => pure (.dict data)
  | some np => do
    let b ← b64data data
    let arr ← Deser.ofExcept (np.frombuffer b (← item "dtype" data))
    Deser.ofExcept (np.reshape arr (← item "shape" data))

/-- `_deserialize_tensor`. -/
def deserializeTensor (data : List (PyKey × PyVal)) : Deser PyVal :=
  match env.torch, env.numpy with
  | some fromNumpy, some np => do
    let b ← b64data data
    let dtype := (PyVal.getStr "numpy_dtype" data).getD (.str "float32")
    let arr ← Deser.ofExcept (np.frombuffer b dtype)
    let arr ← Deser.ofExcept (np.reshape arr (← item "shape" data))
    Deser.ofExcept (fromNumpy arr)
  | _, _ => deserializeNumpy env data

/-- The dotted name of the class in a dictionary that is tagged as a pickle. -/
def classPath? (data : List (PyKey × PyVal)) : Option String :=
  ((PyVal.getStr "class" data).getD (.str "")).asStr?

/-- `_deserialize_pickle`. -/
def deserializePickle (data : List (PyKey × PyVal)) : Deser PyVal :=
  match classPath? data with
  | some classPath =>
    if topModule classPath ∈ pickleAllowlist then do
      let b ← b64data data
      ⟨[b], env.pickleLoads b⟩
    else pure (.dict data)
  | none => Deser.raise (.attributeError "object has no attribute 'split'")

/-- The readings of the parts of a tagged object: `values` as a list and as a set, and `items`. -/
structure Parts where
  list : Deser (List PyVal)
  set : Deser (List PyKey)
  items : Deser (List (PyKey × PyVal))

/-- `_deserialize_typed`, given the readings of the object's parts. -/
def deserializeTyped (typeTag : PyVal) (data : List (PyKey × PyVal)) (parts : Parts) :
    Deser PyVal :=
  if typeTag.asStr? = some "list" then do return .list (← parts.list)
  else if typeTag.asStr? = some "dict" then do return .dict (← parts.items)
  else if typeTag.asStr? = some "bytes" then do return .bytes (← b64data data)
  else if typeTag.asStr? = some "complex" then do
    mkComplex (← item "real" data) (← item "imag" data)
  else if typeTag.asStr? = some "set" then do return .set (← parts.set)
  else if typeTag.asStr? = some "ndarray" then deserializeNumpy env data
  else if typeTag.asStr? = some "tensor" then deserializeTensor env data
  else if typeTag.asStr? = some "pickle" then deserializePickle env data
  else if typeTag.asStr? = some "repr" then pure ((PyVal.getStr "value" data).getD (.str ""))
  else pure (.dict data)

mutual

/-- `deserialize_result`. -/
def deserializeResult : PyVal → Deser PyVal
  | .list xs => do return .list (← deserializeList xs)
  | .dict data =>
    let typeTag := (PyVal.getStr "__type__" data).getD .none
    if typeTag.truthy then
      deserializeTyped env typeTag data ⟨listOfField data, setOfField data, itemsOfField data⟩
    else do return .dict (← deserializeItems data)
  | data => pure data

/-- `[deserialize_result(v) for v in xs]`. -/
def deserializeList : List PyVal → Deser (List PyVal)
  | [] => pure []
  | x :: xs => do
    let v ← deserializeResult x
    let vs ← deserializeList xs
    return v :: vs

/-- `{deserialize_result(v) for v in xs}`, with the elements added so far. -/
def deserializeSet : List PyVal → List PyKey → Deser (List PyKey)
  | [], acc => pure acc
  | x :: xs, acc => do
    let v ← deserializeResult x
    let acc ← hashInto acc v
    deserializeSet xs acc

/-- `{k: deserialize_result(v) for k, v in items}`. -/
def deserializeItems : List (PyKey × PyVal) → Deser (List (PyKey × PyVal))
  | [] => pure []
  | (k, x) :: rest => do
    let v ← deserializeResult x
    let vs ← deserializeItems rest
    return (k, v) :: vs

/-- `[deserialize_result(v) for v in data.get("values", [])]`. -/
def listOfField : List (PyKey × PyVal) → Deser (List PyVal)
  | [] => pure []
  | (k, x) :: rest => if k = .str "values" then listOf x else listOfField rest

def listOf : PyVal → Deser (List PyVal)
  | .list xs => deserializeList xs
  | .tuple xs => deserializeList xs
  | x => leaves x

/-- `{deserialize_result(v) for v in data.get("values", [])}`. -/
def setOfField : List (PyKey × PyVal) → Deser (List PyKey)
  | [] => pure []
  | (k, x) :: rest => if k = .str "values" then setOf x else setOfField rest

def setOf : PyVal → Deser (List PyKey)
  | .list xs => deserializeSet xs []
  | .tuple xs => deserializeSet xs []
  | x => do hashAllInto [] (← leaves x)

/-- `{k: deserialize_result(v) for k, v in data.get("items", {}).items()}`. -/
def itemsOfField : List (PyKey × PyVal) → Deser (List (PyKey × PyVal))
  | [] => pure []
  | (k, x) :: rest => if k = .str "items" then itemsOf x else itemsOfField rest

def itemsOf : PyVal → Deser (List (PyKey × PyVal))
  | .dict items => deserializeItems items
  | _ => Deser.raise (.attributeError "object has no attribute 'items'")

end

theorem listOfField_eq (env : Env) (data : List (PyKey × PyVal)) :
    listOfField env data =
      match PyVal.getStr "values" data with
      | some x => listOf env x
      | none => pure [] := by
  induction data with
  | nil => rfl
  | cons e rest ih =>
    obtain ⟨k, x⟩ := e
    rw [listOfField, PyVal.getStr_cons_key, ih]
    split_ifs <;> rfl

theorem setOfField_eq (env : Env) (data : List (PyKey × PyVal)) :
    setOfField env data =
      match PyVal.getStr "values" data with
      | some x => setOf env x
      | none => pure [] := by
  induction data with
  | nil => rfl
  | cons e rest ih =>
    obtain ⟨k, x⟩ := e
    rw [setOfField, PyVal.getStr_cons_key, ih]
    split_ifs <;> rfl

theorem itemsOfField_eq (env : Env) (data : List (PyKey × PyVal)) :
    itemsOfField env data =
      match PyVal.getStr "items" data with
      | some x => itemsOf env x
      | none => pure [] := by
  induction data with
  | nil => rfl
  | cons e rest ih =>
    obtain ⟨k, x⟩ := e
    rw [itemsOfField, PyVal.getStr_cons_key, ih]
    split_ifs <;> rfl

end Cpip.Serialization
