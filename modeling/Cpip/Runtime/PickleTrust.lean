import Cpip.Runtime.Serialization

/-!
# Which bytes reach `pickle.loads`

`_deserialize_pickle` decides by the `class` string that travels beside the bytes, not by the bytes.
So whether a payload is safe is whether the decoder gets to an object that pairs an allow-listed
class with bytes that load other modules.  It gets to a part of an object when it can read the parts
before it (`Sound`), which depends on the payload alone as far as what NumPy, PyTorch and unpickling
return is not known (`Meets`).

The condition is exact: nothing but allow-listed bytes is handed to `pickle.loads`, whatever these
libraries return, if and only if no such object is met (`loads_allowed_iff`).  The modules that
pickled bytes load are a parameter.
-/

namespace Cpip.Serialization

/-- The libraries that can be imported. -/
structure Imports where
  numpy : Bool
  torch : Bool

/-- The environment has these libraries, and arrays have no hash. -/
structure Env.Has (env : Env) (I : Imports) : Prop where
  numpy : env.numpy.isSome = I.numpy
  torch : env.torch.isSome = I.torch
  unhashable : ∀ np ∈ env.numpy, ∀ arr shape v, np.reshape arr shape = .ok v → v.toKey? = none

/-! ## Tags -/

/-- What an object is decoded as. -/
inductive Tag where
  | untagged
  | list
  | dict
  | bytes
  | complex
  | set
  | ndarray
  | tensor
  | pickle
  | repr
  | other
  deriving DecidableEq

def tagNamed (typeTag : PyVal) : Tag :=
  if typeTag.asStr? = some "list" then .list
  else if typeTag.asStr? = some "dict" then .dict
  else if typeTag.asStr? = some "bytes" then .bytes
  else if typeTag.asStr? = some "complex" then .complex
  else if typeTag.asStr? = some "set" then .set
  else if typeTag.asStr? = some "ndarray" then .ndarray
  else if typeTag.asStr? = some "tensor" then .tensor
  else if typeTag.asStr? = some "pickle" then .pickle
  else if typeTag.asStr? = some "repr" then .repr
  else .other

def tagOf (data : List (PyKey × PyVal)) : Tag :=
  let typeTag := (PyVal.getStr "__type__" data).getD .none
  if typeTag.truthy then tagNamed typeTag else .untagged

def hasHash (v : PyVal) : Bool := v.toKey?.isSome

variable (env : Env)

/-- The branches of the decoder by the tag. -/
def deserializeAs (data : List (PyKey × PyVal)) : Tag → Deser PyVal
  | .untagged => do return .dict (← deserializeItems env data)
  | .list => do return .list (← listOfField env data)
  | .dict => do return .dict (← itemsOfField env data)
  | .bytes => do return .bytes (← b64data data)
  | .complex => do mkComplex (← item "real" data) (← item "imag" data)
  | .set => do return .set (← setOfField env data)
  | .ndarray => deserializeNumpy env data
  | .tensor => deserializeTensor env data
  | .pickle => deserializePickle env data
  | .repr => pure ((PyVal.getStr "value" data).getD (.str ""))
  | .other => pure (.dict data)

theorem deserializeTyped_eq (typeTag : PyVal) (data : List (PyKey × PyVal)) :
    deserializeTyped env typeTag data
        ⟨listOfField env data, setOfField env data, itemsOfField env data⟩ =
      deserializeAs env data (tagNamed typeTag) := by
  unfold deserializeTyped tagNamed
  simp only [apply_ite (deserializeAs env data)]
  rfl

theorem deserialize_dict (data : List (PyKey × PyVal)) :
    deserializeResult env (.dict data) = deserializeAs env data (tagOf data) := by
  rw [deserializeResult, deserializeTyped_eq, tagOf]
  split_ifs <;> rfl

/-! ## Payloads -/

/-- The elements of a list, which are decoded one after the other. -/
def elements : PyVal → List PyVal
  | .list xs => xs
  | .tuple xs => xs
  | _ => []

/-- The entries of a dictionary. -/
def entries : PyVal → List PyVal
  | .dict items => items.map Prod.snd
  | _ => []

/-- The parts of a payload that are decoded, in order. -/
def parts : PyVal → List PyVal
  | .list xs => xs
  | .dict data =>
    match tagOf data with
    | .untagged => data.map Prod.snd
    | .list => ((PyVal.getStr "values" data).map elements).getD []
    | .set => ((PyVal.getStr "values" data).map elements).getD []
    | .dict => ((PyVal.getStr "items" data).map entries).getD []
    | _ => []
  | _ => []

/-- The parts become elements of a set. -/
def ofSet : PyVal → Bool
  | .dict data => tagOf data = .set
  | _ => false

/-- What is no list can be run over, and what it yields has hashes if a set is made of it. -/
def spreads (asSet : Bool) (x : PyVal) : Bool :=
  match (leaves x).out with
  | .ok vs => !asSet || vs.all hasHash
  | .error _ => false

/-- `for v in x` can run. -/
def iterable (asSet : Bool) : PyVal → Bool
  | .list _ => true
  | .tuple _ => true
  | x => spreads asSet x

def isDict : PyVal → Bool
  | .dict _ => true
  | _ => false

/-- A number that is within the range of a float. -/
def isFloat (v : PyVal) : Bool := (toFloat? v).any Except.isOk

def isBase64 (data : List (PyKey × PyVal)) : Bool := (b64data data).out.isOk

def isArray (data : List (PyKey × PyVal)) : Bool :=
  isBase64 data && (PyVal.getStr "dtype" data).isSome && (PyVal.getStr "shape" data).isSome

/-- The payload has what decoding it needs besides its parts. -/
def fits (I : Imports) : PyVal → Bool
  | .dict data =>
    match tagOf data with
    | .list => (PyVal.getStr "values" data).all (iterable false)
    | .set => (PyVal.getStr "values" data).all (iterable true)
    | .dict => (PyVal.getStr "items" data).all isDict
    | .bytes => isBase64 data
    | .complex => (PyVal.getStr "real" data).any isFloat && (PyVal.getStr "imag" data).any isFloat
    | .ndarray => !I.numpy || isArray data
    | .tensor =>
      if I.torch && I.numpy then isBase64 data && (PyVal.getStr "shape" data).isSome
      else !I.numpy || isArray data
    | .pickle => (classPath? data).any fun path => topModule path ∉ pickleAllowlist || isBase64 data
    | _ => true
  | _ => true

/-- The value of the payload has a hash, or may have one. -/
def mayHash (I : Imports) : PyVal → Bool
  | .list _ => false
  | .dict data =>
    match tagOf data with
    | .bytes => true
    | .complex => true
    | .tensor => I.torch && I.numpy
    | .pickle => (classPath? data).any fun path => topModule path ∈ pickleAllowlist
    | .repr => hasHash ((PyVal.getStr "value" data).getD (.str ""))
    | _ => false
  | v => hasHash v

/-- The payload can be decoded. -/
inductive Sound (I : Imports) : PyVal → Prop
  | intro {v : PyVal} (fit : fits I v = true) (each : ∀ x ∈ parts v, Sound I x)
    (hashes : ofSet v = true → ∀ x ∈ parts v, mayHash I x = true) : Sound I v

/-- The decoder of the first payload gets to the second, past the parts that come before. -/
inductive Meets (I : Imports) : PyVal → PyVal → Prop
  | here (v : PyVal) : Meets I v v
  | part {v x w : PyVal} {before after : List PyVal} (split : parts v = before ++ x :: after)
    (each : ∀ y ∈ before, Sound I y) (hashes : ofSet v = true → ∀ y ∈ before, mayHash I y = true)
    (next : Meets I x w) : Meets I v w

/-- An object whose class is allow-listed, so that its bytes are unpickled. -/
def Unpickles (v : PyVal) (b : Bytes) : Prop :=
  ∃ data path, v = .dict data ∧ tagOf data = .pickle ∧ classPath? data = some path ∧
    topModule path ∈ pickleAllowlist ∧ (b64data data).out = .ok b

/-- An object that pairs an allow-listed class with bytes that load another module. -/
def Mislabelled (modules : Bytes → List String) (v : PyVal) : Prop :=
  ∃ b, Unpickles v b ∧ ∃ m ∈ modules b, topModule m ∉ pickleAllowlist

/-! ## Readings of parts -/

variable {env}

/-- The part is decoded to a value that is good. -/
def Passes (env : Env) (good : PyVal → Prop) (x : PyVal) : Prop :=
  ∃ a, (deserializeResult env x).out = .ok a ∧ good a

/-- The bytes are handed to `pickle.loads` by one of the parts, after those before it passed. -/
def LoadsInOrder (env : Env) (good : PyVal → Prop) (parts : List PyVal) (b : Bytes) : Prop :=
  ∃ before x after, parts = before ++ x :: after ∧ (∀ y ∈ before, Passes env good y) ∧
    b ∈ (deserializeResult env x).loads

theorem not_loadsInOrder_nil (good : PyVal → Prop) (b : Bytes) : ¬ LoadsInOrder env good [] b := by
  rintro ⟨before, x, after, none, -⟩
  simp at none

theorem loadsInOrder_cons (good : PyVal → Prop) (x : PyVal) (parts : List PyVal) (b : Bytes) :
    LoadsInOrder env good (x :: parts) b ↔ b ∈ (deserializeResult env x).loads ∨
      Passes env good x ∧ LoadsInOrder env good parts b := by
  constructor
  · rintro ⟨before, y, after, same, passed, mem⟩
    cases before with
    | nil =>
      obtain ⟨rfl, -⟩ := List.cons.inj same
      exact .inl mem
    | cons x' before =>
      obtain ⟨rfl, rest⟩ := List.cons.inj same
      rw [List.forall_mem_cons] at passed
      exact .inr ⟨passed.1, before, y, after, rest, passed.2, mem⟩
  · rintro (mem | ⟨passed, before, y, after, rfl, before_passed, mem⟩)
    · exact ⟨[], x, parts, rfl, by simp, mem⟩
    · exact ⟨x :: before, y, after, rfl, List.forall_mem_cons.2 ⟨passed, before_passed⟩, mem⟩

/-- The reading decodes the parts in order, and goes on after a part that gives a good value; it
gives a value if it came past all of them and the rest is fit. -/
structure InOrder (env : Env) {α : Type} (whole : Deser α) (fit : Prop) (parts : List PyVal)
    (good : PyVal → Prop) : Prop where
  loads : ∀ b, b ∈ whole.loads ↔ LoadsInOrder env good parts b
  ok : (∃ a, whole.out = .ok a) ↔ fit ∧ ∀ x ∈ parts, Passes env good x

namespace InOrder

variable {α β : Type} {good : PyVal → Prop} {fit : Prop} {parts : List PyVal}

/-- A reading without parts. -/
theorem quiet {x : Deser α} (loads : x.loads = []) (ok : (∃ a, x.out = .ok a) ↔ fit) :
    InOrder env x fit [] good where
  loads b := iff_of_false (by simp [loads]) (not_loadsInOrder_nil good b)
  ok := ok.trans (and_iff_left (by simp)).symm

theorem pure (a : α) : InOrder env (Pure.pure a : Deser α) True [] good :=
  quiet rfl (iff_of_true ⟨a, rfl⟩ trivial)

theorem congr {whole : Deser α} {fit' : Prop} {good' : PyVal → Prop}
    (h : InOrder env whole fit parts good) (same : fit ↔ fit') (alike : ∀ a, good a ↔ good' a) :
    InOrder env whole fit' parts good' := by
  obtain rfl : fit = fit' := propext same
  obtain rfl : good = good' := funext fun a => propext (alike a)
  exact h

theorem cons {x : PyVal} {f : PyVal → Deser α}
    (next : ∀ v, good v → InOrder env (f v) fit parts good)
    (stop : ∀ v, ¬ good v → (f v).loads = [] ∧ ¬ ∃ a, (f v).out = .ok a) :
    InOrder env (deserializeResult env x >>= f) fit (x :: parts) good := by
  change InOrder env (Deser.bind (deserializeResult env x) f) fit (x :: parts) good
  unfold Deser.bind
  constructor
  · intro b
    rw [loadsInOrder_cons]
    cases hx : (deserializeResult env x).out with
    | error e => simp [Passes, hx]
    | ok v =>
      dsimp only
      rw [List.mem_append]
      refine or_congr_right ?_
      by_cases h : good v
      · rw [(next v h).loads b]
        simp [Passes, hx, h]
      · simp [(stop v h).1, Passes, hx, h]
  · rw [List.forall_mem_cons]
    cases hx : (deserializeResult env x).out with
    | error e => simp [Passes, hx]
    | ok v =>
      dsimp only
      by_cases h : good v
      · rw [(next v h).ok]
        simp [Passes, hx, h]
      · exact iff_of_false (stop v h).2 (by simp [Passes, hx, h])

/-- Computing on from a reading without unpickling changes no part of it. -/
theorem map {x : Deser α} (h : InOrder env x fit parts good) (f : α → β) :
    InOrder env (do return f (← x)) fit parts good := by
  change InOrder env (Deser.bind x _) fit parts good
  unfold Deser.bind
  constructor
  · intro b
    rw [← h.loads b]
    cases x.out with
    | error e => rfl
    | ok a =>
      show b ∈ x.loads ++ [] ↔ _
      rw [List.append_nil]
  · rw [← h.ok]
    cases x.out with
    | error e => simp
    | ok a => exact iff_of_true ⟨_, rfl⟩ ⟨a, rfl⟩

end InOrder

/-! ### The steps that do not unpickle -/

theorem Deser.loads_bind_eq_nil {α β : Type} {x : Deser α} {f : α → Deser β} (hx : x.loads = [])
    (hf : ∀ a, (f a).loads = []) : (x >>= f).loads = [] := by
  change (Deser.bind x f).loads = []
  unfold Deser.bind
  cases x.out with
  | error e => exact hx
  | ok a => simp [hx, hf a]

theorem loads_item (key : String) (data : List (PyKey × PyVal)) : (item key data).loads = [] := by
  unfold item
  split <;> rfl

theorem loads_b64decode (v : PyVal) : (b64decode v).loads = [] := by
  unfold b64decode
  repeat' split
  all_goals rfl

theorem loads_mkComplex (real imag : PyVal) : (mkComplex real imag).loads = [] := by
  unfold mkComplex
  split
  · exact Deser.loads_bind_eq_nil rfl fun _ => Deser.loads_bind_eq_nil rfl fun _ => rfl
  · rfl

theorem loads_leaves (v : PyVal) : (leaves v).loads = [] := by
  unfold leaves
  split <;> rfl

theorem loads_hashInto (acc : List PyKey) (v : PyVal) : (hashInto acc v).loads = [] := by
  unfold hashInto
  split <;> rfl

theorem loads_hashAllInto (acc : List PyKey) (vs : List PyVal) :
    (hashAllInto acc vs).loads = [] := by
  induction vs generalizing acc with
  | nil => rfl
  | cons v vs ih => exact Deser.loads_bind_eq_nil (loads_hashInto acc v) ih

theorem loads_b64data (data : List (PyKey × PyVal)) : (b64data data).loads = [] :=
  Deser.loads_bind_eq_nil (loads_item _ _) loads_b64decode

theorem loads_deserializeNumpy (env : Env) (data : List (PyKey × PyVal)) :
    (deserializeNumpy env data).loads = [] := by
  unfold deserializeNumpy
  split
  · rfl
  · refine Deser.loads_bind_eq_nil (loads_b64data _) fun _ => ?_
    refine Deser.loads_bind_eq_nil (loads_item _ _) fun _ => ?_
    refine Deser.loads_bind_eq_nil rfl fun _ => ?_
    exact Deser.loads_bind_eq_nil (loads_item _ _) fun _ => rfl

theorem loads_deserializeTensor (env : Env) (data : List (PyKey × PyVal)) :
    (deserializeTensor env data).loads = [] := by
  unfold deserializeTensor
  split
  · refine Deser.loads_bind_eq_nil (loads_b64data _) fun _ => ?_
    refine Deser.loads_bind_eq_nil rfl fun _ => ?_
    refine Deser.loads_bind_eq_nil (loads_item _ _) fun _ => ?_
    exact Deser.loads_bind_eq_nil rfl fun _ => rfl
  · exact loads_deserializeNumpy env data

/-! ### Lists, sets and dictionaries -/

theorem inOrder_list (env : Env) (xs : List PyVal) :
    InOrder env (deserializeList env xs) True xs fun _ => True := by
  induction xs with
  | nil => exact .pure []
  | cons x xs ih => exact .cons (fun v _ => ih.map _) fun v h => absurd trivial h

theorem inOrder_items (env : Env) (items : List (PyKey × PyVal)) :
    InOrder env (deserializeItems env items) True (items.map Prod.snd) fun _ => True := by
  induction items with
  | nil => exact .pure []
  | cons e rest ih => exact .cons (fun v _ => ih.map _) fun v h => absurd trivial h

theorem hashInto_of_hasHash (acc : List PyKey) {v : PyVal} (h : hasHash v = true) :
    ∃ k, hashInto acc v = Pure.pure (PyVal.addToSet acc k) := by
  obtain ⟨k, hk⟩ := Option.isSome_iff_exists.1 h
  exact ⟨k, by rw [hashInto, hk]⟩

theorem out_hashInto_of_not {acc acc' : List PyKey} {v : PyVal} (h : ¬ hasHash v = true) :
    (hashInto acc v).out ≠ .ok acc' := by
  unfold hasHash at h
  rw [Bool.not_eq_true, Option.isSome_eq_false_iff, Option.isNone_iff_eq_none] at h
  rw [hashInto, h]
  exact nofun

theorem inOrder_set (env : Env) (xs : List PyVal) (acc : List PyKey) :
    InOrder env (deserializeSet env xs acc) True xs fun v => hasHash v = true := by
  induction xs generalizing acc with
  | nil => exact .pure acc
  | cons x xs ih =>
    refine .cons (fun v h => ?_) fun v h => ⟨?_, ?_⟩
    · obtain ⟨k, hk⟩ := hashInto_of_hasHash acc h
      rw [hk]
      exact ih _
    · change (Deser.bind (hashInto acc v) _).loads = []
      unfold Deser.bind
      cases hx : (hashInto acc v).out with
      | error e => exact loads_hashInto acc v
      | ok acc' => exact absurd hx (out_hashInto_of_not h)
    · rintro ⟨a, ha⟩
      obtain ⟨acc', hx, -⟩ := Deser.out_bind_eq_ok.1 ha
      exact out_hashInto_of_not h hx

theorem out_hashAllInto_iff (acc : List PyKey) (vs : List PyVal) :
    (∃ a, (hashAllInto acc vs).out = .ok a) ↔ vs.all hasHash = true := by
  induction vs generalizing acc with
  | nil => exact iff_of_true ⟨acc, rfl⟩ rfl
  | cons v vs ih =>
    rw [hashAllInto, List.all_cons, Bool.and_eq_true]
    simp only [Deser.out_bind_eq_ok]
    by_cases h : hasHash v = true
    · obtain ⟨k, hk⟩ := hashInto_of_hasHash acc h
      rw [hk, ← ih (PyVal.addToSet acc k)]
      constructor
      · rintro ⟨a, acc', same, ok⟩
        cases same
        exact ⟨h, a, ok⟩
      · rintro ⟨-, a, ok⟩
        exact ⟨a, _, rfl, ok⟩
    · refine iff_of_false ?_ fun both => h both.1
      rintro ⟨a, acc', same, -⟩
      exact out_hashInto_of_not h same

/-- What is no list is run over without decoding anything. -/
theorem inOrder_leaves (env : Env) (x : PyVal) :
    InOrder env (leaves x) (spreads false x = true) [] (fun _ => True) ∧
      InOrder env (do hashAllInto [] (← leaves x)) (spreads true x = true) []
        fun v => hasHash v = true := by
  have hashed (vs : List PyVal) := out_hashAllInto_iff [] vs
  refine ⟨.quiet (loads_leaves x) ?_, .quiet (Deser.loads_bind_eq_nil (loads_leaves x)
    fun vs => loads_hashAllInto [] vs) ?_⟩
  · unfold spreads
    cases (leaves x).out <;> simp
  · simp only [Deser.out_bind_eq_ok]
    unfold spreads
    cases h : (leaves x).out with
    | error e => simp
    | ok vs => simp [hashed]

theorem inOrder_listOf (env : Env) (x : PyVal) :
    InOrder env (listOf env x) (iterable false x = true) (elements x) fun _ => True := by
  cases x with
  | list xs => exact (inOrder_list env xs).congr (iff_of_true trivial rfl) fun _ => Iff.rfl
  | tuple xs => exact (inOrder_list env xs).congr (iff_of_true trivial rfl) fun _ => Iff.rfl
  | atom a => exact (inOrder_leaves env (.atom a)).1
  | set xs => exact (inOrder_leaves env (.set xs)).1
  | dict items => exact (inOrder_leaves env (.dict items)).1
  | ndarray arr => exact (inOrder_leaves env (.ndarray arr)).1

theorem inOrder_setOf (env : Env) (x : PyVal) :
    InOrder env (setOf env x) (iterable true x = true) (elements x)
      fun v => hasHash v = true := by
  cases x with
  | list xs => exact (inOrder_set env xs []).congr (iff_of_true trivial rfl) fun _ => Iff.rfl
  | tuple xs => exact (inOrder_set env xs []).congr (iff_of_true trivial rfl) fun _ => Iff.rfl
  | atom a => exact (inOrder_leaves env (.atom a)).2
  | set xs => exact (inOrder_leaves env (.set xs)).2
  | dict items => exact (inOrder_leaves env (.dict items)).2
  | ndarray arr => exact (inOrder_leaves env (.ndarray arr)).2

theorem inOrder_itemsOf (env : Env) (x : PyVal) :
    InOrder env (itemsOf env x) (isDict x = true) (entries x) fun _ => True := by
  cases x with
  | dict items => exact (inOrder_items env items).congr (iff_of_true trivial rfl) fun _ => Iff.rfl
  | _ => exact .quiet rfl (iff_of_false (by rintro ⟨a, ⟨⟩⟩) nofun)

/-- A field that may be missing. -/
theorem inOrder_field {env : Env} {α : Type} {good : PyVal → Prop} {read : PyVal → Deser α} {a : α}
    {fit : PyVal → Bool} {parts : PyVal → List PyVal}
    (h : ∀ x, InOrder env (read x) (fit x = true) (parts x) good) (field : Option PyVal) :
    InOrder env (match field with
      | some x => read x
      | none => pure a) (field.all fit = true) ((field.map parts).getD []) good := by
  cases field with
  | none => exact (InOrder.pure a).congr (iff_of_true trivial rfl) fun _ => Iff.rfl
  | some x => exact h x

/-- What the values of the parts must be like. -/
def Good (v a : PyVal) : Prop := ofSet v = true → hasHash a = true

/-- Payloads whose parts are decoded. -/
def isContainer : PyVal → Bool
  | .list _ => true
  | .dict data => tagOf data ∈ [Tag.untagged, .list, .dict, .set]
  | _ => false

theorem inOrder_container (env : Env) (I : Imports) {v : PyVal} (h : isContainer v = true) :
    InOrder env (deserializeResult env v) (fits I v = true) (parts v) (Good v) := by
  cases v with
  | list xs => exact ((inOrder_list env xs).map _).congr (iff_of_true trivial rfl) fun a =>
      iff_of_true trivial nofun
  | dict data =>
    have good (other : tagOf data ≠ .set) (a : PyVal) : True ↔ Good (.dict data) a :=
      iff_of_true trivial fun set => absurd (of_decide_eq_true set) other
    rw [deserialize_dict]
    cases tag : tagOf data with
    | untagged =>
      rw [fits, parts, tag]
      exact ((inOrder_items env data).map _).congr (iff_of_true trivial rfl)
        (good (by simp [tag]))
    | list =>
      rw [fits, parts, tag, deserializeAs, listOfField_eq]
      exact ((inOrder_field (inOrder_listOf env) _).map _).congr Iff.rfl (good (by simp [tag]))
    | dict =>
      rw [fits, parts, tag, deserializeAs, itemsOfField_eq]
      exact ((inOrder_field (inOrder_itemsOf env) _).map _).congr Iff.rfl (good (by simp [tag]))
    | set =>
      rw [fits, parts, tag, deserializeAs, setOfField_eq]
      refine ((inOrder_field (inOrder_setOf env) _).map _).congr Iff.rfl fun a => ?_
      exact (imp_iff_right (decide_eq_true tag)).symm
    | _ => simp [isContainer, tag] at h
  | _ => cases h

theorem parts_of_not_container {v : PyVal} (h : ¬ isContainer v = true) : parts v = [] := by
  cases v with
  | list xs => exact absurd rfl h
  | dict data =>
    rw [parts]
    cases tag : tagOf data with
    | untagged | list | dict | set => exact absurd (by simp [isContainer, tag]) h
    | _ => rfl
  | _ => rfl

theorem not_unpickles_of_container {v : PyVal} (h : isContainer v = true) (b : Bytes) :
    ¬ Unpickles v b := by
  rintro ⟨data, path, rfl, tag, -⟩
  simp [isContainer, tag] at h

theorem loads_deserializePickle (env : Env) (data : List (PyKey × PyVal)) (b : Bytes) :
    b ∈ (deserializePickle env data).loads ↔ ∃ path, classPath? data = some path ∧
      topModule path ∈ pickleAllowlist ∧ (b64data data).out = .ok b := by
  unfold deserializePickle
  cases classPath? data with
  | none => exact iff_of_false List.not_mem_nil (by rintro ⟨path, ⟨⟩, -⟩)
  | some path =>
    dsimp only
    split_ifs with allowed
    · change b ∈ (Deser.bind (b64data data) _).loads ↔ _
      unfold Deser.bind
      cases decoded : (b64data data).out with
      | error e => simp [loads_b64data]
      | ok b' =>
        rw [loads_b64data]
        simp [allowed, eq_comm]
    · refine iff_of_false List.not_mem_nil ?_
      rintro ⟨_, ⟨⟩, listed, -⟩
      exact allowed listed

/-- The bytes that decoding a payload unpickles are those of the payload itself or of a part that it
gets to. -/
theorem mem_loads_iff (env : Env) (v : PyVal) (b : Bytes) :
    b ∈ (deserializeResult env v).loads ↔
      Unpickles v b ∨ LoadsInOrder env (Good v) (parts v) b := by
  by_cases container : isContainer v = true
  · rw [(inOrder_container env ⟨false, false⟩ container).loads,
      or_iff_right (not_unpickles_of_container container b)]
  · rw [parts_of_not_container container, or_iff_left (not_loadsInOrder_nil _ b)]
    cases v with
    | list xs => exact absurd rfl container
    | dict data =>
      have tagged : Unpickles (.dict data) b ↔ tagOf data = .pickle ∧ ∃ path,
          classPath? data = some path ∧ topModule path ∈ pickleAllowlist ∧
            (b64data data).out = .ok b := by
        constructor
        · rintro ⟨_, path, ⟨⟩, tag, rest⟩
          exact ⟨tag, path, rest⟩
        · rintro ⟨tag, path, rest⟩
          exact ⟨data, path, rfl, tag, rest⟩
      have quiet {x : Deser PyVal} (loads : x.loads = []) (tag : tagOf data ≠ .pickle) :
          b ∈ x.loads ↔ Unpickles (.dict data) b := by
        rw [tagged, loads]
        exact iff_of_false List.not_mem_nil fun h => tag h.1
      rw [deserialize_dict]
      cases tag : tagOf data with
      | untagged | list | dict | set => exact absurd (by simp [isContainer, tag]) container
      | bytes =>
        exact quiet (Deser.loads_bind_eq_nil (loads_b64data data) fun _ => rfl) (by simp [tag])
      | complex =>
        refine quiet ?_ (by simp [tag])
        refine Deser.loads_bind_eq_nil (loads_item _ _) fun _ => ?_
        exact Deser.loads_bind_eq_nil (loads_item _ _) fun _ => loads_mkComplex _ _
      | ndarray => exact quiet (loads_deserializeNumpy env data) (by simp [tag])
      | tensor => exact quiet (loads_deserializeTensor env data) (by simp [tag])
      | pickle => rw [tagged, tag, deserializeAs, loads_deserializePickle, and_iff_right rfl]
      | repr => exact quiet rfl (by simp [tag])
      | other => exact quiet rfl (by simp [tag])
    | atom | tuple | set | ndarray =>
      exact iff_of_false List.not_mem_nil (by rintro ⟨_, _, ⟨⟩, _⟩)

/-! ### What is decoded is well-formed -/

theorem isOk_eq_true_iff {ε α : Type} {x : Except ε α} : x.isOk = true ↔ ∃ a, x = .ok a := by
  cases x <;> simp [Except.isOk, Except.toBool]

section Fits

variable {I : Imports} {data : List (PyKey × PyVal)}

theorem isFloat_iff {v : PyVal} : isFloat v = true ↔ ∃ f, toFloat? v = some (.ok f) := by
  rw [isFloat, Option.any_eq_true]
  constructor
  · rintro ⟨x, found, ok⟩
    obtain ⟨f, rfl⟩ := isOk_eq_true_iff.1 ok
    exact ⟨f, found⟩
  · rintro ⟨f, found⟩
    exact ⟨_, found, rfl⟩

theorem isFloat_of_mkComplex {real imag a : PyVal} (h : (mkComplex real imag).out = .ok a) :
    (isFloat real = true ∧ isFloat imag = true) ∧ hasHash a = true := by
  unfold mkComplex at h
  split at h
  · next re im hre him =>
    simp only [Deser.out_bind_eq_ok] at h
    obtain ⟨x, hx, y, hy, same⟩ := h
    obtain rfl : re = .ok x := hx
    obtain rfl : im = .ok y := hy
    obtain rfl := Except.ok.inj same
    exact ⟨⟨isFloat_iff.2 ⟨x, hre⟩, isFloat_iff.2 ⟨y, him⟩⟩, rfl⟩
  · cases h

theorem exists_mkComplex {real imag : PyVal} (hr : isFloat real = true)
    (hi : isFloat imag = true) : ∃ a, (mkComplex real imag).out = .ok a := by
  obtain ⟨re, hre⟩ := isFloat_iff.1 hr
  obtain ⟨im, him⟩ := isFloat_iff.1 hi
  refine ⟨.complex re im, ?_⟩
  rw [mkComplex, hre, him]
  rfl

theorem isBase64_iff : isBase64 data = true ↔ ∃ b, (b64data data).out = .ok b := isOk_eq_true_iff

theorem isArray_iff : isArray data = true ↔ (∃ b, (b64data data).out = .ok b) ∧
    (∃ v, PyVal.getStr "dtype" data = some v) ∧ ∃ v, PyVal.getStr "shape" data = some v := by
  rw [isArray, Bool.and_eq_true, Bool.and_eq_true, isBase64_iff, Option.isSome_iff_exists,
    Option.isSome_iff_exists, and_assoc]

/-- What an array needs if NumPy is there, and what decoding it gives. -/
theorem fits_numpy (has : env.Has I) {a : PyVal} (h : (deserializeNumpy env data).out = .ok a) :
    (!I.numpy || isArray data) = true ∧ hasHash a = false := by
  unfold deserializeNumpy at h
  split at h
  · next absent =>
    have none : I.numpy = false := by rw [← has.numpy, absent]; rfl
    obtain rfl := Except.ok.inj h
    exact ⟨by rw [none]; rfl, rfl⟩
  · next np present =>
    simp only [Deser.out_bind_eq_ok, item_eq_ok_iff] at h
    obtain ⟨b, decoded, dtype, hd, arr, -, shape, hs, reshaped⟩ := h
    refine ⟨?_, ?_⟩
    · rw [isArray_iff.2 ⟨⟨b, decoded⟩, ⟨dtype, hd⟩, shape, hs⟩, Bool.or_true]
    · rw [hasHash, has.unhashable np present arr shape a reshaped]
      rfl

theorem fits_tensor (has : env.Has I) {a : PyVal} (h : (deserializeTensor env data).out = .ok a) :
    (if (I.torch && I.numpy) = true then isBase64 data && (PyVal.getStr "shape" data).isSome
      else !I.numpy || isArray data) = true ∧ (hasHash a = true → (I.torch && I.numpy) = true) := by
  unfold deserializeTensor at h
  split at h
  · next fromNumpy np torch numpy =>
    have both : (I.torch && I.numpy) = true := by
      rw [← has.torch, ← has.numpy, torch, numpy]
      rfl
    simp only [Deser.out_bind_eq_ok, item_eq_ok_iff] at h
    obtain ⟨b, decoded, arr, -, shape, hs, -⟩ := h
    rw [if_pos both, isBase64_iff.2 ⟨b, decoded⟩, hs]
    exact ⟨rfl, fun _ => both⟩
  · next absent =>
    have one : ¬ (I.torch && I.numpy) = true := by
      rw [← has.torch, ← has.numpy, Bool.and_eq_true, Option.isSome_iff_exists,
        Option.isSome_iff_exists]
      rintro ⟨⟨fromNumpy, torch⟩, np, numpy⟩
      exact absent fromNumpy np torch numpy
    obtain ⟨fit, bare⟩ := fits_numpy has h
    rw [if_neg one]
    exact ⟨fit, fun hash => absurd hash (by simp [bare])⟩

theorem fits_pickle {a : PyVal} (h : (deserializePickle env data).out = .ok a) :
    ((classPath? data).any fun path => topModule path ∉ pickleAllowlist || isBase64 data) = true ∧
      (hasHash a = true → ((classPath? data).any fun path => topModule path ∈ pickleAllowlist) =
        true) := by
  unfold deserializePickle at h
  cases named : classPath? data with
  | none =>
    rw [named] at h
    cases h
  | some path =>
    rw [named] at h
    dsimp only at h
    split_ifs at h with listed
    · obtain ⟨b, decoded, -⟩ := Deser.out_bind_eq_ok.1 h
      simp [listed, isBase64_iff.2 ⟨b, decoded⟩]
    · obtain rfl := Except.ok.inj h
      simp [listed, hasHash, PyVal.toKey?]

theorem fits_tagged (has : env.Has I) {a : PyVal}
    (h : (deserializeAs env data (tagOf data)).out = .ok a) (leaf : tagOf data ∉
      [Tag.untagged, .list, .dict, .set]) : fits I (.dict data) = true ∧
        (hasHash a = true → mayHash I (.dict data) = true) := by
  rw [fits, mayHash]
  cases tag : tagOf data with
  | untagged | list | dict | set => exact absurd (by simp [tag]) leaf
  | bytes =>
    rw [tag] at h
    obtain ⟨b, decoded, -⟩ := Deser.out_bind_eq_ok.1 h
    exact ⟨isBase64_iff.2 ⟨b, decoded⟩, fun _ => rfl⟩
  | complex =>
    rw [tag] at h
    simp only [deserializeAs, Deser.out_bind_eq_ok, item_eq_ok_iff] at h
    obtain ⟨real, hr, imag, hi, made⟩ := h
    obtain ⟨⟨fr, fi⟩, -⟩ := isFloat_of_mkComplex made
    refine ⟨?_, fun _ => rfl⟩
    rw [hr, hi, Option.any_some, Option.any_some, fr, fi]
    rfl
  | ndarray =>
    rw [tag] at h
    obtain ⟨fit, bare⟩ := fits_numpy has h
    exact ⟨fit, fun hash => absurd hash (by simp [bare])⟩
  | tensor =>
    rw [tag] at h
    exact fits_tensor has h
  | pickle =>
    rw [tag] at h
    exact fits_pickle h
  | repr =>
    rw [tag] at h
    obtain rfl := Except.ok.inj h
    exact ⟨rfl, id⟩
  | other =>
    rw [tag] at h
    obtain rfl := Except.ok.inj h
    exact ⟨rfl, nofun⟩

theorem bare_of_container {v a : PyVal} (container : isContainer v = true)
    (h : (deserializeResult env v).out = .ok a) : hasHash a = false := by
  cases v with
  | list xs =>
    obtain ⟨vs, -, same⟩ := Deser.out_bind_eq_ok.1 h
    obtain rfl := Except.ok.inj same
    rfl
  | dict data =>
    rw [deserialize_dict] at h
    cases tag : tagOf data with
    | untagged | list | dict | set =>
      rw [tag] at h
      obtain ⟨vs, -, same⟩ := Deser.out_bind_eq_ok.1 h
      obtain rfl := Except.ok.inj same
      rfl
    | _ => simp [isContainer, tag] at container
  | _ => cases container

/-- What was decoded has what it needs, and its value has a hash only if it may. -/
theorem fits_of_ok (has : env.Has I) {v a : PyVal} (h : (deserializeResult env v).out = .ok a) :
    (fits I v = true ∧ ∀ x ∈ parts v, Passes env (Good v) x) ∧
      (hasHash a = true → mayHash I v = true) := by
  by_cases container : isContainer v = true
  · refine ⟨(inOrder_container env I container).ok.1 ⟨a, h⟩, fun hash => ?_⟩
    exact absurd hash (by simp [bare_of_container container h])
  · have alone : ∀ x ∈ parts v, Passes env (Good v) x := by simp [parts_of_not_container container]
    cases v with
    | list xs => exact absurd rfl container
    | dict data =>
      rw [deserialize_dict] at h
      obtain ⟨fit, hash⟩ := fits_tagged has h fun mem => container (decide_eq_true mem)
      exact ⟨⟨fit, alone⟩, hash⟩
    | atom | tuple | set | ndarray =>
      obtain rfl := Except.ok.inj h
      exact ⟨⟨rfl, alone⟩, id⟩

end Fits

/-! ### Whole payloads -/

theorem exists_of_getStr {key : String} {data : List (PyKey × PyVal)} {v : PyVal}
    (h : PyVal.getStr key data = some v) : ∃ e ∈ data, e.2 = v := by
  obtain ⟨e, found, same⟩ := Option.map_eq_some_iff.1 h
  exact ⟨e, List.mem_of_find?_eq_some found, same⟩

/-- The parts of an object are in its entries or one level below. -/
theorem mem_parts_dict {data : List (PyKey × PyVal)} {x : PyVal} (h : x ∈ parts (.dict data)) :
    ∃ e ∈ data, x = e.2 ∨ x ∈ elements e.2 ∨ x ∈ entries e.2 := by
  have field {key : String} {inner : PyVal → List PyVal}
      (mem : x ∈ ((PyVal.getStr key data).map inner).getD []) : ∃ e ∈ data, x ∈ inner e.2 := by
    cases found : PyVal.getStr key data with
    | none =>
      rw [found] at mem
      cases mem
    | some v =>
      obtain ⟨e, he, rfl⟩ := exists_of_getStr found
      rw [found] at mem
      exact ⟨e, he, mem⟩
  rw [parts] at h
  cases tag : tagOf data with
  | untagged =>
    rw [tag] at h
    obtain ⟨e, he, rfl⟩ := List.mem_map.1 h
    exact ⟨e, he, .inl rfl⟩
  | list =>
    rw [tag] at h
    obtain ⟨e, he, mem⟩ := field h
    exact ⟨e, he, .inr (.inl mem)⟩
  | set =>
    rw [tag] at h
    obtain ⟨e, he, mem⟩ := field h
    exact ⟨e, he, .inr (.inl mem)⟩
  | dict =>
    rw [tag] at h
    obtain ⟨e, he, mem⟩ := field h
    exact ⟨e, he, .inr (.inr mem)⟩
  | _ =>
    rw [tag] at h
    cases h

/-- Induction from the parts of a payload to the payload. -/
theorem parts_induction {Q : PyVal → Prop} (step : ∀ v, (∀ x ∈ parts v, Q x) → Q v) (v : PyVal) :
    Q v := by
  suffices h : Q v ∧ (∀ x ∈ elements v, Q x) ∧ ∀ x ∈ entries v, Q x from h.1
  have alone {v : PyVal} (none : parts v = []) : Q v := step v (by simp [none])
  induction v using PyVal.inductionOn with
  | atom a => exact ⟨alone rfl, by simp [elements], by simp [entries]⟩
  | set xs => exact ⟨alone rfl, by simp [elements], by simp [entries]⟩
  | ndarray arr => exact ⟨alone rfl, by simp [elements], by simp [entries]⟩
  | list xs ih => exact ⟨step _ fun x h => (ih x h).1, fun x h => (ih x h).1, by simp [entries]⟩
  | tuple xs ih => exact ⟨alone rfl, fun x h => (ih x h).1, by simp [entries]⟩
  | dict items ih =>
    refine ⟨step _ fun x h => ?_, by simp [elements], fun x h => ?_⟩
    · obtain ⟨e, he, rfl | mem | mem⟩ := mem_parts_dict h
      · exact (ih e he).1
      · exact (ih e he).2.1 x mem
      · exact (ih e he).2.2 x mem
    · obtain ⟨e, he, rfl⟩ := List.mem_map.1 h
      exact (ih e he).1

section Trust

variable {I : Imports}

/-- What the decoder can read is sound. -/
theorem sound_of_ok (has : env.Has I) {v : PyVal} :
    ∀ {a}, (deserializeResult env v).out = .ok a → Sound I v := by
  induction v using parts_induction with
  | step v ih =>
    intro a h
    obtain ⟨⟨fit, passed⟩, -⟩ := fits_of_ok has h
    refine ⟨fit, fun x hx => ?_, fun set x hx => ?_⟩
    · obtain ⟨b, read, -⟩ := passed x hx
      exact ih x hx read
    · obtain ⟨b, read, hash⟩ := passed x hx
      exact (fits_of_ok has read).2 (hash set)

/-- What is unpickled belongs to an object that is met. -/
theorem meets_of_loads (has : env.Has I) {v : PyVal} {b : Bytes} :
    b ∈ (deserializeResult env v).loads → ∃ w, Meets I v w ∧ Unpickles w b := by
  induction v using parts_induction with
  | step v ih =>
    intro h
    rcases (mem_loads_iff env v b).1 h with own | ⟨before, x, after, split, passed, mem⟩
    · exact ⟨v, .here v, own⟩
    · obtain ⟨w, met, unpickles⟩ := ih x (by simp [split]) mem
      refine ⟨w, .part split (fun y hy => ?_) (fun set y hy => ?_) met, unpickles⟩
      · obtain ⟨a, read, -⟩ := passed y hy
        exact sound_of_ok has read
      · obtain ⟨a, read, hash⟩ := passed y hy
        exact (fits_of_ok has read).2 (hash set)

/-- Libraries that accept everything. -/
def permissive (I : Imports) : Env where
  pickleLoads _ := .ok .none
  numpy :=
    if I.numpy then some ⟨fun _ _ => .ok .none, fun _ _ => .ok (.ndarray ⟨"", [], []⟩)⟩ else none
  torch := if I.torch then some fun _ => .ok .none else none

theorem has_permissive (I : Imports) : (permissive I).Has I := by
  obtain ⟨numpy, torch⟩ := I
  refine ⟨by cases numpy <;> rfl, by cases torch <;> rfl, fun np present arr shape v h => ?_⟩
  cases numpy with
  | false => cases present
  | true =>
    obtain rfl := Option.some.inj present
    obtain rfl := Except.ok.inj h
    rfl

theorem exists_numpy {data : List (PyKey × PyVal)} (fit : (!I.numpy || isArray data) = true) :
    ∃ a, (deserializeNumpy (permissive I) data).out = .ok a := by
  obtain ⟨numpy, torch⟩ := I
  cases numpy with
  | false => exact ⟨.dict data, rfl⟩
  | true =>
    obtain ⟨⟨b, decoded⟩, ⟨dtype, hd⟩, shape, hs⟩ := isArray_iff.1 fit
    refine ⟨.ndarray ⟨"", [], []⟩, ?_⟩
    show (b64data data >>= fun b => _).out = _
    simp only [Deser.out_bind_eq_ok, item_eq_ok_iff]
    exact ⟨b, decoded, dtype, hd, .none, rfl, shape, hs, rfl⟩

theorem exists_tensor {data : List (PyKey × PyVal)}
    (fit : (if (I.torch && I.numpy) = true then isBase64 data && (PyVal.getStr "shape" data).isSome
      else !I.numpy || isArray data) = true) :
    ∃ a, (deserializeTensor (permissive I) data).out = .ok a ∧
      ((I.torch && I.numpy) = true → hasHash a = true) := by
  obtain ⟨numpy, torch⟩ := I
  by_cases both : (torch && numpy) = true
  · rw [if_pos both, Bool.and_eq_true, isBase64_iff, Option.isSome_iff_exists] at fit
    obtain ⟨⟨b, decoded⟩, shape, hs⟩ := fit
    obtain ⟨rfl, rfl⟩ := Bool.and_eq_true_iff.1 both
    refine ⟨.none, ?_, fun _ => rfl⟩
    show (b64data data >>= fun b => _).out = _
    simp only [Deser.out_bind_eq_ok, item_eq_ok_iff]
    exact ⟨b, decoded, .none, rfl, shape, hs, _, rfl, rfl⟩
  · rw [if_neg both] at fit
    have plain : deserializeTensor (permissive ⟨numpy, torch⟩) data =
        deserializeNumpy (permissive ⟨numpy, torch⟩) data := by
      cases numpy with
      | false => cases torch <;> rfl
      | true =>
        cases torch with
        | false => rfl
        | true => exact absurd rfl both
    obtain ⟨a, read⟩ := exists_numpy fit
    exact ⟨a, plain ▸ read, fun h => absurd h both⟩

theorem exists_pickle {data : List (PyKey × PyVal)}
    (fit : ((classPath? data).any fun path => topModule path ∉ pickleAllowlist || isBase64 data) =
      true) : ∃ a, (deserializePickle (permissive I) data).out = .ok a ∧
        (((classPath? data).any fun path => topModule path ∈ pickleAllowlist) = true →
          hasHash a = true) := by
  obtain ⟨path, named, h⟩ := (Option.any_eq_true ..).1 fit
  rw [named]
  unfold deserializePickle
  rw [named]
  dsimp only
  by_cases listed : topModule path ∈ pickleAllowlist
  · have base64 : isBase64 data = true := by simpa [listed] using h
    obtain ⟨b, decoded⟩ := isBase64_iff.1 base64
    rw [if_pos listed]
    exact ⟨.none, Deser.out_bind_eq_ok.2 ⟨b, decoded, rfl⟩, fun _ => rfl⟩
  · rw [if_neg listed]
    exact ⟨.dict data, rfl, fun may => absurd may (by simp [listed])⟩

theorem mayHash_of_container {v : PyVal} (container : isContainer v = true) :
    mayHash I v = false := by
  cases v with
  | list xs => rfl
  | dict data =>
    rw [mayHash]
    cases tag : tagOf data with
    | untagged | list | dict | set => rfl
    | _ => simp [isContainer, tag] at container
  | _ => cases container

theorem ok_of_fits_tagged {data : List (PyKey × PyVal)} (fit : fits I (.dict data) = true)
    (leaf : tagOf data ∉ [Tag.untagged, .list, .dict, .set]) :
    ∃ a, (deserializeAs (permissive I) data (tagOf data)).out = .ok a ∧
      (mayHash I (.dict data) = true → hasHash a = true) := by
  rw [fits] at fit
  rw [mayHash]
  cases tag : tagOf data with
  | untagged | list | dict | set => exact absurd (by simp [tag]) leaf
  | bytes =>
    rw [tag] at fit
    obtain ⟨b, decoded⟩ := isBase64_iff.1 fit
    exact ⟨.bytes b, Deser.out_bind_eq_ok.2 ⟨b, decoded, rfl⟩, fun _ => rfl⟩
  | complex =>
    rw [tag] at fit
    obtain ⟨hr, hi⟩ := Bool.and_eq_true_iff.1 fit
    obtain ⟨real, found, fr⟩ := (Option.any_eq_true ..).1 hr
    obtain ⟨imag, found', fi⟩ := (Option.any_eq_true ..).1 hi
    obtain ⟨a, made⟩ := exists_mkComplex fr fi
    refine ⟨a, ?_, fun _ => (isFloat_of_mkComplex made).2⟩
    simp only [deserializeAs, Deser.out_bind_eq_ok, item_eq_ok_iff]
    exact ⟨real, found, imag, found', made⟩
  | ndarray =>
    rw [tag] at fit
    obtain ⟨a, read⟩ := exists_numpy fit
    exact ⟨a, read, nofun⟩
  | tensor =>
    rw [tag] at fit
    exact exists_tensor fit
  | pickle =>
    rw [tag] at fit
    exact exists_pickle fit
  | repr => exact ⟨_, rfl, id⟩
  | other => exact ⟨_, rfl, nofun⟩

/-- They decode what has all that it needs. -/
theorem ok_of_fits {v : PyVal} (fit : fits I v = true)
    (each : ∀ x ∈ parts v, Passes (permissive I) (Good v) x) :
    ∃ a, (deserializeResult (permissive I) v).out = .ok a ∧
      (mayHash I v = true → hasHash a = true) := by
  by_cases container : isContainer v = true
  · obtain ⟨a, read⟩ := (inOrder_container (permissive I) I container).ok.2 ⟨fit, each⟩
    exact ⟨a, read, fun may => absurd may (by simp [mayHash_of_container container])⟩
  · cases v with
    | list xs => exact absurd rfl container
    | dict data =>
      rw [deserialize_dict]
      exact ok_of_fits_tagged fit fun mem => container (decide_eq_true mem)
    | atom | tuple | set | ndarray => exact ⟨_, rfl, id⟩

theorem ok_of_sound {v : PyVal} (h : Sound I v) :
    ∃ a, (deserializeResult (permissive I) v).out = .ok a ∧
      (mayHash I v = true → hasHash a = true) := by
  induction h with
  | intro fit each hashes ih =>
    refine ok_of_fits fit fun x hx => ?_
    obtain ⟨a, read, hash⟩ := ih x hx
    exact ⟨a, read, fun set => hash (hashes set x hx)⟩

/-- They unpickle what any object that is met carries. -/
theorem loads_of_meets {v w : PyVal} {b : Bytes} (h : Meets I v w) (unpickles : Unpickles w b) :
    b ∈ (deserializeResult (permissive I) v).loads := by
  induction h with
  | here v => exact (mem_loads_iff _ v b).2 (.inl unpickles)
  | part split each hashes next ih =>
    refine (mem_loads_iff _ _ b).2 (.inr ⟨_, _, _, split, fun y hy => ?_, ih unpickles⟩)
    obtain ⟨a, read, hash⟩ := ok_of_sound (each y hy)
    exact ⟨a, read, fun set => hash (hashes set y hy)⟩

end Trust

/-- Whatever NumPy, PyTorch and unpickling return, the decoder hands only bytes to `pickle.loads`
that load no module outside the allowlist, exactly when no object that it gets to pairs an
allow-listed class with other bytes. -/
theorem loads_allowed_iff (modules : Bytes → List String) (I : Imports) (payload : JsonText) :
    (∀ env : Env, env.Has I → ∀ b ∈ (deserializeResult env payload.loads).loads,
        ∀ m ∈ modules b, topModule m ∈ pickleAllowlist) ↔
      ∀ v, Meets I payload.loads v → ¬ Mislabelled modules v := by
  constructor
  · rintro safe v met ⟨b, unpickles, m, hm, other⟩
    exact other (safe _ (has_permissive I) b (loads_of_meets met unpickles) m hm)
  · intro labelled env has b hb m hm
    obtain ⟨v, met, unpickles⟩ := meets_of_loads has hb
    by_contra other
    exact labelled v met ⟨b, unpickles, m, hm, other⟩

/-- `cos\nsystem\n(S'id'\ntR.`, the pickle that calls `os.system('id')`. -/
def osSystemPickle : Bytes :=
  [99, 111, 115, 10, 115, 121, 115, 116, 101, 109, 10, 40, 83, 39, 105, 100, 39, 10, 116, 82, 46]

/-- That pickle, labelled with an allow-listed class and nested in a list. -/
def mislabelled : JsonText :=
  .arr [.obj [("__type__", .str "pickle"), ("class", .str "datetime.date"),
    ("data", .str "Y29zCnN5c3RlbQooUydpZCcKdFIu")]]

theorem mislabelled_is_unpickled :
    ¬ ∀ payload : JsonText, ∀ b ∈ (deserializeResult ⟨fun _ => .ok (.int 0), none, none⟩
        payload.loads).loads,
      ∀ m ∈ (fun b => if b = osSystemPickle then ["os"] else []) b,
        topModule m ∈ pickleAllowlist := by
  intro h
  have unpickled : (deserializeResult ⟨fun _ => .ok (.int 0), none, none⟩ mislabelled.loads).loads =
      [osSystemPickle] := by decide
  have := h mislabelled osSystemPickle (by rw [unpickled]; exact List.mem_singleton_self _) "os"
    (by decide)
  exact absurd this (by decide)

end Cpip.Serialization
