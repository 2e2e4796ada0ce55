import Cpip.Python.Value

/-!
# `json.dumps` and `json.loads`

A JSON text is represented by the tree it spells (`JsonText`), in which an object may name a member
twice.  `PyText.dumps` turns dictionary keys that are not strings into strings and fails on keys it
cannot turn; `JsonText.loads` keeps the last of the members with one name.
-/

/-- The tree that a JSON text spells. -/
inductive JsonText where
  | null
  | bool (b : Bool)
  | int (i : ℤ)
  | float (f : PyFloat)
  | str (s : String)
  | arr (xs : List JsonText)
  | obj (members : List (String × JsonText))
  deriving Repr

/-- How Python spells the values whose spelling the program never looks into: `float.__repr__`, and
`str(value)`, which `json.dumps(..., default=str)` falls back to. -/
structure PyText where
  floatRepr : PyFloat → String
  str : PyVal → String

/-- The spelling that is empty throughout, for evaluating the program on concrete values. -/
def plainText : PyText := ⟨fun _ => "", fun _ => ""⟩

namespace JsonText

mutual

/-- `json.loads(text)`. -/
def loads : JsonText → PyVal
  | .null => .none
  | .bool b => .bool b
  | .int i => .int i
  | .float f => .float f
  | .str s => .str s
  | .arr xs => .list (loadsList xs)
  | .obj members =>
    .dict ((Dict.assignAll [] (loadsMembers members)).map fun e => (PyKey.str e.1, e.2))

def loadsList : List JsonText → List PyVal
  | [] => []
  | x :: xs => loads x :: loadsList xs

def loadsMembers : List (String × JsonText) → List (String × PyVal)
  | [] => []
  | (name, x) :: rest => (name, loads x) :: loadsMembers rest

end

/-- The entries of the dictionary that `json.loads` builds, as a function of the members. -/
def readMembers (ms : List (String × JsonText)) : List (PyKey × PyVal) :=
  (loadsMembers ms).map fun e => (PyKey.str e.1, e.2)

end JsonText

theorem except_bind_eq_ok {ε α β : Type} {x : Except ε α} {f : α → Except ε β} {b : β} :
    (x >>= f) = .ok b ↔ ∃ a, x = .ok a ∧ f a = .ok b := by
  cases x <;> simp [bind, Except.bind]

theorem except_map_eq_ok {ε α β : Type} {x : Except ε α} {f : α → β} {b : β} :
    x.map f = .ok b ↔ ∃ a, x = .ok a ∧ f a = b := by
  cases x <;> simp [Except.map]

namespace PyText

variable (py : PyText)

/-- `str(value)`, which is the value itself when it is a string. -/
def toStr : PyVal → String
  | .str s => s
  | v => py.str v

/-- The member name that `json.dumps` writes for a dictionary key, without the limit on the digits
of integers that `dumpsWithin` adds. -/
def memberName : PyKey → Except PyExc String
  | .atom (.str s) => .ok s
  | .atom (.float f) => .ok (py.floatRepr f)
  | .atom (.bool b) => .ok (if b then "true" else "false")
  | .atom .none => .ok "null"
  | .atom (.int i) => .ok (toString i)
  | _ => .error (.typeError "keys must be str, int, float, bool or None")

mutual

/-- `json.dumps(value, default=str)`, without the limit on the digits of integers that `dumpsWithin`
adds. -/
def dumps : PyVal → Except PyExc JsonText
  | .atom .none => .ok .null
  | .atom (.bool b) => .ok (.bool b)
  | .atom (.int i) => .ok (.int i)
  | .atom (.float f) => .ok (.float f)
  | .atom (.str s) => .ok (.str s)
  | .list xs => (dumpsList xs).map .arr
  | .tuple xs => (dumpsList xs).map .arr
  | .dict items => (dumpsItems items).map .obj
  | v => .ok (.str (py.str v))

def dumpsList : List PyVal → Except PyExc (List JsonText)
  | [] => .ok []
  | x :: xs => do
    let t ← dumps x
    let ts ← dumpsList xs
    return t :: ts

def dumpsItems : List (PyKey × PyVal) → Except PyExc (List (String × JsonText))
  | [] => .ok []
  | (k, v) :: rest => do
    let name ← py.memberName k
    let t ← dumps v
    let ts ← dumpsItems rest
    return (name, t) :: ts

end

/-! ## What `dumps` returns -/

theorem dumpsList_cons_eq_ok {x : PyVal} {xs : List PyVal} {ts : List JsonText} :
    py.dumpsList (x :: xs) = .ok ts ↔
      ∃ t ts', py.dumps x = .ok t ∧ py.dumpsList xs = .ok ts' ∧ ts = t :: ts' := by
  simp only [PyText.dumpsList, except_bind_eq_ok]
  constructor
  · rintro ⟨t, ht, ts', hts, h⟩
    exact ⟨t, ts', ht, hts, (Except.ok.inj h).symm⟩
  · rintro ⟨t, ts', ht, hts, rfl⟩
    exact ⟨t, ht, ts', hts, rfl⟩

theorem dumpsItems_cons_eq_ok {k : PyKey} {x : PyVal} {rest : List (PyKey × PyVal)}
    {ms : List (String × JsonText)} :
    py.dumpsItems ((k, x) :: rest) = .ok ms ↔ ∃ name t ms', py.memberName k = .ok name ∧
      py.dumps x = .ok t ∧ py.dumpsItems rest = .ok ms' ∧ ms = (name, t) :: ms' := by
  simp only [PyText.dumpsItems, except_bind_eq_ok]
  constructor
  · rintro ⟨name, hn, t, ht, ms', hms, h⟩
    exact ⟨name, t, ms', hn, ht, hms, (Except.ok.inj h).symm⟩
  · rintro ⟨name, t, ms', hn, ht, hms, rfl⟩
    exact ⟨name, hn, t, ht, ms', hms, rfl⟩

theorem dumpsList_isOk_iff (xs : List PyVal) :
    (∃ ts, py.dumpsList xs = .ok ts) ↔ ∀ x ∈ xs, ∃ t, py.dumps x = .ok t := by
  induction xs with
  | nil => simp [dumpsList]
  | cons x xs ih =>
    rw [List.forall_mem_cons, ← ih]
    simp only [dumpsList_cons_eq_ok]
    constructor
    · rintro ⟨ts, t, ts', ht, hts, -⟩
      exact ⟨⟨t, ht⟩, ts', hts⟩
    · rintro ⟨⟨t, ht⟩, ts', hts⟩
      exact ⟨t :: ts', t, ts', ht, hts, rfl⟩

theorem dumpsItems_isOk_iff (items : List (PyKey × PyVal)) :
    (∃ ms, py.dumpsItems items = .ok ms) ↔
      ∀ e ∈ items, (∃ name, py.memberName e.1 = .ok name) ∧ ∃ t, py.dumps e.2 = .ok t := by
  induction items with
  | nil => simp [dumpsItems]
  | cons e rest ih =>
    obtain ⟨k, x⟩ := e
    rw [List.forall_mem_cons, ← ih]
    simp only [dumpsItems_cons_eq_ok]
    constructor
    · rintro ⟨ms, name, t, ms', hn, ht, hms, -⟩
      exact ⟨⟨⟨name, hn⟩, t, ht⟩, ms', hms⟩
    · rintro ⟨⟨⟨name, hn⟩, t, ht⟩, ms', hms⟩
      exact ⟨(name, t) :: ms', name, t, ms', hn, ht, hms, rfl⟩

theorem dumps_list_isOk_iff (xs : List PyVal) :
    (∃ t, py.dumps (.list xs) = .ok t) ↔ ∃ ts, py.dumpsList xs = .ok ts := by
  simp only [dumps, except_map_eq_ok]
  exact ⟨fun ⟨_, ts, h, _⟩ => ⟨ts, h⟩, fun ⟨ts, h⟩ => ⟨_, ts, h, rfl⟩⟩

theorem dumps_dict_isOk_iff (items : List (PyKey × PyVal)) :
    (∃ t, py.dumps (.dict items) = .ok t) ↔
      ∀ e ∈ items, (∃ name, py.memberName e.1 = .ok name) ∧ ∃ t, py.dumps e.2 = .ok t := by
  rw [← dumpsItems_isOk_iff]
  simp only [dumps, except_map_eq_ok]
  exact ⟨fun ⟨_, ms, h, _⟩ => ⟨ms, h⟩, fun ⟨ms, h⟩ => ⟨_, ms, h, rfl⟩⟩

/-- When the keys are strings, they are the names of the members. -/
theorem keys_readMembers {items : List (PyKey × PyVal)} {ms : List (String × JsonText)}
    (strings : ∀ k ∈ items.map Prod.fst, ∃ s, k = .str s)
    (hms : py.dumpsItems items = .ok ms) :
    (JsonText.readMembers ms).map Prod.fst = items.map Prod.fst := by
  induction items generalizing ms with
  | nil =>
    obtain rfl := Except.ok.inj hms
    rfl
  | cons e rest ih =>
    obtain ⟨k, x⟩ := e
    obtain ⟨s, rfl⟩ := strings k (by simp)
    obtain ⟨name, t, ms', hn, -, hms', rfl⟩ := py.dumpsItems_cons_eq_ok.1 hms
    obtain rfl := Except.ok.inj hn
    have := ih (fun k hk => strings k (by simp at hk ⊢; exact Or.inr hk)) hms'
    simp only [JsonText.readMembers, JsonText.loadsMembers, List.map_cons] at this ⊢
    rw [this]

/-- A dictionary with pairwise different string keys goes through JSON entry by entry. -/
theorem loads_of_stringKeys {items : List (PyKey × PyVal)} {ms : List (String × JsonText)}
    (strings : ∀ k ∈ items.map Prod.fst, ∃ s, k = .str s)
    (different : (items.map Prod.fst).Nodup) (hms : py.dumpsItems items = .ok ms) :
    ((Dict.assignAll [] (JsonText.loadsMembers ms)).map fun e => (PyKey.str e.1, e.2)) =
      JsonText.readMembers ms := by
  have hkeys := py.keys_readMembers strings hms
  have hnames : ((JsonText.readMembers ms).map Prod.fst).Nodup := hkeys ▸ different
  have hnodup : ((JsonText.loadsMembers ms).map Prod.fst).Nodup := by
    simp only [JsonText.readMembers, List.map_map] at hnames
    refine List.Nodup.of_map (fun s => PyKey.str s) ?_
    rw [List.map_map]
    exact hnames
  rw [Dict.assignAll_of_nodup (by simpa using hnodup), List.nil_append, JsonText.readMembers]

end PyText

/-! ## Round trips -/

namespace PyVal

/-- What `json.loads` can return at one place: no value of another type, and only dictionaries with
pairwise different string keys. -/
def IsJsonNode : PyVal → Prop
  | .none | .bool _ | .int _ | .float _ | .str _ | .list _ => True
  | .dict items => (∀ k ∈ items.map Prod.fst, ∃ s, k = .str s) ∧ (items.map Prod.fst).Nodup
  | _ => False

/-- What `json.dumps` writes at one place without asking a `default`. -/
def IsDumpableNode : PyVal → Prop
  | .none | .bool _ | .int _ | .float _ | .str _ | .list _ | .tuple _ | .dict _ => True
  | _ => False

instance : DecidablePred IsDumpableNode
  | .atom a =>
    match a with
    | .none | .bool _ | .int _ | .float _ | .str _ => isTrue trivial
    | .bytes _ | .complex _ _ | .object _ => isFalse id
  | .list _ | .tuple _ | .dict _ => isTrue trivial
  | .set _ | .ndarray _ => isFalse id

/-- What `json.loads` can return. -/
def IsJson (v : PyVal) : Prop := v.Everywhere IsJsonNode

theorem isJson_list {α : Type} {f : α → PyVal} {xs : List α} (h : ∀ x ∈ xs, (f x).IsJson) :
    (PyVal.list (xs.map f)).IsJson := by
  refine (everywhere_list_iff _).2 ⟨trivial, fun v hv => ?_⟩
  obtain ⟨x, hx, rfl⟩ := List.mem_map.1 hv
  exact h x hx

theorem isJson_strings (xs : List String) : (PyVal.list (xs.map .str)).IsJson :=
  isJson_list fun _ _ => trivial

end PyVal

namespace JsonText

mutual

/-- `json.loads` returns what it can return. -/
theorem isJson_loads : ∀ t : JsonText, t.loads.IsJson
  | .null | .bool _ | .int _ | .float _ | .str _ => trivial
  | .arr xs => (PyVal.everywhere_list_iff _).2 ⟨trivial, isJson_loadsList xs⟩
  | .obj members => by
    refine (PyVal.everywhere_dict_iff _).2 ⟨⟨fun k hk => ?_, ?_⟩, fun e he => ?_⟩
    · simp only [List.map_map, List.mem_map] at hk
      obtain ⟨e, -, rfl⟩ := hk
      exact ⟨e.1, rfl⟩
    · have nodup := Dict.nodup_assignAll (l := []) List.nodup_nil (loadsMembers members)
      have inj : Function.Injective PyKey.str := fun a b h => by cases h; rfl
      simpa [List.map_map, Function.comp_def] using nodup.map inj
    · obtain ⟨m, hm, rfl⟩ := List.mem_map.1 he
      rcases Dict.mem_assignAll hm with hm | hm
      · cases hm
      · exact isJson_loadsMembers members m hm

theorem isJson_loadsList : ∀ (xs : List JsonText), ∀ x ∈ loadsList xs, x.IsJson
  | [], _, h => nomatch h
  | t :: ts, x, h => by
    rcases List.mem_cons.1 h with rfl | h
    · exact isJson_loads t
    · exact isJson_loadsList ts x h

theorem isJson_loadsMembers :
    ∀ (ms : List (String × JsonText)), ∀ e ∈ loadsMembers ms, e.2.IsJson
  | [], _, h => nomatch h
  | (_, t) :: ms, e, h => by
    rcases List.mem_cons.1 h with rfl | h
    · exact isJson_loads t
    · exact isJson_loadsMembers ms e h

end

/-- The value of an object's field, as `json.loads(text).get(name)`. -/
def field (name : String) (t : JsonText) : Option PyVal :=
  match t.loads with
  | .dict items => PyVal.getStr name items
  | _ => none

theorem isJson_field (t : JsonText) {name : String} {v : PyVal} (h : t.field name = some v) :
    v.IsJson := by
  have json := t.isJson_loads
  unfold field at h
  split at h
  · rename_i items hitems
    rw [hitems] at json
    obtain ⟨e, he, rfl⟩ := Option.map_eq_some_iff.1 h
    exact ((PyVal.everywhere_dict_iff items).1 json).2 e (List.mem_of_find?_eq_some he)
  · cases h

end JsonText

namespace PyText

variable (py : PyText)

/-- `json.dumps(value)`. -/
def dumpsStrict (v : PyVal) : Except PyExc JsonText :=
  if v.Everywhere PyVal.IsDumpableNode then py.dumps v
  else .error (.typeError "Object is not JSON serializable")

theorem dumpsStrict_of_isJson {v : PyVal} (h : v.IsJson) : py.dumpsStrict v = py.dumps v := by
  refine if_pos (h.mono fun v hv => ?_)
  cases v with
  | atom a => cases a <;> trivial
  | list xs => trivial
  | tuple xs => trivial
  | dict items => trivial
  | set xs => exact hv.elim
  | ndarray a => exact hv.elim

theorem dumpsList_of_isJson {xs : List PyVal}
    (h : ∀ x ∈ xs, ∃ t, py.dumps x = .ok t ∧ t.loads = x) :
    ∃ ts, py.dumpsList xs = .ok ts ∧ JsonText.loadsList ts = xs := by
  induction xs with
  | nil => exact ⟨[], rfl, rfl⟩
  | cons x xs ih =>
    obtain ⟨t, ht, rfl⟩ := h x (List.mem_cons_self ..)
    obtain ⟨ts, hts, hxs⟩ := ih fun y hy => h y (List.mem_cons_of_mem _ hy)
    refine ⟨t :: ts, py.dumpsList_cons_eq_ok.2 ⟨t, ts, ht, hts, rfl⟩, ?_⟩
    simp [JsonText.loadsList, hxs]

theorem dumpsItems_of_isJson {items : List (PyKey × PyVal)}
    (strings : ∀ k ∈ items.map Prod.fst, ∃ s, k = .str s)
    (h : ∀ e ∈ items, ∃ t, py.dumps e.2 = .ok t ∧ t.loads = e.2) :
    ∃ ms, py.dumpsItems items = .ok ms ∧ JsonText.readMembers ms = items := by
  induction items with
  | nil => exact ⟨[], rfl, rfl⟩
  | cons e rest ih =>
    obtain ⟨k, x⟩ := e
    obtain ⟨s, rfl⟩ := strings k (List.mem_cons_self ..)
    obtain ⟨t, ht, hx⟩ := h _ (List.mem_cons_self ..)
    obtain ⟨ms, hms, hrest⟩ := ih (fun k hk => strings k (List.mem_cons_of_mem _ hk))
      fun e he => h e (List.mem_cons_of_mem _ he)
    refine ⟨(s, t) :: ms, py.dumpsItems_cons_eq_ok.2 ⟨s, t, ms, rfl, ht, hms, rfl⟩, ?_⟩
    dsimp only at hx
    subst hx
    conv => rhs; rw [← hrest]
    rfl

/-- `json.loads` inverts `json.dumps` on what it can return. -/
theorem loads_dumps {v : PyVal} (h : v.IsJson) : ∃ t, py.dumps v = .ok t ∧ t.loads = v := by
  induction v using PyVal.inductionOn with
  | atom a => cases a <;> first | exact ⟨_, rfl, rfl⟩ | exact h.elim
  | set xs => exact h.elim
  | ndarray a => exact h.elim
  | tuple xs => exact ((PyVal.everywhere_tuple_iff xs).1 h).1.elim
  | list xs ih =>
    have parts := ((PyVal.everywhere_list_iff xs).1 h).2
    obtain ⟨ts, hts, hxs⟩ := py.dumpsList_of_isJson fun x hx => ih x hx (parts x hx)
    exact ⟨.arr ts, by simp [dumps, hts, Except.map], by simp [JsonText.loads, hxs]⟩
  | dict items ih =>
    obtain ⟨⟨strings, different⟩, parts⟩ := (PyVal.everywhere_dict_iff items).1 h
    obtain ⟨ms, hms, hitems⟩ := py.dumpsItems_of_isJson strings fun e he => ih e he (parts e he)
    refine ⟨.obj ms, by simp [dumps, hms, Except.map], ?_⟩
    rw [JsonText.loads, py.loads_of_stringKeys strings different hms, hitems]

/-- A field of an encoded dictionary reads back as the field does by itself. -/
theorem field_of_dumps {items : List (PyKey × PyVal)} {t : JsonText}
    (strings : ∀ k ∈ items.map Prod.fst, ∃ s, k = .str s) (different : (items.map Prod.fst).Nodup)
    (ht : py.dumps (.dict items) = .ok t) {name : String} {v : PyVal}
    (hv : PyVal.getStr name items = some v) :
    ∃ u, py.dumps v = .ok u ∧ t.field name = some u.loads := by
  obtain ⟨ms, hms, rfl⟩ := except_map_eq_ok.1 ht
  rw [JsonText.field, JsonText.loads, py.loads_of_stringKeys strings different hms]
  show ∃ u, py.dumps v = .ok u ∧ PyVal.getStr name (JsonText.readMembers ms) = some u.loads
  clear different ht
  induction items generalizing ms with
  | nil => simp [PyVal.getItem] at hv
  | cons e rest ih =>
    obtain ⟨k, x⟩ := e
    obtain ⟨s, rfl⟩ := strings k (List.mem_cons_self ..)
    obtain ⟨_, u, ms', hs, hu, hms', rfl⟩ := py.dumpsItems_cons_eq_ok.1 hms
    obtain rfl := Except.ok.inj hs
    have hread : JsonText.readMembers ((s, u) :: ms') =
        (.str s, u.loads) :: JsonText.readMembers ms' := rfl
    rw [hread, PyVal.getStr_cons]
    rw [PyVal.getStr_cons] at hv
    split_ifs at hv ⊢ with hname
    · obtain rfl := Option.some.inj hv
      exact ⟨u, hu, rfl⟩
    · exact ih (fun k hk => strings k (List.mem_cons_of_mem _ hk)) hv ms' hms'

/-- A field that the dictionary does not have is none of the text either. -/
theorem field_of_dumps_eq_none {items : List (PyKey × PyVal)} {t : JsonText}
    (strings : ∀ k ∈ items.map Prod.fst, ∃ s, k = .str s) (different : (items.map Prod.fst).Nodup)
    (ht : py.dumps (.dict items) = .ok t) {name : String} (hv : PyVal.getStr name items = none) :
    t.field name = none := by
  obtain ⟨ms, hms, rfl⟩ := except_map_eq_ok.1 ht
  rw [JsonText.field, JsonText.loads, py.loads_of_stringKeys strings different hms]
  show PyVal.getStr name (JsonText.readMembers ms) = none
  clear different ht
  induction items generalizing ms with
  | nil =>
    obtain rfl := Except.ok.inj hms
    rfl
  | cons e rest ih =>
    obtain ⟨k, x⟩ := e
    obtain ⟨s, rfl⟩ := strings k (List.mem_cons_self ..)
    obtain ⟨_, u, ms', hs, -, hms', rfl⟩ := py.dumpsItems_cons_eq_ok.1 hms
    obtain rfl := Except.ok.inj hs
    have hread : JsonText.readMembers ((s, u) :: ms') =
        (.str s, u.loads) :: JsonText.readMembers ms' := rfl
    rw [hread, PyVal.getStr_cons]
    rw [PyVal.getStr_cons] at hv
    split_ifs at hv ⊢ with hname
    exact ih (fun k hk => strings k (List.mem_cons_of_mem _ hk)) hv ms' hms'

end PyText
