import Mathlib.Data.List.Basic
import Cpip.Lib.Machine
import Cpip.Python.Value

/-!
# Lazy modules (`virtualization/loader.py`)

`LazyModule` fetches the real module when an attribute is first missed, copies its dictionary into
its own, and asks it for what is still missed.  An action of a run is an access, or a change of
modules by other code.
-/

namespace Cpip

namespace LazyModule

inductive Value where
  | none
  | bool (b : Bool)
  | str (s : String)
  | module (m : ℕ)
  | other (n : ℕ)

/-- A `__dict__`. -/
abbrev Namespace := String → Option Value

/-- What the objects are to the program: whether a module or another object is true, and `str` of
one. -/
structure Objects where
  isTrue : Value → Bool
  str : Value → String

def Objects.truthy (objects : Objects) : Value → Bool
  | .none => false
  | .bool b => b
  | .str s => s ≠ ""
  | v => objects.isTrue v

/-- What the fetch function does. -/
inductive Fetched where
  | module (m : ℕ)
  | none
  | raises (e : PyExc)

/-- An access, with what the fetch function does if it is called, the modules that there are then,
and what the `__getattr__` of a module, or an object that is no module, gives for the name. -/
structure Access where
  name : String
  fetched : Fetched
  modules : ℕ → Namespace
  asked : Value → Except PyExc Value

/-- The dictionary of the lazy module and those of the modules, and what was fetched. -/
structure State where
  own : Namespace
  modules : ℕ → Namespace
  fetches : List Fetched

inductive Act where
  | access (a : Access)
  | elsewhere (modules : ℕ → Namespace)

/-- `name.startswith("_")`. -/
def isPrivate (name : String) : Bool := name.toList.head? = some '_'

/-- The dictionary after `__init__`. -/
def initOwn (name package : String) (fetchFunc : Value) : Namespace
  | "__name__" => some (.str name)
  | "__path__" => some (.other 0)
  | "__package__" => some (.str package)
  | "_fetch_func" => some fetchFunc
  | "_loaded" => some (.bool false)
  | "_real_module" => some .none
  | _ => Option.none

def init (name package : String) (fetchFunc : Value) (modules : ℕ → Namespace) : State :=
  ⟨initOwn name package fetchFunc, modules, []⟩

variable (objects : Objects)

namespace State

/-- Whether an attribute of the lazy module is there and true. -/
def holds (s : State) (name : String) : Bool := (s.own name).any objects.truthy

/-- `self.name = v`. -/
def setattr (s : State) (name : String) (v : Value) : State :=
  { s with own := Function.update s.own name (some v) }

/-- `self.__dict__.update(d)`. -/
def update (s : State) (d : Namespace) : State :=
  { s with own := fun name => (d name).or (s.own name) }

@[simp]
theorem setattr_fetches (s : State) (name : String) (v : Value) :
    (s.setattr name v).fetches = s.fetches := rfl

theorem setattr_own (s : State) (name : String) (v : Value) (attr : String) :
    (s.setattr name v).own attr = if attr = name then some v else s.own attr :=
  Function.update_apply ..

end State

/-- The message of a module that misses an attribute. -/
def noAttribute (d : Namespace) (name : String) : PyExc :=
  .attributeError ("module '" ++ ((d "__name__").map objects.str).getD "" ++
    "' has no attribute '" ++ name ++ "'")

/-- How `ModuleType` looks up an attribute: in the dictionary, then by the `__getattr__` in it. -/
def getattr (d : Namespace) (asked : Value → Except PyExc Value) (name : String) :
    Except PyExc Value :=
  match d name with
  | some v => .ok v
  | Option.none =>
    match d "__getattr__" with
    | some f => asked f
    | Option.none => .error (noAttribute objects d name)

/-- `_ensure_loaded`. -/
def ensureLoaded (s : State) (a : Access) : Except PyExc Unit × State :=
  if s.holds objects "_loaded" then (.ok (), s)
  else
    let s := s.setattr "_loaded" (.bool true)
    if s.holds objects "_fetch_func" then
      let s := { s with modules := a.modules, fetches := s.fetches ++ [a.fetched] }
      match a.fetched with
      | .raises e => (.error e, s)
      | .none => (.ok (), s.setattr "_real_module" .none)
      | .module m =>
        let s := s.setattr "_real_module" (.module m)
        (.ok (), if objects.truthy (.module m) then s.update (s.modules m) else s)
    else (.ok (), s)

/-- `LazyModule.__getattr__`. -/
def lazyGetattr (s : State) (a : Access) : Except PyExc Value × State :=
  if isPrivate a.name then (.error (.attributeError a.name), s)
  else
    match ensureLoaded objects s a with
    | (.error e, s) => (.error e, s)
    | (.ok _, s) =>
      match s.own "_real_module" with
      | some (.module m) =>
        if objects.truthy (.module m) then (getattr objects (s.modules m) a.asked a.name, s)
        else (.error (noAttribute objects s.own a.name), s)
      | some v =>
        if objects.truthy v then (a.asked v, s)
        else (.error (noAttribute objects s.own a.name), s)
      | Option.none => (.error (noAttribute objects s.own a.name), s)

/-- `lazy.name`; the attributes of the class, whose names begin with an underscore, are left out. -/
def access (s : State) (a : Access) : Except PyExc Value × State :=
  match getattr objects s.own a.asked a.name with
  | .error (.attributeError _) => lazyGetattr objects s a
  | answer => (answer, s)

def step (s : State) : Act → Option State
  | .access a => some (access objects s a).2
  | .elsewhere modules => some { s with modules := modules }

/-! ## What accesses should do -/

/-- Once a fetch has returned a module, a public attribute is what the module answers, without a
fetch; after a fetch that raised, it is fetched again. -/
def Answered (s : State) : Act → Prop
  | .access a => isPrivate a.name = false →
    (∀ m, .module m ∈ s.fetches →
      (access objects s a).1 = getattr objects (s.modules m) a.asked a.name ∧
        (access objects s a).2.fetches = s.fetches) ∧
      ∀ e, s.fetches.getLast? = some (.raises e) →
        (access objects s a).2.fetches = s.fetches ++ [a.fetched]
  | .elsewhere _ => True

/-- The module is true, and it has no `_loaded` that is false and no other `_real_module`. -/
structure Plain (d : Namespace) (m : ℕ) : Prop where
  truthy : objects.truthy (.module m) = true
  loaded : ∀ v, d "_loaded" = some v → objects.truthy v = true
  realModule : ∀ v, d "_real_module" = some v → v = .module m

/-- What the copy of a module's dictionary has under the name is what the module has; and where the
copy has a `__getattr__` instead, so does the module. -/
structure Current (own d : Namespace) (name : String) : Prop where
  value : ∀ v, own name = some v → d name = some v
  hook : own name = Option.none → ∀ f, own "__getattr__" = some f →
    d name = Option.none ∧ d "__getattr__" = some f

/-- No public attribute is looked for after a fetch that raised, what is fetched is plain, and what
was copied from the fetched module still is what the module has, where it is looked for. -/
def Fit (s : State) : Act → Prop
  | .access a => isPrivate a.name = false →
    (∀ e, s.fetches.getLast? ≠ some (.raises e)) ∧
      (s.holds objects "_loaded" = false → s.holds objects "_fetch_func" = true →
        ∀ m, a.fetched = .module m → Plain objects (a.modules m) m) ∧
      ∀ m, .module m ∈ s.fetches → Current s.own (s.modules m) a.name
  | .elsewhere _ => True

variable {objects} {s : State} {a : Access}

/-- The lazy module has fetched the module, and asks it for what it misses. -/
structure Mirrors (objects : Objects) (own : Namespace) (m : ℕ) : Prop where
  loaded : (own "_loaded").any objects.truthy = true
  realModule : own "_real_module" = some (.module m)
  truthy : objects.truthy (.module m) = true

/-- Nothing was fetched yet, a fetch gave nothing or raised, or a module was fetched. -/
inductive Inv (objects : Objects) (name package : String) (fetchFunc : Value) (s : State) : Prop
  | fresh (own : s.own = initOwn name package fetchFunc) (fetches : s.fetches = [])
  | vain (loaded : s.holds objects "_loaded" = true) (none : ∀ m, .module m ∉ s.fetches)
  | fetched (m : ℕ) (mirrors : Mirrors objects s.own m)
    (fetches : s.fetches = [.module m])

/-- Once it is loaded, an access changes nothing. -/
theorem access_of_loaded (loaded : s.holds objects "_loaded" = true) :
    (access objects s a).2 = s := by
  have ensured : ensureLoaded objects s a = (.ok (), s) := if_pos loaded
  unfold access
  split
  · unfold lazyGetattr
    split
    · rfl
    · rw [ensured]
      dsimp only
      split
      · split_ifs <;> rfl
      · split_ifs <;> rfl
      · rfl
  · rfl

/-- What the mirror of a module answers. -/
theorem Mirrors.answer {m : ℕ} (h : Mirrors objects s.own m) (isPublic : isPrivate a.name = false)
    (current : Current s.own (s.modules m) a.name) :
    (access objects s a).1 = getattr objects (s.modules m) a.asked a.name := by
  have loaded : s.holds objects "_loaded" = true := h.loaded
  have asks : (lazyGetattr objects s a).1 = getattr objects (s.modules m) a.asked a.name := by
    unfold lazyGetattr ensureLoaded
    rw [if_neg (by simp [isPublic]), if_pos loaded]
    dsimp only
    rw [h.realModule]
    dsimp only
    rw [if_pos h.truthy]
  unfold access
  cases found : s.own a.name with
  | some v =>
    have own : getattr objects s.own a.asked a.name = .ok v := by
      unfold getattr
      rw [found]
    rw [own]
    unfold getattr
    rw [current.value v found]
  | none =>
    cases hook : s.own "__getattr__" with
    | none =>
      have own :
          getattr objects s.own a.asked a.name = .error (noAttribute objects s.own a.name) := by
        unfold getattr
        rw [found, hook]
      rw [own]
      exact asks
    | some f =>
      obtain ⟨missed, here⟩ := current.hook found f hook
      have own : getattr objects s.own a.asked a.name = a.asked f := by
        unfold getattr
        rw [found, hook]
      have real : getattr objects (s.modules m) a.asked a.name = a.asked f := by
        unfold getattr
        rw [missed, here]
      rw [own, real]
      split
      · exact asks.trans real
      · rfl

theorem initOwn_eq_none {name package attr : String} {fetchFunc : Value}
    (isPublic : isPrivate attr = false) : initOwn name package fetchFunc attr = Option.none := by
  unfold initOwn
  split <;> first | rfl | exact absurd isPublic (by decide)

theorem access_of_private (hidden : isPrivate a.name = true) : (access objects s a).2 = s := by
  unfold access
  split
  · unfold lazyGetattr
    rw [if_pos hidden]
  · rfl

/-- The first access to a public attribute misses it. -/
theorem access_of_fresh {name package : String} {fetchFunc : Value}
    (own : s.own = initOwn name package fetchFunc) (isPublic : isPrivate a.name = false) :
    (access objects s a).2 = (ensureLoaded objects s a).2 := by
  have missed :
      getattr objects s.own a.asked a.name = .error (noAttribute objects s.own a.name) := by
    have absent : s.own a.name = Option.none := own ▸ initOwn_eq_none isPublic
    have hook : s.own "__getattr__" = Option.none := own ▸ rfl
    unfold getattr
    rw [absent, hook]
  unfold access
  rw [missed]
  dsimp only [noAttribute]
  unfold lazyGetattr
  rw [if_neg (by simp [isPublic])]
  split
  · next ensured => rw [ensured]
  · next ensured =>
    rw [ensured]
    split
    · split_ifs <;> rfl
    · split_ifs <;> rfl
    · rfl

/-- A plain module is mirrored when its dictionary was copied. -/
theorem mirrors_update {s : State} {d : Namespace} {m : ℕ} (plain : Plain objects d m) :
    Mirrors objects (((s.setattr "_loaded" (.bool true)).setattr "_real_module"
      (.module m)).update d).own m := by
  have copied (attr : String) :
      (((s.setattr "_loaded" (.bool true)).setattr "_real_module" (.module m)).update d).own attr =
        (d attr).or (if attr = "_real_module" then some (.module m)
          else if attr = "_loaded" then some (.bool true) else s.own attr) := by
    show (d attr).or (((s.setattr _ _).setattr _ _).own attr) = _
    rw [State.setattr_own, State.setattr_own]
  refine ⟨?_, ?_, plain.truthy⟩
  · rw [copied]
    cases given : d "_loaded" with
    | none => rfl
    | some v => exact plain.loaded v given
  · rw [copied]
    cases given : d "_real_module" with
    | none => rfl
    | some v =>
      obtain rfl := plain.realModule v given
      rfl

/-- What is fetched first. -/
theorem inv_ensureLoaded {name package : String} {fetchFunc : Value}
    (own : s.own = initOwn name package fetchFunc) (fetches : s.fetches = [])
    (plain : s.holds objects "_loaded" = false → s.holds objects "_fetch_func" = true →
      ∀ m, a.fetched = .module m → Plain objects (a.modules m) m) :
    Inv objects name package fetchFunc (ensureLoaded objects s a).2 := by
  have unloaded : s.holds objects "_loaded" = false := by
    unfold State.holds
    rw [own]
    rfl
  have function : (s.setattr "_loaded" (.bool true)).holds objects "_fetch_func" =
      s.holds objects "_fetch_func" := by
    unfold State.holds
    rw [State.setattr_own, if_neg (by decide)]
  have loads (s : State) (v : Value) :
      ((s.setattr "_loaded" (.bool true)).setattr "_real_module" v).holds objects "_loaded" =
        true := by
    unfold State.holds
    rw [State.setattr_own, if_neg (by decide), State.setattr_own, if_pos rfl]
    rfl
  have loads' (s : State) : (s.setattr "_loaded" (.bool true)).holds objects "_loaded" = true := by
    unfold State.holds
    rw [State.setattr_own, if_pos rfl]
    rfl
  unfold ensureLoaded
  rw [if_neg (by simp [unloaded])]
  dsimp only
  rw [function]
  split_ifs with fetching
  · cases given : a.fetched with
    | raises e => exact .vain (loads' s) (by simp [fetches])
    | none => exact .vain (loads s .none) (by simp [fetches])
    | module m =>
      have plain := plain unloaded fetching m given
      dsimp only
      rw [if_pos plain.truthy]
      exact .fetched m (mirrors_update plain) (by simp [State.update, fetches])
  · exact .vain (loads' s) (by simp [fetches])

/-- Steps that are fit keep the invariant. -/
theorem inv_step {name package : String} {fetchFunc : Value} {act : Act} {s' : State}
    (fit : Fit objects s act) (inv : Inv objects name package fetchFunc s)
    (h : step objects s act = some s') : Inv objects name package fetchFunc s' := by
  cases act with
  | elsewhere modules =>
    obtain rfl := Option.some.inj h
    cases inv with
    | fresh own fetches => exact .fresh own fetches
    | vain loaded none => exact .vain loaded none
    | fetched m mirrors fetches => exact .fetched m mirrors fetches
  | access a =>
    obtain rfl := Option.some.inj h
    cases visible : isPrivate a.name with
    | true =>
      rw [access_of_private visible]
      exact inv
    | false =>
      cases inv with
      | fresh own fetches =>
        rw [access_of_fresh own visible]
        exact inv_ensureLoaded own fetches (fit visible).2.1
      | vain loaded none =>
        rw [access_of_loaded loaded]
        exact .vain loaded none
      | fetched m mirrors fetches =>
        rw [access_of_loaded mirrors.loaded]
        exact .fetched m mirrors fetches

theorem answered_of_fit {name package : String} {fetchFunc : Value} {act : Act}
    (fit : Fit objects s act) (inv : Inv objects name package fetchFunc s) :
    Answered objects s act := by
  cases act with
  | elsewhere modules => trivial
  | access a =>
    intro visible
    refine ⟨fun m given => ?_, fun e raised => absurd raised ((fit visible).1 e)⟩
    cases inv with
    | fresh own fetches =>
      rw [fetches] at given
      cases given
    | vain loaded none => exact absurd given (none m)
    | fetched m' mirrors fetches =>
      have current := (fit visible).2.2 m given
      rw [fetches] at given
      obtain rfl : m = m' := Fetched.module.inj (List.mem_singleton.1 given)
      exact ⟨mirrors.answer visible current, by rw [access_of_loaded mirrors.loaded]⟩

/-- Along every run whose steps are fit, accesses do what they should. -/
theorem accesses_answered (objects : Objects) (name package : String) (fetchFunc : Value)
    (modules : ℕ → Namespace) (acts : List Act)
    (fit : Machine.Along (step objects) (Fit objects) (init name package fetchFunc modules) acts) :
    Machine.Along (step objects) (Answered objects) (init name package fetchFunc modules) acts :=
  fit.imp_of_invariant (fun _ _ _ fit inv h => inv_step fit inv h)
    (fun _ _ fit inv => answered_of_fit fit inv) (.fresh rfl rfl)

/-- Modules and functions are true. -/
def sampleObjects : Objects := ⟨fun _ => true, fun _ => "numpy"⟩

/-- A module with one public attribute. -/
def sampleModule : Namespace
  | "__name__" => some (.str "numpy")
  | "pi" => some (.other 3)
  | _ => Option.none

/-- An access when the fetch function does this; no module has a `__getattr__`. -/
def sampleAccess (name : String) (fetched : Fetched) : Act :=
  .access ⟨name, fetched, fun _ => sampleModule, fun _ => .ok .none⟩

/-- The module after other code has changed an attribute of it, and added another one. -/
def changedModule : Namespace
  | "__name__" => some (.str "numpy")
  | "pi" => some (.other 4)
  | "tau" => some (.other 6)
  | _ => Option.none

theorem accesses_answered_twice :
    Machine.Along (step sampleObjects) (Answered sampleObjects)
      (init "numpy" "numpy" (.other 1) fun _ => sampleModule)
      [sampleAccess "pi" (.module 0), .elsewhere fun _ => changedModule,
        sampleAccess "tau" .none] := by
  refine accesses_answered sampleObjects "numpy" "numpy" (.other 1) _ _ (.cons ?_ rfl
    (.cons trivial rfl (.cons ?_ rfl trivial)))
  · exact fun _ => ⟨nofun, fun _ _ m _ => ⟨rfl, nofun, nofun⟩, nofun⟩
  · refine fun _ => ⟨nofun, fun unloaded => ?_, fun m _ => ⟨nofun, fun _ => nofun⟩⟩
    cases unloaded

/-- The fetch function raises once, and is not called again. -/
theorem raised_fetch_not_repeated :
    ¬ ∀ (objects : Objects) (name package : String) (fetchFunc : Value) (modules : ℕ → Namespace)
      (acts : List Act),
      Machine.Along (step objects) (Answered objects)
        (init name package fetchFunc modules) acts := by
  intro claim
  have second := ((claim sampleObjects "numpy" "numpy" (.other 1) (fun _ => sampleModule)
    [sampleAccess "pi" (.raises (.other "TimeoutError")), sampleAccess "pi" (.module 0)]).2 _ rfl).1
  obtain ⟨-, again⟩ := second rfl
  have longer := congrArg List.length (again _ rfl)
  revert longer
  decide +kernel

end LazyModule

end Cpip
