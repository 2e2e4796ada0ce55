import Cpip.Client.Offline
import Cpip.Lib.Machine
import Cpip.Runtime.Hooks

/-!
# The import hooks (`runtime/hooks.py`)

A package is set up under its own name, looked up locally under a normalised one, and intercepted by
the first component of the name that is imported.  The imports of a module are intercepted exactly
when that component was itself set up.
-/

namespace Cpip

/-- `ProxyModule`. -/
structure ProxyModule where
  name : String
  pkgInfo : CloudPackage
  initialized : Bool
  deriving DecidableEq, Repr

/-- What `sys.modules` holds: a proxy, or a module of another kind, with `__path__` or without. -/
inductive PyModule where
  | proxy (m : ProxyModule)
  | ordinary (isPackage : Bool)
  deriving DecidableEq, Repr

abbrev ModuleTable := Dict ModPath PyModule

/-- Each proxy is one of its own name. -/
def ModuleTable.Named (table : ModuleTable) : Prop :=
  ∀ path m, table.get? path = some (.proxy m) → m.name = joinDots path

/-- What the other finders find and load: `true` when a module was loaded, with the modules that are
then loaded. -/
structure OrdinaryImports where
  load : ModPath → ModuleTable → Except Raised Bool × ModuleTable
  named : ∀ path (table : ModuleTable), table.Named → (load path table).2.Named

inductive MetaFinder where
  | cpip
  | other
  deriving DecidableEq, Repr

/-- The client, `sys.meta_path` and `sys.modules`. -/
structure HookState where
  client : PackageClient
  hooksActive : Bool
  metaPath : List MetaFinder
  modules : ModuleTable

/-- What the spec of a proxy says. -/
structure CloudSpec where
  name : ModPath
  pkgInfo : CloudPackage
  isPackage : Bool
  deriving DecidableEq, Repr

namespace HookState

/-! ## Hooks -/

/-- `activate_hooks`. -/
def activateHooks (s : HookState) : HookState :=
  if s.hooksActive then s else { s with hooksActive := true, metaPath := .cpip :: s.metaPath }

/-- `deactivate_hooks`. -/
def deactivateHooks (s : HookState) : HookState :=
  { s with hooksActive := false, metaPath := s.metaPath.filter (· ≠ .cpip) }

/-- `CpipFinder.find_spec`, where the name is `".".join(path)`. -/
def findSpec (s : HookState) (path : ModPath) : Option CloudSpec :=
  let topLevel := path.headD ""
  match s.client.cloudPackages.get? topLevel with
  | none => none
  | some info =>
    match s.modules.get? [topLevel] with
    | some (.ordinary _) => none
    | _ => some ⟨path, info, decide (path = [topLevel])⟩

/-- `CpipLoader.create_module`. -/
def createModule (spec : CloudSpec) : ProxyModule := ⟨joinDots spec.name, spec.pkgInfo, false⟩

/-- `CpipLoader.exec_module`. -/
def execModule (m : ProxyModule) : ProxyModule := { m with initialized := true }

/-! ## Importing -/

variable (imports : OrdinaryImports)

/-- The finders are asked in turn, and the first spec that is found is loaded. -/
def loadFrom (path : ModPath) : List MetaFinder → HookState → Except Raised PyModule × HookState
  | [], s => (.error (.moduleNotFound path), s)
  | .cpip :: rest, s =>
    match s.findSpec path with
    | none => loadFrom path rest s
    | some spec =>
      let m := PyModule.proxy (execModule (createModule spec))
      (.ok m, { s with modules := s.modules.set path m })
  | .other :: rest, s =>
    match imports.load path s.modules with
    | (.error e, table) => (.error e, { s with modules := table })
    | (.ok false, table) => loadFrom path rest { s with modules := table }
    | (.ok true, table) =>
      match table.get? path with
      | none => (.error (.moduleNotFound path), { s with modules := table })
      | some m => (.ok m, { s with modules := table })

/-- `hasattr(module, "__path__")`. -/
def hasPath : PyModule → Bool
  | .proxy _ => true
  | .ordinary isPackage => isPackage

/-- `_find_and_load`, for the components of the name from the last to the first: the packages that
the module is in are loaded before it. -/
def findAndLoad : List String → HookState → Except Raised PyModule × HookState
  | [], s => (.error (.valueError "Empty module name"), s)
  | last :: parents, s =>
    let path := (last :: parents).reverse
    match s.modules.get? path with
    | some m => (.ok m, s)
    | none =>
      if parents = [] then loadFrom imports path s.metaPath s
      else
        match findAndLoad parents s with
        | (.error e, s') => (.error e, s')
        | (.ok parent, s') =>
          match s'.modules.get? path with
          | some m => (.ok m, s')
          | none =>
            if hasPath parent then loadFrom imports path s'.metaPath s'
            else (.error (.moduleNotFound path), s')

/-- `importlib.import_module(name)`: a relative name needs a package. -/
def importModule (name : String) (s : HookState) : Except Raised PyModule × HookState :=
  if name = "" then (.error (.valueError "Empty module name"), s)
  else if name.toList.head? = some '.' then
    (.error (.other "the 'package' argument is required to perform a relative import"), s)
  else findAndLoad imports (splitDots name).reverse s

/-! ## Runs -/

inductive Action where
  | setup (hybrid : Bool) (package : String)
  | activate
  | deactivate
  | importModule (name : String)
  deriving DecidableEq, Repr

/-- `_setup_hybrid` or `_setup_cloud_exec`. -/
def setup (hybrid : Bool) (package : String) : ClientProc Bool :=
  if hybrid then PackageClient.setupHybrid package else PackageClient.setupCloudExec package

def step (s : HookState) : Action → Option HookState
  | .setup hybrid package => some { s with client := (setup hybrid package s.client).2 }
  | .activate => some s.activateHooks
  | .deactivate => some s.deactivateHooks
  | .importModule name => some (importModule imports name s).2

/-- A client that has set no package up, and no hooks. -/
structure Start (s : HookState) : Prop where
  packages : s.client.cloudPackages = ∅
  inactive : s.hooksActive = false
  metaPath : s.metaPath = [.other]
  named : s.modules.Named

/-- The package was set up in the run. -/
def SetUp (as : List Action) (package : String) : Prop := ∃ hybrid, .setup hybrid package ∈ as

/-- What the actions leave: the packages that were set up are the ones that are registered, the
finder is the first one while the hooks are active, and the proxies are named by their names. -/
structure Hooked (as : List Action) (s : HookState) : Prop where
  registered : ∀ package, (s.client.cloudPackages.get? package).isSome ↔ SetUp as package
  first : s.hooksActive = true → s.metaPath.head? = some .cpip
  named : s.modules.Named

variable {imports}

theorem setup_eq (hybrid : Bool) (package : String) (c : PackageClient) :
    setup hybrid package c = (.ok true,
      { c with
        log := c.log ++ [.register package]
        cloudPackages := c.cloudPackages.set package ⟨hybrid, false⟩ }) := by
  cases hybrid <;> rfl

/-- The import system changes nothing but the modules, and keeps them named. -/
structure Imported (s s' : HookState) : Prop where
  client : s'.client = s.client
  hooksActive : s'.hooksActive = s.hooksActive
  metaPath : s'.metaPath = s.metaPath
  named : s.modules.Named → s'.modules.Named

theorem Imported.refl (s : HookState) : Imported s s := ⟨rfl, rfl, rfl, id⟩

theorem Imported.trans {s s' s'' : HookState} (h : Imported s s') (h' : Imported s' s'') :
    Imported s s'' :=
  ⟨h'.client.trans h.client, h'.hooksActive.trans h.hooksActive, h'.metaPath.trans h.metaPath,
    h'.named ∘ h.named⟩

theorem named_set {table : ModuleTable} (named : table.Named) (spec : CloudSpec) :
    ModuleTable.Named (table.set spec.name (.proxy (execModule (createModule spec)))) := by
  intro path m found
  rw [Dict.get?_set] at found
  split_ifs at found with same
  · obtain rfl := PyModule.proxy.inj (Option.some.inj found)
    rw [← same]
    rfl
  · exact named path m found

theorem findSpec_name {s : HookState} {path : ModPath} {spec : CloudSpec}
    (found : s.findSpec path = some spec) : spec.name = path := by
  unfold findSpec at found
  dsimp only at found
  split at found
  · cases found
  · split at found
    · cases found
    · rw [← Option.some.inj found]

theorem imported_loadFrom (path : ModPath) (finders : List MetaFinder) (s : HookState) :
    Imported s (loadFrom imports path finders s).2 := by
  induction finders generalizing s with
  | nil => exact .refl s
  | cons finder rest ih =>
    cases finder with
    | cpip =>
      rw [loadFrom]
      cases found : s.findSpec path with
      | none => exact ih s
      | some spec =>
        obtain rfl := findSpec_name found
        exact ⟨rfl, rfl, rfl, fun named => named_set named spec⟩
    | other =>
      have others : Imported s { s with modules := (imports.load path s.modules).2 } :=
        ⟨rfl, rfl, rfl, imports.named path s.modules⟩
      rw [loadFrom]
      generalize imports.load path s.modules = r at others ⊢
      obtain ⟨answer, table⟩ := r
      cases answer with
      | error e => exact others
      | ok loaded =>
        cases loaded with
        | false => exact others.trans (ih _)
        | true =>
          dsimp only
          split
          · exact others
          · exact others

theorem imported_findAndLoad (parts : List String) (s : HookState) :
    Imported s (findAndLoad imports parts s).2 := by
  induction parts generalizing s with
  | nil => exact .refl s
  | cons last parents ih =>
    rw [findAndLoad]
    split
    · exact .refl s
    · split
      · exact imported_loadFrom _ _ s
      · have parent := ih s
        split
        · next same =>
          rw [same] at parent
          exact parent
        · next m s' same =>
          rw [same] at parent
          split
          · exact parent
          · split
            · exact parent.trans (imported_loadFrom _ _ s')
            · exact parent

theorem imported_importModule (name : String) (s : HookState) :
    Imported s (importModule imports name s).2 := by
  unfold importModule
  split
  · exact .refl s
  · split
    · exact .refl s
    · exact imported_findAndLoad _ s

theorem Hooked.start {s : HookState} (start : Start s) : Hooked [] s where
  registered package := by
    rw [start.packages]
    exact iff_of_false (by simp) fun ⟨_, mem⟩ => List.not_mem_nil mem
  first active := by cases start.inactive.symm.trans active
  named := start.named

theorem Hooked.step {as : List Action} {s s' : HookState} {a : Action} (h : Hooked as s)
    (next : step imports s a = some s') : Hooked (as ++ [a]) s' := by
  have others (quiet : ∀ hybrid package, a ≠ .setup hybrid package) (package : String) :
      SetUp (as ++ [a]) package ↔ SetUp as package := by
    constructor
    · rintro ⟨hybrid, mem⟩
      rcases List.mem_append.1 mem with mem | mem
      · exact ⟨hybrid, mem⟩
      · exact absurd (List.mem_singleton.1 mem).symm (quiet hybrid package)
    · exact fun ⟨hybrid, mem⟩ => ⟨hybrid, List.mem_append_left _ mem⟩
  cases a with
  | setup hybrid package =>
    obtain rfl := Option.some.inj next
    refine ⟨fun package' => ?_, h.first, h.named⟩
    rw [setup_eq]
    show ((s.client.cloudPackages.set package ⟨hybrid, false⟩).get? package').isSome ↔ _
    rw [Dict.get?_set]
    split_ifs with same
    · obtain rfl := same
      exact iff_of_true rfl ⟨hybrid, by simp⟩
    · refine (h.registered package').trans ⟨fun ⟨b, mem⟩ => ⟨b, by simp [mem]⟩, ?_⟩
      rintro ⟨b, mem⟩
      rcases List.mem_append.1 mem with mem | mem
      · exact ⟨b, mem⟩
      · obtain ⟨-, rfl⟩ := Action.setup.inj (List.mem_singleton.1 mem)
        exact absurd rfl same
  | activate =>
    obtain rfl := Option.some.inj next
    refine ⟨fun package => ?_, ?_, ?_⟩
    · rw [others nofun, ← h.registered]
      unfold activateHooks
      split <;> rfl
    · unfold activateHooks
      split
      · exact h.first
      · exact fun _ => rfl
    · unfold activateHooks
      split <;> exact h.named
  | deactivate =>
    obtain rfl := Option.some.inj next
    exact ⟨fun package => (h.registered package).trans (others nofun package).symm,
      (fun active => nomatch active), h.named⟩
  | importModule name =>
    obtain rfl := Option.some.inj next
    have imported := @imported_importModule imports name s
    refine ⟨fun package => ?_, ?_, imported.named h.named⟩
    · rw [others nofun, ← h.registered, imported.client]
    · rw [imported.hooksActive, imported.metaPath]
      exact h.first

theorem Hooked.run {before as : List Action} {s t : HookState} (hooked : Hooked before s)
    (ran : Machine.run (HookState.step imports) s as = some t) : Hooked (before ++ as) t := by
  induction as generalizing before s with
  | nil =>
    obtain rfl := Option.some.inj ran
    rwa [List.append_nil]
  | cons a as ih =>
    obtain ⟨s', hs, rest⟩ := (Machine.run_cons_eq_some _).1 ran
    have later := ih (hooked.step hs) rest
    rwa [List.append_assoc] at later

/-! ## What is intercepted -/

/-- No ordinary module is loaded under the name, nor under one of the packages that it is in. -/
def Clear (s : HookState) (path : ModPath) : Prop :=
  ∀ part, part <+: path → ∀ isPackage, s.modules.get? part ≠ some (.ordinary isPackage)

/-- `CpipFinder` finds the module, and importing it gives a proxy of it. -/
def Intercepted (imports : OrdinaryImports) (s : HookState) (name : String) : Prop :=
  (s.findSpec (splitDots name)).isSome ∧
    ∃ m s', importModule imports name s = (.ok (.proxy m), s') ∧ m.name = name

/-- What the imports of the modules of a package rely on. -/
structure Ready (top : String) (s : HookState) : Prop where
  first : s.metaPath.head? = some .cpip
  registered : (s.client.cloudPackages.get? top).isSome
  named : s.modules.Named

theorem exists_spec {s : HookState} {path : ModPath}
    (registered : (s.client.cloudPackages.get? (path.headD "")).isSome) (nonempty : path ≠ [])
    (clear : s.Clear path) : ∃ spec, s.findSpec path = some spec := by
  obtain ⟨info, found⟩ := Option.isSome_iff_exists.1 registered
  have top : [path.headD ""] <+: path := by
    cases path with
    | nil => exact absurd rfl nonempty
    | cons first rest => exact ⟨rest, rfl⟩
  refine ⟨⟨path, info, decide (path = [path.headD ""])⟩, ?_⟩
  rw [findSpec, found]
  dsimp only
  split
  · next isPackage loaded => exact absurd loaded (clear _ top isPackage)
  · rfl

/-- The finder in front takes what it finds. -/
theorem loadFrom_cpip {s : HookState} {path : ModPath} {spec : CloudSpec}
    {finders : List MetaFinder}
    (first : finders.head? = some .cpip) (found : s.findSpec path = some spec) :
    loadFrom imports path finders s = (.ok (.proxy (execModule (createModule spec))),
      { s with modules := s.modules.set path (.proxy (execModule (createModule spec))) }) := by
  cases finders with
  | nil => cases first
  | cons finder rest =>
    obtain rfl := Option.some.inj first
    rw [loadFrom, found]

theorem clear_set {s : HookState} {path path' : ModPath} {m : ProxyModule} (clear : s.Clear path') :
    Clear { s with modules := s.modules.set path (.proxy m) } path' := by
  intro part sub isPackage loaded
  rw [Dict.get?_set] at loaded
  split_ifs at loaded
  · cases loaded
  · exact clear part sub isPackage loaded

/-- The packages on the way become proxies, and so does the module itself.  The induction is on the
components, from the first to the last. -/
theorem findAndLoad_proxy {top : String} {s : HookState} (ready : Ready top s) {path : ModPath}
    (nonempty : path ≠ []) (head : path.headD "" = top) (target : ModPath) (sub : path <+: target)
    (clear : s.Clear target) :
    ∃ m s', findAndLoad imports path.reverse s = (.ok (.proxy m), s') ∧ m.name = joinDots path ∧
      Ready top s' ∧ s'.Clear target := by
  induction path using List.reverseRecOn generalizing s with
  | nil => exact absurd rfl nonempty
  | append_singleton parents last ih =>
    have whole : (last :: parents.reverse).reverse = parents ++ [last] := by simp
    rw [List.reverse_append, List.reverse_singleton, List.singleton_append, findAndLoad, whole]
    -- a module that is loaded already is a proxy
    have present {s : HookState} (ready : Ready top s) (clear : s.Clear target) {m : PyModule}
        (loaded : s.modules.get? (parents ++ [last]) = some m) :
        ∃ proxy, m = .proxy proxy ∧ proxy.name = joinDots (parents ++ [last]) := by
      cases m with
      | proxy proxy => exact ⟨proxy, rfl, ready.named _ _ loaded⟩
      | ordinary isPackage => exact absurd loaded (clear _ sub isPackage)
    have absent {s : HookState} (ready : Ready top s) (clear : s.Clear target) :
        ∃ m s', loadFrom imports (parents ++ [last]) s.metaPath s = (.ok (.proxy m), s') ∧
          m.name = joinDots (parents ++ [last]) ∧ Ready top s' ∧ s'.Clear target := by
      obtain ⟨spec, found⟩ := exists_spec (head ▸ ready.registered) nonempty
        fun part inner => clear part (inner.trans sub)
      have kept := @imported_loadFrom imports (parents ++ [last]) s.metaPath s
      have loaded := @loadFrom_cpip imports s _ spec s.metaPath ready.first found
      rw [loaded] at kept
      refine ⟨_, _, loaded, ?_, ⟨?_, ?_, ?_⟩, clear_set clear⟩
      · rw [← findSpec_name found]
        rfl
      · rw [kept.metaPath]
        exact ready.first
      · rw [kept.client]
        exact ready.registered
      · exact kept.named ready.named
    cases loaded : s.modules.get? (parents ++ [last]) with
    | some m =>
      obtain ⟨proxy, rfl, name⟩ := present ready clear loaded
      exact ⟨proxy, s, rfl, name, ready, clear⟩
    | none =>
      dsimp only
      by_cases alone : parents = []
      · rw [if_pos (by simp [alone])]
        exact absent ready clear
      · have head' : parents.headD "" = top := by
          rw [← head]
          cases parents with
          | nil => exact absurd rfl alone
          | cons first rest => rfl
        obtain ⟨parent, s', imported, -, ready', clear'⟩ :=
          ih ready alone head' ((List.prefix_append parents [last]).trans sub) clear
        rw [if_neg (by simp [alone]), imported]
        dsimp only
        cases loaded' : s'.modules.get? (parents ++ [last]) with
        | some m =>
          obtain ⟨proxy, rfl, name⟩ := present ready' clear' loaded'
          exact ⟨proxy, s', rfl, name, ready', clear'⟩
        | none =>
          rw [if_pos (show hasPath (.proxy parent) = true from rfl)]
          exact absent ready' clear'

/-- The first component of a name that is not absolute is empty. -/
theorem headD_splitDots_eq_empty_iff (name : String) :
    (splitDots name).headD "" = "" ↔ name = "" ∨ name.toList.head? = some '.' := by
  have first : (splitDots name).headD "" = String.ofList (name.toList.takeWhile (· ≠ '.')) := by
    rw [splitDots, List.headD_eq_head?_getD, List.head?_map, PyPath.head?_splitOn]
    rfl
  rw [first]
  cases chars : name.toList with
  | nil => simp [String.toList_eq_nil_iff.1 chars]
  | cons c cs =>
    have nonempty : name ≠ "" := by
      rintro rfl
      cases chars
    by_cases dot : c = '.'
    · simp [dot]
    · simp [dot, nonempty]

/-- A module is intercepted when the first component of its name is registered. -/
theorem intercepted_of_ready {top : String} {s : HookState} (ready : Ready top s) {name : String}
    (head : (splitDots name).headD "" = top) (nonempty : top ≠ "")
    (clear : s.Clear (splitDots name)) : Intercepted imports s name := by
  obtain ⟨spec, found⟩ := exists_spec (head ▸ ready.registered) (splitDots_ne_nil name) clear
  refine ⟨by rw [found]; rfl, ?_⟩
  obtain ⟨m, s', loaded, named, -⟩ := @findAndLoad_proxy imports top s ready _
    (splitDots_ne_nil name) head (splitDots name) (List.prefix_refl _) clear
  have absolute := mt (headD_splitDots_eq_empty_iff name).2 (head ▸ nonempty)
  rw [not_or] at absolute
  refine ⟨m, s', ?_, named.trans (joinDots_splitDots name)⟩
  rw [importModule, if_neg absolute.1, if_neg absolute.2, loaded]

theorem registered_of_intercepted {s : HookState} {name : String}
    (h : Intercepted imports s name) : (splitDots name).headD "" ≠ "" ∧
      (s.client.cloudPackages.get? ((splitDots name).headD "")).isSome := by
  obtain ⟨found, m, s', imported, -⟩ := h
  constructor
  · intro relative
    unfold importModule at imported
    rcases (headD_splitDots_eq_empty_iff name).1 relative with empty | dot
    · rw [if_pos empty] at imported
      cases imported
    · rw [if_pos dot] at imported
      split at imported
      · cases imported
      · cases imported
  · unfold findSpec at found
    dsimp only at found
    split at found
    · cases found
    · next info registered => rw [registered]; rfl

/-- The module under which a package is looked up locally, and all that is in it, is intercepted
where no ordinary module is loaded. -/
def InterceptsPackage (env : ClientEnv) (imports : OrdinaryImports) (s : HookState) (p : String) :
    Prop :=
  ∀ name, splitDots (PackageClient.moduleName env p) <+: splitDots name →
    s.Clear (splitDots name) → Intercepted imports s name

/-- In every run, while the hooks are active and no ordinary module is loaded for a package: its
imports are intercepted exactly when the first component of its module name is not empty and was set
up itself. -/
theorem setup_intercepts_iff (env : ClientEnv) (imports : OrdinaryImports) {s t : HookState}
    {as : List Action} (start : Start s) (ran : Machine.run (step imports) s as = some t)
    (active : t.hooksActive = true) (p : String)
    (clear : t.Clear (splitDots (PackageClient.moduleName env p))) :
    InterceptsPackage env imports t p ↔
      (splitDots (PackageClient.moduleName env p)).headD "" ≠ "" ∧
        SetUp as ((splitDots (PackageClient.moduleName env p)).headD "") := by
  have hooked := (Hooked.start start).run ran
  rw [List.nil_append] at hooked
  rw [← hooked.registered]
  constructor
  · intro intercepts
    exact registered_of_intercepted (intercepts _ (List.prefix_refl _) clear)
  · rintro ⟨nonempty, registered⟩ name sub clear'
    refine intercepted_of_ready ⟨hooked.first active, registered, hooked.named⟩ ?_ nonempty clear'
    obtain ⟨rest, whole⟩ := sub
    rw [← whole]
    cases components : splitDots (PackageClient.moduleName env p) with
    | nil => exact absurd components (splitDots_ne_nil _)
    | cons first others => rfl

/-- No other module is found. -/
def noImports : OrdinaryImports := ⟨fun _ table => (.ok false, table), fun _ _ named => named⟩

def sampleHooks : HookState := ⟨PackageClient.sampleClient, false, [.other], ∅⟩

theorem start_sampleHooks : Start sampleHooks := ⟨rfl, rfl, rfl, nofun⟩

theorem setup_intercepts_iff_torch : ∃ t,
    Machine.run (step noImports) sampleHooks [.setup true "torch", .activate] = some t ∧
      InterceptsPackage PackageClient.sampleClientEnv noImports t "torch" := by
  let t : HookState :=
    activateHooks { sampleHooks with client := (setup true "torch" sampleHooks.client).2 }
  have ran : Machine.run (step noImports) sampleHooks [.setup true "torch", .activate] = some t :=
    rfl
  have top : (splitDots (PackageClient.moduleName PackageClient.sampleClientEnv "torch")).headD "" =
      "torch" := by decide +kernel
  refine ⟨t, ran, (setup_intercepts_iff PackageClient.sampleClientEnv noImports start_sampleHooks
    ran rfl "torch" fun part _ isPackage => nofun).2 ?_⟩
  rw [top]
  exact ⟨by decide, true, by decide⟩

/-- A package with a hyphen in its name is set up, and not found under the name of its module. -/
theorem setup_misses_hyphen : ∃ t,
    Machine.run (step noImports) sampleHooks [.setup false "opencv-python", .activate] = some t ∧
      (setup false "opencv-python" sampleHooks.client).1 = .ok true ∧ t.hooksActive = true ∧
      PackageClient.moduleName PackageClient.sampleClientEnv "opencv-python" = "opencv_python" ∧
      t.modules = ∅ ∧
      (importModule noImports "opencv_python" t).1 = .error (.moduleNotFound ["opencv_python"]) ∧
      ¬ InterceptsPackage PackageClient.sampleClientEnv noImports t "opencv-python" := by
  have module : PackageClient.moduleName PackageClient.sampleClientEnv "opencv-python" =
      "opencv_python" := by decide +kernel
  refine ⟨_, rfl, rfl, rfl, module, rfl, by decide +kernel, fun intercepts => ?_⟩
  have found := (registered_of_intercepted (intercepts "opencv_python" (module ▸ List.prefix_refl _)
    fun part _ isPackage => nofun)).2
  revert found
  decide +kernel

end HookState

end Cpip
