import Cpip.Client.CacheReopen
import Cpip.Server.Packages

/-!
# Syncing with the cloud (`client/sync.py`)

A sync registers the device, asks the server for its catalog and stores the metadata of each package
that the answer names.  The route of the catalog is shadowed, and so the answer describes a package
of the name `catalog` and names none.
-/

namespace Cpip

/-- What `_do_sync` returns. -/
structure SyncResults where
  metadataUpdated : ℕ
  errors : List String
  timestamp : ℚ

/-- The configuration, the device, the clock, `str(e)`, and how the server answers. -/
structure SyncEnv extends CacheDisk where
  deviceId : String
  architecture : String
  platformTag : String
  pythonVersion : String
  clock : ℕ → ℚ
  excText : PyExc → String
  http : HttpRequest → Except PyExc HttpResponse

/-- The sync manager, with the results of the sync that is under way. -/
structure SyncManager where
  cache : CacheManager
  lastSync : ℚ
  ticks : ℕ
  results : SyncResults

namespace SyncManager

open CacheManager (sampleDisk createdCache)

abbrev SyncProc (α : Type) := Proc SyncManager PyExc α

variable (env : SyncEnv)

def now : SyncProc ℚ := fun s => (.ok (env.clock s.ticks), { s with ticks := s.ticks + 1 })

def registerRequest : HttpRequest where
  method := "POST"
  url := apiV1Prefix ++ "/devices/register"
  params := []
  json := [("device_id", env.deviceId), ("architecture", env.architecture),
    ("platform_tag", env.platformTag), ("python_version", env.pythonVersion)]

def catalogRequest : HttpRequest where
  method := "GET"
  url := apiV1Prefix ++ "/packages/catalog"
  params := [("arch", env.architecture)]
  json := []

/-- `self.cache.store_metadata(pkg["name"], pkg)`, and the count. -/
def storePackage : PyVal → SyncProc Unit
  | .dict items =>
    match PyVal.getStr "name" items with
    | none => Proc.raise (.keyError "name")
    | some name => do
      let t ← now env
      let stored : SyncProc Unit := fun s =>
        let (result, cache) := CacheManager.storeMetadata env.toCacheDisk (env.py.toStr name) items
          t s.cache
        (result, { s with cache := cache })
      stored
      Proc.modify fun s => { s with
        results := { s.results with metadataUpdated := s.results.metadataUpdated + 1 } }
  | _ => Proc.raise (.typeError "indices must be integers")

/-- The loop over the packages. -/
def storePackages : List PyVal → SyncProc Unit
  | [] => pure ()
  | pkg :: rest => do
    storePackage env pkg
    storePackages rest

/-- What a loop over a value runs through. -/
def iterate : PyVal → Except PyExc (List PyVal)
  | .list xs => .ok xs
  | .dict items => .ok (items.map fun e => .ofKey e.1)
  | .str s => .ok (s.toList.map fun c => .str (String.singleton c))
  | _ => .error (.typeError "object is not iterable")

/-- `catalog.get("packages", [])`, as the loop takes it. -/
def catalogPackages : PyVal → Except PyExc (List PyVal)
  | .dict items => iterate ((PyVal.getStr "packages" items).getD (.list []))
  | _ => .error (.attributeError "get")

/-- The part of `_do_sync` whose exceptions are caught. -/
def syncCatalog : SyncProc Unit := do
  let _ ← Proc.ofExcept (env.http (registerRequest env))
  let resp ← Proc.ofExcept (env.http (catalogRequest env))
  if resp.statusCode = 200 then
    let catalog ← Proc.ofExcept (resp.json.mapError fun _ => PyExc.jsonDecodeError)
    let packages ← Proc.ofExcept (catalogPackages catalog)
    storePackages env packages
  else return ()

def SyncResults.value (results : SyncResults) : PyVal :=
  .dict [(.str "metadata_updated", .int results.metadataUpdated),
    (.str "errors", .list (results.errors.map .str)),
    (.str "timestamp", .float (.finite results.timestamp))]

/-- Writes the results to `.last_sync`. -/
def saveResults : SyncProc SyncResults := fun s =>
  match env.py.dumps (SyncResults.value s.results) with
  | .error e => (.error e, s)
  | .ok t =>
    match (env.home.join ".last_sync").write env.cwd s.cache.tree (env.spell t) with
    | .error _ => (.error (.other "OSError"), s)
    | .ok tree => (.ok s.results, { s with cache := { s.cache with tree := tree } })

/-- `_do_sync`. -/
def doSync : SyncProc SyncResults := do
  let timestamp ← now env
  Proc.modify fun s => { s with results := ⟨0, [], timestamp⟩ }
  Proc.recover (syncCatalog env) fun e => Proc.modify fun s => { s with
    results := { s.results with errors := s.results.errors ++ [env.excText e] } }
  let t ← now env
  Proc.modify fun s => { s with lastSync := t }
  saveResults env

/-! ## What the server answers -/

variable {env}

/-- The body of a package has no member besides the fields of a package. -/
theorem getStr_loads_eq_none {members : List (String × JsonText)} {name : String}
    {items : List (PyKey × PyVal)} (loaded : (JsonText.obj members).loads = .dict items)
    (absent : name ∉ members.map Prod.fst) : PyVal.getStr name items = none := by
  obtain rfl := PyVal.dict.inj loaded
  have names : ∀ ms : List (String × JsonText),
      (JsonText.loadsMembers ms).map Prod.fst = ms.map Prod.fst := by
    intro ms
    induction ms with
    | nil => rfl
    | cons m ms ih => rw [JsonText.loadsMembers, List.map_cons, List.map_cons, ih]
  rw [PyVal.getStr, PyVal.getItem, Option.map_eq_none_iff, List.find?_eq_none]
  intro e mem same
  obtain ⟨x, hx, rfl⟩ := List.mem_map.1 mem
  rcases Dict.mem_assignAll hx with none | mem'
  · cases none
  · have key : PyKey.norm (.str x.1) = .str name := of_decide_eq_true same
    have named : x.1 = name := by
      have := PyKey.norm_eq_str_iff.1 key
      simpa using this
    apply absurd (List.mem_map_of_mem (f := Prod.fst) mem')
    rw [names, named]
    exact absent

theorem dispatch_catalogRequest : Routes.dispatch routes (catalogRequest env).method
    (pathPieces (catalogRequest env).url) = some (.getPackage, [("name", "catalog")]) := by
  show Routes.dispatch routes "GET" (pathPieces (apiV1Prefix ++ "/packages/catalog")) = _
  decide +kernel

/-- An answer to the request for the catalog that is accepted names no package. -/
theorem catalogPackages_answer (srv : PackageServer) (client : RateLimiter.Request) (now : ℚ)
    (accepted : (srv.answer client now (catalogRequest env)).1.statusCode = 200) :
    ∃ body, (srv.answer client now (catalogRequest env)).1.json = .ok body ∧
      catalogPackages body = .ok [] := by
  rw [PackageServer.answer, dispatch_catalogRequest] at accepted ⊢
  dsimp only at accepted ⊢
  unfold PackageServer.limited at accepted ⊢
  split at accepted
  · next limiter passed =>
    refine ⟨_, rfl, ?_⟩
    rw [JsonText.loads, catalogPackages, getStr_loads_eq_none rfl]
    · rfl
    · simp [RegisteredPackage.members]
  · next e limiter refused =>
    exfalso
    unfold RateLimiter.checkRateLimit at refused
    split at refused
    · cases refused
    · obtain ⟨same, -⟩ := Prod.mk.inj refused
      rw [← Except.error.inj same] at accepted
      simp at accepted

theorem results_of_saveResults {s s' : SyncManager} {results : SyncResults}
    (saved : saveResults env s = (.ok results, s')) : results = s.results := by
  unfold saveResults at saved
  split at saved
  · cases saved
  · split at saved
    · cases saved
    · exact (Except.ok.inj (Prod.mk.inj saved).1).symm

theorem saveResults_eq_ok {s : SyncManager} {l : Loc}
    (place : (env.home.join ".last_sync").locate env.cwd s.cache.tree = .ok l)
    (free : ¬ s.cache.tree.IsDir l) (parent : s.cache.tree.IsDir l.dropLast) :
    ∃ s', saveResults env s = (.ok s.results, s') := by
  have texts : ∀ errors : List String,
      env.py.dumpsList (errors.map .str) = .ok (errors.map .str) := by
    intro errors
    induction errors with
    | nil => rfl
    | cons e errors ih =>
      rw [List.map_cons, PyText.dumpsList, ih]
      rfl
  obtain ⟨t, dumped⟩ : ∃ t, env.py.dumps (SyncResults.value s.results) = .ok t := by
    refine ⟨.obj [("metadata_updated", .int s.results.metadataUpdated),
      ("errors", .arr (s.results.errors.map .str)),
      ("timestamp", .float (.finite s.results.timestamp))], ?_⟩
    simp [SyncResults.value, PyText.dumps, PyText.dumpsItems, PyText.memberName, texts, bind,
      Except.bind, Except.map, pure, Except.pure]
  obtain ⟨tree, written⟩ := FileTree.exists_write (env.spell t) free parent
  refine ⟨{ s with cache := { s.cache with tree := tree } }, ?_⟩
  rw [saveResults, dumped]
  dsimp only
  rw [PyPath.write, place]
  dsimp only
  rw [written]

/-- The results of a sync can be written. -/
def Recordable (env : SyncEnv) (tree : FileTree Bytes) : Prop :=
  env.home.isDir env.cwd tree = true ∧ (env.home.join ".last_sync").isDir env.cwd tree = false

theorem isOk_saveResults_iff {s : SyncManager} :
    (∃ results, (saveResults env s).1 = .ok results) ↔ Recordable env s.cache.tree := by
  have name : IsPart ".last_sync" := by decide
  constructor
  · rintro ⟨results, saved⟩
    unfold saveResults at saved
    split at saved
    · cases saved
    · split at saved
      · cases saved
      · next tree written =>
        obtain ⟨l, place, written⟩ := PyPath.write_eq_ok written
        obtain ⟨l₀, home, dir, -⟩ := (PyPath.locate_join_eq_ok name).1 place
        refine ⟨PyPath.isDir_eq_true_iff.2 ⟨l₀, home, dir⟩, ?_⟩
        rw [← Bool.not_eq_true, PyPath.isDir_eq_true_iff]
        rintro ⟨l', place', dir'⟩
        obtain rfl := Except.ok.inj (place.symm.trans place')
        exact (FileTree.write_eq_ok written).1 dir'
  · rintro ⟨home, free⟩
    obtain ⟨l₀, home, dir⟩ := PyPath.isDir_eq_true_iff.1 home
    have place : (env.home.join ".last_sync").locate env.cwd s.cache.tree =
        .ok (l₀ ++ [".last_sync"]) :=
      (PyPath.locate_join_eq_ok name).2
        ⟨l₀, home, dir, (FileTree.stepInto_of_ne l₀ (by decide)).symm⟩
    have notDir : ¬ s.cache.tree.IsDir (l₀ ++ [".last_sync"]) := by
      intro isDir
      rw [← Bool.not_eq_true, PyPath.isDir_eq_true_iff] at free
      exact free ⟨_, place, isDir⟩
    obtain ⟨s', saved⟩ := saveResults_eq_ok place notDir (by rwa [List.dropLast_concat])
    exact ⟨_, congrArg Prod.fst saved⟩

theorem recordable_congr {t t' : FileTree Bytes} (dirs : ∀ l, t'.IsDir l ↔ t.IsDir l) :
    Recordable env t' ↔ Recordable env t := by
  have isDir (p : PyPath) : p.isDir env.cwd t' = p.isDir env.cwd t := by
    rw [Bool.eq_iff_iff, PyPath.isDir_eq_true_iff, PyPath.isDir_eq_true_iff]
    constructor
    · rintro ⟨l, place, dir⟩
      exact ⟨l, PyPath.locate_mono (fun l => (dirs l).1) place, (dirs l).1 dir⟩
    · rintro ⟨l, place, dir⟩
      exact ⟨l, PyPath.locate_mono (fun l => (dirs l).2) place, (dirs l).2 dir⟩
  unfold Recordable
  rw [isDir, isDir]

/-- The catalog is stored without a change to the directories. -/
theorem keeps_syncCatalog (t : FileTree Bytes) :
    Proc.Keeps (fun s : SyncManager => ∀ l, s.cache.tree.IsDir l ↔ t.IsDir l)
      (syncCatalog env) := by
  have package (pkg : PyVal) :
      Proc.Keeps (fun s : SyncManager => ∀ l, s.cache.tree.IsDir l ↔ t.IsDir l)
        (storePackage env pkg) := by
    unfold storePackage
    split
    · split
      · exact Proc.keeps_raise _
      · refine Proc.Keeps.bind (fun s h => h) fun now => Proc.Keeps.bind (fun s h => ?_)
          fun _ s h => h
        dsimp only
        unfold CacheManager.storeMetadata
        split
        · exact h
        · split
          · exact h
          · next tree written =>
            obtain ⟨l, -, written⟩ := PyPath.write_eq_ok written
            exact fun l' => (FileTree.isDir_of_write written l').trans (h l')
    · exact Proc.keeps_raise _
  have packages (l : List PyVal) :
      Proc.Keeps (fun s : SyncManager => ∀ l, s.cache.tree.IsDir l ↔ t.IsDir l)
        (storePackages env l) := by
    induction l with
    | nil => exact Proc.keeps_pure _
    | cons pkg rest ih => exact (package pkg).bind fun _ => ih
  refine (Proc.keeps_ofExcept _).bind fun _ => (Proc.keeps_ofExcept _).bind fun resp => ?_
  split
  · exact (Proc.keeps_ofExcept _).bind fun _ => (Proc.keeps_ofExcept _).bind fun l => packages l
  · exact Proc.keeps_pure _

/-- A sync returns exactly when its results can be written. -/
theorem isOk_doSync_iff (s : SyncManager) :
    (∃ results, (doSync env s).1 = .ok results) ↔ Recordable env s.cache.tree := by
  let started : SyncManager :=
    { s with ticks := s.ticks + 1, results := ⟨0, [], env.clock s.ticks⟩ }
  obtain ⟨s₁, caught, dirs⟩ : ∃ s₁,
      Proc.recover (syncCatalog env) (fun e => Proc.modify fun s => { s with
        results := { s.results with errors := s.results.errors ++ [env.excText e] } }) started =
        (.ok (), s₁) ∧ ∀ l, s₁.cache.tree.IsDir l ↔ s.cache.tree.IsDir l := by
    have kept : ∀ l, (syncCatalog env started).2.cache.tree.IsDir l ↔ s.cache.tree.IsDir l :=
      keeps_syncCatalog s.cache.tree started fun _ => Iff.rfl
    unfold Proc.recover
    cases ran : syncCatalog env started with
    | mk result s₁ =>
      rw [ran] at kept
      cases result with
      | ok _ => exact ⟨s₁, rfl, kept⟩
      | error e => exact ⟨_, rfl, kept⟩
  have ran : doSync env s = saveResults env
      { s₁ with ticks := s₁.ticks + 1, lastSync := env.clock s₁.ticks } := by
    show (Proc.recover (syncCatalog env) _ >>= _) started = _
    rw [Proc.bind_of_ok caught]
    rfl
  rw [ran, isOk_saveResults_iff]
  exact recordable_congr dirs

/-- A sync with an answer that names no package comes to writing its results. -/
theorem doSync_of_none {s : SyncManager} {registered resp : HttpResponse} {body : PyVal}
    (post : env.http (registerRequest env) = .ok registered)
    (get : env.http (catalogRequest env) = .ok resp) (accepted : resp.statusCode = 200)
    (json : resp.json = .ok body) (none : catalogPackages body = .ok []) :
    doSync env s = saveResults env
      { s with
        ticks := s.ticks + 2
        lastSync := env.clock (s.ticks + 1)
        results := ⟨0, [], env.clock s.ticks⟩ } := by
  let started : SyncManager :=
    { s with ticks := s.ticks + 1, results := ⟨0, [], env.clock s.ticks⟩ }
  have quiet : syncCatalog env started = (.ok (), started) := by
    unfold syncCatalog
    rw [Proc.bind_of_ok (show Proc.ofExcept (env.http (registerRequest env)) started =
        (.ok registered, started) by rw [post]; rfl),
      Proc.bind_of_ok (show Proc.ofExcept (env.http (catalogRequest env)) started =
        (.ok resp, started) by rw [get]; rfl), if_pos accepted,
      Proc.bind_of_ok (show Proc.ofExcept (resp.json.mapError fun _ => PyExc.jsonDecodeError)
        started = (.ok body, started) by rw [json]; rfl),
      Proc.bind_of_ok (show Proc.ofExcept (catalogPackages body) started = (.ok [], started) by
        rw [none]; rfl)]
    rfl
  have caught : Proc.recover (syncCatalog env) (fun e => Proc.modify fun s => { s with
      results := { s.results with errors := s.results.errors ++ [env.excText e] } }) started =
      (.ok (), started) := by
    rw [Proc.recover, quiet]
  show (Proc.recover (syncCatalog env) _ >>= _) started = _
  rw [Proc.bind_of_ok caught]
  rfl

/-! ## Syncing -/

/-- The metadata of every package is there after the sync, and the packages are counted. -/
def Synced (env : SyncEnv) (registry : CloudRegistry) (results : SyncResults) (s : SyncManager) :
    Prop :=
  (∀ name ∈ registry.keys, ∃ v,
    (CacheManager.getMetadata env.toCacheDisk name s.lastSync s.cache).1 = .ok (some v)) ∧
  results.metadataUpdated = registry.keys.length

/-- The device is registered, and the server answers the request for the catalog. -/
structure Against (env : SyncEnv) (srv : PackageServer) (client : RateLimiter.Request) (now : ℚ) :
    Prop where
  registered : ∃ resp, env.http (registerRequest env) = .ok resp
  answered : env.http (catalogRequest env) = .ok (srv.answer client now (catalogRequest env)).1
  accepted : (srv.answer client now (catalogRequest env)).1.statusCode = 200

/-- After a sync with the server, the metadata of the registry is cached and counted exactly when
the registry is empty. -/
theorem doSync_synced_iff (env : SyncEnv) (srv : PackageServer) (client : RateLimiter.Request)
    (now : ℚ) (against : Against env srv client now) (s s' : SyncManager) (results : SyncResults)
    (ran : doSync env s = (.ok results, s')) :
    Synced env srv.registry results s' ↔ srv.registry.keys = [] := by
  obtain ⟨body, json, none⟩ := catalogPackages_answer srv client now against.accepted
  obtain ⟨resp, registered⟩ := against.registered
  rw [doSync_of_none registered against.answered against.accepted json none] at ran
  unfold Synced
  rw [results_of_saveResults ran]
  constructor
  · exact fun synced => List.eq_nil_of_length_eq_zero synced.2.symm
  · intro empty
    rw [empty]
    exact ⟨nofun, rfl⟩

/-- A server with a registry, on which nothing was asked yet. -/
def sampleServer (registry : CloudRegistry) : PackageServer where
  registry := registry
  limiter := .empty
  others _ _ _ := (⟨404, .ok .none⟩, .empty)

/-- A device with a new cache, joined to the server. -/
def sampleSyncEnv (registry : CloudRegistry) : SyncEnv where
  toCacheDisk := sampleDisk
  deviceId := "device"
  architecture := "aarch64"
  platformTag := "android_aarch64"
  pythonVersion := "3.11"
  clock := fun n => n
  excText _ := ""
  http r := .ok (if r.method = "POST" then ⟨200, .ok .none⟩
    else ((sampleServer registry).answer ⟨none, none⟩ 0 r).1)

def sampleSync : SyncManager := ⟨createdCache, 0, 0, ⟨0, [], 0⟩⟩

theorem against_sample (registry : CloudRegistry) :
    Against (sampleSyncEnv registry) (sampleServer registry) ⟨none, none⟩ 0 where
  registered := ⟨_, rfl⟩
  answered := rfl
  accepted := by
    rw [PackageServer.answer, dispatch_catalogRequest]
    rfl

/-- A sync of the sample counts nothing. -/
theorem exists_doSync_sample (registry : CloudRegistry) :
    ∃ s', doSync (sampleSyncEnv registry) sampleSync = (.ok ⟨0, [], 0⟩, s') := by
  have against := against_sample registry
  obtain ⟨body, json, none⟩ := catalogPackages_answer _ _ _ against.accepted
  obtain ⟨resp, registered⟩ := against.registered
  rw [doSync_of_none registered against.answered against.accepted json none]
  have place : (sampleDisk.home.join ".last_sync").locate sampleDisk.cwd createdCache.tree =
      .ok ["h", ".last_sync"] := by decide +kernel
  have free : ¬ createdCache.tree.IsDir ["h", ".last_sync"] := by decide +kernel
  have parent : createdCache.tree.IsDir ["h"] := by decide +kernel
  exact saveResults_eq_ok place free parent

theorem doSync_synced_iff_empty : ∃ results s',
    doSync (sampleSyncEnv ∅) sampleSync = (.ok results, s') ∧
      Synced (sampleSyncEnv ∅) ∅ results s' := by
  obtain ⟨s', ran⟩ := exists_doSync_sample ∅
  exact ⟨_, s', ran, (doSync_synced_iff _ (sampleServer ∅) _ 0 (against_sample ∅) _ s' _ ran).2 rfl⟩

/-- A sync with the server as it starts updates nothing, and reports no error. -/
theorem doSync_misses_seeds : ∃ s',
    doSync (sampleSyncEnv seededRegistry) sampleSync = (.ok ⟨0, [], 0⟩, s') ∧
      Against (sampleSyncEnv seededRegistry) (sampleServer seededRegistry) ⟨none, none⟩ 0 ∧
      seededRegistry.keys.length = 6 ∧
      ¬ Synced (sampleSyncEnv seededRegistry) seededRegistry ⟨0, [], 0⟩ s' := by
  obtain ⟨s', ran⟩ := exists_doSync_sample seededRegistry
  have six : seededRegistry.keys.length = 6 := by decide +kernel
  refine ⟨s', ran, against_sample seededRegistry, six, fun synced => ?_⟩
  have counted := synced.2
  rw [six] at counted
  cases counted

end SyncManager

end Cpip
