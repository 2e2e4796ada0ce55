import Cpip.Python.JsonBytes
import Cpip.Python.Pathlib
import Cpip.Python.TomlText

/-!
# The client's configuration (`client/config.py`)

`save_config` spells a configuration in TOML by itself, and `load_config` reads the file with
`tomllib`.  What comes back is the configuration that was saved exactly when the fields that are not
saved, or not read, have their defaults, and no URL has to be quoted.
-/

namespace Cpip

/-! ## Configurations -/

/-- What the configuration is loaded in: the environment variables, the readers of JSON and TOML,
the working directory and `CPIP_HOME`. -/
structure CpipEnv where
  toJsonFiles : JsonFiles
  toml : Toml.Env
  getenv : String → Option String
  cwd : Loc
  home : PyPath

namespace CpipEnv

variable (env : CpipEnv)

/-! ### Constants (`shared/constants.py`) -/

def defaultApiUrl : String := (env.getenv "CPIP_API_URL").getD "http://localhost:8000"

def defaultWsUrl : String := (env.getenv "CPIP_WS_URL").getD "ws://localhost:8000/ws"

def defaultCdnUrl : String := (env.getenv "CPIP_CDN_URL").getD "http://localhost:8000/cdn"

def cacheDir : PyPath := env.home.join "cache"

def wheelsDir : PyPath := env.cacheDir.join "wheels"

def layersDir : PyPath := env.cacheDir.join "layers"

def metadataDir : PyPath := env.cacheDir.join "metadata"

def configFile : PyPath := env.home.join "config.toml"

def authFile : PyPath := env.home.join "auth.json"

def logDir : PyPath := env.home.join "logs"

def venvDir : PyPath := env.home.join "envs"

end CpipEnv

/-- `CloudConfig`.  A field holds any value, since nothing checks what a file has for it. -/
structure CloudConfig where
  apiUrl : PyVal
  wsUrl : PyVal
  cdnUrl : PyVal
  timeout : PyVal := .int 30
  maxRetries : PyVal := .int 3

/-- `CacheConfig`. -/
structure CacheConfig where
  maxSizeMb : PyVal := .int 2048
  wheelTtlDays : PyVal := .int 30
  metadataTtlHours : PyVal := .int 24
  autoCleanup : PyVal := .bool true

/-- `RuntimeConfig`. -/
structure RuntimeConfig where
  preferLocal : PyVal := .bool true
  gpuOffload : PyVal := .bool true
  lazyLoading : PyVal := .bool true
  cloudExec : PyVal := .bool true
  autoSync : PyVal := .bool true
  importHooks : PyVal := .bool true
  offlineMode : PyVal := .bool false

/-- `AuthConfig`. -/
structure CpipConfig.AuthConfig where
  token : PyVal := .str ""
  refreshToken : PyVal := .str ""
  deviceId : PyVal := .str ""
  userId : PyVal := .str ""

/-- `CpipConfig`, with the paths that `ensure_directories` reads. -/
structure CpipConfig where
  cloud : CloudConfig
  cache : CacheConfig := {}
  runtime : RuntimeConfig := {}
  auth : CpipConfig.AuthConfig := {}
  home : PyPath
  cacheDir : PyPath
  wheelsDir : PyPath
  layersDir : PyPath
  metadataDir : PyPath
  logDir : PyPath
  venvDir : PyPath

namespace CpipConfig

section Files

variable (env : CpipEnv)

/-- `CpipConfig()`. -/
def default : CpipConfig where
  cloud :=
    { apiUrl := .str env.defaultApiUrl
      wsUrl := .str env.defaultWsUrl
      cdnUrl := .str env.defaultCdnUrl }
  home := env.home
  cacheDir := env.cacheDir
  wheelsDir := env.wheelsDir
  layersDir := env.layersDir
  metadataDir := env.metadataDir
  logDir := env.logDir
  venvDir := env.venvDir

/-- `Path(d).mkdir(parents=True, exist_ok=True)` for one directory after another. -/
def makeAll : List PyPath → FileTree Bytes → Except PyExc Unit × FileTree Bytes
  | [], tree => (.ok (), tree)
  | d :: dirs, tree =>
    match d.mkdirs env.cwd tree true with
    | (.ok _, tree') => makeAll dirs tree'
    | (.error _, tree') => (.error (.other "OSError"), tree')

/-- `ensure_directories`. -/
def ensureDirectories (config : CpipConfig) (tree : FileTree Bytes) :
    Except PyExc Unit × FileTree Bytes :=
  makeAll env [config.home, config.cacheDir, config.wheelsDir, config.layersDir, config.metadataDir,
    config.logDir, config.venvDir] tree

/-! ## Reading and writing TOML -/

/-- `_load_toml`. -/
def loadToml (path : PyPath) (tree : FileTree Bytes) : Toml.Items :=
  if path.exist env.cwd tree then
    match path.read env.cwd tree with
    | .error _ => []
    | .ok b => ((decodeUtf8 b).bind fun s =>
        Toml.loads env.toml (String.ofList (universalNewlines s.toList))).getD []
  else []

/-- `str(i)`, when it does not raise. -/
def strInt (i : ℤ) : Except PyExc String :=
  if env.toml.allows (Nat.toDigits 10 i.natAbs).length then .ok (String.ofList (Toml.spellInt i))
  else .error (.valueError "Exceeds the limit for integer string conversion")

/-- The lines of one field: one, or none for a value of another type. -/
def fieldLines (key : String) : PyVal → Except PyExc (List String)
  | .bool b => .ok [key ++ " = " ++ if b then "true" else "false"]
  | .int i => (strInt env i).map fun val => [key ++ " = " ++ val]
  | .str s => .ok [key ++ " = \"" ++ s ++ "\""]
  | _ => .ok []

def valuesLines : List (String × PyVal) → Except PyExc (List String)
  | [] => .ok []
  | (key, val) :: values => do
    let own ← fieldLines env key val
    let rest ← valuesLines values
    return own ++ rest

/-- The lines of all sections, with an empty line at the end of each. -/
def tomlLines : List (String × List (String × PyVal)) → Except PyExc (List String)
  | [] => .ok []
  | (name, values) :: data => do
    let own ← valuesLines env values
    let rest ← tomlLines data
    return ("[" ++ name ++ "]") :: own ++ "" :: rest

/-- `_save_toml`, of sections that are dictionaries. -/
def saveToml (path : PyPath) (data : List (String × List (String × PyVal)))
    (tree : FileTree Bytes) : Except PyExc Unit × FileTree Bytes :=
  match path.parent.mkdirs env.cwd tree true with
  | (.error _, tree') => (.error (.other "OSError"), tree')
  | (.ok _, tree') =>
    match tomlLines env data with
    | .error e => (.error e, tree')
    | .ok lines =>
      match path.write env.cwd tree' (encodeUtf8 ("\n".intercalate lines)) with
      | .error _ => (.error (.other "OSError"), tree')
      | .ok tree'' => (.ok (), tree'')

/-! ## Saving and loading -/

def cloudData (config : CpipConfig) : List (String × PyVal) :=
  [("api_url", config.cloud.apiUrl), ("ws_url", config.cloud.wsUrl),
    ("cdn_url", config.cloud.cdnUrl), ("timeout", config.cloud.timeout)]

def cacheData (config : CpipConfig) : List (String × PyVal) :=
  [("max_size_mb", config.cache.maxSizeMb), ("wheel_ttl_days", config.cache.wheelTtlDays),
    ("auto_cleanup", config.cache.autoCleanup)]

def runtimeData (config : CpipConfig) : List (String × PyVal) :=
  [("prefer_local", config.runtime.preferLocal), ("gpu_offload", config.runtime.gpuOffload),
    ("lazy_loading", config.runtime.lazyLoading), ("cloud_exec", config.runtime.cloudExec),
    ("offline_mode", config.runtime.offlineMode)]

/-- `save_config`. -/
def saveConfig (config : CpipConfig) (tree : FileTree Bytes) : Except PyExc Unit × FileTree Bytes :=
  saveToml env env.configFile
    [("cloud", cloudData config), ("cache", cacheData config), ("runtime", runtimeData config)] tree

/-- `raw[name]` where it is there, to get fields from. -/
def sectionOf (raw : Toml.Items) (name : String) : Except PyExc Toml.Items :=
  match PyVal.getStr name raw with
  | none => .ok []
  | some (.dict items) => .ok items
  | some _ => .error (.attributeError "object has no attribute 'get'")

/-- `items.get(key, default)`. -/
def field (items : Toml.Items) (key : String) (default : PyVal) : PyVal :=
  (PyVal.getStr key items).getD default

/-- The values of the file, over those of the configuration. -/
def applyToml (raw : Toml.Items) (config : CpipConfig) : Except PyExc CpipConfig := do
  let cloud ← sectionOf raw "cloud"
  let cache ← sectionOf raw "cache"
  let rt ← sectionOf raw "runtime"
  return { config with
    cloud := { config.cloud with
      apiUrl := field cloud "api_url" config.cloud.apiUrl
      wsUrl := field cloud "ws_url" config.cloud.wsUrl
      cdnUrl := field cloud "cdn_url" config.cloud.cdnUrl
      timeout := field cloud "timeout" config.cloud.timeout }
    cache := { config.cache with
      maxSizeMb := field cache "max_size_mb" config.cache.maxSizeMb
      wheelTtlDays := field cache "wheel_ttl_days" config.cache.wheelTtlDays }
    runtime := { config.runtime with
      preferLocal := field rt "prefer_local" config.runtime.preferLocal
      gpuOffload := field rt "gpu_offload" config.runtime.gpuOffload
      lazyLoading := field rt "lazy_loading" config.runtime.lazyLoading
      cloudExec := field rt "cloud_exec" config.runtime.cloudExec
      offlineMode := field rt "offline_mode" config.runtime.offlineMode } }

/-- `os.getenv(name)`, when it is truthy. -/
def override (name : String) : Option String := (env.getenv name).filter (· ≠ "")

/-- The environment variables, over the values of the configuration. -/
def applyEnviron (config : CpipConfig) : CpipConfig :=
  { config with
    cloud := { config.cloud with
      apiUrl := ((override env "CPIP_API_URL").map .str).getD config.cloud.apiUrl
      wsUrl := ((override env "CPIP_WS_URL").map .str).getD config.cloud.wsUrl }
    runtime := { config.runtime with
      offlineMode :=
        if (override env "CPIP_OFFLINE").isSome then .bool true else config.runtime.offlineMode } }

/-- The auth state that is read from `AUTH_FILE`; what goes wrong is caught. -/
def loadAuth (tree : FileTree Bytes) : AuthConfig :=
  if env.authFile.exist env.cwd tree then
    match env.authFile.read env.cwd tree with
    | .error _ => {}
    | .ok b =>
      match (env.toJsonFiles.parse b).map JsonText.loads with
      | some (.dict items) =>
        { token := field items "token" (.str "")
          refreshToken := field items "refresh_token" (.str "")
          deviceId := field items "device_id" (.str "")
          userId := field items "user_id" (.str "") }
      | _ => {}
  else {}

/-- `load_config`. -/
def loadConfig (tree : FileTree Bytes) : Except PyExc CpipConfig × FileTree Bytes :=
  match applyToml (loadToml env env.configFile tree) (default env) with
  | .error e => (.error e, tree)
  | .ok read =>
    let config := { applyEnviron env read with auth := loadAuth env tree }
    match ensureDirectories env config tree with
    | (.error e, tree') => (.error e, tree')
    | (.ok _, tree') => (.ok config, tree')

end Files

variable {env : CpipEnv}

/-! ## The text of a configuration -/

theorem toList_intercalate_lines (lines : List String) :
    ("\n".intercalate (lines ++ [""])).toList = lines.flatMap fun l => l.toList ++ ['\n'] := by
  induction lines with
  | nil => rfl
  | cons l lines ih =>
    rw [List.cons_append, String.intercalate_cons_of_ne_nil (by simp), String.toList_append,
      String.toList_append, ih]
    simp

/-- The value is spelled on one line, and `str` takes it. -/
def Writable (env : CpipEnv) (v : PyVal) : Prop :=
  ∀ i, v = .int i → env.toml.allows (Nat.toDigits 10 i.natAbs).length

theorem fieldLines_eq_ok {key : String} {v : PyVal} {lines : List String}
    (h : fieldLines env key v = .ok lines) (scalar : Toml.spell v ≠ []) :
    (lines.flatMap fun l => l.toList ++ ['\n']) = Toml.pairText key v ++ ['\n'] ∧
      Writable env v := by
  cases v with
  | atom a =>
    cases a with
    | bool b =>
      obtain rfl := Except.ok.inj h
      refine ⟨?_, fun i same => by cases same⟩
      simp [Toml.pairText, Toml.spell]
    | int i =>
      simp only [fieldLines, strInt] at h
      split_ifs at h with allowed
      · obtain rfl := Except.ok.inj h
        refine ⟨by simp [Toml.pairText, Toml.spell], fun j same => ?_⟩
        obtain rfl : i = j := by simpa using same
        exact allowed
      · cases h
    | str s =>
      obtain rfl := Except.ok.inj h
      refine ⟨?_, fun i same => by cases same⟩
      simp [Toml.pairText, Toml.spell]
    | _ => exact absurd rfl scalar
  | _ => exact absurd rfl scalar

theorem valuesLines_eq_ok {values : List (String × PyVal)} {lines : List String}
    (h : valuesLines env values = .ok lines) (scalar : ∀ e ∈ values, Toml.spell e.2 ≠ []) :
    (lines.flatMap fun l => l.toList ++ ['\n']) = Toml.linesOf values ∧
      ∀ e ∈ values, Writable env e.2 := by
  induction values generalizing lines with
  | nil =>
    obtain rfl := Except.ok.inj h
    exact ⟨rfl, fun _ mem => by cases mem⟩
  | cons e values ih =>
    rw [List.forall_mem_cons] at scalar
    rw [valuesLines, except_bind_eq_ok] at h
    obtain ⟨own, first, h⟩ := h
    obtain ⟨rest, others, h⟩ := except_bind_eq_ok.1 h
    obtain rfl := Except.ok.inj h
    obtain ⟨text, writable⟩ := fieldLines_eq_ok first scalar.1
    obtain ⟨texts, writables⟩ := ih others scalar.2
    refine ⟨?_, List.forall_mem_cons.2 ⟨writable, writables⟩⟩
    rw [List.flatMap_append, text, texts]
    rfl

/-- All values of the sections are booleans, integers and strings. -/
def Scalars (data : List (String × List (String × PyVal))) : Prop :=
  ∀ t ∈ data, ∀ e ∈ t.2, Toml.spell e.2 ≠ []

/-- The text of all sections, the last of which is followed by nothing. -/
theorem tomlLines_eq_ok {data : List (String × List (String × PyVal))} {name : String}
    {values : List (String × PyVal)} {lines : List String}
    (h : tomlLines env (data ++ [(name, values)]) = .ok lines)
    (scalar : Scalars (data ++ [(name, values)])) :
    ("\n".intercalate lines).toList = Toml.documentText data ++ Toml.sectionText name values ∧
      ∀ t ∈ data ++ [(name, values)], ∀ e ∈ t.2, Writable env e.2 := by
  suffices shape : ∃ lines', lines = lines' ++ [""] ∧
      (lines'.flatMap fun l => l.toList ++ ['\n']) =
        Toml.documentText data ++ Toml.sectionText name values ∧
      ∀ t ∈ data ++ [(name, values)], ∀ e ∈ t.2, Writable env e.2 by
    obtain ⟨lines', rfl, text, writable⟩ := shape
    rw [toList_intercalate_lines]
    exact ⟨text, writable⟩
  induction data generalizing lines with
  | nil =>
    rw [List.nil_append, tomlLines, except_bind_eq_ok] at h
    obtain ⟨own, first, h⟩ := h
    obtain ⟨rest, none, h⟩ := except_bind_eq_ok.1 h
    obtain rfl := Except.ok.inj h
    obtain rfl := Except.ok.inj none
    obtain ⟨text, writable⟩ := valuesLines_eq_ok first (scalar (name, values) (by simp))
    refine ⟨("[" ++ name ++ "]") :: own, rfl, ?_, ?_⟩
    · rw [List.flatMap_cons, text]
      simp [Toml.documentText, Toml.sectionText]
    · simpa using writable
  | cons t data ih =>
    obtain ⟨name', values'⟩ := t
    unfold Scalars at scalar
    rw [List.cons_append, List.forall_mem_cons] at scalar
    rw [List.cons_append, tomlLines, except_bind_eq_ok] at h
    obtain ⟨own, first, h⟩ := h
    obtain ⟨rest, others, h⟩ := except_bind_eq_ok.1 h
    obtain rfl := Except.ok.inj h
    obtain ⟨text, writable⟩ := valuesLines_eq_ok first scalar.1
    obtain ⟨lines', rfl, texts, writables⟩ := ih others scalar.2
    refine ⟨("[" ++ name' ++ "]") :: own ++ "" :: lines', by simp, ?_,
      List.forall_mem_cons.2 ⟨writable, writables⟩⟩
    rw [List.flatMap_append, List.flatMap_cons, List.flatMap_cons, text, texts]
    simp [Toml.documentText, Toml.sectionText]

/-! ## Loading what was saved -/

/-- Every field of the three sections has a value of its type. -/
def Typed (config : CpipConfig) : Prop :=
  (∃ apiUrl wsUrl cdnUrl timeout maxRetries, config.cloud =
    ⟨.str apiUrl, .str wsUrl, .str cdnUrl, .int timeout, .int maxRetries⟩) ∧
  (∃ maxSizeMb wheelTtlDays metadataTtlHours autoCleanup, config.cache =
    ⟨.int maxSizeMb, .int wheelTtlDays, .int metadataTtlHours, .bool autoCleanup⟩) ∧
  ∃ preferLocal gpuOffload lazyLoading cloudExec autoSync importHooks offlineMode, config.runtime =
    ⟨.bool preferLocal, .bool gpuOffload, .bool lazyLoading, .bool cloudExec, .bool autoSync,
      .bool importHooks, .bool offlineMode⟩

/-- The fields that are not saved, or not read, have their defaults, and the URLs have no quote, no
backslash and no control character other than the tab. -/
structure Restorable (config : CpipConfig) : Prop where
  maxRetries : config.cloud.maxRetries = .int 3
  metadataTtlHours : config.cache.metadataTtlHours = .int 24
  autoCleanup : config.cache.autoCleanup = .bool true
  autoSync : config.runtime.autoSync = .bool true
  importHooks : config.runtime.importHooks = .bool true
  urls : ∀ url, PyVal.str url ∈ [config.cloud.apiUrl, config.cloud.wsUrl, config.cloud.cdnUrl] →
    ∀ c ∈ url.toList, Toml.isPlain c

/-- The text that `tomllib` gets. -/
def textOf (config : CpipConfig) : List Char :=
  universalNewlines (Toml.documentText [("cloud", cloudData config), ("cache", cacheData config)] ++
    Toml.sectionText "runtime" (runtimeData config))

theorem scalars_of_typed {config : CpipConfig} (typed : Typed config) :
    Scalars [("cloud", cloudData config), ("cache", cacheData config),
      ("runtime", runtimeData config)] := by
  obtain ⟨⟨apiUrl, wsUrl, cdnUrl, timeout, maxRetries, cloud⟩, ⟨size, days, hours, cleanup, cache⟩,
    local_, gpu, lazy, exec, sync, hooks, offline, runtime⟩ := typed
  have text (s : String) : Toml.spell (.str s) ≠ [] := List.cons_ne_nil _ _
  have truth (b : Bool) : Toml.spell (.bool b) ≠ [] := by cases b <;> simp [Toml.spell]
  have number (i : ℤ) : Toml.spell (.int i) ≠ [] := by
    obtain ⟨c, cs, whole, -⟩ := Toml.exists_spellInt i
    show Toml.spellInt i ≠ []
    rw [whole]
    exact List.cons_ne_nil c cs
  unfold Scalars cloudData cacheData runtimeData
  rw [cloud, cache, runtime]
  simp only [List.forall_mem_cons, List.not_mem_nil, false_implies, implies_true, and_true]
  exact ⟨⟨text _, text _, text _, number _⟩, ⟨number _, number _, truth _⟩,
    truth _, truth _, truth _, truth _, truth _⟩

/-- The sections that are saved. -/
def dataOf (config : CpipConfig) : List (String × List (String × PyVal)) :=
  [("cloud", cloudData config), ("cache", cacheData config), ("runtime", runtimeData config)]

/-- The pairs that get a line. -/
def spelledOnly (values : List (String × PyVal)) : List (String × PyVal) :=
  values.filter fun e => Toml.spell e.2 ≠ []

def written (config : CpipConfig) : List (String × List (String × PyVal)) :=
  (dataOf config).map fun t => (t.1, spelledOnly t.2)

theorem fieldLines_of_unspelled {v : PyVal} (h : Toml.spell v = []) (key : String) :
    fieldLines env key v = .ok [] := by
  cases v with
  | atom a =>
    cases a with
    | bool b => cases b <;> simp [Toml.spell] at h
    | int i =>
      obtain ⟨c, cs, whole, -⟩ := Toml.exists_spellInt i
      exact absurd (whole.symm.trans h) (List.cons_ne_nil _ _)
    | str s => exact absurd h (List.cons_ne_nil _ _)
    | _ => rfl
  | _ => rfl

theorem valuesLines_spelledOnly (values : List (String × PyVal)) :
    valuesLines env (spelledOnly values) = valuesLines env values := by
  induction values with
  | nil => rfl
  | cons e values ih =>
    obtain ⟨key, v⟩ := e
    unfold spelledOnly at ih ⊢
    by_cases h : Toml.spell v = []
    · rw [List.filter_cons_of_neg (by simpa using h), ih, valuesLines, fieldLines_of_unspelled h]
      cases valuesLines env values <;> rfl
    · rw [List.filter_cons_of_pos (by simpa using h), valuesLines, valuesLines, ih]

theorem tomlLines_map_spelledOnly (data : List (String × List (String × PyVal))) :
    tomlLines env (data.map fun t => (t.1, spelledOnly t.2)) = tomlLines env data := by
  induction data with
  | nil => rfl
  | cons t data ih => rw [List.map_cons, tomlLines, tomlLines, valuesLines_spelledOnly, ih]

theorem scalars_written (config : CpipConfig) : Scalars (written config) := by
  intro t ht e he
  obtain ⟨t, -, rfl⟩ := List.mem_map.1 ht
  simpa using (List.mem_filter.1 he).2

theorem written_of_scalars {config : CpipConfig} (scalar : Scalars (dataOf config)) :
    written config = dataOf config := by
  refine (List.map_congr_left fun t ht => ?_).trans (List.map_id _)
  have all : spelledOnly t.2 = t.2 := by
    rw [spelledOnly, List.filter_eq_self]
    exact fun e he => by simpa using scalar t ht e he
  rw [all]
  rfl

/-- What `tomllib` gets of a configuration that was saved. -/
theorem loadToml_of_save {config : CpipConfig} {tree tree' : FileTree Bytes}
    (saved : saveConfig env config tree = (.ok (), tree')) :
    loadToml env env.configFile tree' = (Toml.loads env.toml (String.ofList
        (universalNewlines (Toml.fileText (written config))))).getD [] ∧
      ∀ t ∈ written config, ∀ e ∈ t.2, Writable env e.2 := by
  unfold saveConfig saveToml at saved
  split at saved
  · cases saved
  · split at saved
    · cases saved
    · next lines spelled =>
      split at saved
      · cases saved
      · next tree'' written' =>
        obtain ⟨-, rfl⟩ := Prod.mk.inj saved
        rw [← tomlLines_map_spelledOnly] at spelled
        obtain ⟨text, writable⟩ := @tomlLines_eq_ok env
          [("cloud", spelledOnly (cloudData config)), ("cache", spelledOnly (cacheData config))]
          "runtime" (spelledOnly (runtimeData config)) lines spelled (scalars_written config)
        have whole := Toml.fileText_append [("cloud", spelledOnly (cloudData config)),
          ("cache", spelledOnly (cacheData config))]
          ("runtime", spelledOnly (runtimeData config)) []
        rw [Toml.following, List.flatMap_nil, List.append_nil] at whole
        have read := PyPath.read_of_write written'
        refine ⟨?_, writable⟩
        rw [loadToml, if_pos (PyPath.exist_of_read read), read]
        dsimp only
        rw [decodeUtf8_encodeUtf8, Option.bind_some, text, ← whole]
        rfl

theorem textOf_eq (config : CpipConfig) :
    textOf config = universalNewlines (Toml.fileText (dataOf config)) := by
  have whole := Toml.fileText_append [("cloud", cloudData config), ("cache", cacheData config)]
    ("runtime", runtimeData config) []
  rw [Toml.following, List.flatMap_nil, List.append_nil] at whole
  exact congrArg universalNewlines whole.symm

theorem loadToml_of_saved {config : CpipConfig} {tree tree' : FileTree Bytes} (typed : Typed config)
    (saved : saveConfig env config tree = (.ok (), tree')) :
    loadToml env env.configFile tree' =
        (Toml.loads env.toml (String.ofList (textOf config))).getD [] ∧
      ∀ t ∈ dataOf config, ∀ e ∈ t.2, Writable env e.2 := by
  obtain ⟨raw, writable⟩ := loadToml_of_save saved
  rw [written_of_scalars (scalars_of_typed typed)] at raw writable
  rw [textOf_eq]
  exact ⟨raw, writable⟩

/-- The variables that override the configuration, or its defaults, are not set. -/
def NoOverrides (env : CpipEnv) : Prop :=
  ∀ name ∈ ["CPIP_API_URL", "CPIP_WS_URL", "CPIP_CDN_URL", "CPIP_OFFLINE"], env.getenv name = none

theorem applyEnviron_of_noOverrides (unset : NoOverrides env) (config : CpipConfig) :
    applyEnviron env config = config := by
  have absent {name : String}
      (mem : name ∈ ["CPIP_API_URL", "CPIP_WS_URL", "CPIP_CDN_URL", "CPIP_OFFLINE"]) :
      override env name = none := by
    rw [override, unset name mem]
    rfl
  rw [applyEnviron, absent (by simp), absent (by simp), absent (by simp)]
  rfl

theorem applyToml_eq_ok {raw : Toml.Items} {config read : CpipConfig}
    (h : applyToml raw config = .ok read) :
    ∃ cloud cache rt, sectionOf raw "cloud" = .ok cloud ∧ sectionOf raw "cache" = .ok cache ∧
      sectionOf raw "runtime" = .ok rt ∧ read = { config with
        cloud := { config.cloud with
          apiUrl := field cloud "api_url" config.cloud.apiUrl
          wsUrl := field cloud "ws_url" config.cloud.wsUrl
          cdnUrl := field cloud "cdn_url" config.cloud.cdnUrl
          timeout := field cloud "timeout" config.cloud.timeout }
        cache := { config.cache with
          maxSizeMb := field cache "max_size_mb" config.cache.maxSizeMb
          wheelTtlDays := field cache "wheel_ttl_days" config.cache.wheelTtlDays }
        runtime := { config.runtime with
          preferLocal := field rt "prefer_local" config.runtime.preferLocal
          gpuOffload := field rt "gpu_offload" config.runtime.gpuOffload
          lazyLoading := field rt "lazy_loading" config.runtime.lazyLoading
          cloudExec := field rt "cloud_exec" config.runtime.cloudExec
          offlineMode := field rt "offline_mode" config.runtime.offlineMode } } := by
  obtain ⟨cloud, hcloud, h⟩ := except_bind_eq_ok.1 h
  obtain ⟨cache, hcache, h⟩ := except_bind_eq_ok.1 h
  obtain ⟨rt, hrt, h⟩ := except_bind_eq_ok.1 h
  exact ⟨cloud, cache, rt, hcloud, hcache, hrt, (Except.ok.inj h).symm⟩

/-- Without overrides, and where the directories can be made, the configuration has the sections
that were read. -/
theorem loadConfig_eq_ok_iff {tree : FileTree Bytes} (unset : NoOverrides env)
    (ensured : (ensureDirectories env (default env) tree).1 = .ok ()) {loaded : CpipConfig} :
    (loadConfig env tree).1 = .ok loaded ↔
      ∃ read, applyToml (loadToml env env.configFile tree) (default env) = .ok read ∧
        loaded = { read with auth := loadAuth env tree } := by
  unfold loadConfig
  split
  · next e failed =>
    rw [failed]
    simp
  · next read applied =>
    rw [applied, applyEnviron_of_noOverrides unset]
    have same : ensureDirectories env { read with auth := loadAuth env tree } tree =
        ensureDirectories env (default env) tree := by
      obtain ⟨cloud, cache, rt, -, -, -, rfl⟩ := applyToml_eq_ok applied
      rfl
    dsimp only
    rw [same]
    split
    · next e tree' failed =>
      rw [failed] at ensured
      cases ensured
    · simp [eq_comm]

theorem bareName {name : String} (h : name ≠ "" ∧ name.toList.all Toml.isBare) :
    Toml.IsBareName name := ⟨h.1, List.all_eq_true.1 h.2⟩

/-- The names of the sections and of their fields are written without quotes. -/
theorem bare_names (config : CpipConfig) : ∀ t ∈ [("cloud", cloudData config),
    ("cache", cacheData config), ("runtime", runtimeData config)], Toml.IsBareName t.1 ∧
      (t.2.map Prod.fst).Nodup ∧ ∀ e ∈ t.2, Toml.IsBareName e.1 := by
  simp only [List.forall_mem_cons, List.not_mem_nil, false_implies, implies_true, and_true,
    cloudData, cacheData, runtimeData]
  refine ⟨⟨bareName (by decide), by simp, ?_⟩, ⟨bareName (by decide), by simp, ?_⟩,
    bareName (by decide), by simp, ?_⟩
  · exact ⟨bareName (by decide), bareName (by decide), bareName (by decide), bareName (by decide)⟩
  · exact ⟨bareName (by decide), bareName (by decide), bareName (by decide)⟩
  · exact ⟨bareName (by decide), bareName (by decide), bareName (by decide), bareName (by decide),
      bareName (by decide)⟩

/-- A restorable configuration is spelled in plain tables. -/
theorem plainTables_of_restorable {config : CpipConfig} (typed : Typed config)
    (restorable : Restorable config)
    (writable : ∀ t ∈ [("cloud", cloudData config), ("cache", cacheData config),
      ("runtime", runtimeData config)], ∀ e ∈ t.2, Writable env e.2) :
    Toml.PlainTables env.toml [("cloud", cloudData config), ("cache", cacheData config),
      ("runtime", runtimeData config)] := by
  obtain ⟨⟨apiUrl, wsUrl, cdnUrl, timeout, maxRetries, cloud⟩, ⟨size, days, hours, cleanup, cache⟩,
    local_, gpu, lazy, exec, sync, hooks, offline, runtime⟩ := typed
  have urls := restorable.urls
  have names := bare_names config
  rw [cloud] at urls
  unfold cloudData cacheData runtimeData at writable names ⊢
  rw [cloud, cache, runtime] at writable names ⊢
  simp only [List.forall_mem_cons, List.not_mem_nil, false_implies, implies_true,
    and_true] at writable
  obtain ⟨⟨-, -, -, time⟩, ⟨sizes, dayCount, -⟩, -⟩ := writable
  refine ⟨by simp, fun t mem => (names t mem).1,
    fun t mem => ⟨(names t mem).2.1, (names t mem).2.2, ?_⟩⟩
  -- the values of the three tables
  clear names
  revert t
  simp only [List.forall_mem_cons, List.not_mem_nil, false_implies, implies_true, and_true]
  refine ⟨⟨urls apiUrl (by simp), urls wsUrl (by simp), urls cdnUrl (by simp), time timeout rfl⟩,
    ⟨sizes size rfl, dayCount days rfl, trivial⟩, ?_⟩
  exact ⟨trivial, trivial, trivial, trivial, trivial⟩

/-- A configuration whose tables are read back has its sections again, where the rest is as in the
defaults. -/
theorem applyToml_toTables {config : CpipConfig} (typed : Typed config)
    (restorable : Restorable config) :
    ∃ read, applyToml (Toml.toTables [("cloud", cloudData config), ("cache", cacheData config),
        ("runtime", runtimeData config)]) (default env) = .ok read ∧
      read.cloud = config.cloud ∧ read.cache = config.cache ∧ read.runtime = config.runtime := by
  obtain ⟨⟨apiUrl, wsUrl, cdnUrl, timeout, maxRetries, cloud⟩, ⟨size, days, hours, cleanup, cache⟩,
    local_, gpu, lazy, exec, sync, hooks, offline, runtime⟩ := typed
  obtain ⟨retries, ttl, clean, syncs, hook, -⟩ := restorable
  rw [cloud] at retries
  rw [cache] at ttl clean
  rw [runtime] at syncs hook
  dsimp only at retries ttl clean syncs hook
  unfold cloudData cacheData runtimeData
  rw [cloud, cache, runtime, retries, ttl, clean, syncs, hook]
  exact ⟨_, rfl, rfl, rfl, rfl⟩

/-- A field has the value that the table has for it, or its default. -/
theorem eq_of_field {items : Toml.Items} {key : String} {default v : PyVal}
    (h : field items key default = v) : PyVal.getStr key items = some v ∨ default = v := by
  unfold field at h
  cases found : PyVal.getStr key items with
  | none => exact .inr (by rwa [found] at h)
  | some w => exact .inl (by rw [← h, found, Option.getD_some])

theorem lookup_of_sectionOf {raw items : Toml.Items} {name : String}
    (found : sectionOf raw name = .ok items) (key : String) :
    Toml.lookup [name, key] (.dict raw) = PyVal.getStr key items := by
  rw [Toml.lookup_cons_dict]
  unfold sectionOf at found
  split at found
  · next absent =>
    obtain rfl := Except.ok.inj found
    rw [absent]
    rfl
  · next items' present =>
    obtain rfl := Except.ok.inj found
    rw [present, Option.bind_some, Toml.lookup_cons_dict]
    cases PyVal.getStr key items' <;> rfl
  · cases found

theorem plain_defaults (unset : NoOverrides env) :
    (∀ c ∈ env.defaultApiUrl.toList, Toml.isPlain c) ∧
      (∀ c ∈ env.defaultWsUrl.toList, Toml.isPlain c) ∧
      ∀ c ∈ env.defaultCdnUrl.toList, Toml.isPlain c := by
  unfold NoOverrides at unset
  simp only [List.forall_mem_cons, List.not_mem_nil, false_implies, implies_true, and_true] at unset
  obtain ⟨api, ws, cdn, -⟩ := unset
  rw [CpipEnv.defaultApiUrl, CpipEnv.defaultWsUrl, CpipEnv.defaultCdnUrl, api, ws, cdn]
  exact ⟨List.all_eq_true.1 (by decide), List.all_eq_true.1 (by decide),
    List.all_eq_true.1 (by decide)⟩

/-- URLs that come back are plain. -/
theorem plain_urls {config : CpipConfig} {cloud : Toml.Items} (typed : Typed config)
    (writable : ∀ t ∈ [("cloud", cloudData config), ("cache", cacheData config),
      ("runtime", runtimeData config)], ∀ e ∈ t.2, Writable env e.2) (unset : NoOverrides env)
    (found : sectionOf ((Toml.loads env.toml (String.ofList (textOf config))).getD []) "cloud" =
      .ok cloud)
    (api : field cloud "api_url" (.str env.defaultApiUrl) = config.cloud.apiUrl)
    (ws : field cloud "ws_url" (.str env.defaultWsUrl) = config.cloud.wsUrl)
    (cdn : field cloud "cdn_url" (.str env.defaultCdnUrl) = config.cloud.cdnUrl) :
    Toml.IsPlain env.toml config.cloud.apiUrl ∧ Toml.IsPlain env.toml config.cloud.wsUrl ∧
      Toml.IsPlain env.toml config.cloud.cdnUrl := by
  obtain ⟨plainApi, plainWs, plainCdn⟩ := plain_defaults unset
  cases loaded : Toml.loads env.toml (String.ofList (textOf config)) with
  | none =>
    rw [loaded] at found
    obtain rfl := Except.ok.inj found
    rw [← api, ← ws, ← cdn]
    exact ⟨plainApi, plainWs, plainCdn⟩
  | some root =>
    rw [loaded] at found
    have back {key : String} {default v : PyVal} (same : field cloud key default = v)
        (plain : Toml.IsPlain env.toml default) :
        Toml.IsPlain env.toml v ∨ Toml.lookup ["cloud", key] (.dict root) = some v := by
      obtain there | rfl := eq_of_field same
      · exact .inr ((lookup_of_sectionOf found key).trans there)
      · exact .inl plain
    have backs := (⟨back api plainApi, back ws plainWs, back cdn plainCdn⟩ : _ ∧ _ ∧ _)
    have names := bare_names config
    rw [textOf_eq] at loaded
    obtain ⟨⟨apiUrl, wsUrl, cdnUrl, timeout, maxRetries, ownCloud⟩, ⟨size, days, hours, cleanup,
      cache⟩, local_, gpu, lazy, exec, sync, hooks, offline, runtime⟩ := typed
    unfold dataOf cloudData cacheData runtimeData at loaded
    unfold cloudData cacheData runtimeData at writable names
    rw [ownCloud, cache, runtime] at writable names loaded
    rw [ownCloud] at backs ⊢
    simp only [List.forall_mem_cons, List.not_mem_nil, false_implies, implies_true,
      and_true] at writable
    obtain ⟨⟨-, -, -, time⟩, ⟨sizes, dayCount, -⟩, -⟩ := writable
    have plain := Toml.QuotedTables.plainTables_of_read
      ⟨by simp, fun t mem => (names t mem).1, fun t mem => (names t mem).2.1,
        fun t mem => (names t mem).2.2, ?_⟩ loaded ?_
    · have urls := (plain.plain _ List.mem_cons_self).plain
      simp only [List.forall_mem_cons] at urls
      exact ⟨urls.1, urls.2.1, urls.2.2.1⟩
    · simp only [List.forall_mem_cons, List.not_mem_nil, false_implies, implies_true, and_true]
      exact ⟨⟨.inr ⟨_, rfl⟩, .inr ⟨_, rfl⟩, .inr ⟨_, rfl⟩, .inl (time timeout rfl)⟩,
        ⟨.inl (sizes size rfl), .inl (dayCount days rfl), .inl trivial⟩,
        .inl trivial, .inl trivial, .inl trivial, .inl trivial, .inl trivial⟩
    · simp only [List.forall_mem_cons, List.not_mem_nil, false_implies, implies_true, and_true]
      exact ⟨⟨backs.1, backs.2.1, backs.2.2, .inl (time timeout rfl)⟩,
        ⟨.inl (sizes size rfl), .inl (dayCount days rfl), .inl trivial⟩,
        .inl trivial, .inl trivial, .inl trivial, .inl trivial, .inl trivial⟩

def sampleEnv : CpipEnv where
  toJsonFiles := sampleJson
  toml := { other := fun _ => none, maxDigits := 4300 }
  getenv _ := none
  cwd := ["h"]
  home := .ofString ".cpip"

/-- A configuration that differs from the defaults, also in a field that is not saved when `retries`
is not 3. -/
def sampleConfig (retries : ℤ) : CpipConfig :=
  { default sampleEnv with
    cloud := { (default sampleEnv).cloud with
      apiUrl := .str "https://api"
      timeout := .int 60
      maxRetries := .int retries } }

def savedTree (retries : ℤ) : FileTree Bytes :=
  (saveConfig sampleEnv (sampleConfig retries) .bare).2

theorem eq_ok_of_isOk {σ : Type} {r : Except PyExc Unit × σ} (h : r.1.isOk) :
    r = (.ok (), r.2) := by
  obtain ⟨_ | _, s⟩ := r
  · cases h
  · rfl

theorem typed_sampleConfig (retries : ℤ) : Typed (sampleConfig retries) :=
  ⟨⟨_, _, _, _, _, rfl⟩, ⟨_, _, _, _, rfl⟩, _, _, _, _, _, _, _, rfl⟩

theorem saveConfig_sample : ∀ retries ∈ [3, 5],
    saveConfig sampleEnv (sampleConfig retries) .bare = (.ok (), savedTree retries) := by
  have ok : ∀ retries ∈ [3, 5], (saveConfig sampleEnv (sampleConfig retries) .bare).1.isOk := by
    decide +kernel
  exact fun retries mem => eq_ok_of_isOk (ok retries mem)

theorem ensured_sample : ∀ retries ∈ [3, 5],
    (ensureDirectories sampleEnv (default sampleEnv) (savedTree retries)).1 = .ok () := by
  have ok : ∀ retries ∈ [3, 5],
      (ensureDirectories sampleEnv (default sampleEnv) (savedTree retries)).1.isOk := by
    decide +kernel
  exact fun retries mem => congrArg Prod.fst (eq_ok_of_isOk (ok retries mem))

/-- `load_config` gives the sections that `save_config` was given exactly when the configuration is
restorable. -/
theorem saved_config_loads_iff {config : CpipConfig} {tree tree' : FileTree Bytes}
    (typed : Typed config) (unset : NoOverrides env)
    (saved : saveConfig env config tree = (.ok (), tree'))
    (ensured : (ensureDirectories env (default env) tree').1 = .ok ()) :
    (∃ loaded, (loadConfig env tree').1 = .ok loaded ∧ loaded.cloud = config.cloud ∧
      loaded.cache = config.cache ∧ loaded.runtime = config.runtime) ↔ Restorable config := by
  obtain ⟨raw, writable⟩ := loadToml_of_saved typed saved
  constructor
  · rintro ⟨loaded, load, cloudSame, cacheSame, runtimeSame⟩
    obtain ⟨read, applied, rfl⟩ := (loadConfig_eq_ok_iff unset ensured).1 load
    rw [raw] at applied
    obtain ⟨cloud, cache, rt, found, -, -, rfl⟩ := applyToml_eq_ok applied
    have urls := plain_urls typed writable unset found (congrArg CloudConfig.apiUrl cloudSame)
      (congrArg CloudConfig.wsUrl cloudSame) (congrArg CloudConfig.cdnUrl cloudSame)
    refine ⟨(congrArg CloudConfig.maxRetries cloudSame).symm,
      (congrArg CacheConfig.metadataTtlHours cacheSame).symm,
      (congrArg CacheConfig.autoCleanup cacheSame).symm,
      (congrArg RuntimeConfig.autoSync runtimeSame).symm,
      (congrArg RuntimeConfig.importHooks runtimeSame).symm, ?_⟩
    intro url mem
    obtain ⟨api, ws, cdn⟩ := urls
    simp only [List.mem_cons, List.not_mem_nil, or_false] at mem
    obtain same | same | same := mem
    · rwa [← same] at api
    · rwa [← same] at ws
    · rwa [← same] at cdn
  · intro restorable
    have plain := plainTables_of_restorable typed restorable writable
    have back := @Toml.loads_file env.toml
      [("cloud", cloudData config), ("cache", cacheData config)]
      "runtime" (runtimeData config) plain
    obtain ⟨read, applied, cloud, cache, runtime⟩ :=
      @applyToml_toTables env config typed restorable
    refine ⟨{ read with auth := loadAuth env tree' }, ?_, cloud, cache, runtime⟩
    refine (loadConfig_eq_ok_iff unset ensured).2 ⟨read, ?_, rfl⟩
    rw [raw, textOf, back]
    exact applied

theorem saved_config_loads_iff_sample :
    (∃ loaded, (loadConfig sampleEnv (savedTree 3)).1 = .ok loaded ∧
      loaded.cloud = (sampleConfig 3).cloud ∧ loaded.cache = (sampleConfig 3).cache ∧
      loaded.runtime = (sampleConfig 3).runtime) ↔ Restorable (sampleConfig 3) :=
  saved_config_loads_iff (typed_sampleConfig 3) (fun _ _ => rfl) (saveConfig_sample 3 (by simp))
    (ensured_sample 3 (by simp))

/-- The number of retries is not saved. -/
theorem saved_config_not_loaded :
    ¬ ∀ (config : CpipConfig) (tree tree' : FileTree Bytes), Typed config →
      saveConfig sampleEnv config tree = (.ok (), tree') →
      (ensureDirectories sampleEnv (default sampleEnv) tree').1 = .ok () →
      ∃ loaded, (loadConfig sampleEnv tree').1 = .ok loaded ∧ loaded.cloud = config.cloud ∧
        loaded.cache = config.cache ∧ loaded.runtime = config.runtime := by
  intro claim
  have ensured := ensured_sample 5 (by simp)
  obtain ⟨loaded, load, cloud, -, -⟩ := claim (sampleConfig 5) .bare (savedTree 5)
    (typed_sampleConfig 5) (saveConfig_sample 5 (by simp)) ensured
  obtain ⟨read, applied, rfl⟩ := (loadConfig_eq_ok_iff (fun _ _ => rfl) ensured).1 load
  obtain ⟨_, _, _, -, -, -, rfl⟩ := applyToml_eq_ok applied
  have retries : PyVal.int 3 = .int 5 := congrArg CloudConfig.maxRetries cloud
  simp at retries

end CpipConfig

end Cpip
