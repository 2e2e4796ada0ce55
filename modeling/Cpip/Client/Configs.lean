import Cpip.Python.JsonBytes
import Cpip.Python.NamedFiles

/-!
# Infrastructure configurations (`client/config/config_manager.py`)

A configuration manager reads all configurations when it is created, and keeps each one in memory
and in a file under its name.  What it has in memory is what a manager reads that is created later.
-/

namespace Cpip

/-! ## Configurations -/

inductive InfrastructureType where
  | bareMetal
  | virtualMachine
  | gpuCluster
  | hybrid
  deriving DecidableEq, Repr

inductive ProviderType where
  | aws
  | gcp
  | azure
  | lambdaLabs
  | paperspace
  | local_
  deriving DecidableEq, Repr

inductive GPUType where
  | nvidiaA100
  | nvidiaH100
  | nvidiaV100
  | nvidiaT4
  | nvidiaRtx4090
  | amdMi250x
  | tpuV4
  deriving DecidableEq, Repr

def InfrastructureType.value : InfrastructureType → String
  | .bareMetal => "bare_metal"
  | .virtualMachine => "virtual_machine"
  | .gpuCluster => "gpu_cluster"
  | .hybrid => "hybrid"

def ProviderType.value : ProviderType → String
  | .aws => "aws"
  | .gcp => "google_cloud"
  | .azure => "azure"
  | .lambdaLabs => "lambda_labs"
  | .paperspace => "paperspace"
  | .local_ => "local"

def GPUType.value : GPUType → String
  | .nvidiaA100 => "a100"
  | .nvidiaH100 => "h100"
  | .nvidiaV100 => "v100"
  | .nvidiaT4 => "t4"
  | .nvidiaRtx4090 => "rtx4090"
  | .amdMi250x => "mi250x"
  | .tpuV4 => "tpu_v4"

/-- `InfrastructureType(v)`, when it does not raise. -/
def InfrastructureType.ofValue? (v : PyVal) : Option InfrastructureType :=
  [bareMetal, virtualMachine, gpuCluster, hybrid].find? fun t => v.asStr? = some t.value

/-- `ProviderType(v)`, when it does not raise. -/
def ProviderType.ofValue? (v : PyVal) : Option ProviderType :=
  [aws, gcp, azure, lambdaLabs, paperspace, local_].find? fun t => v.asStr? = some t.value

/-- `GPUType(v)`, when it does not raise. -/
def GPUType.ofValue? (v : PyVal) : Option GPUType :=
  [nvidiaA100, nvidiaH100, nvidiaV100, nvidiaT4, nvidiaRtx4090, amdMi250x, tpuV4].find? fun t =>
    v.asStr? = some t.value

theorem InfrastructureType.ofValue?_value (t : InfrastructureType) :
    ofValue? (.str t.value) = some t := by
  cases t <;> rfl

theorem ProviderType.ofValue?_value (t : ProviderType) : ofValue? (.str t.value) = some t := by
  cases t <;> rfl

theorem GPUType.ofValue?_value (t : GPUType) : ofValue? (.str t.value) = some t := by
  cases t <;> rfl

/-- A finite number, in a field that is annotated `float`. -/
inductive FiniteNumber where
  | int (i : ℤ)
  | float (q : ℚ)
  deriving DecidableEq, Repr

def FiniteNumber.value : FiniteNumber → PyVal
  | .int i => .int i
  | .float q => .float (.finite q)

def FiniteNumber.ofValue? : PyVal → Option FiniteNumber
  | .int i => some (.int i)
  | .float (.finite q) => some (.float q)
  | _ => none

theorem FiniteNumber.ofValue?_value (n : FiniteNumber) : ofValue? n.value = some n := by
  cases n <;> rfl

/-- `GPUTimerConfig`. -/
structure GPUTimerConfig where
  enabled : Bool := false
  startTime : Option String := none
  endTime : Option String := none
  timezone : String := "UTC"
  allowOverride : Bool := false
  deriving DecidableEq, Repr

/-- `AutoDetectorConfig`. -/
structure AutoDetectorConfig where
  enabled : Bool := false
  idleThresholdMinutes : ℤ := 30
  costThresholdUsd : FiniteNumber := .float 10
  autoShutdown : Bool := false
  powerMonitoring : Bool := false
  consolidateInstances : Bool := false
  deriving DecidableEq, Repr

/-- `InfrastructureConfig`, after `__post_init__`. -/
structure InfrastructureConfig where
  name : String
  type : InfrastructureType
  provider : ProviderType
  gpuTypes : List GPUType := []
  region : String := "us-east-1"
  gpuTimer : GPUTimerConfig := {}
  autoDetector : AutoDetectorConfig := {}
  computeBudgetMonthly : FiniteNumber := .float 500
  enableCaching : Bool := true
  maxWorkers : ℤ := 8
  metadata : List (PyKey × PyVal) := []

/-! ## Configurations in JSON -/

/-- `str | None` as a value. -/
def optionalText : Option String → PyVal
  | some s => .str s
  | none => .none

/-- `asdict(gpu_timer)`. -/
def GPUTimerConfig.asdict (c : GPUTimerConfig) : PyVal :=
  .dict [(.str "enabled", .bool c.enabled), (.str "start_time", optionalText c.startTime),
    (.str "end_time", optionalText c.endTime), (.str "timezone", .str c.timezone),
    (.str "allow_override", .bool c.allowOverride)]

/-- `asdict(auto_detector)`. -/
def AutoDetectorConfig.asdict (c : AutoDetectorConfig) : PyVal :=
  .dict [(.str "enabled", .bool c.enabled),
    (.str "idle_threshold_minutes", .int c.idleThresholdMinutes),
    (.str "cost_threshold_usd", c.costThresholdUsd.value),
    (.str "auto_shutdown", .bool c.autoShutdown),
    (.str "power_monitoring", .bool c.powerMonitoring),
    (.str "consolidate_instances", .bool c.consolidateInstances)]

/-- The argument of a name, or its default; `none` when the argument has another type. -/
def argument {α : Type} (items : List (PyKey × PyVal)) (name : String) (default : α)
    (read : PyVal → Option α) : Option α :=
  match PyVal.getStr name items with
  | none => some default
  | some v => read v

/-- Every name is the name of a parameter. -/
def onlyNames (items : List (PyKey × PyVal)) (names : List String) : Bool :=
  items.all fun e => e.1 ∈ names.map PyKey.str

def textOrNone : PyVal → Option (Option String)
  | .none => some none
  | .str s => some (some s)
  | _ => none

/-- `GPUTimerConfig(**v)`, when it does not raise and the arguments have the types of the fields. -/
def GPUTimerConfig.ofValue? : PyVal → Option GPUTimerConfig
  | .dict items =>
    if onlyNames items ["enabled", "start_time", "end_time", "timezone", "allow_override"] then do
      let enabled ← argument items "enabled" false PyVal.asBool?
      let startTime ← argument items "start_time" none textOrNone
      let endTime ← argument items "end_time" none textOrNone
      let timezone ← argument items "timezone" "UTC" PyVal.asStr?
      let allowOverride ← argument items "allow_override" false PyVal.asBool?
      return ⟨enabled, startTime, endTime, timezone, allowOverride⟩
    else none
  | _ => none

/-- `AutoDetectorConfig(**v)`, when it does not raise and the arguments have the types of the
fields. -/
def AutoDetectorConfig.ofValue? : PyVal → Option AutoDetectorConfig
  | .dict items =>
    if onlyNames items ["enabled", "idle_threshold_minutes", "cost_threshold_usd", "auto_shutdown",
        "power_monitoring", "consolidate_instances"] then do
      let enabled ← argument items "enabled" false PyVal.asBool?
      let idleThresholdMinutes ← argument items "idle_threshold_minutes" 30 PyVal.asInt?
      let costThresholdUsd ←
        argument items "cost_threshold_usd" (.float 10) FiniteNumber.ofValue?
      let autoShutdown ← argument items "auto_shutdown" false PyVal.asBool?
      let powerMonitoring ← argument items "power_monitoring" false PyVal.asBool?
      let consolidateInstances ← argument items "consolidate_instances" false PyVal.asBool?
      return ⟨enabled, idleThresholdMinutes, costThresholdUsd, autoShutdown, powerMonitoring,
        consolidateInstances⟩
    else none
  | _ => none

/-- A nested configuration: it is read when the value is truthy, and `None` is the default. -/
def nested {α : Type} (default : α) (read : PyVal → Option α) (v : PyVal) : Option α :=
  if v.truthy then read v else if v.isNone then some default else none

def metadataOf : PyVal → Option (List (PyKey × PyVal))
  | .none => some []
  | .dict items => some items
  | _ => none

namespace ConfigManager

/-- `_serialize_config`. -/
def serializeConfig (config : InfrastructureConfig) : PyVal :=
  .dict [(.str "name", .str config.name), (.str "type", .str config.type.value),
    (.str "provider", .str config.provider.value),
    (.str "gpu_types", .list (config.gpuTypes.map fun g => .str g.value)),
    (.str "region", .str config.region), (.str "gpu_timer", config.gpuTimer.asdict),
    (.str "auto_detector", config.autoDetector.asdict),
    (.str "compute_budget_monthly", config.computeBudgetMonthly.value),
    (.str "enable_caching", .bool config.enableCaching),
    (.str "max_workers", .int config.maxWorkers), (.str "metadata", .dict config.metadata)]

/-- The parameters of `InfrastructureConfig`. -/
def fieldNames : List String :=
  ["name", "type", "provider", "gpu_types", "region", "gpu_timer", "auto_detector",
    "compute_budget_monthly", "enable_caching", "max_workers", "metadata"]

/-- `_deserialize_config`, when it does not raise and the fields have their types. -/
def deserializeConfig : PyVal → Option InfrastructureConfig
  | .dict data => do
    let type ← (PyVal.getStr "type" data).bind InfrastructureType.ofValue?
    let provider ← (PyVal.getStr "provider" data).bind ProviderType.ofValue?
    let gpuTypes ← ((PyVal.getStr "gpu_types" data).getD (.list [])).asListOf? GPUType.ofValue?
    let gpuTimer ← argument data "gpu_timer" {} (nested {} GPUTimerConfig.ofValue?)
    let autoDetector ← argument data "auto_detector" {} (nested {} AutoDetectorConfig.ofValue?)
    if onlyNames data fieldNames then
      let name ← (PyVal.getStr "name" data).bind PyVal.asStr?
      let region ← argument data "region" "us-east-1" PyVal.asStr?
      let budget ← argument data "compute_budget_monthly" (.float 500) FiniteNumber.ofValue?
      let enableCaching ← argument data "enable_caching" true PyVal.asBool?
      let maxWorkers ← argument data "max_workers" 8 PyVal.asInt?
      let metadata ← argument data "metadata" [] metadataOf
      return ⟨name, type, provider, gpuTypes, region, gpuTimer, autoDetector, budget,
        enableCaching, maxWorkers, metadata⟩
    else none
  | _ => none

theorem ofValue?_asdict_gpuTimer (c : GPUTimerConfig) :
    GPUTimerConfig.ofValue? c.asdict = some c := by
  obtain ⟨enabled, startTime, endTime, timezone, allowOverride⟩ := c
  cases startTime <;> cases endTime <;>
    simp [GPUTimerConfig.asdict, GPUTimerConfig.ofValue?, onlyNames, argument, PyVal.getStr_cons,
      optionalText, textOrNone, PyVal.asBool?, PyVal.asStr?]

theorem ofValue?_asdict_autoDetector (c : AutoDetectorConfig) :
    AutoDetectorConfig.ofValue? c.asdict = some c := by
  simp [AutoDetectorConfig.asdict, AutoDetectorConfig.ofValue?, onlyNames, argument,
    PyVal.getStr_cons, PyVal.asBool?, PyVal.asInt?, FiniteNumber.ofValue?_value]

/-- A configuration is read as it was written. -/
theorem deserialize_serialize (config : InfrastructureConfig) :
    deserializeConfig (serializeConfig config) = some config := by
  have gpuTypes := PyVal.asListOf?_map_self GPUType.ofValue?_value config.gpuTypes
  have gpuTimer : nested {} GPUTimerConfig.ofValue? config.gpuTimer.asdict = some config.gpuTimer :=
    ofValue?_asdict_gpuTimer config.gpuTimer
  have autoDetector : nested {} AutoDetectorConfig.ofValue? config.autoDetector.asdict =
      some config.autoDetector := ofValue?_asdict_autoDetector config.autoDetector
  simp [serializeConfig, deserializeConfig, onlyNames, fieldNames, argument, PyVal.getStr_cons,
    InfrastructureType.ofValue?_value, ProviderType.ofValue?_value, gpuTypes, gpuTimer,
    autoDetector, FiniteNumber.ofValue?_value, PyVal.asBool?, PyVal.asInt?, PyVal.asStr?,
    metadataOf]

end ConfigManager

/-! ## The manager -/

/-- What a manager is set up with: `iterdir` is the order in which a directory is read, and
`partialDump` what `json.dump` has written of a value when it raises. -/
structure ConfigEnv extends JsonFiles where
  configDir : PyPath
  cwd : Loc
  iterdir : List String → List String
  iterdir_perm : ∀ l, (iterdir l).Perm l
  partialDump : PyVal → Bytes

/-- A manager with the files. -/
structure ConfigManager where
  tree : FileTree Bytes
  configs : Dict String InfrastructureConfig

namespace ConfigManager

variable (env : ConfigEnv)

def configFile (name : String) : PyPath := env.configDir.join (name ++ ".json")

/-- The configuration in a file of the directory, where reading it does not raise. -/
def loadConfig (tree : FileTree Bytes) (file : String) : Option InfrastructureConfig :=
  match (env.configDir.join file).read env.cwd tree with
  | .error _ => none
  | .ok b => (env.parse b).bind fun t => deserializeConfig t.loads

/-- A round of the loop in `load_all_configs`. -/
def addConfig (tree : FileTree Bytes) (configs : Dict String InfrastructureConfig) (file : String) :
    Dict String InfrastructureConfig :=
  match loadConfig env tree file with
  | some config => configs.set config.name config
  | none => configs

/-- `load_all_configs`, into a manager without configurations. -/
def loadAllConfigs (tree : FileTree Bytes) : Dict String InfrastructureConfig :=
  (env.iterdir (env.configDir.glob env.cwd tree ".json")).foldl (addConfig env tree) ∅

/-- `ConfigManager.__init__`, where it does not raise. -/
def create (tree : FileTree Bytes) : Option ConfigManager :=
  match env.configDir.mkdirs env.cwd tree true with
  | (.ok _, tree') => some ⟨tree', loadAllConfigs env tree'⟩
  | (.error _, _) => none

/-- `save_config`: the file is opened, and so emptied, before the configuration is encoded. -/
def saveConfig (config : InfrastructureConfig) (s : ConfigManager) :
    Except PyExc Unit × ConfigManager :=
  match env.py.dumpsStrict (serializeConfig config) with
  | .ok t =>
    match (configFile env config.name).write env.cwd s.tree (env.spell t) with
    | .error _ => (.error (.other "OSError"), s)
    | .ok tree => (.ok (), ⟨tree, s.configs.set config.name config⟩)
  | .error e =>
    match (configFile env config.name).write env.cwd s.tree
        (env.partialDump (serializeConfig config)) with
    | .error _ => (.error (.other "OSError"), s)
    | .ok tree => (.error e, { s with tree := tree })

/-- `delete_config`. -/
def deleteConfig (name : String) (s : ConfigManager) : Except PyExc Unit × ConfigManager :=
  if (configFile env name).exist env.cwd s.tree then
    match (configFile env name).unlink env.cwd s.tree with
    | .error _ => (.error (.other "OSError"), s)
    | .ok tree => (.ok (), ⟨tree, s.configs.pop name⟩)
  else (.ok (), s)

/-- `list_configs`. -/
def listConfigs (s : ConfigManager) : List String := s.configs.keys

/-- `get_config`. -/
def getConfig (name : String) (s : ConfigManager) : Option InfrastructureConfig :=
  s.configs.get? name

inductive Call where
  | save (config : InfrastructureConfig)
  | delete (name : String)

/-- What a call leaves, whether it returns or raises. -/
def serve (s : ConfigManager) : Call → ConfigManager
  | .save config => (saveConfig env config s).2
  | .delete name => (deleteConfig env name s).2

/-- What is saved under the name after the calls and was not deleted since, if `found` is before
them. -/
def saved (name : String) (found : Option InfrastructureConfig) :
    List Call → Option InfrastructureConfig
  | [] => found
  | .save config :: calls => saved name (if config.name = name then some config else found) calls
  | .delete name' :: calls => saved name (if name' = name then none else found) calls

/-- The name is a component of a path, and the metadata has string keys and JSON values. -/
def Proper (config : InfrastructureConfig) : Prop :=
  '/' ∉ config.name.toList ∧ (PyVal.dict config.metadata).IsJson

def ProperCall : Call → Prop
  | .save config => Proper config
  | .delete name => '/' ∉ name.toList

/-! ## What the files hold -/

theorem isJson_serializeConfig {config : InfrastructureConfig}
    (metadata : (PyVal.dict config.metadata).IsJson) : (serializeConfig config).IsJson := by
  have number (n : FiniteNumber) : n.value.IsJson := by
    cases n <;> trivial
  have text (s : Option String) : (optionalText s).IsJson := by
    cases s <;> trivial
  have gpuTypes : (PyVal.list (config.gpuTypes.map fun g => .str g.value)).IsJson :=
    PyVal.isJson_list fun _ _ => trivial
  have gpuTimer : config.gpuTimer.asdict.IsJson := by
    refine (PyVal.everywhere_dict_iff _).2 ⟨by simp [PyVal.IsJsonNode], ?_⟩
    simp only [List.forall_mem_cons, List.not_mem_nil, false_implies, implies_true, and_true]
    exact ⟨trivial, text _, text _, trivial, trivial⟩
  have autoDetector : config.autoDetector.asdict.IsJson := by
    refine (PyVal.everywhere_dict_iff _).2 ⟨by simp [PyVal.IsJsonNode], ?_⟩
    simp only [List.forall_mem_cons, List.not_mem_nil, false_implies, implies_true, and_true]
    exact ⟨trivial, trivial, number _, trivial, trivial, trivial⟩
  refine (PyVal.everywhere_dict_iff _).2 ⟨by simp [PyVal.IsJsonNode], ?_⟩
  simp only [List.forall_mem_cons, List.not_mem_nil, false_implies, implies_true, and_true]
  exact ⟨trivial, trivial, trivial, gpuTypes, trivial, gpuTimer, autoDetector, number _, trivial,
    trivial, metadata⟩

/-- The file of a configuration. -/
def fileOf (config : InfrastructureConfig) : Bytes :=
  match env.py.dumpsStrict (serializeConfig config) with
  | .ok t => env.spell t
  | .error _ => env.partialDump (serializeConfig config)

theorem exists_text {config : InfrastructureConfig}
    (metadata : (PyVal.dict config.metadata).IsJson) :
    ∃ t, env.py.dumpsStrict (serializeConfig config) = .ok t ∧ fileOf env config = env.spell t ∧
      ((env.parse (fileOf env config)).bind fun t => deserializeConfig t.loads) = some config := by
  have json := isJson_serializeConfig metadata
  obtain ⟨t, dumped, loaded⟩ := env.py.loads_dumps json
  rw [← env.py.dumpsStrict_of_isJson json] at dumped
  have file : fileOf env config = env.spell t := by rw [fileOf, dumped]
  refine ⟨t, dumped, file, ?_⟩
  rw [file, env.parse_spell, Option.bind_some, loaded, deserialize_serialize]

variable {env}

/-- The files of the manager are those of the configurations that it has in memory, each under its
own name. -/
structure Kept (env : ConfigEnv) (l : Loc) (s : ConfigManager) : Prop where
  files : NamedFiles env.cwd env.configDir ".json" l (s.configs.contents (fileOf env)) s.tree
  own : ∀ name config, s.configs.get? name = some config → config.name = name
  proper : ∀ name config, s.configs.get? name = some config → Proper config

theorem isPart_config {name : String} (noSlash : '/' ∉ name.toList) :
    IsPart (name ++ ".json") ∧ name ++ ".json" ≠ ".." :=
  isPart_append noSlash (by decide) (by decide)

/-- Nothing is loaded from a directory without configurations. -/
theorem loadAllConfigs_of_glob {tree : FileTree Bytes}
    (unused : env.configDir.glob env.cwd tree ".json" = []) : loadAllConfigs env tree = ∅ := by
  rw [loadAllConfigs, unused, List.Perm.eq_nil (env.iterdir_perm [])]
  rfl

theorem getConfig_create {tree : FileTree Bytes} {s : ConfigManager}
    (created : create env tree = some s)
    (unused : env.configDir.glob env.cwd s.tree ".json" = []) (name : String) :
    getConfig name s = none := by
  unfold create at created
  split at created
  · next l tree' made =>
    obtain rfl := Option.some.inj created
    rw [getConfig, loadAllConfigs_of_glob unused]
    rfl
  · cases created

theorem kept_create {tree : FileTree Bytes} {s : ConfigManager} (created : create env tree = some s)
    (unused : env.configDir.glob env.cwd s.tree ".json" = []) : ∃ l, Kept env l s := by
  unfold create at created
  split at created
  · next l tree' made =>
    obtain rfl := Option.some.inj created
    dsimp only at unused
    rw [loadAllConfigs_of_glob unused]
    refine ⟨l, .of_mkdirs made unused, fun name config found => ?_, fun name config found => ?_⟩
    · rw [Dict.get?_empty] at found
      cases found
    · rw [Dict.get?_empty] at found
      cases found
  · cases created

theorem Kept.save {l : Loc} {s : ConfigManager} (h : Kept env l s) {config : InfrastructureConfig}
    (proper : Proper config) : Kept env l (saveConfig env config s).2 := by
  obtain ⟨t, dumped, file, -⟩ := exists_text env proper.2
  obtain ⟨tree, written, files⟩ := h.files.write (isPart_config proper.1) (env.spell t)
  rw [saveConfig, dumped]
  dsimp only
  rw [configFile, written]
  refine ⟨?_, fun name config' found => ?_, fun name config' found => ?_⟩
  · rw [Dict.contents_set, file]
    exact files
  · rw [Dict.get?_set] at found
    split_ifs at found with here
    · exact Option.some.inj found ▸ here
    · exact h.own name config' found
  · rw [Dict.get?_set] at found
    split_ifs at found with here
    · exact Option.some.inj found ▸ proper
    · exact h.proper name config' found

theorem Kept.delete {l : Loc} {s : ConfigManager} (h : Kept env l s) {name : String}
    (noSlash : '/' ∉ name.toList) : Kept env l (deleteConfig env name s).2 := by
  obtain ⟨tree, gone, files⟩ := h.files.unlink (isPart_config noSlash)
  rw [deleteConfig]
  split_ifs
  · rw [configFile, gone]
    refine ⟨?_, fun name' config found => ?_, fun name' config found => ?_⟩
    · rw [Dict.contents_pop]
      exact files
    · exact h.own name' config (Dict.get?_of_get?_pop found).1
    · exact h.proper name' config (Dict.get?_of_get?_pop found).1
  · exact h

theorem Kept.run {l : Loc} {s : ConfigManager} (h : Kept env l s) {calls : List Call}
    (proper : ∀ call ∈ calls, ProperCall call) : Kept env l (calls.foldl (serve env) s) := by
  induction calls generalizing s with
  | nil => exact h
  | cons call calls ih =>
    rw [List.forall_mem_cons] at proper
    refine ih ?_ proper.2
    cases call with
    | save config => exact h.save proper.1
    | delete name => exact h.delete proper.1

theorem Kept.getConfig_save {l : Loc} {s : ConfigManager} (h : Kept env l s)
    {config : InfrastructureConfig} (proper : Proper config) (name : String) :
    getConfig name (saveConfig env config s).2 =
      if config.name = name then some config else getConfig name s := by
  obtain ⟨t, dumped, -⟩ := exists_text env proper.2
  obtain ⟨tree, written, -⟩ := h.files.write (isPart_config proper.1) (env.spell t)
  rw [saveConfig, dumped]
  dsimp only
  rw [configFile, written]
  exact Dict.get?_set _ _ _ _

theorem Kept.getConfig_delete {l : Loc} {s : ConfigManager} (h : Kept env l s) {name' : String}
    (noSlash : '/' ∉ name'.toList) (name : String) :
    getConfig name (deleteConfig env name' s).2 =
      if name' = name then none else getConfig name s := by
  obtain ⟨tree, gone, -⟩ := h.files.unlink (isPart_config noSlash)
  rw [deleteConfig, configFile, h.files.exist (isPart_config noSlash), gone]
  split_ifs with present here here
  · exact here ▸ Dict.get?_pop_self _ _
  · exact (Dict.get?_pop _ _ _).trans (if_neg here)
  · -- there is no such file, so nothing is remembered under the name
    rw [Dict.contents, Option.isSome_map, Option.not_isSome_iff_eq_none] at present
    exact here ▸ present
  · rfl

/-- The manager has in memory what was saved and not deleted since. -/
theorem Kept.getConfig_run {l : Loc} {s : ConfigManager} (h : Kept env l s) {calls : List Call}
    (proper : ∀ call ∈ calls, ProperCall call) (name : String) :
    getConfig name (calls.foldl (serve env) s) = saved name (getConfig name s) calls := by
  induction calls generalizing s with
  | nil => rfl
  | cons call calls ih =>
    rw [List.forall_mem_cons] at proper
    cases call with
    | save config =>
      rw [saved, ← h.getConfig_save proper.1]
      exact ih (h.save proper.1) proper.2
    | delete name' =>
      rw [saved, ← h.getConfig_delete proper.1]
      exact ih (h.delete proper.1) proper.2

/-! ## Opening the directory again -/

theorem Kept.loadConfig {l : Loc} {s : ConfigManager} (h : Kept env l s) {name : String}
    {config : InfrastructureConfig} (found : s.configs.get? name = some config) :
    ConfigManager.loadConfig env s.tree (name ++ ".json") = some config := by
  have proper := h.proper name config found
  obtain rfl := h.own name config found
  obtain ⟨t, -, -, parsed⟩ := exists_text env proper.2
  rw [ConfigManager.loadConfig, h.files.read (isPart_config proper.1), Dict.contents, found,
    Option.map_some]
  exact parsed

/-- What the loop leaves when each file is for an entry of one dictionary: entries of it, and among
them those of the files. -/
theorem foldl_addConfig {tree : FileTree Bytes} {configs : Dict String InfrastructureConfig}
    {files : List String}
    (agree : ∀ file ∈ files, ∃ config, loadConfig env tree file = some config ∧
      configs.get? config.name = some config)
    {acc : Dict String InfrastructureConfig}
    (part : ∀ name config, acc.get? name = some config → configs.get? name = some config) :
    (∀ name config, (files.foldl (addConfig env tree) acc).get? name = some config →
      configs.get? name = some config) ∧
    ∀ name config, (acc.get? name).isSome ∨
      (∃ file ∈ files, loadConfig env tree file = some config ∧ config.name = name) →
      ((files.foldl (addConfig env tree) acc).get? name).isSome := by
  induction files generalizing acc with
  | nil =>
    refine ⟨part, fun name config h => ?_⟩
    rcases h with present | ⟨file, mem, -⟩
    · exact present
    · cases mem
  | cons file files ih =>
    rw [List.forall_mem_cons] at agree
    obtain ⟨⟨config, loaded, known⟩, others⟩ := agree
    have added : addConfig env tree acc file = acc.set config.name config := by
      rw [addConfig, loaded]
    have part' (name : String) (config' : InfrastructureConfig)
        (found : (acc.set config.name config).get? name = some config') :
        configs.get? name = some config' := by
      rw [Dict.get?_set] at found
      split_ifs at found with here
      · rw [← here, known]
        exact found
      · exact part name config' found
    rw [List.foldl_cons, added]
    obtain ⟨sound, complete⟩ := ih others part'
    refine ⟨sound, fun name config' h => complete name config' ?_⟩
    rcases h with present | ⟨file', mem, loaded', named⟩
    · left
      rw [Dict.get?_set]
      split_ifs
      · rfl
      · exact present
    · rcases List.mem_cons.1 mem with rfl | mem
      · obtain rfl := Option.some.inj (loaded.symm.trans loaded')
        left
        rw [named, Dict.get?_set_self]
        rfl
      · exact .inr ⟨file', mem, loaded', named⟩

theorem Kept.loadAllConfigs {l : Loc} {s : ConfigManager} (h : Kept env l s) (name : String) :
    (ConfigManager.loadAllConfigs env s.tree).get? name = s.configs.get? name := by
  have listed (file : String) : file ∈ env.iterdir (env.configDir.glob env.cwd s.tree ".json") ↔
      ∃ name config, file = name ++ ".json" ∧ s.configs.get? name = some config := by
    rw [(env.iterdir_perm _).mem_iff, h.files.mem_glob]
    simp only [Dict.contents, Option.isSome_map, Option.isSome_iff_exists, exists_and_left]
  have agree (file : String)
      (mem : file ∈ env.iterdir (env.configDir.glob env.cwd s.tree ".json")) :
      ∃ config, ConfigManager.loadConfig env s.tree file = some config ∧
        s.configs.get? config.name = some config := by
    obtain ⟨name, config, rfl, found⟩ := (listed file).1 mem
    refine ⟨config, h.loadConfig found, ?_⟩
    rw [h.own name config found]
    exact found
  have noneYet (name : String) (config : InfrastructureConfig)
      (found : (∅ : Dict String InfrastructureConfig).get? name = some config) :
      s.configs.get? name = some config := by
    rw [Dict.get?_empty] at found
    cases found
  obtain ⟨sound, complete⟩ := foldl_addConfig agree noneYet
  apply Option.ext
  intro config
  constructor
  · exact sound name config
  · intro found
    have present := complete name config (.inr ⟨name ++ ".json",
      (listed _).2 ⟨name, config, rfl, found⟩, h.loadConfig found, h.own name config found⟩)
    obtain ⟨config', loaded⟩ := Option.isSome_iff_exists.1 present
    rw [ConfigManager.loadAllConfigs, loaded]
    exact (sound name config' loaded).symm.trans found

def sampleEnv : ConfigEnv where
  toJsonFiles := sampleJson
  configDir := .ofString "configs"
  cwd := ["h"]
  iterdir := List.reverse
  iterdir_perm l := l.reverse_perm
  partialDump _ := []

/-- The manager that is created where nothing is yet. -/
def opened : ConfigManager := (create sampleEnv .bare).getD ⟨.bare, ∅⟩

theorem create_opened : create sampleEnv .bare = some opened := by
  have isSome : (create sampleEnv .bare).isSome := by decide +kernel
  obtain ⟨s, hs⟩ := Option.isSome_iff_exists.1 isSome
  rw [opened, hs]
  rfl

def sampleConfig (name : String) : InfrastructureConfig where
  name := name
  type := .gpuCluster
  provider := .aws
  gpuTypes := [.nvidiaH100]
  gpuTimer := { enabled := true, startTime := some "09:00" }
  metadata := [(.str "team", .str "ml")]

/-- After any saves and deletions, a manager that is opened on the directory has the configurations
that the manager which made the calls has in memory: those that were saved and not deleted
since. -/
theorem reopened_configs_eq {tree : FileTree Bytes} {start : ConfigManager} {calls : List Call}
    (created : create env tree = some start)
    (unused : env.configDir.glob env.cwd start.tree ".json" = [])
    (proper : ∀ call ∈ calls, ProperCall call) :
    ∃ again, create env (calls.foldl (serve env) start).tree = some again ∧
      ∀ name, getConfig name again = getConfig name (calls.foldl (serve env) start) ∧
        getConfig name again = saved name none calls := by
  obtain ⟨l, kept⟩ := kept_create created unused
  have after := kept.run proper
  refine ⟨⟨(calls.foldl (serve env) start).tree,
    loadAllConfigs env (calls.foldl (serve env) start).tree⟩, ?_, fun name => ?_⟩
  · rw [create, after.files.mkdirs]
  · have same := after.loadAllConfigs name
    refine ⟨same, same.trans ?_⟩
    rw [← getConfig_create created unused name]
    exact kept.getConfig_run proper name

theorem reopened_configs_eq_sample :
    ∃ again, create sampleEnv
        ([.save (sampleConfig "a"), .save (sampleConfig "b"), .delete "a"].foldl (serve sampleEnv)
          opened).tree = some again ∧
      ∀ name, getConfig name again = getConfig name
        ([.save (sampleConfig "a"), .save (sampleConfig "b"), .delete "a"].foldl (serve sampleEnv)
          opened) ∧
        getConfig name again = saved name none
          [.save (sampleConfig "a"), .save (sampleConfig "b"), .delete "a"] := by
  have metadata (name : String) : (PyVal.dict (sampleConfig name).metadata).IsJson := by
    refine (PyVal.everywhere_dict_iff _).2 ⟨by simp [sampleConfig, PyVal.IsJsonNode], ?_⟩
    intro e he
    obtain rfl := List.mem_singleton.1 he
    trivial
  refine reopened_configs_eq create_opened (by decide +kernel) ?_
  simp only [List.forall_mem_cons, List.not_mem_nil, false_implies, implies_true, and_true]
  exact ⟨⟨by decide, metadata "a"⟩, ⟨by decide, metadata "b"⟩, show '/' ∉ "a".toList by decide⟩

end ConfigManager

end Cpip
