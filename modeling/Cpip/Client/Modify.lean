import Cpip.Client.Configs
import Cpip.Lib.Forms

/-!
# Editing a configuration (`client/config/config_manager.py`)

`interactive_modify` works on the object that the manager has in memory, and assigns each answer to
its field as it comes; an aborted prompt answers `None`, and a field then holds that.  So the
objects of a manager are named here (by numbers), and the fields that can be assigned hold any
value.
-/

namespace Cpip

/-! ## Objects -/

/-- A `GPUTimerConfig` whose fields may hold anything. -/
structure GPUTimerObject where
  enabled : PyVal
  startTime : PyVal
  endTime : PyVal
  timezone : PyVal
  allowOverride : PyVal

/-- An `AutoDetectorConfig` whose fields may hold anything. -/
structure AutoDetectorObject where
  enabled : PyVal
  idleThresholdMinutes : PyVal
  costThresholdUsd : PyVal
  autoShutdown : PyVal
  powerMonitoring : PyVal
  consolidateInstances : PyVal

/-- An `InfrastructureConfig` in memory. -/
structure ConfigObject where
  name : String
  type : InfrastructureType
  provider : ProviderType
  gpuTypes : List GPUType
  region : PyVal
  gpuTimer : GPUTimerObject
  autoDetector : AutoDetectorObject
  computeBudgetMonthly : PyVal
  enableCaching : PyVal
  maxWorkers : PyVal
  metadata : PyVal

/-- The object of a configuration whose fields have their types. -/
def InfrastructureConfig.object (c : InfrastructureConfig) : ConfigObject where
  name := c.name
  type := c.type
  provider := c.provider
  gpuTypes := c.gpuTypes
  region := .str c.region
  gpuTimer := ⟨.bool c.gpuTimer.enabled, optionalText c.gpuTimer.startTime,
    optionalText c.gpuTimer.endTime, .str c.gpuTimer.timezone, .bool c.gpuTimer.allowOverride⟩
  autoDetector := ⟨.bool c.autoDetector.enabled, .int c.autoDetector.idleThresholdMinutes,
    c.autoDetector.costThresholdUsd.value, .bool c.autoDetector.autoShutdown,
    .bool c.autoDetector.powerMonitoring, .bool c.autoDetector.consolidateInstances⟩
  computeBudgetMonthly := c.computeBudgetMonthly.value
  enableCaching := .bool c.enableCaching
  maxWorkers := .int c.maxWorkers
  metadata := .dict c.metadata

namespace ConfigObject

/-- `asdict(gpu_timer)`. -/
def timerDict (c : GPUTimerObject) : PyVal :=
  .dict [(.str "enabled", c.enabled), (.str "start_time", c.startTime),
    (.str "end_time", c.endTime), (.str "timezone", c.timezone),
    (.str "allow_override", c.allowOverride)]

/-- `asdict(auto_detector)`. -/
def detectorDict (c : AutoDetectorObject) : PyVal :=
  .dict [(.str "enabled", c.enabled), (.str "idle_threshold_minutes", c.idleThresholdMinutes),
    (.str "cost_threshold_usd", c.costThresholdUsd), (.str "auto_shutdown", c.autoShutdown),
    (.str "power_monitoring", c.powerMonitoring),
    (.str "consolidate_instances", c.consolidateInstances)]

/-- `_serialize_config`. -/
def serialize (c : ConfigObject) : PyVal :=
  .dict [(.str "name", .str c.name), (.str "type", .str c.type.value),
    (.str "provider", .str c.provider.value),
    (.str "gpu_types", .list (c.gpuTypes.map fun g => .str g.value)),
    (.str "region", c.region), (.str "gpu_timer", timerDict c.gpuTimer),
    (.str "auto_detector", detectorDict c.autoDetector),
    (.str "compute_budget_monthly", c.computeBudgetMonthly),
    (.str "enable_caching", c.enableCaching), (.str "max_workers", c.maxWorkers),
    (.str "metadata", c.metadata)]

end ConfigObject

theorem InfrastructureConfig.serialize_object (c : InfrastructureConfig) :
    c.object.serialize = ConfigManager.serializeConfig c := rfl

/-- How `int` and `float` convert an answer. -/
structure ModifyEnv extends ConfigEnv where
  toInt : PyVal → Except PyExc ℤ
  toFloat : PyVal → Except PyExc PyFloat

/-- A manager with its objects and the files. -/
structure ObjectManager where
  tree : FileTree Bytes
  objects : ℕ → ConfigObject
  configs : Dict String ℕ

/-- What a prompt does: it answers, with `None` when it is aborted, or it raises. -/
abbrev Reply := Except PyExc PyVal

namespace ObjectManager

variable (env : ModifyEnv)

/-! ## Saving -/

/-- `save_config`: the file is opened, and so emptied, before the configuration is encoded. -/
def saveConfig (ref : ℕ) (s : ObjectManager) : Except PyExc Unit × ObjectManager :=
  let config := s.objects ref
  let file := ConfigManager.configFile env.toConfigEnv config.name
  match env.py.dumpsStrict config.serialize with
  | .ok t =>
    match file.write env.cwd s.tree (env.spell t) with
    | .error _ => (.error (.other "OSError"), s)
    | .ok tree => (.ok (), { s with tree := tree, configs := s.configs.set config.name ref })
  | .error e =>
    match file.write env.cwd s.tree (env.partialDump config.serialize) with
    | .error _ => (.error (.other "OSError"), s)
    | .ok tree => (.error e, { s with tree := tree })

/-- Where the fields have their types, a save is that of the manager of typed configurations. -/
theorem saveConfig_object {c : InfrastructureConfig} {ref : ℕ} {s : ObjectManager}
    {m : ConfigManager} (object : s.objects ref = c.object) (tree : s.tree = m.tree) :
    (saveConfig env ref s).1 = (ConfigManager.saveConfig env.toConfigEnv c m).1 ∧
      (saveConfig env ref s).2.tree = (ConfigManager.saveConfig env.toConfigEnv c m).2.tree := by
  have name : c.object.name = c.name := rfl
  simp only [saveConfig, ConfigManager.saveConfig, object, tree, name, c.serialize_object]
  cases env.py.dumpsStrict (ConfigManager.serializeConfig c) with
  | ok t =>
    dsimp only
    cases (ConfigManager.configFile env.toConfigEnv c.name).write env.cwd m.tree (env.spell t) with
    | ok tree' => exact ⟨rfl, rfl⟩
    | error e => exact ⟨rfl, tree⟩
  | error e =>
    dsimp only
    cases (ConfigManager.configFile env.toConfigEnv c.name).write env.cwd m.tree
        (env.partialDump (ConfigManager.serializeConfig c)) with
    | ok tree' => exact ⟨rfl, rfl⟩
    | error e => exact ⟨rfl, tree⟩

/-! ## Prompts -/

/-- What is asked about a configuration, which is edited as the replies come. -/
abbrev Dialogue (α : Type) := Proc (Interview PyVal PyExc ConfigObject) PyExc α

/-- What a prompt raises at the end of the input. -/
def closed : PyExc := .other "EOFError"

/-- `questionary....ask()`. -/
def ask : Dialogue PyVal := Interview.ask closed

def assign (f : ConfigObject → ConfigObject) : Dialogue Unit := Interview.assign f

def setTimer (f : GPUTimerObject → GPUTimerObject) (c : ConfigObject) : ConfigObject :=
  { c with gpuTimer := f c.gpuTimer }

def setDetector (f : AutoDetectorObject → AutoDetectorObject) (c : ConfigObject) : ConfigObject :=
  { c with autoDetector := f c.autoDetector }

/-- The branch "GPU Timer Settings". -/
def editTimer : Dialogue Unit := do
  let enabled ← ask
  assign (setTimer fun t => { t with enabled := enabled })
  if enabled.truthy then
    let startTime ← ask
    assign (setTimer fun t => { t with startTime := startTime })
    let endTime ← ask
    assign (setTimer fun t => { t with endTime := endTime })

/-- The branch "Auto-Detector Settings". -/
def editDetector : Dialogue Unit := do
  let enabled ← ask
  assign (setDetector fun d => { d with enabled := enabled })
  if enabled.truthy then
    let idle ← Proc.ofExcept (env.toInt (← ask))
    assign (setDetector fun d => { d with idleThresholdMinutes := .int idle })
    let autoShutdown ← ask
    assign (setDetector fun d => { d with autoShutdown := autoShutdown })

/-- The branch "Compute Budget". -/
def editBudget : Dialogue Unit := do
  let budget ← Proc.ofExcept (env.toFloat (← ask))
  assign fun c => { c with computeBudgetMonthly := .float budget }

/-- The branch "Max Workers". -/
def editWorkers : Dialogue Unit := do
  let workers ← Proc.ofExcept (env.toInt (← ask))
  assign fun c => { c with maxWorkers := .int workers }

/-- The branch "Region". -/
def editRegion : Dialogue Unit := do
  let region ← ask
  assign fun c => { c with region := region }

/-- What `interactive_modify` does before it saves; it returns whether it goes on to that. -/
def edit : Dialogue Bool := do
  let choice ← ask
  match choice.asStr? with
  | some "GPU Timer Settings" => editTimer; return true
  | some "Auto-Detector Settings" => editDetector env; return true
  | some "Compute Budget" => editBudget env; return true
  | some "Max Workers" => editWorkers env; return true
  | some "Region" => editRegion; return true
  | some "Cancel" => return false
  | _ => return true

/-- The manager with the object as it is after a dialogue. -/
def store (s : ObjectManager) (ref : ℕ) (config : ConfigObject) : ObjectManager :=
  { s with objects := Function.update s.objects ref config }

/-- `interactive_modify`. -/
def interactiveModify (name : String) (replies : List Reply) (s : ObjectManager) :
    Except PyExc (Option ℕ) × ObjectManager :=
  match s.configs.get? name with
  | none => (.ok none, s)
  | some ref =>
    match edit env ⟨replies, s.objects ref⟩ with
    | (.error e, after) => (.error e, s.store ref after.record)
    | (.ok false, after) => (.ok none, s.store ref after.record)
    | (.ok true, after) =>
      match saveConfig env ref (s.store ref after.record) with
      | (.error e, s') => (.error e, s')
      | (.ok (), s') => (.ok (some ref), s')

/-! ## The dialogue as a form -/

/-- The fields of a configuration that the dialogue assigns. -/
inductive Field where
  | timerEnabled | startTime | endTime
  | detectorEnabled | idleThreshold | autoShutdown
  | budget | workers | region
  deriving DecidableEq

def Field.get : Field → ConfigObject → PyVal
  | timerEnabled, c => c.gpuTimer.enabled
  | startTime, c => c.gpuTimer.startTime
  | endTime, c => c.gpuTimer.endTime
  | detectorEnabled, c => c.autoDetector.enabled
  | idleThreshold, c => c.autoDetector.idleThresholdMinutes
  | autoShutdown, c => c.autoDetector.autoShutdown
  | budget, c => c.computeBudgetMonthly
  | workers, c => c.maxWorkers
  | region, c => c.region

def Field.set : Field → PyVal → ConfigObject → ConfigObject
  | timerEnabled, v => setTimer fun t => { t with enabled := v }
  | startTime, v => setTimer fun t => { t with startTime := v }
  | endTime, v => setTimer fun t => { t with endTime := v }
  | detectorEnabled, v => setDetector fun d => { d with enabled := v }
  | idleThreshold, v => setDetector fun d => { d with idleThresholdMinutes := v }
  | autoShutdown, v => setDetector fun d => { d with autoShutdown := v }
  | budget, v => fun c => { c with computeBudgetMonthly := v }
  | workers, v => fun c => { c with maxWorkers := v }
  | region, v => fun c => { c with region := v }

def fields : Fields Field PyVal ConfigObject where
  get := Field.get
  set := Field.set
  get_set_self i v c := by cases i <;> rfl
  get_set_of_ne := by
    intro i j hij v c
    cases i <;> cases j <;> first | rfl | exact absurd rfl hij
  set_get i c := by cases i <;> rfl

/-- A prompt whose answer goes into the field as it is. -/
def plain (field : Field) (goesOn : PyVal → Bool) : Question Field PyVal PyExc :=
  ⟨field, .ok, goesOn⟩

/-- The prompts that follow a choice; `none` where the dialogue is cancelled. -/
def form (choice : PyVal) : Option (List (Question Field PyVal PyExc)) :=
  match choice.asStr? with
  | some "GPU Timer Settings" =>
    some [plain .timerEnabled PyVal.truthy, plain .startTime fun _ => true,
      plain .endTime fun _ => true]
  | some "Auto-Detector Settings" =>
    some [plain .detectorEnabled PyVal.truthy,
      ⟨.idleThreshold, fun v => (env.toInt v).map PyVal.int, fun _ => true⟩,
      plain .autoShutdown fun _ => true]
  | some "Compute Budget" =>
    some [⟨.budget, fun v => (env.toFloat v).map PyVal.float, fun _ => true⟩]
  | some "Max Workers" => some [⟨.workers, fun v => (env.toInt v).map PyVal.int, fun _ => true⟩]
  | some "Region" => some [plain .region fun _ => true]
  | some "Cancel" => none
  | _ => some []

theorem editDetector_eq : editDetector env = Interview.fill fields closed
    [plain .detectorEnabled PyVal.truthy,
      ⟨.idleThreshold, fun v => (env.toInt v).map PyVal.int, fun _ => true⟩,
      plain .autoShutdown fun _ => true] := by
  simp only [Interview.fill, Proc.ofExcept_map_bind]
  rfl

theorem editBudget_eq : editBudget env = Interview.fill fields closed
    [⟨.budget, fun v => (env.toFloat v).map PyVal.float, fun _ => true⟩] := by
  simp only [Interview.fill, Proc.ofExcept_map_bind]
  rfl

theorem editWorkers_eq : editWorkers env = Interview.fill fields closed
    [⟨.workers, fun v => (env.toInt v).map PyVal.int, fun _ => true⟩] := by
  simp only [Interview.fill, Proc.ofExcept_map_bind]
  rfl

/-- The dialogue fills the form of the choice in place. -/
theorem edit_eq : edit env = do
    match form env (← ask) with
    | some qs => Interview.fill fields closed qs; return true
    | none => return false := by
  refine congrArg (ask >>= ·) (funext fun choice => ?_)
  unfold form
  split
  · rfl
  · rw [editDetector_eq]
  · rw [editBudget_eq]
  · rw [editWorkers_eq]
  · rfl
  · rfl
  · rfl

/-- The answers that are assigned. -/
def assigned : List Reply → List (Field × PyVal)
  | .ok choice :: rest =>
    match form env choice with
    | some qs => (Question.answers closed qs rest).1
    | none => []
  | _ => []

/-- How the dialogue ends: by raising, by going on to save, or cancelled. -/
def ending : List Reply → Except PyExc Bool
  | [] => .error closed
  | .error e :: _ => .error e
  | .ok choice :: rest =>
    match form env choice with
    | some qs => (Question.answers closed qs rest).2.map fun _ => true
    | none => .ok false

theorem edit_apply (replies : List Reply) (c : ConfigObject) : ∃ rest, edit env ⟨replies, c⟩ =
    (ending env replies, ⟨rest, fields.setAll (assigned env replies) c⟩) := by
  rw [edit_eq]
  match replies with
  | [] => exact ⟨[], rfl⟩
  | .error e :: rest => exact ⟨rest, rfl⟩
  | .ok choice :: rest =>
    rw [Proc.bind_of_ok (show ask ⟨.ok choice :: rest, c⟩ = (.ok choice, ⟨rest, c⟩) from rfl)]
    cases asked : form env choice with
    | none =>
      refine ⟨rest, ?_⟩
      simp only [ending, assigned, asked]
      rfl
    | some qs =>
      obtain ⟨left, filled⟩ := Question.fill_eq closed fields qs rest c
      refine ⟨left, ?_⟩
      simp only [ending, assigned, asked, Proc.bind_apply, filled]
      cases (Question.answers closed qs rest).2 with
      | error e => rfl
      | ok u => rfl

/-- No field is asked for twice. -/
theorem nodup_assigned (replies : List Reply) : ((assigned env replies).map Prod.fst).Nodup := by
  unfold assigned
  split
  · next choice rest =>
    split
    · next qs asked =>
      refine (Question.sublist_answers closed qs rest).nodup ?_
      unfold form at asked
      split at asked <;> cases asked <;> simp [plain]
    · exact List.nodup_nil
  · exact List.nodup_nil

/-! ## Atomicity -/

/-- Neither the configurations in memory nor the files have changed. -/
structure Unchanged (s s' : ObjectManager) : Prop where
  configs : s'.configs = s.configs
  objects : s'.objects = s.objects
  files : ∀ l, s'.tree.node? l = s.tree.node? l

/-- A save that raises changes nothing. -/
def SaveAtomic (ref : ℕ) (s : ObjectManager) : Prop :=
  ∀ e, (saveConfig env ref s).1 = .error e → Unchanged s (saveConfig env ref s).2

/-- A modification that raises, or returns `None`, changes nothing. -/
def ModifyAtomic (name : String) (replies : List Reply) (s : ObjectManager) : Prop :=
  (∀ ref, (interactiveModify env name replies s).1 ≠ .ok (some ref)) →
    Unchanged s (interactiveModify env name replies s).2

/-- The file of a configuration can be opened for writing. -/
def Opens (c : ConfigObject) (s : ObjectManager) : Prop :=
  ∃ tree, (ConfigManager.configFile env.toConfigEnv c.name).write env.cwd s.tree [] = .ok tree

/-- The configuration can be written as JSON. -/
def Encodes (c : ConfigObject) : Prop := ∃ t, env.py.dumpsStrict c.serialize = .ok t

/-- The file holds already what is written of the configuration before encoding it fails. -/
def HoldsPartial (c : ConfigObject) (s : ObjectManager) : Prop :=
  (ConfigManager.configFile env.toConfigEnv c.name).read env.cwd s.tree =
    .ok (env.partialDump c.serialize)

/-- A dialogue that raises has repeated what the fields hold, and so has one after which saving
fails, where the file moreover holds what saving writes. -/
structure Settled (replies : List Reply) (c : ConfigObject) (s : ObjectManager) : Prop where
  raised : ∀ e, ending env replies = .error e → fields.Repeats (assigned env replies) c
  saved : ending env replies = .ok true →
    (Opens env c s ∧ Encodes env (fields.setAll (assigned env replies) c)) ∨
      (fields.Repeats (assigned env replies) c ∧ (Opens env c s → HoldsPartial env c s))

variable {env} {ref : ℕ} {s : ObjectManager}

theorem Unchanged.refl (s : ObjectManager) : Unchanged s s := ⟨rfl, rfl, fun _ => rfl⟩

theorem opens_of_write {c : ConfigObject} {b : Bytes} {tree : FileTree Bytes}
    (h : (ConfigManager.configFile env.toConfigEnv c.name).write env.cwd s.tree b = .ok tree) :
    Opens env c s := PyPath.exists_write h []

/-- What a save does: it succeeds, it leaves all as it was, or it leaves the file in pieces. -/
theorem saveConfig_cases (ref : ℕ) (s : ObjectManager) :
    (Opens env (s.objects ref) s ∧ Encodes env (s.objects ref) ∧
      (saveConfig env ref s).1 = .ok ()) ∨
    (¬ Opens env (s.objects ref) s ∧ saveConfig env ref s = (.error (.other "OSError"), s)) ∨
    (Opens env (s.objects ref) s ∧ ¬ Encodes env (s.objects ref) ∧
      ∃ e tree, saveConfig env ref s = (.error e, { s with tree := tree }) ∧
        ((∀ l, tree.node? l = s.tree.node? l) ↔ HoldsPartial env (s.objects ref) s)) := by
  by_cases opens : Opens env (s.objects ref) s
  · obtain ⟨_, opened⟩ := opens
    obtain ⟨tree, written⟩ := PyPath.exists_write opened (env.partialDump (s.objects ref).serialize)
    cases dumped : env.py.dumpsStrict (s.objects ref).serialize with
    | ok t =>
      obtain ⟨tree', written'⟩ := PyPath.exists_write opened (env.spell t)
      refine .inl ⟨⟨_, opened⟩, ⟨t, dumped⟩, ?_⟩
      simp only [saveConfig, dumped, written']
    | error e =>
      refine .inr (.inr ⟨⟨_, opened⟩, ?_, e, tree, ?_, PyPath.forall_node?_write_iff written⟩)
      · rintro ⟨t, encoded⟩
        cases encoded.symm.trans dumped
      · simp only [saveConfig, dumped, written]
  · refine .inr (.inl ⟨opens, ?_⟩)
    have fails (b : Bytes) : ∃ e, (ConfigManager.configFile env.toConfigEnv
        (s.objects ref).name).write env.cwd s.tree b = .error e := by
      cases written : (ConfigManager.configFile env.toConfigEnv (s.objects ref).name).write env.cwd
          s.tree b with
      | error e => exact ⟨e, rfl⟩
      | ok tree => exact absurd (opens_of_write written) opens
    cases dumped : env.py.dumpsStrict (s.objects ref).serialize with
    | ok t =>
      obtain ⟨e, failed⟩ := fails (env.spell t)
      simp only [saveConfig, dumped, failed]
    | error e' =>
      obtain ⟨e, failed⟩ := fails (env.partialDump (s.objects ref).serialize)
      simp only [saveConfig, dumped, failed]

theorem saveAtomic_iff : SaveAtomic env ref s ↔
    (Opens env (s.objects ref) s → ¬ Encodes env (s.objects ref) →
      HoldsPartial env (s.objects ref) s) := by
  unfold SaveAtomic
  obtain ⟨-, encodes, saved⟩ | ⟨opens, failed⟩ | ⟨opens, encodes, e, tree, broke, files⟩ :=
    @saveConfig_cases env ref s
  · exact iff_of_true (fun e raised => nomatch saved.symm.trans raised)
      fun _ not => absurd encodes not
  · refine iff_of_true (fun e _ => ?_) fun h => absurd h opens
    rw [failed]
    exact .refl s
  · rw [broke, ← files]
    exact ⟨fun h _ _ => (h e rfl).files, fun h _ _ => ⟨rfl, rfl, h opens encodes⟩⟩

/-- What a modification does: nothing, where there is no such configuration. -/
theorem interactiveModify_of_missing {name : String} {replies : List Reply}
    (missing : s.configs.get? name = none) :
    interactiveModify env name replies s = (.ok none, s) := by
  rw [interactiveModify, missing]

/-- The manager when the dialogue is over. -/
def edited (env : ModifyEnv) (ref : ℕ) (replies : List Reply) (s : ObjectManager) :
    ObjectManager := s.store ref (fields.setAll (assigned env replies) (s.objects ref))

theorem interactiveModify_of_found {name : String} {replies : List Reply}
    (found : s.configs.get? name = some ref) : interactiveModify env name replies s =
      match ending env replies with
      | .error e => (.error e, edited env ref replies s)
      | .ok false => (.ok none, edited env ref replies s)
      | .ok true =>
        ((saveConfig env ref (edited env ref replies s)).1.map fun _ => some ref,
          (saveConfig env ref (edited env ref replies s)).2) := by
  obtain ⟨rest, done⟩ := edit_apply env replies (s.objects ref)
  simp only [interactiveModify, found, done, edited]
  cases ending env replies with
  | error e => rfl
  | ok saves =>
    cases saves with
    | false => rfl
    | true =>
      dsimp only
      obtain ⟨result, s'⟩ := saveConfig env ref
        (s.store ref (fields.setAll (assigned env replies) (s.objects ref)))
      cases result <;> rfl

theorem objects_edited_eq_iff {replies : List Reply} :
    (edited env ref replies s).objects = s.objects ↔
      fields.Repeats (assigned env replies) (s.objects ref) := by
  rw [← Fields.setAll_eq_self_iff (nodup_assigned env replies)]
  exact Function.update_eq_self_iff ..

theorem unchanged_edited_iff {replies : List Reply} : Unchanged s (edited env ref replies s) ↔
    fields.Repeats (assigned env replies) (s.objects ref) :=
  ⟨fun h => objects_edited_eq_iff.1 h.objects,
    fun h => ⟨rfl, objects_edited_eq_iff.2 h, fun _ => rfl⟩⟩

/-- The dialogue does not ask for the name, so it does not change which file is written. -/
theorem name_setAll (answers : List (Field × PyVal)) (c : ConfigObject) :
    (fields.setAll answers c).name = c.name := by
  induction answers generalizing c with
  | nil => rfl
  | cons a rest ih =>
    refine (ih (a.1.set a.2 c)).trans ?_
    cases a.1 <;> rfl

theorem opens_edited_iff {replies : List Reply} :
    Opens env ((edited env ref replies s).objects ref) (edited env ref replies s) ↔
      Opens env (s.objects ref) s := by
  have name : ((edited env ref replies s).objects ref).name = (s.objects ref).name := by
    refine (congrArg ConfigObject.name (Function.update_self ..)).trans ?_
    exact name_setAll _ _
  unfold Opens
  rw [name]
  rfl

/-- A dialogue that is cancelled has assigned nothing. -/
theorem assigned_of_cancelled {replies : List Reply} (cancelled : ending env replies = .ok false) :
    assigned env replies = [] := by
  match replies with
  | [] => rfl
  | .error e :: _ => rfl
  | .ok choice :: rest =>
    cases asked : form env choice with
    | none => simp only [assigned, asked]
    | some qs =>
      simp only [ending, asked] at cancelled
      cases ended : (Question.answers closed qs rest).2 with
      | error e =>
        rw [ended] at cancelled
        cases cancelled
      | ok u =>
        rw [ended] at cancelled
        cases cancelled

theorem modifyAtomic_iff_of_found {name : String} {replies : List Reply}
    (found : s.configs.get? name = some ref) :
    ModifyAtomic env name replies s ↔ Settled env replies (s.objects ref) s := by
  unfold ModifyAtomic
  rw [interactiveModify_of_found found]
  cases ended : ending env replies with
  | error e =>
    refine Iff.trans ⟨fun h => h nofun, fun h _ => h⟩ (unchanged_edited_iff.trans ?_)
    exact ⟨fun h => ⟨fun _ _ => h, fun saves => nomatch ended.symm.trans saves⟩,
      fun h => h.raised e ended⟩
  | ok saves =>
    cases saves with
    | false =>
      refine iff_of_true (fun _ => unchanged_edited_iff.2 ?_) ⟨by simp [ended], by simp [ended]⟩
      rw [assigned_of_cancelled ended]
      exact fun _ h => nomatch h
    | true =>
      have object : (edited env ref replies s).objects ref =
          fields.setAll (assigned env replies) (s.objects ref) := Function.update_self ..
      obtain ⟨opens, encodes, saved⟩ | ⟨opens, failed⟩ | ⟨opens, encodes, e, tree, broke, files⟩ :=
        @saveConfig_cases env ref (edited env ref replies s)
      · rw [object] at encodes
        refine iff_of_true (fun fails => absurd ?_ (fails ref))
          ⟨by simp [ended], fun _ => .inl ⟨opens_edited_iff.1 opens, encodes⟩⟩
        simp only [saved]
        rfl
      · rw [opens_edited_iff] at opens
        simp only [failed]
        refine Iff.trans ⟨fun h => h nofun, fun h _ => h⟩ (unchanged_edited_iff.trans ?_)
        refine ⟨fun h => ⟨by simp [ended], fun _ => .inr ⟨h, fun h' => absurd h' opens⟩⟩,
          fun h => ?_⟩
        exact ((h.saved ended).resolve_left fun h' => opens h'.1).1
      · rw [opens_edited_iff] at opens
        rw [object] at encodes
        simp only [broke]
        refine Iff.trans ⟨fun h => h nofun, fun h _ => h⟩ ?_
        constructor
        · intro same
          have repeats := objects_edited_eq_iff.1 same.objects
          refine ⟨by simp [ended], fun _ => .inr ⟨repeats, fun _ => ?_⟩⟩
          have holds := files.1 same.files
          rwa [object, repeats.setAll_eq] at holds
        · intro settled
          obtain ⟨repeats, holds⟩ := (settled.saved ended).resolve_left fun h => encodes h.2
          refine ⟨rfl, objects_edited_eq_iff.2 repeats, files.2 ?_⟩
          rw [object, repeats.setAll_eq]
          exact holds opens

/-- A save is atomic exactly if the file cannot be opened, the configuration can be encoded, or the
file holds the truncated text already; a modification, exactly if every answer that was assigned
before it failed repeats its field. -/
theorem atomic_iff (env : ModifyEnv) (s : ObjectManager) :
    (∀ ref, SaveAtomic env ref s ↔ (Opens env (s.objects ref) s →
      ¬ Encodes env (s.objects ref) → HoldsPartial env (s.objects ref) s)) ∧
    ∀ name replies, ModifyAtomic env name replies s ↔
      ∀ ref, s.configs.get? name = some ref → Settled env replies (s.objects ref) s := by
  refine ⟨fun ref => saveAtomic_iff, fun name replies => ?_⟩
  cases found : s.configs.get? name with
  | none =>
    refine iff_of_true (fun _ => ?_) (by rintro _ ⟨⟩)
    rw [interactiveModify_of_missing found]
    exact .refl s
  | some ref =>
    rw [modifyAtomic_iff_of_found found]
    simp only [Option.some.injEq, forall_eq']

def sampleModify : ModifyEnv where
  toConfigEnv := ConfigManager.sampleEnv
  toInt _ := .error (.valueError "invalid literal for int() with base 10")
  toFloat _ := .error (.valueError "could not convert string to float")

/-- A configuration with the default settings, and metadata. -/
def fresh (metadata : List (PyKey × PyVal)) : InfrastructureConfig where
  name := "a"
  type := .gpuCluster
  provider := .aws
  metadata := metadata

/-- A manager that knows one configuration, with no file yet. -/
def knowing (metadata : List (PyKey × PyVal)) : ObjectManager :=
  ⟨ConfigManager.opened.tree, fun _ => (fresh metadata).object, (∅ : Dict String ℕ).set "a" 0⟩

/-- The prompt for a start time raises where none is set, after the timer has been enabled; and a
configuration that JSON cannot express leaves a file that is cut off. -/
theorem changed_by_failures :
    ¬ ModifyAtomic sampleModify "a" [.ok (.str "GPU Timer Settings"), .ok (.bool true),
        .error (.typeError "object of type 'NoneType' has no len()")] (knowing []) ∧
      ¬ SaveAtomic sampleModify 0 (knowing [(.str "key", .bytes [1])]) := by
  have found : (knowing []).configs.get? "a" = some 0 := by decide +kernel
  rw [modifyAtomic_iff_of_found found, saveAtomic_iff]
  constructor
  · intro settled
    have enabled : PyVal.bool false = .bool true :=
      settled.raised _ rfl (.timerEnabled, .bool true) (.head _)
    cases enabled
  · intro holds
    have writable : ((ConfigManager.configFile ConfigManager.sampleEnv "a").write ["h"]
        (knowing []).tree ([] : Bytes)).toOption.isSome = true := by decide +kernel
    have strict : (plainText.dumpsStrict
        (fresh [(.str "key", .bytes [1])]).object.serialize).toOption.isSome = false := by
      decide +kernel
    have absent : ((ConfigManager.configFile ConfigManager.sampleEnv "a").read ["h"]
        (knowing []).tree).toOption.isSome = false := by decide +kernel
    have read : (ConfigManager.configFile ConfigManager.sampleEnv "a").read ["h"]
        (knowing []).tree = .ok [] := by
      refine holds ?_ ?_
      · cases written : (ConfigManager.configFile ConfigManager.sampleEnv "a").write ["h"]
            (knowing []).tree ([] : Bytes) with
        | ok tree => exact ⟨tree, written⟩
        | error e =>
          rw [written] at writable
          cases writable
      · rintro ⟨t, encoded⟩
        have encoded : plainText.dumpsStrict
          (fresh [(.str "key", .bytes [1])]).object.serialize = .ok t := encoded
        rw [encoded] at strict
        cases strict
    rw [read] at absent
    cases absent

end ObjectManager

end Cpip
