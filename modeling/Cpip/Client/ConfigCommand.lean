import Cpip.Client.Config

/-!
# The `config` command (`client/cli.py`)

`cpip config` changes a setting of the configuration that `load_config` returns, into which the
environment variables have gone, and saves the whole of it.
-/

namespace Cpip

/-- The same without the variables that override settings. -/
def CpipEnv.without (env : CpipEnv) : CpipEnv :=
  { env with getenv := fun name =>
      if name ∈ ["CPIP_API_URL", "CPIP_WS_URL", "CPIP_OFFLINE"] then none else env.getenv name }

namespace CpipConfig

/-! ## The command -/

section Command

variable (env : CpipEnv)

def setApiUrl (apiUrl : String) (cfg : CpipConfig) : CpipConfig :=
  { cfg with cloud := { cfg.cloud with apiUrl := .str apiUrl } }

def setOffline (offline : Bool) (cfg : CpipConfig) : CpipConfig :=
  { cfg with runtime := { cfg.runtime with offlineMode := .bool offline } }

/-- `if api_url:` and what comes under it. -/
def saveApiUrl (apiUrl : Option String) (cfg : CpipConfig) (tree : FileTree Bytes) :
    Except PyExc CpipConfig × FileTree Bytes :=
  match apiUrl.filter (· ≠ "") with
  | none => (.ok cfg, tree)
  | some url =>
    match saveConfig env (setApiUrl url cfg) tree with
    | (.error e, tree') => (.error e, tree')
    | (.ok _, tree') => (.ok (setApiUrl url cfg), tree')

/-- `if offline is not None:` and what comes under it. -/
def saveOffline (offline : Option Bool) (cfg : CpipConfig) (tree : FileTree Bytes) :
    Except PyExc Unit × FileTree Bytes :=
  match offline with
  | none => (.ok (), tree)
  | some b => saveConfig env (setOffline b cfg) tree

/-- `cpip config`, without what it prints. -/
def configCommand (init : Bool) (apiUrl : Option String) (offline : Option Bool)
    (tree : FileTree Bytes) : Except PyExc Unit × FileTree Bytes :=
  match loadConfig env tree with
  | (.error e, tree₁) => (.error e, tree₁)
  | (.ok cfg, tree₁) =>
    if init then saveConfig env cfg tree₁
    else
      match saveApiUrl env apiUrl cfg tree₁ with
      | (.error e, tree₂) => (.error e, tree₂)
      | (.ok cfg', tree₂) => saveOffline env offline cfg' tree₂

end Command

/-! ## Settings -/

/-- The settings that are read from the file. -/
inductive Setting where
  | apiUrl | wsUrl | cdnUrl | timeout
  | maxSizeMb | wheelTtlDays
  | preferLocal | gpuOffload | lazyLoading | cloudExec | offlineMode
  deriving DecidableEq

namespace Setting

def table : Setting → String
  | apiUrl | wsUrl | cdnUrl | timeout => "cloud"
  | maxSizeMb | wheelTtlDays => "cache"
  | preferLocal | gpuOffload | lazyLoading | cloudExec | offlineMode => "runtime"

def key : Setting → String
  | apiUrl => "api_url"
  | wsUrl => "ws_url"
  | cdnUrl => "cdn_url"
  | timeout => "timeout"
  | maxSizeMb => "max_size_mb"
  | wheelTtlDays => "wheel_ttl_days"
  | preferLocal => "prefer_local"
  | gpuOffload => "gpu_offload"
  | lazyLoading => "lazy_loading"
  | cloudExec => "cloud_exec"
  | offlineMode => "offline_mode"

def get : Setting → CpipConfig → PyVal
  | apiUrl, c => c.cloud.apiUrl
  | wsUrl, c => c.cloud.wsUrl
  | cdnUrl, c => c.cloud.cdnUrl
  | timeout, c => c.cloud.timeout
  | maxSizeMb, c => c.cache.maxSizeMb
  | wheelTtlDays, c => c.cache.wheelTtlDays
  | preferLocal, c => c.runtime.preferLocal
  | gpuOffload, c => c.runtime.gpuOffload
  | lazyLoading, c => c.runtime.lazyLoading
  | cloudExec, c => c.runtime.cloudExec
  | offlineMode, c => c.runtime.offlineMode

/-- What a file has for the setting. -/
def inFile (f : Setting) (raw : Toml.Items) : Option PyVal :=
  Toml.lookup [f.table, f.key] (.dict raw)

/-- The value of the setting that a file gives it, or its default. -/
def stored (f : Setting) (env : CpipEnv) (raw : Toml.Items) : PyVal :=
  (f.inFile raw).getD (f.get (default env))

/-- What an environment variable makes of the setting. -/
def overridden (f : Setting) (env : CpipEnv) : Option PyVal :=
  match f with
  | apiUrl => (override env "CPIP_API_URL").map .str
  | wsUrl => (override env "CPIP_WS_URL").map .str
  | offlineMode => (override env "CPIP_OFFLINE").map fun _ => .bool true
  | _ => none

/-- The value of the setting that is loaded. -/
def value (f : Setting) (env : CpipEnv) (raw : Toml.Items) : PyVal :=
  (f.overridden env).getD (f.stored env raw)

end Setting

variable {env : CpipEnv}

theorem get_applyToml {raw : Toml.Items} {config read : CpipConfig}
    (applied : applyToml raw config = .ok read) (f : Setting) :
    f.get read = (f.inFile raw).getD (f.get config) := by
  obtain ⟨cloud, cache, rt, hcloud, hcache, hrt, rfl⟩ := applyToml_eq_ok applied
  cases f
  case apiUrl | wsUrl | cdnUrl | timeout =>
    exact congrArg (Option.getD · _) (lookup_of_sectionOf hcloud _).symm
  case maxSizeMb | wheelTtlDays =>
    exact congrArg (Option.getD · _) (lookup_of_sectionOf hcache _).symm
  case preferLocal | gpuOffload | lazyLoading | cloudExec | offlineMode =>
    exact congrArg (Option.getD · _) (lookup_of_sectionOf hrt _).symm

theorem get_applyEnviron (config : CpipConfig) (f : Setting) :
    f.get (applyEnviron env config) = (f.overridden env).getD (f.get config) := by
  cases f
  case offlineMode =>
    simp only [Setting.get, applyEnviron, Setting.overridden]
    cases override env "CPIP_OFFLINE" <;> rfl
  all_goals rfl

/-- Loading a file of tables does not depend on the configuration that its values go into. -/
theorem exists_applyToml {raw : Toml.Items} {config read : CpipConfig}
    (applied : applyToml raw config = .ok read) (config' : CpipConfig) :
    ∃ read', applyToml raw config' = .ok read' := by
  obtain ⟨cloud, cache, rt, hcloud, hcache, hrt, -⟩ := applyToml_eq_ok applied
  unfold applyToml
  rw [hcloud, hcache, hrt]
  exact ⟨_, rfl⟩

/-! ## Directories -/

/-- The directories that `load_config` makes. -/
def directories (env : CpipEnv) : List PyPath :=
  [env.home, env.cacheDir, env.wheelsDir, env.layersDir, env.metadataDir, env.logDir, env.venvDir]

/-- The directories are there. -/
def Ready (env : CpipEnv) (tree : FileTree Bytes) : Prop :=
  ∀ d ∈ directories env, tree.IsDir (d.place env.cwd)

theorem plain_directories (plain : env.home.Plain env.cwd) :
    ∀ d ∈ directories env, d.Plain env.cwd := by
  have cache : env.cacheDir.Plain env.cwd := plain.join (by decide)
  simp only [directories, List.forall_mem_cons, List.not_mem_nil, false_implies, implies_true,
    and_true]
  exact ⟨plain, cache, cache.join (by decide), cache.join (by decide), cache.join (by decide),
    plain.join (by decide), plain.join (by decide)⟩

theorem makeAll_of_isDir {dirs : List PyPath} {tree : FileTree Bytes}
    (plain : ∀ d ∈ dirs, d.Plain env.cwd) (made : ∀ d ∈ dirs, tree.IsDir (d.place env.cwd)) :
    makeAll env dirs tree = (.ok (), tree) := by
  induction dirs with
  | nil => rfl
  | cons d dirs ih =>
    rw [List.forall_mem_cons] at plain made
    rw [makeAll, PyPath.mkdirs_of_isDir plain.1 made.1]
    exact ih plain.2 made.2

/-- What is made of directories: each place is as it was, or there is a directory on the path to one
of them, where there was nothing. -/
theorem makeAll_spec {dirs : List PyPath} (plain : ∀ d ∈ dirs, d.Plain env.cwd)
    {tree tree' : FileTree Bytes} {r : Except PyExc Unit}
    (made : makeAll env dirs tree = (r, tree')) :
    (∀ l, tree'.node? l = tree.node? l ∨
      (∃ d ∈ dirs, FileTree.Below l (d.place env.cwd)) ∧ tree.node? l = none ∧ tree'.IsDir l) ∧
    (r = .ok () → ∀ d ∈ dirs, tree'.IsDir (d.place env.cwd)) := by
  induction dirs generalizing tree with
  | nil =>
    obtain ⟨rfl, rfl⟩ := Prod.mk.inj made
    exact ⟨fun l => .inl rfl, fun _ _ mem => nomatch mem⟩
  | cons d dirs ih =>
    rw [List.forall_mem_cons] at plain
    obtain ⟨nodes, dir⟩ := PyPath.mkdirs_spec plain.1 tree
    rw [makeAll] at made
    cases first : d.mkdirs env.cwd tree true with
    | mk result tree₁ =>
      rw [first] at made nodes dir
      cases result with
      | error e =>
        obtain ⟨rfl, rfl⟩ := Prod.mk.inj made
        refine ⟨fun l => (nodes l).imp_right fun h => ⟨⟨d, List.mem_cons_self, h.1⟩, h.2⟩, nofun⟩
      | ok l₀ =>
        obtain ⟨later, dirsMade⟩ := ih plain.2 made
        refine ⟨fun l => ?_, fun ok => List.forall_mem_cons.2 ⟨?_, dirsMade ok⟩⟩
        · obtain same | ⟨⟨d', mem, onPath⟩, free, isDir⟩ := later l
          · obtain same' | ⟨onPath, free, isDir⟩ := nodes l
            · exact .inl (same.trans same')
            · exact .inr ⟨⟨d, List.mem_cons_self, onPath⟩, free, same.trans isDir⟩
          · obtain same' | ⟨-, -, isDir'⟩ := nodes l
            · exact .inr ⟨⟨d', List.mem_cons_of_mem _ mem, onPath⟩, same'.symm.trans free, isDir⟩
            · exact nomatch isDir'.symm.trans free
        · obtain same | ⟨-, -, isDir⟩ := later (d.place env.cwd)
          · exact same.trans (dir l₀ rfl)
          · exact isDir

/-! ## The files -/

section Home

variable {s : String} {tree tree' : FileTree Bytes}

theorem read_home_eq_ok_iff (plain : env.home.Plain env.cwd) (part : IsPart s) (up : s ≠ "..")
    {b : Bytes} : (env.home.join s).read env.cwd tree = .ok b ↔
      tree.node? ((env.home.join s).place env.cwd) = some (.file b) := by
  have inside := PyPath.inside_of_isPart part up
  rw [PyPath.read_eq_ok_iff]
  constructor
  · rintro ⟨l, found, file⟩
    rwa [← PyPath.eq_place_of_locate (plain.join inside) found]
  · intro file
    obtain ⟨rest, nonempty, place⟩ := @PyPath.inner_place_join env.cwd env.home s inside
    have home : tree.IsDir (env.home.place env.cwd) :=
      FileTree.isDir_of_below file (place ▸ List.prefix_append ..) (by rw [place]; simp [nonempty])
    exact ⟨_, PyPath.locate_join_of_isDir plain home part up, file⟩

/-- A file that holds the same is read as the same. -/
theorem toOption_read_congr (plain : env.home.Plain env.cwd) (part : IsPart s) (up : s ≠ "..")
    (same : ∀ b, tree'.node? ((env.home.join s).place env.cwd) = some (.file b) ↔
      tree.node? ((env.home.join s).place env.cwd) = some (.file b)) :
    ((env.home.join s).read env.cwd tree').toOption =
      ((env.home.join s).read env.cwd tree).toOption := by
  have iff (b : Bytes) : (env.home.join s).read env.cwd tree' = .ok b ↔
      (env.home.join s).read env.cwd tree = .ok b :=
    (read_home_eq_ok_iff plain part up).trans
      ((same b).trans (read_home_eq_ok_iff plain part up).symm)
  cases read : (env.home.join s).read env.cwd tree with
  | ok b => rw [(iff b).2 read]
  | error e =>
    cases read' : (env.home.join s).read env.cwd tree' with
    | ok b => exact nomatch ((iff b).1 read').symm.trans read
    | error e' => rfl

theorem loadToml_congr {p : PyPath} (same : (p.read env.cwd tree').toOption =
    (p.read env.cwd tree).toOption) : loadToml env p tree' = loadToml env p tree := by
  have eq (t : FileTree Bytes) : loadToml env p t = (((p.read env.cwd t).toOption.bind fun b =>
      (decodeUtf8 b).bind fun s => Toml.loads env.toml (String.ofList (universalNewlines
        s.toList))).getD []) := by
    unfold loadToml
    cases read : p.read env.cwd t with
    | ok b => rw [if_pos (PyPath.exist_of_read read)]; rfl
    | error e => split_ifs <;> rfl
  rw [eq, eq, same]

theorem loadAuth_congr (same : (env.authFile.read env.cwd tree').toOption =
    (env.authFile.read env.cwd tree).toOption) : loadAuth env tree' = loadAuth env tree := by
  unfold loadAuth
  cases read : env.authFile.read env.cwd tree with
  | ok b =>
    have read' : env.authFile.read env.cwd tree' = .ok b := by
      cases other : env.authFile.read env.cwd tree' with
      | ok b' =>
        rw [read, other] at same
        exact congrArg Except.ok (Option.some.inj same)
      | error e =>
        rw [read, other] at same
        cases same
    rw [if_pos (PyPath.exist_of_read read), if_pos (PyPath.exist_of_read read'), read']
  | error e =>
    cases other : env.authFile.read env.cwd tree' with
    | ok b' =>
      rw [read, other] at same
      cases same
    | error e' => split_ifs <;> rfl

end Home

/-! ## Loading and saving -/

/-- Nothing is at the place that was not, and no file has changed. -/
def SameFiles (tree tree' : FileTree Bytes) : Prop :=
  ∀ l b, tree'.node? l = some (.file b) ↔ tree.node? l = some (.file b)

theorem SameFiles.loadToml (plain : env.home.Plain env.cwd) {tree tree' : FileTree Bytes}
    (same : SameFiles tree tree') :
    loadToml env env.configFile tree' = loadToml env env.configFile tree :=
  loadToml_congr (toOption_read_congr plain (by decide) (by decide) (same _))

theorem SameFiles.loadAuth (plain : env.home.Plain env.cwd) {tree tree' : FileTree Bytes}
    (same : SameFiles tree tree') : loadAuth env tree' = loadAuth env tree :=
  loadAuth_congr (toOption_read_congr plain (by decide) (by decide) (same _))

theorem makeAll_sameFiles {dirs : List PyPath} (plain : ∀ d ∈ dirs, d.Plain env.cwd)
    {tree tree' : FileTree Bytes} {r : Except PyExc Unit}
    (made : makeAll env dirs tree = (r, tree')) : SameFiles tree tree' := by
  intro l b
  obtain same | ⟨-, free, dir⟩ := (makeAll_spec plain made).1 l
  · rw [same]
  · rw [free, show tree'.node? l = _ from dir]
    simp

theorem ensureDirectories_of_applyToml {raw : Toml.Items} {read : CpipConfig}
    (applied : applyToml raw (default env) = .ok read) (auth : AuthConfig)
    (tree : FileTree Bytes) :
    ensureDirectories env { applyEnviron env read with auth := auth } tree =
      makeAll env (directories env) tree := by
  obtain ⟨cloud, cache, rt, -, -, -, rfl⟩ := applyToml_eq_ok applied
  rfl

/-- What a load that succeeds returns, and that it could be done again. -/
theorem loadConfig_eq_ok (plain : env.home.Plain env.cwd) {tree tree₁ : FileTree Bytes}
    {config : CpipConfig} (loaded : loadConfig env tree = (.ok config, tree₁)) :
    (∃ read, applyToml (loadToml env env.configFile tree) (default env) = .ok read ∧
      config = { applyEnviron env read with auth := loadAuth env tree }) ∧
    Ready env tree₁ ∧ SameFiles tree tree₁ := by
  unfold loadConfig at loaded
  cases applied : applyToml (loadToml env env.configFile tree) (default env) with
  | error e =>
    rw [applied] at loaded
    cases loaded
  | ok read =>
    simp only [applied, ensureDirectories_of_applyToml applied] at loaded
    cases made : makeAll env (directories env) tree with
    | mk r tree' =>
      rw [made] at loaded
      cases r with
      | error e => cases loaded
      | ok u =>
        obtain ⟨same, rfl⟩ := Prod.mk.inj loaded
        exact ⟨⟨read, rfl, (Except.ok.inj same).symm⟩,
          (makeAll_spec (plain_directories plain) made).2 rfl,
          makeAll_sameFiles (plain_directories plain) made⟩

theorem loadConfig_of_ready (plain : env.home.Plain env.cwd) {tree : FileTree Bytes}
    (ready : Ready env tree) {read : CpipConfig}
    (applied : applyToml (loadToml env env.configFile tree) (default env) = .ok read) :
    loadConfig env tree = (.ok { applyEnviron env read with auth := loadAuth env tree }, tree) := by
  simp only [loadConfig, applied, ensureDirectories_of_applyToml applied,
    makeAll_of_isDir (plain_directories plain) ready]

/-- A configuration is spelled unless an integer has too many digits. -/
theorem fieldLines_isOk_iff (key : String) (v : PyVal) :
    (∃ lines, fieldLines env key v = .ok lines) ↔ Writable env v := by
  unfold Writable
  cases v with
  | atom a =>
    cases a with
    | int i =>
      simp only [fieldLines, strInt, PyVal.atom.injEq, PyAtom.int.injEq, forall_eq']
      split_ifs with allowed
      · exact iff_of_true ⟨_, rfl⟩ allowed
      · exact iff_of_false (by rintro ⟨_, ⟨⟩⟩) allowed
    | _ => exact iff_of_true ⟨_, rfl⟩ (fun i same => by simp at same)
  | _ => exact iff_of_true ⟨_, rfl⟩ (fun i same => by simp at same)

theorem valuesLines_isOk_iff (values : List (String × PyVal)) :
    (∃ lines, valuesLines env values = .ok lines) ↔ ∀ e ∈ values, Writable env e.2 := by
  induction values with
  | nil => exact iff_of_true ⟨_, rfl⟩ (fun _ mem => nomatch mem)
  | cons e values ih =>
    rw [List.forall_mem_cons, ← ih, ← fieldLines_isOk_iff e.1]
    constructor
    · rintro ⟨lines, spelled⟩
      obtain ⟨own, first, later⟩ := except_bind_eq_ok.1 spelled
      obtain ⟨rest, others, -⟩ := except_bind_eq_ok.1 later
      exact ⟨⟨own, first⟩, ⟨rest, others⟩⟩
    · rintro ⟨⟨own, first⟩, ⟨rest, others⟩⟩
      exact ⟨own ++ rest, except_bind_eq_ok.2 ⟨own, first, except_bind_eq_ok.2 ⟨rest, others, rfl⟩⟩⟩

theorem tomlLines_isOk_iff (data : List (String × List (String × PyVal))) :
    (∃ lines, tomlLines env data = .ok lines) ↔ ∀ t ∈ data, ∀ e ∈ t.2, Writable env e.2 := by
  induction data with
  | nil => exact iff_of_true ⟨_, rfl⟩ (fun _ mem => nomatch mem)
  | cons t data ih =>
    rw [List.forall_mem_cons, ← ih, ← valuesLines_isOk_iff t.2]
    constructor
    · rintro ⟨lines, spelled⟩
      obtain ⟨own, first, later⟩ := except_bind_eq_ok.1 spelled
      obtain ⟨rest, others, -⟩ := except_bind_eq_ok.1 later
      exact ⟨⟨own, first⟩, ⟨rest, others⟩⟩
    · rintro ⟨⟨own, first⟩, ⟨rest, others⟩⟩
      exact ⟨_, except_bind_eq_ok.2 ⟨own, first, except_bind_eq_ok.2 ⟨rest, others, rfl⟩⟩⟩

/-- A configuration can be saved: there is no directory in the place of the file, and no integer has
too many digits. -/
def CanSave (env : CpipEnv) (config : CpipConfig) (tree : FileTree Bytes) : Prop :=
  ¬ tree.IsDir (env.configFile.place env.cwd) ∧ ∀ t ∈ dataOf config, ∀ e ∈ t.2, Writable env e.2

/-- What has become of the files when a configuration was saved. -/
structure Saved (env : CpipEnv) (config : CpipConfig) (tree tree' : FileTree Bytes) : Prop where
  ready : Ready env tree'
  auth : loadAuth env tree' = loadAuth env tree
  file : ¬ tree'.IsDir (env.configFile.place env.cwd)
  spelled : ∃ lines, tomlLines env (dataOf config) = .ok lines ∧
    env.configFile.read env.cwd tree' = .ok (encodeUtf8 ("\n".intercalate lines))
  raw : loadToml env env.configFile tree' = (Toml.loads env.toml (String.ofList
    (universalNewlines (Toml.fileText (written config))))).getD []
  writable : ∀ t ∈ written config, ∀ e ∈ t.2, Writable env e.2

theorem parent_configFile (env : CpipEnv) : env.configFile.parent = env.home := by
  obtain ⟨absolute, parts⟩ := @PyPath.join_of_isPart env.home "config.toml" (by decide)
  apply PyPath.ext
  · exact absolute
  · show env.configFile.parts.dropLast = env.home.parts
    rw [CpipEnv.configFile, parts, List.dropLast_concat]

theorem saveConfig_of_isDir (plain : env.home.Plain env.cwd) {tree : FileTree Bytes}
    (home : tree.IsDir (env.home.place env.cwd)) (config : CpipConfig) :
    saveConfig env config tree = match tomlLines env (dataOf config) with
      | .error e => (.error e, tree)
      | .ok lines =>
        match env.configFile.write env.cwd tree (encodeUtf8 ("\n".intercalate lines)) with
        | .error _ => (.error (.other "OSError"), tree)
        | .ok tree' => (.ok (), tree') := by
  rw [saveConfig, saveToml, parent_configFile, PyPath.mkdirs_of_isDir plain home]
  rfl

theorem saveConfig_cases (plain : env.home.Plain env.cwd) {tree : FileTree Bytes}
    (ready : Ready env tree) (config : CpipConfig) :
    (CanSave env config tree ∧
      ∃ tree', saveConfig env config tree = (.ok (), tree') ∧ Saved env config tree tree') ∨
    (¬ CanSave env config tree ∧ ∃ e, saveConfig env config tree = (.error e, tree)) := by
  have home : tree.IsDir (env.home.place env.cwd) := ready _ List.mem_cons_self
  have located : env.configFile.locate env.cwd tree = .ok (env.configFile.place env.cwd) :=
    PyPath.locate_join_of_isDir plain home (by decide) (by decide)
  have step := saveConfig_of_isDir plain home config
  cases spelled : tomlLines env (dataOf config) with
  | error e =>
    refine .inr ⟨fun h => ?_, e, by rw [step, spelled]⟩
    obtain ⟨lines, ok⟩ := (tomlLines_isOk_iff _).2 h.2
    cases ok.symm.trans spelled
  | ok lines =>
    have writable := (tomlLines_isOk_iff _).1 ⟨lines, spelled⟩
    by_cases dir : tree.IsDir (env.configFile.place env.cwd)
    · refine .inr ⟨fun h => h.1 dir, .other "OSError", ?_⟩
      rw [step, spelled]
      dsimp only
      rw [PyPath.write, located]
      dsimp only
      rw [FileTree.write, dif_pos dir]
    · obtain ⟨tree', written⟩ := FileTree.exists_write (encodeUtf8 ("\n".intercalate lines)) dir
        (by
          rw [CpipEnv.configFile, PyPath.place_join (by decide), PyPath.split_of_isPart (by decide),
            List.dropLast_concat]
          exact home)
      have wrote : env.configFile.write env.cwd tree (encodeUtf8 ("\n".intercalate lines)) =
          .ok tree' := by rw [PyPath.write, located]; exact written
      have saved : saveConfig env config tree = (.ok (), tree') := by
        rw [step, spelled]
        dsimp only
        rw [wrote]
      obtain ⟨raw, writable'⟩ := loadToml_of_save saved
      obtain ⟨-, -, after⟩ := FileTree.write_eq_ok written
      refine .inl ⟨⟨dir, writable⟩, tree', saved, ?_, ?_, ?_,
        ⟨lines, spelled, PyPath.read_of_write wrote⟩, raw, writable'⟩
      · exact fun d hd => (FileTree.isDir_of_write written _).2 (ready d hd)
      · refine loadAuth_congr (toOption_read_congr plain (by decide) (by decide) fun b => ?_)
        rw [after, if_neg]
        rw [CpipEnv.configFile, PyPath.place_join (by decide), PyPath.place_join (by decide),
          List.append_cancel_left_eq]
        decide
      · rw [FileTree.isDir_of_write written]
        exact dir

/-! ## What the command does -/

section Changes

variable (apiUrl : Option String) (offline : Option Bool)

/-- The settings that a call names. -/
def Names : Setting → Prop
  | .apiUrl => (apiUrl.filter (· ≠ "")).isSome
  | .offlineMode => offline.isSome
  | _ => False

/-- The configuration that is saved last. -/
def changed (cfg : CpipConfig) : CpipConfig :=
  let cfg' := match apiUrl.filter (· ≠ "") with
    | some url => setApiUrl url cfg
    | none => cfg
  match offline with
  | some b => setOffline b cfg'
  | none => cfg'

/-- The call saves a configuration: there is no directory in the place of the file, and no integer
that is saved first has too many digits. -/
def Saves (env : CpipEnv) (raw : Toml.Items) (tree : FileTree Bytes) : Prop :=
  ¬ tree.IsDir (env.configFile.place env.cwd) ∧
    match apiUrl.filter (· ≠ "") with
    | some _ => ∀ f, f ≠ Setting.apiUrl → Writable env (f.value env raw)
    | none => offline.isSome ∧ ∀ f, f ≠ Setting.offlineMode → Writable env (f.value env raw)

variable {apiUrl offline}

theorem get_setApiUrl {f : Setting} (other : f ≠ .apiUrl) (url : String) (cfg : CpipConfig) :
    f.get (setApiUrl url cfg) = f.get cfg := by
  cases f
  case apiUrl => exact absurd rfl other
  all_goals rfl

theorem get_setOffline {f : Setting} (other : f ≠ .offlineMode) (b : Bool) (cfg : CpipConfig) :
    f.get (setOffline b cfg) = f.get cfg := by
  cases f
  case offlineMode => exact absurd rfl other
  all_goals rfl

theorem get_changed {f : Setting} (h : ¬ Names apiUrl offline f) (cfg : CpipConfig) :
    f.get (changed apiUrl offline cfg) = f.get cfg := by
  have first : f.get (match apiUrl.filter (· ≠ "") with
      | some url => setApiUrl url cfg
      | none => cfg) = f.get cfg := by
    cases given : apiUrl.filter (· ≠ "") with
    | none => rfl
    | some url =>
      refine get_setApiUrl (fun same => h ?_) url cfg
      subst same
      show (apiUrl.filter (· ≠ "")).isSome = true
      rw [given]
      rfl
  unfold changed
  cases offline with
  | none => exact first
  | some b =>
    refine (get_setOffline (fun same => h ?_) b _).trans first
    subst same
    rfl

/-- The pairs of the sections are the settings, and one that is not read. -/
theorem mem_dataOf {config : CpipConfig} {t : String × List (String × PyVal)}
    (ht : t ∈ dataOf config) {e : String × PyVal} (he : e ∈ t.2) :
    (∃ f : Setting, f.table = t.1 ∧ f.key = e.1 ∧ f.get config = e.2) ∨
      e.2 = config.cache.autoCleanup := by
  have all : ∀ t ∈ dataOf config, ∀ e ∈ t.2,
      (∃ f : Setting, f.table = t.1 ∧ f.key = e.1 ∧ f.get config = e.2) ∨
        e.2 = config.cache.autoCleanup := by
    simp only [dataOf, cloudData, cacheData, runtimeData, List.forall_mem_cons, List.not_mem_nil,
      false_implies, implies_true, and_true]
    exact ⟨⟨.inl ⟨.apiUrl, rfl, rfl, rfl⟩, .inl ⟨.wsUrl, rfl, rfl, rfl⟩,
        .inl ⟨.cdnUrl, rfl, rfl, rfl⟩, .inl ⟨.timeout, rfl, rfl, rfl⟩⟩,
      ⟨.inl ⟨.maxSizeMb, rfl, rfl, rfl⟩, .inl ⟨.wheelTtlDays, rfl, rfl, rfl⟩, .inr trivial⟩,
      .inl ⟨.preferLocal, rfl, rfl, rfl⟩, .inl ⟨.gpuOffload, rfl, rfl, rfl⟩,
      .inl ⟨.lazyLoading, rfl, rfl, rfl⟩, .inl ⟨.cloudExec, rfl, rfl, rfl⟩,
      .inl ⟨.offlineMode, rfl, rfl, rfl⟩⟩
  exact all t ht e he

theorem get_mem_dataOf (f : Setting) (config : CpipConfig) :
    ∃ pairs, (f.table, pairs) ∈ dataOf config ∧ (f.key, f.get config) ∈ pairs := by
  cases f
  case apiUrl | wsUrl | cdnUrl | timeout =>
    exact ⟨cloudData config, by simp [dataOf, Setting.table],
      by simp [cloudData, Setting.key, Setting.get]⟩
  case maxSizeMb | wheelTtlDays =>
    exact ⟨cacheData config, by simp [dataOf, Setting.table],
      by simp [cacheData, Setting.key, Setting.get]⟩
  case preferLocal | gpuOffload | lazyLoading | cloudExec | offlineMode =>
    exact ⟨runtimeData config, by simp [dataOf, Setting.table],
      by simp [runtimeData, Setting.key, Setting.get]⟩

theorem writable_dataOf_iff {config : CpipConfig} {b : Bool}
    (cleanup : config.cache.autoCleanup = .bool b) :
    (∀ t ∈ dataOf config, ∀ e ∈ t.2, Writable env e.2) ↔
      ∀ f : Setting, Writable env (f.get config) := by
  constructor
  · intro all f
    obtain ⟨pairs, table, pair⟩ := get_mem_dataOf f config
    exact all _ table _ pair
  · intro all t ht e he
    obtain ⟨f, -, -, same⟩ | same := mem_dataOf ht he
    · exact same ▸ all f
    · rw [same, cleanup]
      exact fun i wrong => by simp at wrong

/-- A configuration that was loaded has the settings with the variables, and the default of the one
that is saved and not read. -/
structure Loaded (env : CpipEnv) (raw : Toml.Items) (config : CpipConfig) : Prop where
  get : ∀ f : Setting, f.get config = f.value env raw
  cleanup : config.cache.autoCleanup = .bool true

theorem loaded_of_applyToml {raw : Toml.Items} {read : CpipConfig}
    (applied : applyToml raw (default env) = .ok read) (auth : AuthConfig) :
    Loaded env raw { applyEnviron env read with auth := auth } := by
  refine ⟨fun f => ?_, ?_⟩
  · have same :
        f.get { applyEnviron env read with auth := auth } = f.get (applyEnviron env read) := by
      cases f <;> rfl
    rw [same, get_applyEnviron, get_applyToml applied]
    rfl
  · obtain ⟨cloud, cache, rt, -, -, -, rfl⟩ := applyToml_eq_ok applied
    rfl

theorem cleanup_changed (cfg : CpipConfig) :
    (changed apiUrl offline cfg).cache.autoCleanup = cfg.cache.autoCleanup := by
  unfold changed
  cases apiUrl.filter (· ≠ "") <;> cases offline <;> rfl

theorem Saved.trans {config config' : CpipConfig} {tree tree₁ tree₂ : FileTree Bytes}
    (first : Saved env config tree tree₁) (second : Saved env config' tree₁ tree₂) :
    Saved env config' tree tree₂ :=
  { second with auth := second.auth.trans first.auth }

theorem writable_text (env : CpipEnv) (s : String) : Writable env (.str s) :=
  fun i wrong => by simp at wrong

theorem writable_bool (env : CpipEnv) (b : Bool) : Writable env (.bool b) :=
  fun i wrong => by simp at wrong

theorem canSave_setApiUrl_iff {raw : Toml.Items} {cfg : CpipConfig} (loaded : Loaded env raw cfg)
    (url : String) (tree : FileTree Bytes) : CanSave env (setApiUrl url cfg) tree ↔
      ¬ tree.IsDir (env.configFile.place env.cwd) ∧
        ∀ f, f ≠ Setting.apiUrl → Writable env (f.value env raw) := by
  refine and_congr_right fun _ =>
    (@writable_dataOf_iff env (setApiUrl url cfg) true loaded.cleanup).trans ?_
  constructor
  · intro all f other
    have own := all f
    rwa [get_setApiUrl other, loaded.get] at own
  · intro all f
    by_cases same : f = .apiUrl
    · subst same
      exact writable_text env url
    · rw [get_setApiUrl same, loaded.get]
      exact all f same

theorem canSave_setOffline_iff {cfg : CpipConfig} {b : Bool}
    (cleanup : cfg.cache.autoCleanup = .bool true) (tree : FileTree Bytes) :
    CanSave env (setOffline b cfg) tree ↔ ¬ tree.IsDir (env.configFile.place env.cwd) ∧
      ∀ f, f ≠ Setting.offlineMode → Writable env (f.get cfg) := by
  refine and_congr_right fun _ =>
    (@writable_dataOf_iff env (setOffline b cfg) true cleanup).trans ?_
  constructor
  · intro all f other
    have own := all f
    rwa [get_setOffline other] at own
  · intro all f
    by_cases same : f = .offlineMode
    · subst same
      exact writable_bool env b
    · rw [get_setOffline same]
      exact all f same

/-- The call saves the changed configuration, or it leaves the files as they were. -/
theorem configCommand_cases (plain : env.home.Plain env.cwd) {tree : FileTree Bytes}
    (ready : Ready env tree) {raw : Toml.Items} {cfg : CpipConfig} (has : Loaded env raw cfg)
    (load : loadConfig env tree = (.ok cfg, tree)) :
    (Saves apiUrl offline env raw tree ∧
      ∃ tree', configCommand env false apiUrl offline tree = (.ok (), tree') ∧
        Saved env (changed apiUrl offline cfg) tree tree') ∨
    (¬ Saves apiUrl offline env raw tree ∧
      (configCommand env false apiUrl offline tree).2 = tree ∧
      ((configCommand env false apiUrl offline tree).1 = .ok () →
        apiUrl.filter (· ≠ "") = none ∧ offline = none)) := by
  unfold Saves
  simp only [configCommand, load, Bool.false_eq_true, if_false, saveApiUrl, saveOffline, changed]
  cases apiUrl.filter (· ≠ "") with
  | none =>
    dsimp only
    cases offline with
    | none => exact .inr ⟨fun h => (nomatch h.2.1), rfl, fun _ => ⟨rfl, rfl⟩⟩
    | some b =>
      have can := @canSave_setOffline_iff env cfg b has.cleanup tree
      simp only [has.get] at can
      simp only [Option.isSome_some, true_and, ← can]
      obtain ⟨saves, tree', saved, after⟩ | ⟨fails, e, error⟩ :=
        saveConfig_cases plain ready (setOffline b cfg)
      · exact .inl ⟨saves, tree', saved, after⟩
      · exact .inr ⟨fails, by rw [error], by rw [error]; exact nofun⟩
  | some url =>
    dsimp only
    rw [← canSave_setApiUrl_iff has url tree]
    obtain ⟨saves, tree₁, saved, after⟩ | ⟨fails, e, error⟩ :=
      saveConfig_cases plain ready (setApiUrl url cfg)
    · rw [saved]
      cases offline with
      | none => exact .inl ⟨saves, tree₁, rfl, after⟩
      | some b =>
        have writable := (@writable_dataOf_iff env (setApiUrl url cfg) true has.cleanup).1 saves.2
        have again : CanSave env (setOffline b (setApiUrl url cfg)) tree₁ :=
          (@canSave_setOffline_iff env (setApiUrl url cfg) b has.cleanup tree₁).2
            ⟨after.file, fun f _ => writable f⟩
        obtain ⟨-, tree₂, saved', after'⟩ | ⟨fails, -⟩ :=
          saveConfig_cases plain after.ready (setOffline b (setApiUrl url cfg))
        · exact .inl ⟨saves, tree₂, saved', after.trans after'⟩
        · exact absurd again fails
    · rw [error]
      exact .inr ⟨fails, rfl, nofun⟩

end Changes

/-! ## What is loaded again -/

theorem plain_or_text {v : PyVal} (spelled : Toml.spell v ≠ []) (writable : Writable env v) :
    Toml.IsPlain env.toml v ∨ ∃ s, v = .str s := by
  cases v with
  | atom a =>
    cases a with
    | bool b => exact .inl trivial
    | int i => exact .inl (writable i rfl)
    | str s => exact .inr ⟨s, rfl⟩
    | _ => exact absurd rfl spelled
  | _ => exact absurd rfl spelled

theorem quoted_written {config : CpipConfig}
    (writable : ∀ t ∈ written config, ∀ e ∈ t.2, Writable env e.2) :
    Toml.QuotedTables env.toml (written config) := by
  have names := bare_names config
  have part {t : String × List (String × PyVal)} (ht : t ∈ written config) :
      ∃ t' ∈ dataOf config, t = (t'.1, spelledOnly t'.2) := by
    obtain ⟨t', mem, rfl⟩ := List.mem_map.1 ht
    exact ⟨t', mem, rfl⟩
  refine ⟨?_, fun t ht => ?_, fun t ht => ?_, fun t ht e he => ?_, fun t ht e he => ?_⟩
  · show ["cloud", "cache", "runtime"].Nodup
    decide
  · obtain ⟨t', mem, rfl⟩ := part ht
    exact (names t' mem).1
  · obtain ⟨t', mem, rfl⟩ := part ht
    exact (names t' mem).2.1.sublist (List.filter_sublist.map _)
  · obtain ⟨t', mem, rfl⟩ := part ht
    exact (names t' mem).2.2 e (List.mem_filter.1 he).1
  · exact plain_or_text (scalars_written config t ht e he) (writable t ht e he)

/-- A file whose pairs are plain has each setting that has a line. -/
theorem inFile_of_plain {config : CpipConfig}
    (plain : Toml.PlainTables env.toml (written config)) {raw : Toml.Items}
    (read : raw = (Toml.loads env.toml (String.ofList
      (universalNewlines (Toml.fileText (written config))))).getD []) :
    (∀ f : Setting, f.inFile raw =
      if Toml.spell (f.get config) ≠ [] then some (f.get config) else none) ∧
    ∀ base, ∃ after, applyToml raw base = .ok after := by
  have split : written config = [("cloud", spelledOnly (cloudData config)),
    ("cache", spelledOnly (cacheData config))] ++ [("runtime", spelledOnly (runtimeData config))] :=
    rfl
  have loads := @Toml.loads_fileText env.toml _ _ _ (split ▸ plain)
  rw [← split] at loads
  rw [loads, Option.getD_some] at read
  subst read
  refine ⟨fun f => ?_, fun base => ⟨_, rfl⟩⟩
  obtain ⟨pairs, table, pair⟩ := get_mem_dataOf f config
  have there : (f.table, spelledOnly pairs) ∈ written config :=
    List.mem_map.2 ⟨_, table, rfl⟩
  have keys : (pairs.map Prod.fst).Nodup := (bare_names config _ table).2.1
  rw [Setting.inFile, Toml.lookup_cons_dict, Toml.getStr_toTables_of_mem plain.names there,
    Option.bind_some, Toml.lookup_cons_dict]
  split_ifs with spelled
  · have kept : (f.key, f.get config) ∈ spelledOnly pairs :=
      List.mem_filter.2 ⟨pair, by simpa using spelled⟩
    rw [Toml.getStr_toItems_of_mem (plain.plain _ there).names kept]
    rfl
  · rw [Toml.getStr_toItems]
    · rfl
    · intro mem
      obtain ⟨e, he, same⟩ := List.mem_map.1 mem
      obtain ⟨he, kept⟩ := List.mem_filter.1 he
      have same : e = (f.key, f.get config) := List.inj_on_of_nodup_map keys he pair same
      rw [same] at kept
      exact absurd (by simpa using kept) spelled

/-- A file has plain pairs when each of them is plain or read back. -/
theorem plainTables_of_back {config : CpipConfig}
    (cleanup : config.cache.autoCleanup = .bool true)
    (writable : ∀ t ∈ written config, ∀ e ∈ t.2, Writable env e.2) {raw : Toml.Items}
    (read : raw = (Toml.loads env.toml (String.ofList
      (universalNewlines (Toml.fileText (written config))))).getD [])
    (back : ∀ f : Setting, Toml.spell (f.get config) ≠ [] →
      Toml.IsPlain env.toml (f.get config) ∨ f.inFile raw = some (f.get config)) :
    Toml.PlainTables env.toml (written config) := by
  have quoted := quoted_written writable
  -- every pair is a setting, or the one that is a boolean
  have pairs : ∀ t ∈ written config, ∀ e ∈ t.2, Toml.IsPlain env.toml e.2 ∨
      Toml.lookup [t.1, e.1] (.dict raw) = some e.2 := by
    intro t ht e he
    obtain ⟨t', mem, rfl⟩ := List.mem_map.1 ht
    obtain ⟨he, spelled⟩ := List.mem_filter.1 he
    obtain ⟨f, table, key, value⟩ | value := mem_dataOf mem he
    · rw [← value] at spelled ⊢
      rw [← table, ← key]
      exact back f (by simpa using spelled)
    · rw [value, cleanup]
      exact .inl trivial
  cases loaded : Toml.loads env.toml (String.ofList
      (universalNewlines (Toml.fileText (written config)))) with
  | none =>
    rw [loaded] at read
    subst read
    exact quoted.plainTables fun t ht e he => (pairs t ht e he).resolve_right nofun
  | some root =>
    rw [loaded] at read
    subst read
    exact quoted.plainTables_of_read loaded pairs

/-! ## The frame -/

/-- The configurations differ in the named settings at most. -/
structure SameBut (named : Setting → Prop) (c c' : CpipConfig) : Prop where
  settings : ∀ f : Setting, ¬ named f → f.get c' = f.get c
  rest : c' = { c with
    cloud := { c.cloud with apiUrl := c'.cloud.apiUrl }
    runtime := { c.runtime with offlineMode := c'.runtime.offlineMode } }

/-- What a call keeps: without the variables, the configuration is loaded as before but for the
settings that are named, and the file is the one that is written without the variables. -/
structure Frame (env : CpipEnv) (apiUrl : Option String) (offline : Option Bool)
    (before : CpipConfig) (tree : FileTree Bytes) : Prop where
  keeps : ∃ after tree', loadConfig env.without (configCommand env false apiUrl offline tree).2 =
    (.ok after, tree') ∧ SameBut (Names apiUrl offline) before after
  noLeak : ∀ tree₁ tree₂, configCommand env false apiUrl offline tree = (.ok (), tree₁) →
    configCommand env.without false apiUrl offline tree = (.ok (), tree₂) →
      env.configFile.read env.cwd tree₁ = env.configFile.read env.cwd tree₂

/-- A variable makes no difference to a setting: it is not set, it is empty and the file has the
setting, or it has the value that is loaded anyway. -/
def Harmless (getenv : Option String) (inFile : Option PyVal) (default : PyVal) : Prop :=
  match getenv with
  | none => True
  | some s => if s = "" then inFile.isSome = true else inFile.getD default = .str s

/-- The settings that are not named are loaded as they are without the variables, and are booleans,
integers and strings that need no quoting; and so is a URL that is set. -/
structure Clean (env : CpipEnv) (apiUrl : Option String) (offline : Option Bool)
    (raw : Toml.Items) : Prop where
  api : ¬ Names apiUrl offline .apiUrl → Harmless (env.getenv "CPIP_API_URL")
    (Setting.apiUrl.inFile raw) (.str env.without.defaultApiUrl)
  ws : Harmless (env.getenv "CPIP_WS_URL") (Setting.wsUrl.inFile raw)
    (.str env.without.defaultWsUrl)
  mode : ¬ Names apiUrl offline .offlineMode → (override env "CPIP_OFFLINE").isSome →
    Setting.offlineMode.stored env.without raw = .bool true
  plain : ∀ f, ¬ Names apiUrl offline f → Toml.IsPlain env.toml (f.stored env.without raw)
  text : ∀ url, apiUrl = some url → ∀ c ∈ url.toList, Toml.isPlain c

/-- The texts that the call is given, in its arguments and in variables, need no quoting. -/
def PlainTexts (env : CpipEnv) (apiUrl : Option String) : Prop :=
  ∀ s, apiUrl = some s ∨ env.getenv "CPIP_API_URL" = some s ∨ env.getenv "CPIP_WS_URL" = some s ∨
    env.getenv "CPIP_CDN_URL" = some s → ∀ c ∈ s.toList, Toml.isPlain c

section Frame

variable {apiUrl : Option String} {offline : Option Bool} {raw : Toml.Items}

theorem getenv_without {name : String}
    (h : name ∈ ["CPIP_API_URL", "CPIP_WS_URL", "CPIP_OFFLINE"]) :
    env.without.getenv name = none := if_pos h

theorem override_without {name : String}
    (h : name ∈ ["CPIP_API_URL", "CPIP_WS_URL", "CPIP_OFFLINE"]) :
    override env.without name = none := by
  rw [override, getenv_without h]
  rfl

theorem default_without (env : CpipEnv) : env.without.defaultApiUrl = "http://localhost:8000" ∧
    env.without.defaultWsUrl = "ws://localhost:8000/ws" ∧
    env.without.defaultCdnUrl = env.defaultCdnUrl := by
  rw [CpipEnv.defaultApiUrl, CpipEnv.defaultWsUrl, getenv_without (by simp),
    getenv_without (by simp)]
  have same : env.without.getenv "CPIP_CDN_URL" = env.getenv "CPIP_CDN_URL" := by
    simp [CpipEnv.without]
  exact ⟨rfl, rfl, congrArg (Option.getD · _) same⟩

theorem value_without (f : Setting) : f.value env.without raw = f.stored env.without raw := by
  have none : f.overridden env.without = none := by
    unfold Setting.overridden
    split
    · rw [override_without (by simp)]; rfl
    · rw [override_without (by simp)]; rfl
    · rw [override_without (by simp)]; rfl
    · rfl
  rw [Setting.value, none, Option.getD_none]

theorem harmless_iff {name default : String} {inFile : Option PyVal} (nonempty : default ≠ "") :
    ((override env name).map PyVal.str).getD
        (inFile.getD (.str ((env.getenv name).getD default))) = inFile.getD (.str default) ↔
      Harmless (env.getenv name) inFile (.str default) := by
  unfold Harmless override
  cases env.getenv name with
  | none => exact iff_of_true rfl trivial
  | some s =>
    dsimp only
    split_ifs with empty
    · subst empty
      rw [Option.filter_some, if_neg (by simp)]
      cases inFile with
      | none => exact iff_of_false (fun h => nonempty (by simpa using h.symm)) nofun
      | some v => exact iff_of_true rfl rfl
    · rw [Option.filter_some, if_pos (by simpa using empty)]
      exact eq_comm

/-- When the variables make no difference to a setting. -/
theorem value_eq_stored_iff (f : Setting) : f.value env raw = f.stored env.without raw ↔
    match f with
    | .apiUrl => Harmless (env.getenv "CPIP_API_URL") (Setting.apiUrl.inFile raw)
        (.str env.without.defaultApiUrl)
    | .wsUrl => Harmless (env.getenv "CPIP_WS_URL") (Setting.wsUrl.inFile raw)
        (.str env.without.defaultWsUrl)
    | .offlineMode => (override env "CPIP_OFFLINE").isSome →
        Setting.offlineMode.stored env.without raw = .bool true
    | _ => True := by
  obtain ⟨api, ws, cdn⟩ := default_without env
  cases f
  case apiUrl =>
    show _ = (Setting.apiUrl.inFile raw).getD (.str env.without.defaultApiUrl) ↔ Harmless _ _ _
    rw [api]
    exact harmless_iff (by decide)
  case wsUrl =>
    show _ = (Setting.wsUrl.inFile raw).getD (.str env.without.defaultWsUrl) ↔ Harmless _ _ _
    rw [ws]
    exact harmless_iff (by decide)
  case offlineMode =>
    unfold Setting.value Setting.overridden
    cases override env "CPIP_OFFLINE" with
    | none => exact iff_of_true rfl nofun
    | some s => exact ⟨fun h _ => h.symm, fun h => (h rfl).symm⟩
  case cdnUrl =>
    refine iff_of_true ?_ trivial
    show (Setting.cdnUrl.inFile raw).getD (.str env.defaultCdnUrl) =
      (Setting.cdnUrl.inFile raw).getD (.str env.without.defaultCdnUrl)
    rw [cdn]
  all_goals exact iff_of_true rfl trivial

/-- The settings that are not named are loaded as without the variables. -/
theorem value_eq_stored_of_clean (clean : Clean env apiUrl offline raw) {f : Setting}
    (other : ¬ Names apiUrl offline f) : f.value env raw = f.stored env.without raw := by
  rw [value_eq_stored_iff]
  cases f
  case apiUrl => exact clean.api other
  case wsUrl => exact clean.ws
  case offlineMode => exact clean.mode other
  all_goals trivial

theorem clean_of_forall (plain : ∀ f, ¬ Names apiUrl offline f →
      f.value env raw = f.stored env.without raw ∧ Toml.IsPlain env.toml (f.stored env.without raw))
    (text : ∀ url, apiUrl = some url → ∀ c ∈ url.toList, Toml.isPlain c) :
    Clean env apiUrl offline raw where
  api other := (value_eq_stored_iff .apiUrl).1 (plain _ other).1
  ws := (value_eq_stored_iff .wsUrl).1 (plain .wsUrl id).1
  mode other := (value_eq_stored_iff .offlineMode).1 (plain _ other).1
  plain f other := (plain f other).2
  text := text

/-- Configurations that were loaded differ in the settings at most, where the auth state is the
same. -/
theorem sameBut_of_get {raw' : Toml.Items} {read read' : CpipConfig} {named : Setting → Prop}
    (applied : applyToml raw (default env) = .ok read)
    (applied' : applyToml raw' (default env) = .ok read') (auth : AuthConfig)
    (api : ∀ f, f ≠ Setting.apiUrl ∧ f ≠ Setting.offlineMode → ¬ named f)
    (same : ∀ f, ¬ named f → f.get { applyEnviron env read' with auth := auth } =
      f.get { applyEnviron env read with auth := auth }) :
    SameBut named { applyEnviron env read with auth := auth }
      { applyEnviron env read' with auth := auth } := by
  refine ⟨same, ?_⟩
  have others (f : Setting) (h : f ≠ Setting.apiUrl ∧ f ≠ Setting.offlineMode) := same f (api f h)
  have ws := others .wsUrl (by decide)
  have cdn := others .cdnUrl (by decide)
  have timeout := others .timeout (by decide)
  have size := others .maxSizeMb (by decide)
  have days := others .wheelTtlDays (by decide)
  have prefer := others .preferLocal (by decide)
  have gpu := others .gpuOffload (by decide)
  have lazy := others .lazyLoading (by decide)
  have exec := others .cloudExec (by decide)
  obtain ⟨_, _, _, -, -, -, rfl⟩ := applyToml_eq_ok applied
  obtain ⟨_, _, _, -, -, -, rfl⟩ := applyToml_eq_ok applied'
  simp only [Setting.get, applyEnviron] at ws cdn timeout size days prefer gpu lazy exec ⊢
  rw [ws, cdn, timeout, size, days, prefer, gpu, lazy, exec]

/-- What a call gives the settings that it names needs no quoting. -/
theorem isPlain_of_names (text : ∀ url, apiUrl = some url → ∀ c ∈ url.toList, Toml.isPlain c)
    {f : Setting} (named : Names apiUrl offline f) (cfg : CpipConfig) :
    Toml.IsPlain env.toml (f.get (changed apiUrl offline cfg)) := by
  cases f
  case apiUrl =>
    obtain ⟨url, given⟩ := Option.isSome_iff_exists.1 named
    have set : Setting.apiUrl.get (changed apiUrl offline cfg) = .str url := by
      simp only [changed, given]
      cases offline <;> rfl
    rw [set]
    exact text url (Option.filter_eq_some_iff.1 given).1
  case offlineMode =>
    obtain ⟨b, rfl⟩ := Option.isSome_iff_exists.1 named
    trivial
  all_goals exact named.elim

/-- A call that saves leaves the settings that it does not name in the file, as they are loaded
without the variables. -/
theorem stored_of_clean {cfg : CpipConfig} {tree tree' : FileTree Bytes}
    (clean : Clean env apiUrl offline raw) (has : Loaded env raw cfg)
    (saved : Saved env (changed apiUrl offline cfg) tree tree') :
    (∀ f, ¬ Names apiUrl offline f →
      f.stored env.without (loadToml env env.configFile tree') = f.stored env.without raw) ∧
    ∀ base, ∃ after, applyToml (loadToml env env.configFile tree') base = .ok after := by
  have unnamed (f : Setting) (other : ¬ Names apiUrl offline f) :
      f.get (changed apiUrl offline cfg) = f.stored env.without raw := by
    rw [get_changed other, has.get, value_eq_stored_of_clean clean other]
  have plain (f : Setting) : Toml.IsPlain env.toml (f.get (changed apiUrl offline cfg)) := by
    by_cases named : Names apiUrl offline f
    · exact isPlain_of_names clean.text named cfg
    · rw [unnamed f named]
      exact clean.plain f named
  have tables := plainTables_of_back ((cleanup_changed cfg).trans has.cleanup) saved.writable
    saved.raw fun f _ => .inl (plain f)
  obtain ⟨inFile, loads⟩ := inFile_of_plain tables saved.raw
  refine ⟨fun f other => ?_, loads⟩
  rw [Setting.stored, inFile, if_pos (Toml.spell_ne_nil (plain f)), Option.getD_some,
    unnamed f other]

theorem spell_ne_nil_of_default (env : CpipEnv) (f : Setting) :
    Toml.spell (f.get (default env)) ≠ [] := by
  have number (i : ℤ) : Toml.spell (.int i) ≠ [] := by
    obtain ⟨c, cs, whole, -⟩ := Toml.exists_spellInt i
    exact fun h => nomatch whole.symm.trans h
  have truth (b : Bool) : Toml.spell (.bool b) ≠ [] := by cases b <;> simp [Toml.spell]
  cases f
  case timeout => exact number 30
  case maxSizeMb => exact number 2048
  case wheelTtlDays => exact number 30
  case apiUrl | wsUrl | cdnUrl => exact List.cons_ne_nil _ _
  all_goals exact truth _

theorem spell_ne_nil_of_overridden {f : Setting} {v : PyVal} (h : f.overridden env = some v) :
    Toml.spell v ≠ [] := by
  unfold Setting.overridden at h
  split at h
  · obtain ⟨s, -, rfl⟩ := Option.map_eq_some_iff.1 h
    exact List.cons_ne_nil _ _
  · obtain ⟨s, -, rfl⟩ := Option.map_eq_some_iff.1 h
    exact List.cons_ne_nil _ _
  · obtain ⟨s, -, rfl⟩ := Option.map_eq_some_iff.1 h
    decide
  · cases h

theorem plain_getD {given : Option String} {default s : String}
    (texts : ∀ s, given = some s → ∀ c ∈ s.toList, Toml.isPlain c)
    (plain : default.toList.all Toml.isPlain) (h : given.getD default = s) :
    ∀ c ∈ s.toList, Toml.isPlain c := by
  cases given with
  | none =>
    obtain rfl : default = s := h
    exact List.all_eq_true.1 plain
  | some s' => exact texts s (congrArg some h)

/-- The defaults need no quoting where the variables do not. -/
theorem plain_of_default (texts : PlainTexts env apiUrl) {f : Setting} {s : String}
    (h : f.get (default env) = .str s ∨ f.get (default env.without) = .str s) :
    ∀ c ∈ s.toList, Toml.isPlain c := by
  obtain ⟨api, ws, cdn⟩ := default_without env
  have cdnPlain {s : String} (h : env.defaultCdnUrl = s) : ∀ c ∈ s.toList, Toml.isPlain c :=
    plain_getD (fun s given => texts s (.inr (.inr (.inr given)))) (by decide) h
  cases f
  case apiUrl =>
    obtain h | h := h
    · exact plain_getD (fun s given => texts s (.inr (.inl given))) (by decide)
        (show env.defaultApiUrl = s by simpa [Setting.get, default] using h)
    · obtain rfl : env.without.defaultApiUrl = s := by simpa [Setting.get, default] using h
      rw [api]
      exact List.all_eq_true.1 (by decide)
  case wsUrl =>
    obtain h | h := h
    · exact plain_getD (fun s given => texts s (.inr (.inr (.inl given)))) (by decide)
        (show env.defaultWsUrl = s by simpa [Setting.get, default] using h)
    · obtain rfl : env.without.defaultWsUrl = s := by simpa [Setting.get, default] using h
      rw [ws]
      exact List.all_eq_true.1 (by decide)
  case cdnUrl =>
    obtain h | h := h
    · exact cdnPlain (by simpa [Setting.get, default] using h)
    · obtain rfl : env.without.defaultCdnUrl = s := by simpa [Setting.get, default] using h
      exact cdnPlain cdn.symm
  all_goals simp [Setting.get, default] at h

theorem plain_of_overridden (texts : PlainTexts env apiUrl) {f : Setting} {s : String}
    (h : f.overridden env = some (.str s)) : ∀ c ∈ s.toList, Toml.isPlain c := by
  have given {name : String} (h : (override env name).map PyVal.str = some (.str s)) :
      env.getenv name = some s := by
    obtain ⟨s', found, same⟩ := Option.map_eq_some_iff.1 h
    obtain rfl : s' = s := by simpa using same
    exact (Option.filter_eq_some_iff.1 found).1
  unfold Setting.overridden at h
  split at h
  · exact texts s (.inr (.inl (given h)))
  · exact texts s (.inr (.inr (.inl (given h))))
  · obtain ⟨_, -, wrong⟩ := Option.map_eq_some_iff.1 h
    cases wrong
  · cases h

/-- Where the other settings are loaded again as they were stored, all that was written is plain. -/
theorem plainTables_of_stored {cfg : CpipConfig} {tree tree' : FileTree Bytes}
    (texts : PlainTexts env apiUrl) (has : Loaded env raw cfg)
    (saved : Saved env (changed apiUrl offline cfg) tree tree')
    (kept : ∀ f, ¬ Names apiUrl offline f →
      f.stored env.without (loadToml env env.configFile tree') = f.stored env.without raw) :
    Toml.PlainTables env.toml (written (changed apiUrl offline cfg)) := by
  refine plainTables_of_back ((cleanup_changed cfg).trans has.cleanup) saved.writable saved.raw
    fun f spelled => ?_
  by_cases named : Names apiUrl offline f
  · exact .inl (isPlain_of_names (fun url given => texts url (.inl given)) named cfg)
  obtain ⟨pairs, table, pair⟩ := get_mem_dataOf f (changed apiUrl offline cfg)
  have writable := saved.writable _ (List.mem_map.2 ⟨_, table, rfl⟩) _
    (List.mem_filter.2 ⟨pair, by simpa using spelled⟩)
  obtain plain | ⟨s, string⟩ := plain_or_text spelled writable
  · exact .inl plain
  have same := kept f named
  rw [string]
  rw [get_changed named, has.get, Setting.value] at string
  cases overridden : f.overridden env with
  | some v =>
    rw [overridden] at string
    obtain rfl : v = .str s := string
    exact .inl (plain_of_overridden texts overridden)
  | none =>
    rw [overridden, Option.getD_none, Setting.stored] at string
    cases found : f.inFile raw with
    | none =>
      rw [found] at string
      exact .inl (plain_of_default texts (.inl string))
    | some v =>
      rw [found] at string
      obtain rfl : v = .str s := string
      rw [Setting.stored, Setting.stored, found, Option.getD_some] at same
      cases again : f.inFile (loadToml env env.configFile tree') with
      | none =>
        rw [again] at same
        exact .inl (plain_of_default texts (.inr same))
      | some w =>
        rw [again] at same
        exact .inr (congrArg some same)

/-- Where the texts need no quoting, a call that keeps the other settings is clean. -/
theorem clean_of_stored {cfg : CpipConfig} {tree tree' : FileTree Bytes}
    (texts : PlainTexts env apiUrl) (has : Loaded env raw cfg)
    (saved : Saved env (changed apiUrl offline cfg) tree tree')
    (kept : ∀ f, ¬ Names apiUrl offline f →
      f.stored env.without (loadToml env env.configFile tree') = f.stored env.without raw) :
    Clean env apiUrl offline raw := by
  have text (url : String) (given : apiUrl = some url) := texts url (.inl given)
  have tables := plainTables_of_stored texts has saved kept
  obtain ⟨inFile, -⟩ := inFile_of_plain tables saved.raw
  refine clean_of_forall (fun f other => ?_) text
  have same := kept f other
  have file := inFile f
  rw [get_changed other, has.get] at file
  by_cases spelled : Toml.spell (f.value env raw) ≠ []
  · rw [if_pos spelled] at file
    rw [Setting.stored, file, Option.getD_some] at same
    refine ⟨same, same ▸ ?_⟩
    obtain ⟨pairs, table, pair⟩ := get_mem_dataOf f (changed apiUrl offline cfg)
    rw [get_changed other, has.get] at pair
    exact (tables.plain _ (List.mem_map.2 ⟨_, table, rfl⟩)).plain _
      (List.mem_filter.2 ⟨pair, by simpa using spelled⟩)
  · -- a value that gets no line is in the file, and its default is loaded afterwards
    rw [if_neg spelled] at file
    rw [Setting.stored, file, Option.getD_none] at same
    refine absurd ?_ spelled
    cases overridden : f.overridden env with
    | some v =>
      rw [Setting.value, overridden]
      exact spell_ne_nil_of_overridden overridden
    | none =>
      rw [Setting.value, overridden, Option.getD_none, Setting.stored]
      cases found : f.inFile raw with
      | none => exact spell_ne_nil_of_default env f
      | some v =>
        rw [Setting.stored, found] at same
        have eq : f.get (default env.without) = v := same
        rw [Option.getD_some, ← eq]
        exact spell_ne_nil_of_default env.without f

/-! ## Calls with and without the variables -/

theorem get_changed_of_names {f : Setting} (named : Names apiUrl offline f)
    (cfg cfg' : CpipConfig) :
    f.get (changed apiUrl offline cfg) = f.get (changed apiUrl offline cfg') := by
  cases f
  case apiUrl =>
    obtain ⟨url, given⟩ := Option.isSome_iff_exists.1 named
    simp only [changed, given]
    cases offline <;> rfl
  case offlineMode =>
    obtain ⟨b, rfl⟩ := Option.isSome_iff_exists.1 named
    rfl
  all_goals exact named.elim

theorem dataOf_congr {c c' : CpipConfig} (get : ∀ f : Setting, f.get c = f.get c')
    (cleanup : c.cache.autoCleanup = c'.cache.autoCleanup) : dataOf c = dataOf c' := by
  have api : c.cloud.apiUrl = c'.cloud.apiUrl := get .apiUrl
  have ws : c.cloud.wsUrl = c'.cloud.wsUrl := get .wsUrl
  have cdn : c.cloud.cdnUrl = c'.cloud.cdnUrl := get .cdnUrl
  have timeout : c.cloud.timeout = c'.cloud.timeout := get .timeout
  have size : c.cache.maxSizeMb = c'.cache.maxSizeMb := get .maxSizeMb
  have days : c.cache.wheelTtlDays = c'.cache.wheelTtlDays := get .wheelTtlDays
  have prefer : c.runtime.preferLocal = c'.runtime.preferLocal := get .preferLocal
  have gpu : c.runtime.gpuOffload = c'.runtime.gpuOffload := get .gpuOffload
  have lazy : c.runtime.lazyLoading = c'.runtime.lazyLoading := get .lazyLoading
  have exec : c.runtime.cloudExec = c'.runtime.cloudExec := get .cloudExec
  have mode : c.runtime.offlineMode = c'.runtime.offlineMode := get .offlineMode
  simp only [dataOf, cloudData, cacheData, runtimeData, api, ws, cdn, timeout, size, days, prefer,
    gpu, lazy, exec, mode, cleanup]

/-- A call that saves names a setting. -/
theorem Saves.names {tree : FileTree Bytes} (saves : Saves apiUrl offline env raw tree) :
    ¬ (apiUrl.filter (· ≠ "") = none ∧ offline = none) := by
  rintro ⟨noUrl, rfl⟩
  have mode := saves.2
  rw [noUrl] at mode
  exact nomatch mode.1

/-- A clean call writes what it writes without the variables. -/
theorem noLeak_of_clean (plain : env.home.Plain env.cwd) {cfg cfg' : CpipConfig}
    {tree : FileTree Bytes}
    (clean : Saves apiUrl offline env raw tree → Clean env apiUrl offline raw)
    (ready : Ready env tree) (has : Loaded env raw cfg) (has' : Loaded env.without raw cfg')
    (load : loadConfig env tree = (.ok cfg, tree))
    (load' : loadConfig env.without tree = (.ok cfg', tree)) {tree₁ tree₂ : FileTree Bytes}
    (ran : configCommand env false apiUrl offline tree = (.ok (), tree₁))
    (ran' : configCommand env.without false apiUrl offline tree = (.ok (), tree₂)) :
    env.configFile.read env.cwd tree₁ = env.configFile.read env.cwd tree₂ := by
  have without :=
    @configCommand_cases env.without apiUrl offline plain tree ready raw cfg' has' load'
  rw [ran'] at without
  obtain ⟨saves, t₁, ran₁, saved⟩ | ⟨-, unchanged, nothing⟩ :=
    @configCommand_cases env apiUrl offline plain tree ready raw cfg has load
  · obtain rfl : tree₁ = t₁ := (Prod.mk.inj (ran.symm.trans ran₁)).2
    obtain ⟨-, t₂, ran₂, saved'⟩ | ⟨-, -, nothing⟩ := without
    · obtain rfl : tree₂ = t₂ := (Prod.mk.inj ran₂).2
      have same : dataOf (changed apiUrl offline cfg) = dataOf (changed apiUrl offline cfg') := by
        refine dataOf_congr (fun f => ?_) ?_
        · by_cases named : Names apiUrl offline f
          · exact get_changed_of_names named cfg cfg'
          · rw [get_changed named, get_changed named, has.get, has'.get, value_without]
            exact value_eq_stored_of_clean (clean saves) named
        · rw [cleanup_changed, cleanup_changed, has.cleanup, has'.cleanup]
      obtain ⟨lines, spelled, read⟩ := saved.spelled
      obtain ⟨lines', spelled', read'⟩ := saved'.spelled
      rw [same] at spelled
      obtain rfl : lines = lines' := Except.ok.inj (spelled.symm.trans spelled')
      exact read.trans read'.symm
    · exact absurd (nothing rfl) saves.names
  · rw [ran] at unchanged nothing
    obtain ⟨saves, -⟩ | ⟨-, unchanged', -⟩ := without
    · exact absurd (nothing rfl) saves.names
    · have eq : tree₁ = tree₂ := unchanged.trans unchanged'.symm
      rw [eq]

section Runs

variable {before : CpipConfig} {tree tree₁ : FileTree Bytes}

/-- What the command finds after a load without the variables. -/
theorem loads_again (plain : env.home.Plain env.cwd)
    (loaded : loadConfig env.without tree = (.ok before, tree₁)) :
    Ready env tree₁ ∧
    loadToml env env.configFile tree₁ = loadToml env env.configFile tree ∧
    (∃ cfg, loadConfig env tree₁ = (.ok cfg, tree₁) ∧
      Loaded env (loadToml env env.configFile tree₁) cfg) ∧
    loadConfig env.without tree₁ = (.ok before, tree₁) ∧
    ∃ read, applyToml (loadToml env env.configFile tree₁) (default env.without) = .ok read ∧
      before = { applyEnviron env.without read with auth := loadAuth env tree₁ } := by
  obtain ⟨⟨read₀, applied₀, own⟩, ready, same⟩ := @loadConfig_eq_ok env.without plain _ _ _ loaded
  have applied₀ : applyToml (loadToml env env.configFile tree) (default env.without) = .ok read₀ :=
    applied₀
  have ready : Ready env tree₁ := ready
  have raw : loadToml env env.configFile tree₁ = loadToml env env.configFile tree :=
    SameFiles.loadToml plain same
  have auth : loadAuth env tree₁ = loadAuth env tree := SameFiles.loadAuth plain same
  have own : before = { applyEnviron env.without read₀ with auth := loadAuth env tree } := own
  obtain ⟨read, applied⟩ := exists_applyToml applied₀ (default env)
  rw [← raw] at applied applied₀
  rw [← auth] at own
  refine ⟨ready, raw, ⟨_, loadConfig_of_ready plain ready applied, loaded_of_applyToml applied _⟩,
    ?_, read₀, applied₀, own⟩
  exact (@loadConfig_of_ready env.without plain _ ready _ applied₀).trans (by rw [own]; rfl)

theorem frame_of_clean (plain : env.home.Plain env.cwd)
    (loaded : loadConfig env.without tree = (.ok before, tree₁))
    (clean : Saves apiUrl offline env (loadToml env env.configFile tree) tree₁ →
      Clean env apiUrl offline (loadToml env env.configFile tree)) :
    Frame env apiUrl offline before tree₁ := by
  obtain ⟨ready, raw, ⟨cfg, load, has⟩, load₀, read₀, applied₀, own⟩ := loads_again plain loaded
  have has₀ : Loaded env.without (loadToml env env.configFile tree₁) before :=
    own ▸ loaded_of_applyToml applied₀ (loadAuth env tree₁)
  rw [← raw] at clean
  refine ⟨?_, fun _ _ => noLeak_of_clean plain clean ready has has₀ load load₀⟩
  obtain ⟨saves, tree', ran, saved⟩ | ⟨-, unchanged, -⟩ :=
    @configCommand_cases env apiUrl offline plain tree₁ ready _ _ has load
  · obtain ⟨stored, loads⟩ := stored_of_clean (clean saves) has saved
    obtain ⟨after, applied'⟩ := loads (default env.without)
    have again := @loadConfig_of_ready env.without plain _ saved.ready _ applied'
    have auth : loadAuth env.without tree' = loadAuth env tree₁ := saved.auth
    rw [ran]
    refine ⟨_, _, again, ?_⟩
    rw [own, auth]
    refine sameBut_of_get applied₀ applied' _ (fun f other => ?_) fun f other => ?_
    · cases f
      case apiUrl => exact absurd rfl other.1
      case offlineMode => exact absurd rfl other.2
      all_goals exact id
    · rw [(loaded_of_applyToml applied' _).get, (loaded_of_applyToml applied₀ _).get,
        value_without, value_without]
      exact stored f other
  · rw [unchanged]
    exact ⟨before, tree₁, load₀, fun _ _ => rfl, rfl⟩

theorem clean_of_frame (plain : env.home.Plain env.cwd)
    (loaded : loadConfig env.without tree = (.ok before, tree₁)) (texts : PlainTexts env apiUrl)
    (frame : Frame env apiUrl offline before tree₁)
    (saves : Saves apiUrl offline env (loadToml env env.configFile tree) tree₁) :
    Clean env apiUrl offline (loadToml env env.configFile tree) := by
  obtain ⟨ready, raw, ⟨cfg, load, has⟩, -, read₀, applied₀, own⟩ := loads_again plain loaded
  rw [← raw] at saves ⊢
  obtain ⟨-, tree', ran, saved⟩ | ⟨fails, -⟩ :=
    @configCommand_cases env apiUrl offline plain tree₁ ready _ _ has load
  · obtain ⟨after, tree₂, again, but⟩ := frame.keeps
    rw [ran] at again
    obtain ⟨⟨read', applied', rfl⟩, -, -⟩ := @loadConfig_eq_ok env.without plain _ _ _ again
    refine clean_of_stored texts has saved fun f other => ?_
    have kept := but.settings f other
    rwa [own, (loaded_of_applyToml applied' _).get, (loaded_of_applyToml applied₀ _).get,
      value_without, value_without] at kept
  · exact absurd saves fails

end Runs

end Frame

/-- The variables of a shell in which another server is tried. -/
def staging : CpipEnv :=
  { sampleEnv with getenv := fun name =>
      if name = "CPIP_WS_URL" then some "ws://staging" else none }

theorem plain_staging : staging.home.Plain staging.cwd := by
  show ".." ∉ staging.home.place staging.cwd
  decide

theorem plainTexts_staging : PlainTexts staging (some "https://api") := by
  rintro s (same | same | same | same)
  · obtain rfl : "https://api" = s := Option.some.inj same
    exact List.all_eq_true.1 (by decide)
  · cases same
  · obtain rfl : "ws://staging" = s := Option.some.inj same
    exact List.all_eq_true.1 (by decide)
  · cases same

theorem exists_loaded_staging : ∃ before tree₁,
    loadConfig staging.without .bare = (.ok before, tree₁) ∧
      tree₁.node? (staging.configFile.place staging.cwd) = none := by
  have ok : (loadConfig staging.without .bare).1.isOk ∧
      ((loadConfig staging.without .bare).2.node?
        (staging.configFile.place staging.cwd)).isNone := by decide +kernel
  generalize loadConfig staging.without .bare = loaded at ok ⊢
  obtain ⟨_ | before, tree₁⟩ := loaded
  · cases ok.1
  · exact ⟨before, tree₁, rfl, Option.isNone_iff_eq_none.1 ok.2⟩

/-- A call of the command keeps what it does not name if, where it saves, no variable and no
spelling changes that; and only then, where the texts that it is given need no quoting. -/
theorem frame_iff {apiUrl : Option String} {offline : Option Bool}
    (plain : env.home.Plain env.cwd) {before : CpipConfig} {tree tree₁ : FileTree Bytes}
    (loaded : loadConfig env.without tree = (.ok before, tree₁)) :
    ((Saves apiUrl offline env (loadToml env env.configFile tree) tree₁ →
        Clean env apiUrl offline (loadToml env env.configFile tree)) →
      Frame env apiUrl offline before tree₁) ∧
    (PlainTexts env apiUrl → (Frame env apiUrl offline before tree₁ ↔
      (Saves apiUrl offline env (loadToml env env.configFile tree) tree₁ →
        Clean env apiUrl offline (loadToml env env.configFile tree)))) :=
  ⟨frame_of_clean plain loaded,
    fun texts => ⟨clean_of_frame plain loaded texts, frame_of_clean plain loaded⟩⟩

theorem frame_iff_staging : ∃ before tree₁,
    loadConfig staging.without .bare = (.ok before, tree₁) ∧
    (Frame staging (some "https://api") none before tree₁ ↔
      (Saves (some "https://api") none staging (loadToml staging staging.configFile .bare) tree₁ →
        Clean staging (some "https://api") none (loadToml staging staging.configFile .bare))) := by
  obtain ⟨before, tree₁, loaded, -⟩ := exists_loaded_staging
  exact ⟨before, tree₁, loaded, (frame_iff plain_staging loaded).2 plainTexts_staging⟩

/-- A URL that is set saves the one from the environment as well. -/
theorem environment_saved : ¬ ∀ (env : CpipEnv) (apiUrl : Option String) (offline : Option Bool)
    (before : CpipConfig) (tree tree₁ : FileTree Bytes), env.home.Plain env.cwd →
      loadConfig env.without tree = (.ok before, tree₁) →
        Frame env apiUrl offline before tree₁ := by
  intro claim
  obtain ⟨before, tree₁, loaded, free⟩ := exists_loaded_staging
  have frame := claim staging (some "https://api") none before .bare tree₁ plain_staging loaded
  have raw : loadToml staging staging.configFile .bare = [] := rfl
  have number {i : ℤ} (h : staging.toml.allows (Nat.toDigits 10 i.natAbs).length) :
      Writable staging (.int i) := by
    intro j same
    obtain rfl : i = j := by simpa using same
    exact h
  have saves : Saves (some "https://api") none staging
      (loadToml staging staging.configFile .bare) tree₁ := by
    refine ⟨fun dir => (nomatch free.symm.trans dir), fun f other => ?_⟩
    rw [raw]
    cases f
    case apiUrl => exact absurd rfl other
    case wsUrl | cdnUrl => exact writable_text staging _
    case timeout | maxSizeMb | wheelTtlDays => exact number (by decide)
    all_goals exact writable_bool staging _
  have clean := clean_of_frame plain_staging loaded plainTexts_staging frame saves
  rw [raw] at clean
  have ws : PyVal.str "ws://localhost:8000/ws" = .str "ws://staging" := clean.ws
  simp at ws

end CpipConfig

end Cpip
