import Cpip.Client.Cache
import Cpip.Lib.Proc
import Cpip.Python.Json
import Cpip.Shared.Models

/-!
# Package resolution (`client/resolver.py`)

The client acts on its cache, on the import hooks and on the world outside, which answers requests,
commands and look-ups (`ClientEnv`): every answer may depend on all that the client did before,
which is kept in a log.
-/

namespace Cpip

/-- Why the client raises. -/
inductive ClientExc where
  | file (e : FileError)
  | packageInstall (package reason : String)
  | other (message : String)
  deriving DecidableEq, Repr

structure HttpRequest where
  method : String
  url : String
  params : List (String × String)
  json : List (String × String)
  deriving DecidableEq, Repr

/-- An answer; `resp.json()` may raise. -/
structure HttpResponse where
  statusCode : ℕ
  json : Except ClientExc PyVal

/-- How a download answers: it raises before the file is opened, or it delivers chunks and may break
off after them. -/
inductive StreamAnswer where
  | refused
  | served (chunks : List Bytes) (brokenOff : Bool)

/-- What `pip install` is asked to install: a wheel that was just downloaded, a wheel from the
cache, or a requirement. -/
inductive PipTarget where
  | downloaded (path : PyPath)
  | cached (path : PyPath)
  | requirement (spec : String)
  deriving DecidableEq

def PipTarget.word : PipTarget → String
  | .downloaded path => path.str
  | .cached path => path.str
  | .requirement spec => spec

/-- A command that is run in a subprocess. -/
inductive Command where
  | pip (target : PipTarget)
  | pkg (name : String)
  | apt (name : String)
  deriving DecidableEq

/-- The words of a command, for a Python interpreter. -/
def Command.argv (executable : String) : Command → List String
  | .pip target => [executable, "-m", "pip", "install", "--quiet", target.word]
  | .pkg name => ["pkg", "install", "-y", name]
  | .apt name => ["apt", "list", name]

structure ExecResult where
  returncode : ℤ
  stdout : String

/-- What the client does: it starts a strategy, sends a request, downloads from a URL, runs a
command (with the files as they are then), or registers a package for cloud execution. -/
inductive ClientEvent where
  | strategy (s : PackageStrategy)
  | http (request : HttpRequest)
  | download (url : String)
  | exec (command : Command) (tree : FileTree Bytes)
  | register (package : String)

/-- An entry of `_cloud_packages`. -/
structure CloudPackage where
  hybrid : Bool
  loaded : Bool
  deriving DecidableEq, Repr

/-- The client: its cache, the packages registered with the import hooks, what it did so far, and
how often it read the clock. -/
structure PackageClient where
  cache : CacheManager
  cloudPackages : Dict String CloudPackage
  log : List ClientEvent
  ticks : ℕ

/-- The configuration, the device, and how the world answers. -/
structure ClientEnv extends CacheEnv where
  offlineMode : Bool
  gpuOffload : Bool
  isTermux : Bool
  hasGpu : Bool
  architecture : String
  pythonVersion : String
  executable : String
  /-- `str.lower`. -/
  lower : String → String
  text : PyText
  /-- `PackageInfo(**data)`, unless it raises. -/
  validate : PyVal → Option PackageInfo
  clock : ℕ → ℚ
  findSpec : List ClientEvent → String → Except ClientExc Bool
  installedVersion : List ClientEvent → String → Option String
  http : List ClientEvent → HttpRequest → Except ClientExc HttpResponse
  stream : List ClientEvent → String → StreamAnswer
  exec : List ClientEvent → List String → Except ClientExc ExecResult

def apiV1Prefix : String := "/api/v1"

def cloudPreferredPackages : List String :=
  ["torch", "torchvision", "torchaudio", "tensorflow", "tensorflow-gpu", "jax", "jaxlib",
    "opencv-python", "opencv-contrib-python", "scipy", "playwright", "chromium",
    "llama-cpp-python", "transformers", "diffusers", "triton", "cupy", "dlib", "mediapipe",
    "onnxruntime", "paddlepaddle"]

/-- A step of the client. -/
abbrev ClientProc (α : Type) := Proc PackageClient ClientExc α

namespace PackageClient

variable (env : ClientEnv)

/-! ## What the client does outside -/

def emit (e : ClientEvent) : ClientProc Unit := Proc.modify fun s => { s with log := s.log ++ [e] }

/-- Reads the clock. -/
def now : ClientProc ℚ := fun s => (.ok (env.clock s.ticks), { s with ticks := s.ticks + 1 })

/-- Sends a request and waits for the answer. -/
def request (r : HttpRequest) : ClientProc HttpResponse := fun s =>
  (env.http s.log r, { s with log := s.log ++ [.http r] })

/-- Runs a command to its end. -/
def run (c : Command) : ClientProc ExecResult := fun s =>
  (env.exec s.log (c.argv env.executable), { s with log := s.log ++ [.exec c s.cache.tree] })

/-- An operation of the cache. -/
def withCache {α : Type} (f : CacheManager → Except FileError α × CacheManager) : ClientProc α :=
  fun s => ((f s.cache).1.mapError ClientExc.file, { s with cache := (f s.cache).2 })

def getWheel (package version : String) : ClientProc (Option PyPath) := do
  let t ← now env
  withCache (CacheManager.getWheel env.toCacheEnv package version t)

def storeWheel (package version : String) (source : PyPath) (sha256 : String) :
    ClientProc PyPath := do
  let cachedAt ← now env
  let lastAccessed ← now env
  withCache
    (CacheManager.storeWheel env.toCacheEnv package version source sha256 cachedAt lastAccessed)

/-! ## Resolution -/

/-- The module under which a package is looked up locally. -/
def moduleName (package : String) : String :=
  env.lower (String.ofList (package.toList.map fun c => if c = '-' then '_' else c))

/-- `_is_installed`. -/
def isInstalled (package : String) : ClientProc Bool := fun s =>
  (env.findSpec s.log (moduleName env package), s)

/-- `_has_termux_pkg`. -/
def hasTermuxPkg (package : String) : ClientProc Bool :=
  Proc.recover
    (do
      let r ← run env (.apt ("python-" ++ package))
      return decide (("python-" ++ package).toList <:+: r.stdout.toList))
    fun _ => return false

/-- The request of `_query_cloud`. -/
def packageRequest (package version : String) : HttpRequest where
  method := "GET"
  url := apiV1Prefix ++ "/packages/" ++ package
  params := [("arch", env.architecture), ("python", env.pythonVersion)] ++
    if version ≠ "latest" then [("version", version)] else []
  json := []

/-- `_query_cloud`. -/
def queryCloud (package version : String) : ClientProc (Option PackageInfo) :=
  Proc.recover
    (do
      let resp ← request env (packageRequest env package version)
      if resp.statusCode = 200 then
        let data ← Proc.ofExcept resp.json
        return env.validate data
      else return none)
    fun _ => return none

/-- The strategy that `_cloud_resolution` chooses. -/
def cloudStrategy (info : PackageInfo) : PackageStrategy :=
  if info.requiresGpu ∧ ¬ env.hasGpu ∧ env.gpuOffload then .hybrid else info.strategy

/-- `_cloud_resolution`. -/
def cloudResolution (package version : String) (info : PackageInfo) : PackageResolution where
  package := package
  version := if info.version ≠ "" then info.version else version
  strategy := cloudStrategy env info
  info := some info
  fallbackStrategies :=
    [.cloudExec, .cloudBuild].filter fun s => s ≠ cloudStrategy env info
  reason := "Cloud registry: " ++ (cloudStrategy env info).value

/-- The resolution of a package that is installed. -/
def installedResolution (package version : String) (installed : Option String) :
    PackageResolution where
  package := package
  version := (installed.filter (· ≠ "")).getD version
  strategy := .localInstall
  info := none
  fallbackStrategies := []
  reason := "Already installed locally"

/-- The resolution of a package that is in the local cache. -/
def cachedResolution (package version : String) : PackageResolution where
  package := package
  version := version
  strategy := .localInstall
  info := none
  fallbackStrategies := []
  reason := "Found in local cache"

/-- Whether the package is available as a Termux package here. -/
def termuxAvailable (package : String) : ClientProc Bool :=
  if env.isTermux then hasTermuxPkg env package else return false

/-- What the registry says of the package, unless the client is offline. -/
def registryInfo (package version : String) : ClientProc (Option PackageInfo) :=
  if env.offlineMode then return none else queryCloud env package version

/-- The end of `resolve`, when the registry says nothing of the package. -/
def localResolution (package version : String) : ClientProc PackageResolution := do
  let termux ← termuxAvailable env package
  if termux then
    return {
      package := package
      version := version
      strategy := .termuxPkg
      info := none
      fallbackStrategies := []
      reason := "Available as Termux package" }
  else if package ∈ cloudPreferredPackages then
    return {
      package := package
      version := version
      strategy := .cloudExec
      info := none
      fallbackStrategies := [.cloudBuild]
      reason := "Heavy package — cloud execution recommended" }
  else
    return {
      package := package
      version := version
      strategy := .localInstall
      info := none
      fallbackStrategies := [.cloudWheel, .cloudBuild, .cloudExec]
      reason := "Attempting local install with cloud fallback" }

/-- `_installed_version`. -/
def installedVersion (package : String) : ClientProc (Option String) := fun s =>
  (.ok (env.installedVersion s.log package), s)

/-- `resolve`. -/
def resolve (package version : String) : ClientProc PackageResolution := do
  let installed ← isInstalled env package
  if installed then
    let v ← installedVersion env package
    return installedResolution package version v
  let cached ← getWheel env package version
  if cached.isSome then
    return cachedResolution package version
  match ← registryInfo env package version with
  | some info => return cloudResolution env package version info
  | none => localResolution env package version

/-! ## How a resolution goes -/

variable {env} {p v : String} {s : PackageClient}

/-- How a resolution goes: with the answer of each look-up, what it comes to and leaves. -/
inductive Resolution (env : ClientEnv) (p v : String) (s : PackageClient) :
    Except ClientExc PackageResolution × PackageClient → Prop where
  | unknown (e : ClientExc) : env.findSpec s.log (moduleName env p) = .error e →
    Resolution env p v s (.error e, s)
  | installed (version : Option String) : env.findSpec s.log (moduleName env p) = .ok true →
    Resolution env p v s (.ok (installedResolution p v version), s)
  | failed (e : ClientExc) (s₁ : PackageClient) :
    env.findSpec s.log (moduleName env p) = .ok false → getWheel env p v s = (.error e, s₁) →
    Resolution env p v s (.error e, s₁)
  | cached (path : PyPath) (s₁ : PackageClient) :
    env.findSpec s.log (moduleName env p) = .ok false → getWheel env p v s = (.ok (some path), s₁) →
    Resolution env p v s (.ok (cachedResolution p v), s₁)
  | registry (info : PackageInfo) (s₁ s₂ : PackageClient) :
    env.findSpec s.log (moduleName env p) = .ok false → getWheel env p v s = (.ok none, s₁) →
    registryInfo env p v s₁ = (.ok (some info), s₂) →
    Resolution env p v s (.ok (cloudResolution env p v info), s₂)
  | unlisted (s₁ s₂ : PackageClient) :
    env.findSpec s.log (moduleName env p) = .ok false → getWheel env p v s = (.ok none, s₁) →
    registryInfo env p v s₁ = (.ok none, s₂) →
    Resolution env p v s (localResolution env p v s₂)

/-- What the registry says is asked without raising. -/
theorem exists_registryInfo (env : ClientEnv) (p v : String) (s : PackageClient) :
    ∃ info s', registryInfo env p v s = (.ok info, s') := by
  unfold registryInfo
  split
  · exact ⟨none, s, rfl⟩
  · unfold queryCloud Proc.recover
    split
    · next info s' _ => exact ⟨info, s', rfl⟩
    · next s' _ => exact ⟨none, s', rfl⟩

theorem resolve_resolution (env : ClientEnv) (p v : String) (s : PackageClient) :
    Resolution env p v s (resolve env p v s) := by
  have looked : isInstalled env p s = (env.findSpec s.log (moduleName env p), s) := rfl
  unfold resolve
  cases spec : env.findSpec s.log (moduleName env p) with
  | error e =>
    rw [spec] at looked
    rw [Proc.bind_of_error looked]
    exact .unknown e spec
  | ok installed =>
    rw [spec] at looked
    rw [Proc.bind_of_ok looked]
    cases installed with
    | true => exact .installed (env.installedVersion s.log p) spec
    | false =>
      rw [if_neg (by simp)]
      cases got : getWheel env p v s with
      | mk answer s₁ =>
        cases answer with
        | error e =>
          rw [Proc.bind_of_error got]
          exact .failed e s₁ spec got
        | ok found =>
          rw [Proc.bind_of_ok got]
          cases found with
          | some path => exact .cached path s₁ spec got
          | none =>
            obtain ⟨info, s₂, asked⟩ := exists_registryInfo env p v s₁
            rw [if_neg (by simp), Proc.bind_of_ok asked]
            cases info with
            | some info => exact .registry info s₁ s₂ spec got asked
            | none => exact .unlisted s₁ s₂ spec got asked

end PackageClient

end Cpip
