import Cpip.Client.Resolver

/-!
# The installer (`client/installer.py`)

`install` resolves the package and tries the strategies of the resolution one after the other, until
one succeeds.  What it prints is left out.
-/

namespace Cpip

namespace PackageClient

variable (env : ClientEnv)

/-! ## Local strategies -/

/-- `pip install` with the target. -/
def pipInstall (target : PipTarget) : ClientProc Bool := do
  let proc ← run env (.pip target)
  return decide (proc.returncode = 0)

/-- What `_install_local` asks pip for. -/
def localTarget (package version : String) : Option PyPath → PipTarget
  | some path => .cached path
  | none => .requirement (if version ≠ "latest" then package ++ "==" ++ version else package)

/-- `_install_local`. -/
def installLocal (package version : String) : ClientProc Bool := do
  let cached ← getWheel env package version
  pipInstall env (localTarget package version cached)

/-- `_install_termux`. -/
def installTermux (package : String) : ClientProc Bool := do
  let proc ← run env (.pkg ("python-" ++ package))
  return decide (proc.returncode = 0)

/-! ## Downloads -/

/-- `url.split("/")[-1].split("?")[0]`. -/
def wheelFilename (url : String) : String :=
  let segment := (url.toList.splitOn '/').getLast?.getD []
  String.ofList ((segment.splitOn '?').head?.getD [])

/-- Where `_download_wheel` writes. -/
def downloadDest (url : String) : PyPath := env.wheelsDir.join (wheelFilename url)

/-- What `_download_wheel` does with an answer: it returns the path when the file could be opened
and was delivered to its end. -/
def receiveWheel (dest : PyPath) (answer : StreamAnswer) (s : PackageClient) :
    Option PyPath × PackageClient :=
  match answer with
  | .refused => (none, s)
  | .served chunks brokenOff =>
    match dest.write env.cwd s.cache.tree chunks.flatten with
    | .error _ => (none, s)
    | .ok tree =>
      (if brokenOff then none else some dest, { s with cache := { s.cache with tree := tree } })

/-- `_download_wheel`; a URL that is no string raises inside it. -/
def downloadWheel (url : PyVal) : ClientProc (Option PyPath) := fun s =>
  match url with
  | .str url =>
    let (path, s') := receiveWheel env (downloadDest env url) (env.stream s.log url)
      { s with log := s.log ++ [.download url] }
    (.ok path, s')
  | _ => (.ok none, s)

/-- The request of `_get_wheel_url`. -/
def wheelUrlRequest (package : String) : HttpRequest where
  method := "GET"
  url := apiV1Prefix ++ "/packages/" ++ package ++ "/wheel"
  params := [("arch", env.architecture), ("python", env.pythonVersion)]
  json := []

/-- `data.get(name)` on what JSON gives. -/
def getField (name : String) : PyVal → Except ClientExc PyVal
  | .dict items => .ok ((PyVal.getStr name items).getD .none)
  | _ => .error (.other "no attribute 'get'")

/-- `_get_wheel_url`. -/
def getWheelUrl (package : String) : ClientProc PyVal :=
  Proc.recover
    (do
      let resp ← request env (wheelUrlRequest env package)
      if resp.statusCode = 200 then
        let data ← Proc.ofExcept resp.json
        Proc.ofExcept (getField "url" data)
      else return .none)
    fun _ => return .none

/-! ## Cloud strategies -/

/-- The URL that the resolution gives for the wheel. -/
def resolvedUrl (res : PackageResolution) : PyVal :=
  match res.info with
  | some info => (info.wheelUrl.map PyVal.str).getD .none
  | none => .none

/-- The URL that `_install_cloud_wheel` downloads from, if it is any. -/
def wheelUrl (package : String) (res : PackageResolution) : ClientProc PyVal :=
  if (resolvedUrl res).truthy then return resolvedUrl res else getWheelUrl env package

/-- The hash that `_install_cloud_wheel` supplies to the cache. -/
def suppliedHash (res : PackageResolution) : String := (res.info.bind PackageInfo.wheelHash).getD ""

/-- The part of `_install_cloud_wheel` that gets the wheel. -/
def fetchWheel (package : String) (res : PackageResolution) : ClientProc (Option PyPath) := do
  let url ← wheelUrl env package res
  if url.truthy then downloadWheel env url else return none

/-- `_install_cloud_wheel`. -/
def installCloudWheel (package version : String) (res : PackageResolution) : ClientProc Bool := do
  match ← fetchWheel env package res with
  | none => return false
  | some wheelPath =>
    let _ ← storeWheel env package version wheelPath (suppliedHash res)
    pipInstall env (.downloaded wheelPath)

/-- The request that `_install_cloud_build` starts with. -/
def buildRequest (package version : String) : HttpRequest where
  method := "POST"
  url := apiV1Prefix ++ "/builds/"
  params := []
  json := [("package_name", package), ("package_version", version),
    ("target_architecture", "aarch64")]

/-- The request for the status of a build. -/
def buildStatusRequest (buildId : PyVal) : HttpRequest where
  method := "GET"
  url := apiV1Prefix ++ "/builds/" ++ env.text.toStr buildId
  params := []
  json := []

/-- What a status answer of a succeeded build leads to: the result, unless the polling goes on. -/
def fetchBuild (package version : String) (status : PyVal) : ClientProc (Option Bool) := do
  let wheelUrl ← Proc.ofExcept (getField "wheel_url" status)
  if wheelUrl.truthy then
    match ← downloadWheel env wheelUrl with
    | none => return none
    | some wheelPath =>
      let _ ← storeWheel env package version wheelPath ""
      return some (← installLocal env package version)
  else return none

/-- One round of the polling loop: the result, unless the polling goes on. -/
def pollBuild (package version : String) (buildId : PyVal) : ClientProc (Option Bool) := do
  let resp ← request env (buildStatusRequest env buildId)
  if resp.statusCode = 200 then
    let data ← Proc.ofExcept resp.json
    let status ← Proc.ofExcept (getField "status" data)
    if status.asStr? = some "succeeded" then fetchBuild env package version data
    else if status.asStr? = some "failed" then return some false
    else return none
  else return none

/-- The polling loop, for at most so many rounds. -/
def pollLoop (package version : String) (buildId : PyVal) : ℕ → ClientProc Bool
  | 0 => return false
  | rounds + 1 => do
    match ← pollBuild env package version buildId with
    | some result => return result
    | none => pollLoop package version buildId rounds

/-- `_install_cloud_build`. -/
def installCloudBuild (package version : String) : ClientProc Bool :=
  Proc.recover
    (do
      let resp ← request env (buildRequest package version)
      if resp.statusCode ∈ [200, 201] then
        let data ← Proc.ofExcept resp.json
        let buildId ← Proc.ofExcept (getField "request_id" data)
        pollLoop env package version buildId 360
      else return false)
    fun _ => return false

/-- `register_cloud_package`. -/
def registerCloudPackage (package : String) (hybrid : Bool) : ClientProc Unit := do
  emit (.register package)
  Proc.modify fun s =>
    { s with cloudPackages := s.cloudPackages.set package { hybrid := hybrid, loaded := false } }

/-- `_setup_cloud_exec`. -/
def setupCloudExec (package : String) : ClientProc Bool := do
  registerCloudPackage package false
  return true

/-- `_setup_hybrid`. -/
def setupHybrid (package : String) : ClientProc Bool := do
  registerCloudPackage package true
  return true

/-! ## Installation -/

/-- `_execute_strategy`. -/
def executeStrategy (package version : String) (res : PackageResolution)
    (strategy : PackageStrategy) : ClientProc Bool := do
  emit (.strategy strategy)
  match strategy with
  | .localInstall => installLocal env package version
  | .termuxPkg => installTermux env package
  | .cloudWheel => installCloudWheel env package version res
  | .cloudBuild => installCloudBuild env package version
  | .cloudExec => setupCloudExec package
  | .hybrid => setupHybrid package

/-- The loop of `install` over the strategies. -/
def tryStrategies (package version : String) (res : PackageResolution) :
    List PackageStrategy → ClientProc Bool
  | [] => Proc.raise (.packageInstall package "All strategies exhausted")
  | strategy :: rest => do
    let success ← Proc.recover (executeStrategy env package version res strategy)
      fun _ => return false
    if success then return true
    else tryStrategies package version res rest

/-- `install`. -/
def install (package version : String) (force : Bool) : ClientProc Bool := do
  let res ← resolve env package version
  if res.strategy = .localInstall ∧ ¬ force ∧ res.reason = "Already installed locally" then
    return true
  else tryStrategies env package version res (res.strategy :: res.fallbackStrategies)

end PackageClient

end Cpip
