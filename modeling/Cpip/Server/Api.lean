import Cpip.Client.Polling
import Cpip.Server.Auth
import Cpip.Server.Builds
import Cpip.Server.Packages

/-!
# The REST server over its life (`server/api/packages.py`, `server/api/builds.py`)

The endpoints that hand out wheels and builds, with what they keep.  Nothing writes the registry and
nothing takes a build off the queue to build it, so whoever asks, and in whatever order, no package
ever gets a wheel and no build ever ends but by a cancellation (`Stalled`).
-/

namespace Cpip

/-- A request as it arrives: from whom, with which bearer token, and when. -/
structure Arrival where
  client : RateLimiter.Request
  credentials : Option String
  now : ℚ
  request : HttpRequest

/-- What the server keeps. -/
structure ApiServer where
  registry : CloudRegistry
  limiter : RateLimiter
  builds : BuildService

/-- What the server relies on: the token library with its configuration, `BuildRequest(**body)`
unless it is rejected, and the endpoints that change neither the registry nor the builds. -/
structure ApiEnv where
  jose : Jose
  auth : AuthConfig
  buildRequest : Arrival → Option BuildRequest
  others : ApiEndpoint → List (String × String) → Arrival → ApiServer → HttpResponse × RateLimiter

/-- An `HTTPException` as an answer. -/
def errorAnswer (status : ℕ) (detail : String) : HttpResponse :=
  ⟨status, .ok (.dict [(.str "detail", .str detail)])⟩

def RequestError.answer : RequestError → HttpResponse
  | .http status detail => errorAnswer status detail
  | .raised _ => ⟨500, .error (.other "Internal Server Error")⟩

/-- The body that describes a build. -/
def BuildResult.json (build : BuildResult) : JsonText :=
  .obj [("request_id", .str build.requestId), ("status", .str build.status.value),
    ("package_name", .str build.packageName), ("package_version", .str build.packageVersion),
    ("wheel_url", optionJson build.wheelUrl), ("wheel_hash", optionJson build.wheelHash),
    ("wheel_size", .int build.wheelSize), ("build_log", .str build.buildLog),
    ("duration_seconds", .float (.finite build.durationSeconds)),
    ("error", optionJson build.error)]

/-- The build was submitted or cancelled, and nothing else happened to it. -/
structure BuildResult.Stalled (build : BuildResult) : Prop where
  status : build.status = .queued ∨ build.status = .cancelled
  wheelUrl : build.wheelUrl = none

/-- `PackageService.get_wheel_url`. -/
def PackageService.getWheelUrl (registry : CloudRegistry) (name : String) : Option String :=
  match registry.get? name with
  | some info => info.wheelUrl.filter (· ≠ "")
  | none => none

namespace ApiServer

variable (env : ApiEnv)

/-! ## Endpoints -/

/-- `check_rate_limit` in front of an endpoint. -/
def checked (srv : ApiServer) (limit : RateLimit) (a : Arrival)
    (next : ApiServer → HttpResponse × ApiServer) : HttpResponse × ApiServer :=
  match srv.limiter.checkRateLimit a.client limit a.now with
  | (.error e, limiter) => (errorAnswer e.statusCode e.detail, { srv with limiter := limiter })
  | (.ok _, limiter) => next { srv with limiter := limiter }

/-- `Depends(require_auth)` in front of an endpoint. -/
def authorized (srv : ApiServer) (a : Arrival) (next : HttpResponse × ApiServer) :
    HttpResponse × ApiServer :=
  match Auth.getCurrentUser env.jose env.auth a.credentials a.now >>= Auth.requireAuth with
  | .error e => (e.answer, srv)
  | .ok _ => next

/-- `get_package`. -/
def getPackage (srv : ApiServer) (a : Arrival) (name : String) : HttpResponse × ApiServer :=
  srv.checked RateLimiter.defaultLimit a fun srv =>
    (⟨200, .ok (JsonText.obj (PackageService.getPackage srv.registry name
      ((a.request.params.lookup "arch").getD "aarch64")).members).loads⟩, srv)

/-- `get_wheel`. -/
def getWheel (srv : ApiServer) (a : Arrival) (name : String) : HttpResponse × ApiServer :=
  srv.checked RateLimiter.defaultLimit a fun srv =>
    match PackageService.getWheelUrl srv.registry name with
    | none => (errorAnswer 404 "No wheel available", srv)
    | some url =>
      (⟨200, .ok (JsonText.obj [("url", .str url), ("package", .str name)]).loads⟩, srv)

/-- `get_catalog`. -/
def getCatalog (srv : ApiServer) (a : Arrival) : HttpResponse × ApiServer :=
  srv.checked RateLimiter.defaultLimit a fun srv =>
    (⟨200, .ok (JsonText.obj [("packages",
      .arr (PackageService.getCatalog srv.registry))]).loads⟩, srv)

/-- `create_build`. -/
def createBuild (srv : ApiServer) (a : Arrival) : HttpResponse × ApiServer :=
  srv.authorized env a
    (match env.buildRequest a with
    | none => (⟨422, .ok .none⟩, srv)
    | some req =>
      srv.checked RateLimiter.buildLimit a fun srv =>
        let (result, builds) := srv.builds.submitBuild req
        (⟨201, .ok result.json.loads⟩, { srv with builds := builds }))

/-- `get_build`. -/
def getBuild (srv : ApiServer) (buildId : String) : HttpResponse × ApiServer :=
  match srv.builds.builds.get? buildId with
  | none => (errorAnswer 404 "Build not found", srv)
  | some build => (⟨200, .ok build.json.loads⟩, srv)

/-- `cancel_build`. -/
def cancelBuild (srv : ApiServer) (a : Arrival) (buildId : String) : HttpResponse × ApiServer :=
  srv.authorized env a
    (match srv.builds.cancelBuild buildId with
    | (false, _) => (errorAnswer 404 "Build not found or already completed", srv)
    | (true, builds) =>
      (⟨200, .ok (.dict [(.str "status", .str "cancelled")])⟩, { srv with builds := builds }))

/-- What an endpoint does. -/
def handle (srv : ApiServer) (a : Arrival) (endpoint : ApiEndpoint)
    (params : List (String × String)) : HttpResponse × ApiServer :=
  if endpoint = .getPackage then srv.getPackage a ((params.lookup "name").getD "")
  else if endpoint = .getCatalog then srv.getCatalog a
  else if endpoint = .other "get_wheel" then srv.getWheel a ((params.lookup "name").getD "")
  else if endpoint = .other "submit_build" then srv.createBuild env a
  else if endpoint = .other "get_build_status" then
    srv.getBuild ((params.lookup "build_id").getD "")
  else if endpoint = .other "cancel_build" then
    srv.cancelBuild env a ((params.lookup "build_id").getD "")
  else
    let (resp, limiter) := env.others endpoint params a srv
    (resp, { srv with limiter := limiter })

/-- The answer to a request, and what the server keeps then. -/
def serve (srv : ApiServer) (a : Arrival) : HttpResponse × ApiServer :=
  match Routes.dispatch routes a.request.method (pathPieces a.request.url) with
  | none => (errorAnswer 404 "Not Found", srv)
  | some (endpoint, params) => srv.handle env a endpoint params

/-- The server when it starts. -/
def started : ApiServer := ⟨seededRegistry, .empty, .empty⟩

/-- Requests come one after the other, from anyone. -/
def step (srv : ApiServer) (a : Arrival) : Option ApiServer := some (srv.serve env a).2

/-! ## What the server never has -/

/-- No package has a wheel, and no build got anywhere. -/
structure Stalled (srv : ApiServer) : Prop where
  registry : srv.registry = seededRegistry
  builds : ∀ id build, srv.builds.builds.get? id = some build → build.Stalled

theorem stalled_started : started.Stalled where
  registry := rfl
  builds _ _ h := nomatch h

variable {env}

theorem Stalled.limited {srv : ApiServer} (h : srv.Stalled) (limiter : RateLimiter) :
    Stalled { srv with limiter := limiter } := ⟨h.registry, h.builds⟩

/-- A request within the limit goes on, and another one is answered with 429. -/
theorem checked_spec {motive : HttpResponse × ApiServer → Prop} (srv : ApiServer)
    (limit : RateLimit) (a : Arrival) {next : ApiServer → HttpResponse × ApiServer}
    (within : ∀ limiter, motive (next { srv with limiter := limiter }))
    (beyond : ∀ limiter detail, motive (errorAnswer 429 detail, { srv with limiter := limiter })) :
    motive (srv.checked limit a next) := by
  unfold checked RateLimiter.checkRateLimit
  split
  · next e limiter refused =>
    split at refused
    · cases refused
    · obtain ⟨same, rfl⟩ := Prod.mk.inj refused
      obtain rfl := Except.error.inj same
      exact beyond _ _
  · next limiter _ => exact within limiter

theorem stalled_checked {srv : ApiServer} (h : srv.Stalled) {limit : RateLimit} {a : Arrival}
    {next : ApiServer → HttpResponse × ApiServer}
    (kept : ∀ srv', srv'.Stalled → (next srv').2.Stalled) :
    (srv.checked limit a next).2.Stalled :=
  checked_spec (motive := fun r => r.2.Stalled) srv limit a
    (fun limiter => kept _ (h.limited limiter)) fun limiter _ => h.limited limiter

theorem stalled_authorized {srv : ApiServer} (h : srv.Stalled) (a : Arrival)
    {next : HttpResponse × ApiServer} (kept : next.2.Stalled) :
    (srv.authorized env a next).2.Stalled := by
  unfold authorized
  split
  · exact h
  · exact kept

theorem stalled_createBuild {srv : ApiServer} (h : srv.Stalled) (a : Arrival) :
    (srv.createBuild env a).2.Stalled := by
  refine stalled_authorized h a ?_
  split
  · exact h
  · next req _ =>
    refine stalled_checked h fun srv' h' => ⟨h'.registry, fun id build found => ?_⟩
    dsimp only [BuildService.submitBuild] at found
    rw [Dict.get?_set] at found
    split_ifs at found
    · obtain rfl := Option.some.inj found
      exact ⟨.inl rfl, rfl⟩
    · exact h'.builds id build found

theorem stalled_cancelBuild {srv : ApiServer} (h : srv.Stalled) (a : Arrival) (buildId : String) :
    (srv.cancelBuild env a buildId).2.Stalled := by
  refine stalled_authorized h a ?_
  unfold BuildService.cancelBuild
  cases found : srv.builds.builds.get? buildId with
  | none => exact h
  | some build =>
    have before := h.builds buildId build found
    dsimp only
    split_ifs
    · exact h
    · refine ⟨h.registry, fun id build' found' => ?_⟩
      dsimp only at found'
      rw [Dict.get?_set] at found'
      split_ifs at found'
      · obtain rfl := Option.some.inj found'
        exact ⟨.inr rfl, before.wheelUrl⟩
      · exact h.builds id build' found'

/-- To ask for a build changes nothing. -/
theorem getBuild_snd (srv : ApiServer) (buildId : String) : (srv.getBuild buildId).2 = srv := by
  unfold getBuild
  split
  · rfl
  · rfl

/-- Whatever the request is, no package gets a wheel by it and no build is done. -/
theorem stalled_serve {srv : ApiServer} (h : srv.Stalled) (a : Arrival) :
    (srv.serve env a).2.Stalled := by
  unfold serve
  split
  · exact h
  · next endpoint params _ =>
    unfold handle
    split_ifs
    · exact stalled_checked h fun _ h' => h'
    · exact stalled_checked h fun _ h' => h'
    · refine stalled_checked h fun srv' h' => ?_
      split
      · exact h'
      · exact h'
    · exact stalled_createBuild h a
    · rw [getBuild_snd]
      exact h
    · exact stalled_cancelBuild h a _
    · exact h.limited _

/-- In every run of the server. -/
theorem stalled_of_run {arrivals : List Arrival} {srv : ApiServer}
    (ran : Machine.run (step env) started arrivals = some srv) : srv.Stalled := by
  refine Machine.invariant_run (I := Stalled) (fun s a s' h next => ?_) stalled_started ran
  obtain rfl := Option.some.inj next
  exact stalled_serve h a

/-! ## Its answers -/

theorem wheelUrl_seeded {name : String} {info : RegisteredPackage}
    (found : seededRegistry.get? name = some info) : info.wheelUrl = none := by
  have none : seededRegistry.entries.all (fun e => e.2.wheelUrl == none) = true := by decide
  have mem : (name, info) ∈ seededRegistry.entries := (Dict.get?_eq_some_iff _ _ _).1 found
  exact eq_of_beq (List.all_eq_true.1 none _ mem)

theorem getWheelUrl_seeded (name : String) :
    PackageService.getWheelUrl seededRegistry name = none := by
  unfold PackageService.getWheelUrl
  split
  · next info found =>
    rw [wheelUrl_seeded found]
    rfl
  · rfl

variable {srv : ApiServer} {a : Arrival} {name : String}

/-- The answer that describes a package. -/
theorem json_getPackage (stalled : srv.Stalled)
    (accepted : (srv.getPackage a name).1.statusCode = 200) :
    ∃ arch, (srv.getPackage a name).1.json =
      .ok (JsonText.obj (PackageService.getPackage seededRegistry name arch).members).loads := by
  revert accepted
  rw [← stalled.registry]
  refine checked_spec (motive := fun r => r.1.statusCode = 200 → ∃ arch, r.1.json =
    .ok (JsonText.obj (PackageService.getPackage srv.registry name arch).members).loads)
    srv _ a (fun limiter _ => ⟨_, rfl⟩) fun limiter detail accepted => ?_
  cases accepted

/-- No wheel is named. -/
theorem statusCode_getWheel (stalled : srv.Stalled) : (srv.getWheel a name).1.statusCode ≠ 200 := by
  refine checked_spec (motive := fun r => r.1.statusCode ≠ 200) srv _ a (fun limiter => ?_)
    fun limiter detail => by simp [errorAnswer]
  rw [stalled.registry, getWheelUrl_seeded]
  simp [errorAnswer]

/-- A build is not accepted without a token, whether or not the server is in debug mode. -/
theorem statusCode_createBuild (anonymous : a.credentials = none) :
    (srv.createBuild env a).1.statusCode = 401 := by
  rw [createBuild, authorized, anonymous]
  cases debug : env.auth.debug with
  | true =>
    have user : Auth.getCurrentUser env.jose env.auth none a.now =
        .ok (Auth.devUser "anonymous" "local") := by
      rw [Auth.getCurrentUser, debug]
      rfl
    rw [user]
    rfl
  | false =>
    have user : Auth.getCurrentUser env.jose env.auth none a.now =
        .error (.http 401 "Not authenticated") := by
      rw [Auth.getCurrentUser, debug]
      rfl
    rw [user]
    rfl

/-- What is said of a build. -/
theorem json_getBuild (stalled : srv.Stalled) (accepted : (srv.getBuild name).1.statusCode = 200) :
    ∃ build : BuildResult, build.Stalled ∧ (srv.getBuild name).1.json = .ok build.json.loads := by
  unfold getBuild at accepted ⊢
  split at accepted
  · cases accepted
  · next build found => exact ⟨build, stalled.builds name build found, rfl⟩

end ApiServer

end Cpip
