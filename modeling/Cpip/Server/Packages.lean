import Cpip.Client.Resolver
import Cpip.Lib.Routes
import Cpip.Server.RateLimiter

/-!
# The package registry (`server/services/package_service.py`, `server/api/packages.py`)

The registry and the two endpoints that describe packages, with the routes of the server in the
order in which they are declared.  The route of the catalog stands behind the one of single
packages, which takes every request for the catalog.
-/

namespace Cpip

open Routes (Route Segment)

/-! ## Packages -/

/-- A single package layer. -/
structure LayerInfo where
  layerId : String
  url : String
  sha256 : String
  size : ℤ
  contentType : String
  compressed : Bool
  deriving DecidableEq, Repr

/-- `PackageInfo` with all its fields. -/
structure RegisteredPackage extends PackageInfo where
  description : String
  wheelSize : ℤ
  layers : List LayerInfo
  dependencies : List String
  supportedArchitectures : List String
  cloudOnly : Bool
  metadata : List (String × JsonText)

/-- `_REGISTRY`. -/
abbrev CloudRegistry := Dict String RegisteredPackage

def LayerInfo.json (layer : LayerInfo) : JsonText :=
  .obj [("layer_id", .str layer.layerId), ("url", .str layer.url), ("sha256", .str layer.sha256),
    ("size", .int layer.size), ("content_type", .str layer.contentType),
    ("compressed", .bool layer.compressed)]

def optionJson (text : Option String) : JsonText := (text.map JsonText.str).getD .null

namespace RegisteredPackage

/-- The members of the body that describes a package. -/
def members (info : RegisteredPackage) : List (String × JsonText) :=
  [("name", .str info.name), ("version", .str info.version),
    ("description", .str info.description), ("strategy", .str info.strategy.value),
    ("wheel_url", optionJson info.wheelUrl), ("wheel_hash", optionJson info.wheelHash),
    ("wheel_size", .int info.wheelSize), ("layers", .arr (info.layers.map LayerInfo.json)),
    ("dependencies", .arr (info.dependencies.map .str)),
    ("supported_architectures", .arr (info.supportedArchitectures.map .str)),
    ("requires_gpu", .bool info.requiresGpu), ("cloud_only", .bool info.cloudOnly),
    ("metadata", .obj info.metadata)]

/-- `PackageInfo(name=…, version=…, strategy=…, cloud_only=…)`. -/
def plain (name version : String) (strategy : PackageStrategy) (cloudOnly : Bool) :
    RegisteredPackage where
  name := name
  version := version
  strategy := strategy
  wheelUrl := none
  wheelHash := none
  requiresGpu := false
  description := ""
  wheelSize := 0
  layers := []
  dependencies := []
  supportedArchitectures := []
  cloudOnly := cloudOnly
  metadata := []

end RegisteredPackage

/-- `_SEED_PACKAGES`. -/
def seedPackages : List (String × RegisteredPackage) :=
  [("torch", { RegisteredPackage.plain "torch" "2.4.0" .hybrid false with
      description := "PyTorch deep learning framework"
      requiresGpu := true
      supportedArchitectures := ["aarch64", "x86_64"]
      dependencies := ["numpy", "typing_extensions"] }),
    ("tensorflow", { RegisteredPackage.plain "tensorflow" "2.16.0" .cloudExec true with
      description := "TensorFlow ML framework"
      requiresGpu := true
      supportedArchitectures := ["x86_64"]
      dependencies := ["numpy", "protobuf", "grpcio"] }),
    ("opencv-python", { RegisteredPackage.plain "opencv-python" "4.9.0" .cloudWheel false with
      description := "OpenCV computer vision library"
      supportedArchitectures := ["aarch64", "x86_64"]
      dependencies := ["numpy"] }),
    ("scipy", { RegisteredPackage.plain "scipy" "1.13.0" .cloudWheel false with
      description := "Scientific computing library"
      supportedArchitectures := ["aarch64", "x86_64"]
      dependencies := ["numpy"] }),
    ("playwright", { RegisteredPackage.plain "playwright" "1.44.0" .cloudExec true with
      description := "Browser automation"
      supportedArchitectures := ["x86_64"] }),
    ("numpy", { RegisteredPackage.plain "numpy" "1.26.4" .localInstall false with
      description := "Numerical computing"
      supportedArchitectures := ["aarch64", "x86_64"] })]

/-- The registry that the server starts with. -/
def seededRegistry : CloudRegistry :=
  seedPackages.foldl (fun registry e => registry.set e.1 e.2) ∅

namespace PackageService

/-- `get_package`. -/
def getPackage (registry : CloudRegistry) (name arch : String) : RegisteredPackage :=
  match registry.get? name with
  | some info =>
    if arch ∉ info.supportedArchitectures then { info with strategy := .cloudExec } else info
  | none =>
    if name ∉ cloudPreferredPackages then .plain name "latest" .localInstall false
    else .plain name "latest" .cloudExec true

/-- `get_catalog`. -/
def getCatalog (registry : CloudRegistry) : List JsonText :=
  registry.entries.map fun e =>
    .obj [("name", .str e.1), ("version", .str e.2.version),
      ("strategy", .str e.2.strategy.value)]

end PackageService

/-! ## Routes -/

/-- The endpoints of the server; all but two are only named. -/
inductive ApiEndpoint where
  | getPackage
  | getCatalog
  | other (symbol : String)
  deriving DecidableEq, Repr

def packageRoute : Route ApiEndpoint :=
  ⟨"GET", [.lit "", .lit "api", .lit "v1", .lit "packages", .param "name"], .getPackage⟩

def catalogRoute : Route ApiEndpoint :=
  ⟨"GET", [.lit "", .lit "api", .lit "v1", .lit "packages", .lit "catalog"], .getCatalog⟩

/-- The routes of the server, in the order in which they are declared: those of the documentation,
of the included routers, and of the application itself. -/
def routes : List (Route ApiEndpoint) :=
  let v1 (router : String) (segments : List Segment) : List Segment :=
    [.lit "", .lit "api", .lit "v1", .lit router] ++ segments
  [⟨"GET", [.lit "", .lit "openapi.json"], .other "openapi"⟩,
    ⟨"GET", [.lit "", .lit "docs"], .other "swagger_ui_html"⟩,
    ⟨"GET", [.lit "", .lit "docs", .lit "oauth2-redirect"], .other "swagger_ui_redirect"⟩,
    ⟨"GET", [.lit "", .lit "redoc"], .other "redoc_html"⟩,
    ⟨"GET", [.lit "", .lit "health"], .other "health_check"⟩,
    ⟨"POST", v1 "auth" [.lit "login"], .other "login"⟩,
    ⟨"POST", v1 "auth" [.lit "register"], .other "register"⟩,
    ⟨"POST", v1 "auth" [.lit "refresh"], .other "refresh"⟩,
    ⟨"GET", v1 "auth" [.lit "me"], .other "me"⟩,
    packageRoute,
    ⟨"GET", v1 "packages" [.param "name", .lit "wheel"], .other "get_wheel"⟩,
    ⟨"GET", v1 "packages" [.param "name", .lit "layers"], .other "get_layers"⟩,
    ⟨"GET", v1 "packages" [.lit ""], .other "search_packages"⟩,
    catalogRoute,
    ⟨"POST", v1 "builds" [.lit ""], .other "submit_build"⟩,
    ⟨"GET", v1 "builds" [.param "build_id"], .other "get_build_status"⟩,
    ⟨"GET", v1 "builds" [.lit ""], .other "list_builds"⟩,
    ⟨"DELETE", v1 "builds" [.param "build_id"], .other "cancel_build"⟩,
    ⟨"POST", v1 "execute" [.lit ""], .other "execute"⟩,
    ⟨"GET", v1 "execute" [.param "execution_id"], .other "get_execution"⟩,
    ⟨"DELETE", v1 "execute" [.param "execution_id"], .other "cancel_execution"⟩,
    ⟨"POST", v1 "devices" [.lit "register"], .other "register_device"⟩,
    ⟨"GET", [.lit "", .lit ""], .other "root"⟩]

/-- The pieces of a path. -/
def pathPieces (path : String) : List String := (path.toList.splitOn '/').map String.ofList

/-- The server, as far as it answers a request, with the answers of the endpoints that are only
named. -/
structure PackageServer where
  registry : CloudRegistry
  limiter : RateLimiter
  others : ApiEndpoint → List (String × String) → HttpRequest → HttpResponse × RateLimiter

namespace PackageServer

/-- An endpoint under `check_rate_limit`. -/
def limited (srv : PackageServer) (client : RateLimiter.Request) (now : ℚ) (body : JsonText) :
    HttpResponse × RateLimiter :=
  match srv.limiter.checkRateLimit client RateLimiter.defaultLimit now with
  | (.ok _, limiter) => (⟨200, .ok body.loads⟩, limiter)
  | (.error e, limiter) =>
    (⟨e.statusCode, .ok (.dict [(.str "detail", .str e.detail)])⟩, limiter)

/-- The answer to a request of a client. -/
def answer (srv : PackageServer) (client : RateLimiter.Request) (now : ℚ) (r : HttpRequest) :
    HttpResponse × RateLimiter :=
  match Routes.dispatch routes r.method (pathPieces r.url) with
  | none => (⟨404, .ok (.dict [(.str "detail", .str "Not Found")])⟩, srv.limiter)
  | some (.getPackage, params) =>
    srv.limited client now (.obj (PackageService.getPackage srv.registry
      ((params.lookup "name").getD "") ((r.params.lookup "arch").getD "aarch64")).members)
  | some (.getCatalog, _) =>
    srv.limited client now (.obj [("packages", .arr (PackageService.getCatalog srv.registry))])
  | some (endpoint, params) => srv.others endpoint params r

end PackageServer

/-- No request is ever answered by the endpoint of the catalog. -/
theorem dispatch_ne_getCatalog (method : String) (pieces : List String)
    (params : List (String × String)) :
    Routes.dispatch routes method pieces ≠ some (.getCatalog, params) := by
  intro dispatched
  have earlier : packageRoute ∈ routes.take 13 := by simp [routes]
  have method_eq : packageRoute.method = catalogRoute.method := rfl
  have covers : Routes.Covers packageRoute.pattern catalogRoute.pattern := by
    simp [Routes.Covers, packageRoute, catalogRoute]
  have split : routes = routes.take 13 ++ catalogRoute :: routes.drop 14 := rfl
  rw [split, Routes.dispatch_of_covered earlier method_eq covers] at dispatched
  obtain ⟨r, mem, endpoint⟩ := Routes.exists_route_of_dispatch dispatched
  revert endpoint r
  simp [routes, packageRoute]

end Cpip
