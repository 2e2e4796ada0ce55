import Cpip.Client.CacheHit
import Cpip.Client.WheelHash
import Cpip.Server.Api

/-!
# Installing against the server

The installer, when what answers its requests is the server of this repository, whatever other
clients do in between.  The server never names a wheel and refuses every build that the installer
requests, so nothing is downloaded; what the registry describes is installed by pip all the same, or
registered for cloud execution.
-/

namespace Cpip

/-! ## Requests on their way -/

/-- The text is a piece of a URL that is sent as it stands: it starts with a letter or a digit, and
no character of it is escaped. -/
def IsUrlPiece (s : String) : Prop :=
  s.toList.head?.any Char.isAlphanum = true ∧
    (s.toList.all fun c => c.isAlphanum || "-._~".toList.contains c) = true

instance (s : String) : Decidable (IsUrlPiece s) := inferInstanceAs (Decidable (_ ∧ _))

theorem IsUrlPiece.ne_empty {s : String} (h : IsUrlPiece s) : s ≠ "" := by
  rintro rfl
  exact absurd h.1 (by decide)

theorem IsUrlPiece.no_slash {s : String} (h : IsUrlPiece s) : '/' ∉ s.toList := fun mem =>
  absurd (List.all_eq_true.1 h.2 '/' mem) (by decide)

theorem pathPieces_of_toList {url : String} {pieces : List String} (nonempty : pieces ≠ [])
    (whole : ∀ piece ∈ pieces, '/' ∉ piece.toList)
    (joined : url.toList = ['/'].intercalate (pieces.map String.toList)) :
    pathPieces url = pieces := by
  unfold pathPieces
  rw [joined, List.splitOn_intercalate]
  · rw [List.map_map]
    exact List.map_id'' (fun piece => String.ofList_toList) pieces
  · exact List.forall_mem_map.2 whole
  · simpa using nonempty

section Dispatch

variable {p : String} (piece : IsUrlPiece p)

include piece

theorem dispatch_package :
    Routes.dispatch routes "GET" (pathPieces (apiV1Prefix ++ "/packages/" ++ p)) =
      some (.getPackage, [("name", p)]) := by
  rw [@pathPieces_of_toList _ ["", "api", "v1", "packages", p] (by simp)]
  · simp [Routes.dispatch, routes, packageRoute, Routes.Route.accept, Routes.matchPath,
      piece.ne_empty]
  · simp [piece.no_slash]
  · simp [apiV1Prefix, List.intercalate]

theorem dispatch_wheel :
    Routes.dispatch routes "GET" (pathPieces (apiV1Prefix ++ "/packages/" ++ p ++ "/wheel")) =
      some (.other "get_wheel", [("name", p)]) := by
  rw [@pathPieces_of_toList _ ["", "api", "v1", "packages", p, "wheel"] (by simp)]
  · simp [Routes.dispatch, routes, packageRoute, catalogRoute, Routes.Route.accept,
      Routes.matchPath, piece.ne_empty]
  · simp [piece.no_slash]
  · simp [apiV1Prefix, List.intercalate]

theorem dispatch_buildStatus :
    Routes.dispatch routes "GET" (pathPieces (apiV1Prefix ++ "/builds/" ++ p)) =
      some (.other "get_build_status", [("build_id", p)]) := by
  rw [@pathPieces_of_toList _ ["", "api", "v1", "builds", p] (by simp)]
  · simp [Routes.dispatch, routes, packageRoute, catalogRoute, Routes.Route.accept,
      Routes.matchPath, piece.ne_empty]
  · simp [piece.no_slash]
  · simp [apiV1Prefix, List.intercalate]

end Dispatch

theorem dispatch_createBuild :
    Routes.dispatch routes "POST" (pathPieces (apiV1Prefix ++ "/builds/")) =
      some (.other "submit_build", []) := by
  decide +kernel

/-! ## What the server answers -/

section Answers

variable {api : ApiEnv} {srv : ApiServer} {a : Arrival} {p : String} (piece : IsUrlPiece p)

include piece

theorem serve_package (get : a.request.method = "GET")
    (url : a.request.url = apiV1Prefix ++ "/packages/" ++ p) :
    srv.serve api a = srv.getPackage a p := by
  rw [ApiServer.serve, get, url, dispatch_package piece]
  rfl

theorem serve_wheel (get : a.request.method = "GET")
    (url : a.request.url = apiV1Prefix ++ "/packages/" ++ p ++ "/wheel") :
    srv.serve api a = srv.getWheel a p := by
  rw [ApiServer.serve, get, url, dispatch_wheel piece]
  rfl

theorem serve_buildStatus (get : a.request.method = "GET")
    (url : a.request.url = apiV1Prefix ++ "/builds/" ++ p) :
    srv.serve api a = srv.getBuild p := by
  rw [ApiServer.serve, get, url, dispatch_buildStatus piece]
  rfl

omit piece

theorem serve_createBuild (post : a.request.method = "POST")
    (url : a.request.url = apiV1Prefix ++ "/builds/") :
    srv.serve api a = srv.createBuild api a := by
  rw [ApiServer.serve, post, url, dispatch_createBuild]
  rfl

end Answers

/-- The event is a download. -/
def ClientEvent.IsDownload : ClientEvent → Prop
  | .download _ => True
  | _ => False

namespace PackageClient

open CacheManager (Descends descends_getWheel)

/-- The requests of the client are answered by the server in the course of a run, if they are
answered at all.  Only the requests of the resolver carry a token, and none of them is a POST. -/
structure Hosted (env : ClientEnv) (api : ApiEnv) : Prop where
  answered : ∀ log r resp, env.http log r = .ok resp → ∃ arrivals srv a,
    Machine.run (ApiServer.step api) ApiServer.started arrivals = some srv ∧ a.request = r ∧
      (r.method = "POST" → a.credentials = none) ∧ resp = (srv.serve api a).1
  validated : ∀ info : RegisteredPackage,
    env.validate (JsonText.obj info.members).loads = some info.toPackageInfo

variable {env : ClientEnv} {api : ApiEnv} {p v : String} {s₀ s s' : PackageClient}

/-! ## What the client is told -/

theorem Hosted.exists_serve (hosted : Hosted env api) {log : List ClientEvent} {r : HttpRequest}
    {resp : HttpResponse} (told : env.http log r = .ok resp) : ∃ srv a, srv.Stalled ∧
      a.request = r ∧ (r.method = "POST" → a.credentials = none) ∧
      resp = (ApiServer.serve api srv a).1 := by
  obtain ⟨arrivals, srv, a, ran, request, anonymous, same⟩ := hosted.answered log r resp told
  exact ⟨srv, a, ApiServer.stalled_of_run ran, request, anonymous, same⟩

/-- What the registry says of a package is what it was seeded with. -/
theorem info_of_queryCloud (hosted : Hosted env api) (piece : IsUrlPiece p)
    {info : PackageInfo} (told : queryCloud env p v s = (.ok (some info), s')) :
    ∃ arch, info = (PackageService.getPackage seededRegistry p arch).toPackageInfo := by
  have body := Proc.eq_ok_of_recover told fun e s₁ h => by cases h
  obtain ⟨resp, s₁, asked, body⟩ := Proc.exists_of_bind_eq_ok body
  split_ifs at body with accepted
  · obtain ⟨data, s₂, read, body⟩ := Proc.exists_of_bind_eq_ok body
    have read : resp.json = .ok data := (Prod.mk.inj read).1
    have valid : env.validate data = some info := Proc.eq_of_pure_eq_ok body
    obtain ⟨srv, a, stalled, request, -, same⟩ := hosted.exists_serve (Prod.mk.inj asked).1
    have served : srv.serve api a = srv.getPackage a p :=
      serve_package piece (by rw [request]; rfl) (by rw [request]; rfl)
    rw [served] at same
    subst same
    obtain ⟨arch, json⟩ := ApiServer.json_getPackage stalled accepted
    obtain rfl := Except.ok.inj (read.symm.trans json)
    rw [hosted.validated] at valid
    exact ⟨arch, (Option.some.inj valid).symm⟩
  · cases Proc.eq_of_pure_eq_ok body

theorem wheelUrl_getPackage (name arch : String) :
    (PackageService.getPackage seededRegistry name arch).wheelUrl = none := by
  unfold PackageService.getPackage
  split
  · next info found =>
    have none := ApiServer.wheelUrl_seeded found
    split_ifs
    · exact none
    · exact none
  · split_ifs
    · rfl
    · rfl

/-- The client after a request. -/
def sent (r : HttpRequest) (s : PackageClient) : PackageClient :=
  { s with log := s.log ++ [.http r] }

/-- No URL is found for a wheel. -/
theorem getWheelUrl_hosted (hosted : Hosted env api) (piece : IsUrlPiece p) (s : PackageClient) :
    getWheelUrl env p s = (.ok .none, sent (wheelUrlRequest env p) s) := by
  unfold getWheelUrl Proc.recover
  rw [Proc.bind_apply]
  have asked : request env (wheelUrlRequest env p) s =
      (env.http s.log (wheelUrlRequest env p), sent (wheelUrlRequest env p) s) := rfl
  rw [asked]
  cases told : env.http s.log (wheelUrlRequest env p) with
  | error e => rfl
  | ok resp =>
    obtain ⟨srv, a, stalled, request, -, rfl⟩ := hosted.exists_serve told
    have served : srv.serve api a = srv.getWheel a p :=
      serve_wheel piece (by rw [request]; rfl) (by rw [request]; rfl)
    have refused : (srv.serve api a).1.statusCode ≠ 200 := by
      rw [served]
      exact ApiServer.statusCode_getWheel stalled
    dsimp only
    rw [if_neg refused]
    rfl

/-- Without a URL from the registry there is no wheel. -/
theorem installCloudWheel_hosted (hosted : Hosted env api) (piece : IsUrlPiece p)
    {res : PackageResolution} (unnamed : ∀ info ∈ res.info, info.wheelUrl = none)
    (s : PackageClient) :
    installCloudWheel env p v res s = (.ok false, sent (wheelUrlRequest env p) s) := by
  have url : resolvedUrl res = .none := by
    unfold resolvedUrl
    cases info : res.info with
    | none => rfl
    | some info' =>
      dsimp only
      rw [unnamed info' info]
      rfl
  have fetched : fetchWheel env p res s = (.ok none, sent (wheelUrlRequest env p) s) := by
    unfold fetchWheel wheelUrl
    rw [url, if_neg (by decide), Proc.bind_of_ok (getWheelUrl_hosted hosted piece s),
      if_neg (by decide)]
    rfl
  rw [installCloudWheel, Proc.bind_of_ok fetched]
  rfl

/-- The build that the installer requests is refused. -/
theorem installCloudBuild_hosted (hosted : Hosted env api) (s : PackageClient) :
    installCloudBuild env p v s = (.ok false, sent (buildRequest p v) s) := by
  unfold installCloudBuild Proc.recover
  rw [Proc.bind_apply]
  have asked : request env (buildRequest p v) s =
      (env.http s.log (buildRequest p v), sent (buildRequest p v) s) := rfl
  rw [asked]
  cases told : env.http s.log (buildRequest p v) with
  | error e => rfl
  | ok resp =>
    obtain ⟨srv, a, -, request, anonymous, rfl⟩ := hosted.exists_serve told
    have served : srv.serve api a = srv.createBuild api a :=
      serve_createBuild (by rw [request]; rfl) (by rw [request]; rfl)
    have refused : (srv.serve api a).1.statusCode = 401 := by
      rw [served]
      exact ApiServer.statusCode_createBuild (anonymous rfl)
    dsimp only
    rw [refused, if_neg (by decide)]
    rfl

/-! ## Nothing is delivered -/

/-- Since `s₀` nothing was downloaded, and no wheel came into the cache. -/
def Undelivered (s₀ s : PackageClient) : Prop :=
  Since (fun e => ¬ e.IsDownload) s₀ s ∧ Descends s.cache.index s₀.cache.index

theorem Undelivered.refl (s : PackageClient) : Undelivered s s := ⟨Since.refl s, .refl _⟩

theorem Undelivered.snoc (h : Undelivered s₀ s) {e : ClientEvent} (quiet : ¬ e.IsDownload)
    (log : s'.log = s.log ++ [e]) (cache : s'.cache = s.cache) : Undelivered s₀ s' :=
  ⟨h.1.snoc quiet log, cache ▸ h.2⟩

theorem keeps_undelivered_run (c : Command) : Proc.Keeps (Undelivered s₀) (run env c) :=
  fun _ h => h.snoc id rfl rfl

theorem keeps_undelivered_request (r : HttpRequest) :
    Proc.Keeps (Undelivered s₀) (request env r) := fun _ h => h.snoc id rfl rfl

theorem keeps_undelivered_getWheel (p v : String) :
    Proc.Keeps (Undelivered s₀) (getWheel env p v) := by
  intro s h
  refine ⟨keeps_since_getWheel p v s h.1, ?_⟩
  rw [getWheel_eq]
  exact (descends_getWheel env.toCacheEnv p v _ s.cache).trans h.2

theorem keeps_undelivered_registerCloudPackage (p : String) (hybrid : Bool) :
    Proc.Keeps (Undelivered s₀) (registerCloudPackage p hybrid) := fun _ h => h.snoc id rfl rfl

theorem keeps_undelivered_resolve (p v : String) :
    Proc.Keeps (Undelivered s₀) (resolve env p v) := by
  refine Proc.Keeps.bind (fun _ h => h) fun installed => Proc.Keeps.ite ?_ ?_
  · exact Proc.Keeps.bind (fun _ h => h) fun _ => Proc.keeps_pure _
  · refine (keeps_undelivered_getWheel p v).bind fun cached => (Proc.keeps_pure _).ite ?_
    have asked : Proc.Keeps (Undelivered s₀) (queryCloud env p v) := by
      refine Proc.Keeps.recover ?_ fun _ => Proc.keeps_pure _
      refine (keeps_undelivered_request _).bind fun resp => Proc.Keeps.ite ?_ (Proc.keeps_pure _)
      exact (Proc.keeps_ofExcept _).bind fun _ => Proc.keeps_pure _
    refine Proc.Keeps.bind ((Proc.keeps_pure _).ite asked) fun info => ?_
    cases info with
    | some info => exact Proc.keeps_pure _
    | none =>
      have lists : Proc.Keeps (Undelivered s₀) (hasTermuxPkg env p) :=
        ((keeps_undelivered_run _).bind fun _ => Proc.keeps_pure _).recover
          fun _ => Proc.keeps_pure _
      refine Proc.Keeps.bind (lists.ite (Proc.keeps_pure _)) fun _ => ?_
      exact (Proc.keeps_pure _).ite ((Proc.keeps_pure _).ite (Proc.keeps_pure _))

section Strategies

variable (hosted : Hosted env api) (piece : IsUrlPiece p) {res : PackageResolution}
  (unnamed : ∀ info ∈ res.info, info.wheelUrl = none)

include hosted piece unnamed

/-- No strategy delivers anything. -/
theorem keeps_undelivered_executeStrategy (v : String) (strategy : PackageStrategy) :
    Proc.Keeps (Undelivered s₀) (executeStrategy env p v res strategy) := by
  refine Proc.Keeps.bind (fun _ h => h.snoc id rfl rfl) fun _ => ?_
  cases strategy with
  | localInstall =>
    refine (keeps_undelivered_getWheel p v).bind fun _ => ?_
    exact (keeps_undelivered_run _).bind fun _ => Proc.keeps_pure _
  | termuxPkg => exact (keeps_undelivered_run _).bind fun _ => Proc.keeps_pure _
  | cloudWheel =>
    intro s h
    dsimp only
    rw [installCloudWheel_hosted hosted piece unnamed]
    exact h.snoc id rfl rfl
  | cloudBuild =>
    intro s h
    dsimp only
    rw [installCloudBuild_hosted hosted]
    exact h.snoc id rfl rfl
  | cloudExec =>
    exact (keeps_undelivered_registerCloudPackage p false).bind fun _ => Proc.keeps_pure _
  | hybrid =>
    exact (keeps_undelivered_registerCloudPackage p true).bind fun _ => Proc.keeps_pure _

theorem keeps_undelivered_tryStrategies (v : String) (strategies : List PackageStrategy) :
    Proc.Keeps (Undelivered s₀) (tryStrategies env p v res strategies) := by
  induction strategies with
  | nil => exact Proc.keeps_raise _
  | cons strategy rest ih =>
    refine Proc.Keeps.bind ?_ fun success => (Proc.keeps_pure _).ite ih
    exact (keeps_undelivered_executeStrategy hosted piece unnamed v strategy).recover fun _ =>
      Proc.keeps_pure _

end Strategies

/-- What the registry says of the package, if anything, names no wheel. -/
theorem unnamed_of_resolve (hosted : Hosted env api) (piece : IsUrlPiece p)
    {res : PackageResolution} (resolved : resolve env p v s = (.ok res, s')) :
    ∀ info ∈ res.info, info.wheelUrl = none := by
  intro info some
  have resolution := resolve_resolution env p v s
  rw [resolved] at resolution
  generalize answer : (Except.ok res, s') = r at resolution
  cases resolution with
  | unknown e spec => cases answer
  | failed e s₁ spec got => cases answer
  | installed version spec =>
    cases answer
    cases some
  | cached path s₁ spec got =>
    cases answer
    cases some
  | registry found s₁ s₂ spec got asked =>
    obtain ⟨same, rfl⟩ := Prod.mk.inj answer
    obtain rfl := Except.ok.inj same
    obtain rfl := Option.some.inj some
    unfold registryInfo at asked
    split_ifs at asked
    · cases asked
    · obtain ⟨arch, rfl⟩ := info_of_queryCloud hosted piece asked
      exact wheelUrl_getPackage p arch
  | unlisted s₁ s₂ spec got asked =>
    rw [info_of_localResolution answer.symm] at some
    cases some

theorem undelivered_install (hosted : Hosted env api) (piece : IsUrlPiece p) (v : String)
    (force : Bool) (s : PackageClient) : Undelivered s (install env p v force s).2 := by
  have started : Undelivered s (resolve env p v s).2 :=
    keeps_undelivered_resolve p v s (Undelivered.refl s)
  unfold install
  cases resolved : resolve env p v s with
  | mk result s' =>
    rw [resolved] at started
    cases result with
    | error e =>
      rw [Proc.bind_of_error resolved]
      exact started
    | ok res =>
      rw [Proc.bind_of_ok resolved]
      have unnamed := unnamed_of_resolve hosted piece resolved
      exact (Proc.keeps_pure true).ite
        (keeps_undelivered_tryStrategies hosted piece unnamed v _) s' started

/-! ## What is listed is provided -/

/-- The package is neither installed nor cached, and the registry answers when it is asked. -/
def Listed (env : ClientEnv) (p v : String) (s : PackageClient) : Prop :=
  env.findSpec s.log (moduleName env p) = .ok false ∧ ∃ s₁ info s₂,
    getWheel env p v s = (.ok none, s₁) ∧ registryInfo env p v s₁ = (.ok (some info), s₂)

/-- In between, `pip` was run and ended well. -/
def PipRan (env : ClientEnv) (s s' : PackageClient) : Prop :=
  ∃ before target tree proc, s.log <+: before ∧ before ++ [.exec (.pip target) tree] <+: s'.log ∧
    env.exec before ((Command.pip target).argv env.executable) = .ok proc ∧ proc.returncode = 0

/-- What was registered for cloud execution after `pip` failed, or instead of it. -/
def Provided (env : ClientEnv) (p : String) (s : PackageClient)
    (r : Except ClientExc Bool × PackageClient) : Prop :=
  r.1 = .ok true ∧ ((∃ package, r.2.cloudPackages.get? p = some package) ∨ PipRan env s r.2)

theorem provided_setUp (hybrid : Bool) (s' : PackageClient) : Provided env p s
    (.ok true, ((registerCloudPackage p hybrid) s').2) :=
  ⟨rfl, .inl ⟨_, Dict.get?_set_self _ _ _⟩⟩

theorem provided_tryStrategies_cloudExec {res : PackageResolution}
    (rest : List PackageStrategy) (s' : PackageClient) :
    Provided env p s (tryStrategies env p v res (.cloudExec :: rest) s') := by
  rw [tryStrategies_cons]
  exact provided_setUp false _

/-- The registry was seeded with packages for pip, for cloud execution, with a wheel, and for
both. -/
theorem strategy_getPackage (name arch : String) :
    (PackageService.getPackage seededRegistry name arch).strategy ∈
      [PackageStrategy.localInstall, .cloudWheel, .cloudExec, .hybrid] := by
  unfold PackageService.getPackage
  split
  · next info found =>
    have seeded : seededRegistry.entries.all (fun e => decide (e.2.strategy ∈
      [PackageStrategy.localInstall, .cloudWheel, .cloudExec, .hybrid])) = true := by decide
    have mem : (name, info) ∈ seededRegistry.entries := (Dict.get?_eq_some_iff _ _ _).1 found
    split_ifs
    · exact of_decide_eq_true (List.all_eq_true.1 seeded _ mem)
    · simp
  · split_ifs
    · simp [RegisteredPackage.plain]
    · simp [RegisteredPackage.plain]

theorem strategy_cloudResolution (info : PackageInfo) (seeded : info.strategy ∈
    [PackageStrategy.localInstall, .cloudWheel, .cloudExec, .hybrid]) :
    cloudStrategy env info ∈ [PackageStrategy.localInstall, .cloudWheel, .cloudExec, .hybrid] := by
  unfold cloudStrategy
  split_ifs
  · simp
  · exact seeded

/-- After pip succeeds it is provided, and otherwise it is set up for the cloud. -/
theorem provided_localInstall {res : PackageResolution} (rest : List PackageStrategy)
    (s' : PackageClient) (later : s.log <+: s'.log) : Provided env p s
      (tryStrategies env p v res (.localInstall :: .cloudExec :: rest) s') := by
  rw [tryStrategies_cons]
  have ran : executeStrategy env p v res .localInstall s' =
    installLocal env p v { s' with log := s'.log ++ [.strategy .localInstall] } := rfl
  cases tried : executeStrategy env p v res .localInstall s' with
  | mk result s₂ =>
    cases result with
    | error e => exact provided_tryStrategies_cloudExec rest s₂
    | ok success =>
      cases success with
      | false => exact provided_tryStrategies_cloudExec rest s₂
      | true =>
        refine ⟨rfl, .inr ?_⟩
        rw [ran] at tried
        obtain ⟨cached, s₁, looked, piped⟩ := Proc.exists_of_bind_eq_ok tried
        obtain ⟨proc, s₃, executed, ended⟩ := Proc.exists_of_bind_eq_ok piped
        have zero : proc.returncode = 0 := of_decide_eq_true (Proc.eq_of_pure_eq_ok ended)
        obtain ⟨answer, rfl⟩ := Prod.mk.inj executed
        obtain rfl := (Prod.mk.inj ended).2
        have log : s₁.log = s'.log ++ [.strategy .localInstall] := by
          rw [getWheel_eq] at looked
          rw [← (Prod.mk.inj looked).2]
        refine ⟨s₁.log, _, s₁.cache.tree, proc, ?_, List.prefix_refl _, answer, zero⟩
        rw [log]
        exact later.trans (List.prefix_append _ _)

/-- What the registry describes is provided. -/
theorem provided_install (hosted : Hosted env api) (piece : IsUrlPiece p) (force : Bool)
    (listed : Listed env p v s) : Provided env p s (install env p v force s) := by
  obtain ⟨spec, s₁, info, s₂, looked, asked⟩ := listed
  have resolved : resolve env p v s = (.ok (cloudResolution env p v info), s₂) := by
    unfold resolve
    rw [Proc.bind_of_ok (show isInstalled env p s = (.ok false, s) by rw [isInstalled, spec]),
      if_neg (by decide), Proc.bind_of_ok looked, if_neg (by decide), Proc.bind_of_ok asked]
    rfl
  have told : queryCloud env p v s₁ = (.ok (some info), s₂) := by
    unfold registryInfo at asked
    split_ifs at asked
    · cases asked
    · exact asked
  obtain ⟨arch, seeded⟩ := info_of_queryCloud hosted piece told
  have unnamed := unnamed_of_resolve hosted piece resolved
  have later : s.log <+: s₂.log := by
    have since := (@keeps_undelivered_resolve env _ p v s (.refl s)).1
    rw [resolved] at since
    obtain ⟨events, log, -⟩ := since
    exact ⟨events, log.symm⟩
  have other : (cloudResolution env p v info).reason ≠ "Already installed locally" := by
    show "Cloud registry: " ++ (cloudStrategy env info).value ≠ _
    cases cloudStrategy env info <;> decide
  have kind := @strategy_cloudResolution env info (seeded ▸ strategy_getPackage p arch)
  have strategies : (cloudResolution env p v info).strategy ::
      (cloudResolution env p v info).fallbackStrategies = cloudStrategy env info ::
        [.cloudExec, .cloudBuild].filter fun st => decide (st ≠ cloudStrategy env info) := rfl
  unfold install
  rw [Proc.bind_of_ok resolved, if_neg fun h => other h.2.2, strategies]
  simp only [List.mem_cons, List.not_mem_nil, or_false] at kind
  rcases kind with h | h | h | h
  · rw [h]
    exact provided_localInstall [.cloudBuild] s₂ later
  · rw [h, tryStrategies_cons, show executeStrategy env p v (cloudResolution env p v info)
      .cloudWheel s₂ = _ from installCloudWheel_hosted hosted piece unnamed _]
    exact provided_tryStrategies_cloudExec [.cloudBuild] _
  · rw [h]
    exact provided_tryStrategies_cloudExec _ s₂
  · rw [h, tryStrategies_cons]
    exact provided_setUp true _

/-! ## Waiting for a build of the server -/

theorem getStr_status_json (build : BuildResult) : ∃ items, build.json.loads = .dict items ∧
    PyVal.getStr "status" items = some (.str build.status.value) := ⟨_, rfl, rfl⟩

/-- No answer about a build ends the polling. -/
theorem pollBuild_hosted (hosted : Hosted env api) (piece : IsUrlPiece p) (package v : String)
    (s : PackageClient) :
    pollBuild env package v (.str p) s = (.ok none, sent (buildStatusRequest env (.str p)) s) ∨
      ∃ e, pollBuild env package v (.str p) s =
        (.error e, sent (buildStatusRequest env (.str p)) s) := by
  have asked : request env (buildStatusRequest env (.str p)) s =
      (env.http s.log (buildStatusRequest env (.str p)),
        sent (buildStatusRequest env (.str p)) s) := rfl
  cases told : env.http s.log (buildStatusRequest env (.str p)) with
  | error e => exact .inr ⟨e, Proc.bind_of_error (by rw [asked, told])⟩
  | ok resp =>
    refine .inl ?_
    rw [told] at asked
    unfold pollBuild
    rw [Proc.bind_of_ok asked]
    obtain ⟨srv, a, stalled, request, -, rfl⟩ := hosted.exists_serve told
    have served : srv.serve api a = srv.getBuild p :=
      serve_buildStatus piece (by rw [request]; rfl) (by rw [request]; rfl)
    split_ifs with accepted
    · rw [served] at accepted ⊢
      obtain ⟨build, undone, json⟩ := ApiServer.json_getBuild stalled accepted
      obtain ⟨items, loaded, status⟩ := getStr_status_json build
      have read : getField "status" (.dict items) = .ok (.str build.status.value) := by
        rw [getField, status]
        rfl
      rw [json, loaded]
      refine (Proc.bind_of_ok rfl).trans ?_
      rw [read]
      refine (Proc.bind_of_ok rfl).trans ?_
      rcases undone.status with queued | cancelled
      · rw [queued]
        rfl
      · rw [cancelled]
        rfl
    · rfl

/-! ## A hosted client -/

/-- The strategy with the value. -/
def strategyOf? (value : String) : Option PackageStrategy :=
  [.localInstall, .termuxPkg, .cloudWheel, .cloudBuild, .cloudExec, .hybrid].find?
    fun strategy => strategy.value = value

theorem strategyOf?_value (strategy : PackageStrategy) :
    strategyOf? strategy.value = some strategy := by
  cases strategy <;> rfl

/-- `PackageInfo(**data)` on the body that describes a package. -/
def readInfo : PyVal → Option PackageInfo
  | .dict items => do
    let name ← (PyVal.getStr "name" items).bind PyVal.asStr?
    let version ← (PyVal.getStr "version" items).bind PyVal.asStr?
    let value ← (PyVal.getStr "strategy" items).bind PyVal.asStr?
    let strategy ← strategyOf? value
    return {
      name := name
      version := version
      strategy := strategy
      wheelUrl := (PyVal.getStr "wheel_url" items).bind PyVal.asStr?
      wheelHash := (PyVal.getStr "wheel_hash" items).bind PyVal.asStr?
      requiresGpu := ((PyVal.getStr "requires_gpu" items).getD .none).truthy }
  | _ => none

theorem readInfo_members (info : RegisteredPackage) :
    readInfo (JsonText.obj info.members).loads = some info.toPackageInfo := by
  have loaded : (JsonText.obj info.members).loads = .dict (JsonText.readMembers info.members) := by
    have different : ((JsonText.loadsMembers info.members).map Prod.fst).Nodup := by
      simp [RegisteredPackage.members, JsonText.loadsMembers]
    rw [JsonText.loads, Dict.assignAll_of_nodup (by simpa using different), List.nil_append,
      JsonText.readMembers]
  have text : ∀ t : Option String, (optionJson t).loads.asStr? = t := by
    intro t
    cases t <;> rfl
  have str : ∀ s : String, (PyVal.str s).asStr? = some s := fun _ => rfl
  rw [loaded]
  simp [readInfo, JsonText.readMembers, JsonText.loadsMembers, RegisteredPackage.members,
    PyVal.getStr, PyVal.getItem, PyKey.norm_str, JsonText.loads, str, PyVal.truthy,
    strategyOf?_value, text]

def sampleBuild : BuildRequest where
  requestId := "b1"
  packageName := "scipy"
  packageVersion := "latest"
  targetArchitecture := "aarch64"
  pythonVersion := "3.11"
  priority := 5

def sampleApi : ApiEnv where
  jose := ⟨fun _ _ => "", fun _ _ _ => none, fun _ _ _ => False, fun _ _ => False⟩
  auth := ⟨true, "secret"⟩
  buildRequest _ := some sampleBuild
  others _ _ _ srv := (errorAnswer 404 "Not Found", srv.limiter)

/-- A device whose requests are the first ones that the server gets. -/
def hostedEnv : ClientEnv :=
  { sampleClientEnv with
    offlineMode := false
    validate := readInfo
    http := fun _ r => .ok (ApiServer.started.serve sampleApi ⟨⟨none, none⟩, none, 0, r⟩).1 }

theorem hosted_hostedEnv : Hosted hostedEnv sampleApi where
  answered _ r _ told :=
    ⟨[], ApiServer.started, ⟨⟨none, none⟩, none, 0, r⟩, rfl, rfl, fun _ => rfl,
      (Except.ok.inj told).symm⟩
  validated := readInfo_members

theorem queryCloud_sample (s : PackageClient) :
    queryCloud hostedEnv "scipy" "latest" s =
      (.ok (some (PackageService.getPackage seededRegistry "scipy" "aarch64").toPackageInfo),
        sent (packageRequest hostedEnv "scipy" "latest") s) := by
  have asked : request hostedEnv (packageRequest hostedEnv "scipy" "latest") s =
      (.ok ⟨200, .ok (JsonText.obj (PackageService.getPackage seededRegistry "scipy"
        "aarch64").members).loads⟩, sent (packageRequest hostedEnv "scipy" "latest") s) := by
    show (Except.ok (ApiServer.serve sampleApi _ ⟨_, _, _, packageRequest _ _ _⟩).1, _) = _
    rw [serve_package (p := "scipy") (by decide) rfl rfl]
    rfl
  have valid : hostedEnv.validate (JsonText.obj (PackageService.getPackage seededRegistry "scipy"
      "aarch64").members).loads = some _ := readInfo_members _
  unfold queryCloud Proc.recover
  rw [Proc.bind_of_ok asked, if_pos rfl]
  have body : (Proc.ofExcept (.ok (JsonText.obj (PackageService.getPackage seededRegistry "scipy"
      "aarch64").members).loads) >>= fun data => pure (hostedEnv.validate data) :
        ClientProc (Option PackageInfo)) (sent (packageRequest hostedEnv "scipy" "latest") s) =
      (.ok (hostedEnv.validate _), _) := rfl
  rw [body, valid]

theorem listed_sample : Listed hostedEnv "scipy" "latest" sampleClient :=
  ⟨rfl, { sampleClient with ticks := 1 }, _, _, rfl, queryCloud_sample _⟩

/-! ## Installing -/

/-- Against the server nothing is downloaded and no wheel comes into the cache, and a package that
the registry describes is provided all the same: by pip, or by registering it. -/
theorem install_from_server (env : ClientEnv) (api : ApiEnv) (hosted : Hosted env api) (p : String)
    (piece : IsUrlPiece p) (v : String) (force : Bool) (s : PackageClient) :
    Undelivered s (install env p v force s).2 ∧
      (Listed env p v s → Provided env p s (install env p v force s)) :=
  ⟨undelivered_install hosted piece v force s, provided_install hosted piece force⟩

theorem install_from_server_scipy :
    (install hostedEnv "scipy" "latest" false sampleClient).1 = .ok true :=
  ((install_from_server hostedEnv sampleApi hosted_hostedEnv "scipy" (by decide) "latest" false
    sampleClient).2 listed_sample).1

/-- The client polls `n` times, or fewer times until a request raises, and nothing else happens to
it. -/
theorem pollLoop_hosted (hosted : Hosted env api) {buildId : String} (piece : IsUrlPiece buildId)
    (n : ℕ) (s : PackageClient) :
    ∃ k ≤ n,
      (pollLoop env p v (.str buildId) n s).2 = { s with
        log := s.log ++ List.replicate k (.http (buildStatusRequest env (.str buildId))) } ∧
      ((pollLoop env p v (.str buildId) n s).1 = .ok false ∧ k = n ∨
        ∃ e, (pollLoop env p v (.str buildId) n s).1 = .error e) := by
  induction n generalizing s with
  | zero => exact ⟨0, le_rfl, by simp [pollLoop], .inl ⟨rfl, rfl⟩⟩
  | succ n ih =>
    rcases pollBuild_hosted hosted piece p v s with goesOn | ⟨e, raised⟩
    · rw [pollLoop, Proc.bind_of_ok goesOn]
      obtain ⟨k, le, state, result⟩ := ih (sent (buildStatusRequest env (.str buildId)) s)
      refine ⟨k + 1, Nat.succ_le_succ le, ?_, ?_⟩
      · rw [state, List.replicate_succ, sent, List.append_assoc]
        rfl
      · rcases result with ⟨result, rfl⟩ | raised
        · exact .inl ⟨result, rfl⟩
        · exact .inr raised
    · rw [pollLoop, Proc.bind_of_error raised]
      exact ⟨1, Nat.succ_le_succ n.zero_le, rfl, .inr ⟨e, rfl⟩⟩

/-- A device of a developer submits a build. -/
def sampleSubmission : Arrival :=
  ⟨⟨none, none⟩, some "dev_phone", 0, buildRequest "scipy" "latest"⟩

/-- The server after that. -/
def building : ApiServer := (ApiServer.started.serve sampleApi sampleSubmission).2

theorem building_builds :
    building.builds.builds.get? "b1" = some (BuildService.submitted sampleBuild) := by
  rw [building, serve_createBuild rfl rfl]
  decide +kernel

/-- A device whose requests are answered by the server that has the build. -/
def pollingEnv : ClientEnv :=
  { hostedEnv with
    http := fun _ r => .ok (building.serve sampleApi ⟨⟨none, none⟩, none, 0, r⟩).1 }

theorem hosted_pollingEnv : Hosted pollingEnv sampleApi where
  answered _ r _ told :=
    ⟨[sampleSubmission], building, ⟨⟨none, none⟩, none, 0, r⟩, rfl, rfl, fun _ => rfl,
      (Except.ok.inj told).symm⟩
  validated := readInfo_members

/-- Whoever waits for a build of the server uses up all rounds, unless a request raises; nothing but
the requests happens to the client meanwhile, and none of them changes the server. -/
theorem build_never_ends (env : ClientEnv) (api : ApiEnv) (hosted : Hosted env api)
    (buildId : String) (piece : IsUrlPiece buildId) (p v : String) (n : ℕ) (s : PackageClient) :
    (∃ k ≤ n,
      (pollLoop env p v (.str buildId) n s).2 = { s with
        log := s.log ++ List.replicate k (.http (buildStatusRequest env (.str buildId))) } ∧
      ((pollLoop env p v (.str buildId) n s).1 = .ok false ∧ k = n ∨
        ∃ e, (pollLoop env p v (.str buildId) n s).1 = .error e)) ∧
    ∀ (srv : ApiServer) (a : Arrival), a.request = buildStatusRequest env (.str buildId) →
      (srv.serve api a).2 = srv := by
  refine ⟨pollLoop_hosted hosted piece n s, fun srv a request => ?_⟩
  rw [serve_buildStatus piece (by rw [request]; rfl) (by rw [request]; rfl)]
  exact srv.getBuild_snd buildId

theorem build_never_ends_requested :
    building.builds.builds.get? "b1" = some (BuildService.submitted sampleBuild) ∧
      (pollLoop pollingEnv "scipy" "latest" (.str "b1") 2 sampleClient).1 ≠ .ok true := by
  refine ⟨building_builds, ?_⟩
  obtain ⟨⟨k, -, -, ⟨ended, -⟩ | ⟨e, raised⟩⟩, -⟩ :=
    build_never_ends pollingEnv sampleApi hosted_pollingEnv "b1" (by decide) "scipy" "latest" 2
      sampleClient
  · rw [ended]
    simp
  · rw [raised]
    simp

end PackageClient

end Cpip
