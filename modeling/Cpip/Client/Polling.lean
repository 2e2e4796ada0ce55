import Cpip.Client.CacheHit
import Cpip.Lib.Rounds

/-!
# Waiting for a build

`_install_cloud_build` asks for the status of its build until the answer settles the matter.  It
knows `succeeded` and `failed`; the server also sets `cancelled`, and a build that succeeded is
asked about again when its wheel cannot be had.
-/

namespace Cpip

def BuildStatus.value : BuildStatus → String
  | .queued => "queued"
  | .building => "building"
  | .succeeded => "succeeded"
  | .failed => "failed"
  | .cancelled => "cancelled"

/-- The status with the value. -/
def BuildStatus.ofValue? (value : String) : Option BuildStatus :=
  [.queued, .building, .succeeded, .failed, .cancelled].find? fun status => status.value = value

/-- The build is over. -/
def BuildStatus.IsTerminal : BuildStatus → Prop
  | .succeeded | .failed | .cancelled => True
  | .queued | .building => False

instance BuildStatus.decidableIsTerminal (status : BuildStatus) : Decidable status.IsTerminal := by
  cases status <;> unfold BuildStatus.IsTerminal <;> infer_instance

theorem BuildStatus.ofValue?_eq_some_iff {value : String} {status : BuildStatus} :
    ofValue? value = some status ↔ status.value = value := by
  constructor
  · intro h
    unfold ofValue? at h
    have found := List.find?_some h
    exact of_decide_eq_true found
  · rintro rfl
    cases status <;> rfl

namespace PackageClient

open CacheManager (wheelDest wheelKey maybeEvict HoldsWheel Holds Storable)

/-! ## The polls -/

/-- A request for the status of the build, by the client in this state. -/
structure Poll where
  buildId : PyVal
  client : PackageClient

/-- The build that `_install_cloud_build` requests, and the client after the request. -/
def requestBuild (env : ClientEnv) (package version : String) : ClientProc PyVal := do
  let resp ← request env (buildRequest package version)
  if resp.statusCode ∈ [200, 201] then
    let data ← Proc.ofExcept resp.json
    Proc.ofExcept (getField "request_id" data)
  else Proc.raise (.other "no build")

/-- All polls of `_install_cloud_build`, in their order. -/
def polls (env : ClientEnv) (package version : String) (s : PackageClient) : List Poll :=
  match requestBuild env package version s with
  | (.ok buildId, s') =>
    (Proc.starts (pollBuild env package version buildId) 360 s').map (Poll.mk buildId)
  | _ => []

namespace Poll

variable (env : ClientEnv)

def request (q : Poll) : HttpRequest := buildStatusRequest env q.buildId

/-- The object that the poll is answered with, when it is answered with one. -/
def body? (q : Poll) : Option (List (PyKey × PyVal)) :=
  match env.http q.client.log (q.request env) with
  | .ok ⟨200, .ok (.dict items)⟩ => some items
  | _ => none

/-- The status that the answer reports, when it reports one. -/
def reported (q : Poll) : Option BuildStatus :=
  (q.body? env).bind fun items =>
    ((PyVal.getStr "status" items).bind PyVal.asStr?).bind BuildStatus.ofValue?

/-- The answer reports that the build is over. -/
def Ends (q : Poll) : Prop := ∃ status, q.reported env = some status ∧ status.IsTerminal

/-- The wheel that the answer names is served to its end and can be written. -/
def Obtains (q : Poll) (url : String) (b : Bytes) : Prop :=
  ∃ items chunks tree, q.body? env = some items ∧
    PyVal.getStr "wheel_url" items = some (.str url) ∧ url ≠ "" ∧
    env.stream (q.client.log ++ [.http (q.request env)]) url = .served chunks false ∧
    b = chunks.flatten ∧
    (downloadDest env url).write env.cwd q.client.cache.tree b = .ok tree

/-- The build was cancelled, or it succeeded and its wheel cannot be had. -/
def Lingers (q : Poll) : Prop :=
  q.reported env = some .cancelled ∨
    q.reported env = some .succeeded ∧ ¬ ∃ url b, q.Obtains env url b

end Poll

namespace Poll

variable {env : ClientEnv} {p v : String} {q : Poll}

/-- The client after the answer to the poll. -/
def asked (env : ClientEnv) (q : Poll) : PackageClient :=
  { q.client with log := q.client.log ++ [.http (q.request env)] }

theorem reported_eq_some_iff {items : List (PyKey × PyVal)} (body : q.body? env = some items)
    {status : BuildStatus} :
    q.reported env = some status ↔
      ((PyVal.getStr "status" items).getD .none).asStr? = some status.value := by
  unfold reported
  rw [body, Option.bind_some]
  cases PyVal.getStr "status" items with
  | none => exact iff_of_false nofun nofun
  | some value =>
    rw [Option.bind_some, Option.getD_some]
    cases value.asStr? with
    | none => exact iff_of_false nofun nofun
    | some text =>
      rw [Option.bind_some, BuildStatus.ofValue?_eq_some_iff, Option.some.injEq, eq_comm]

/-- A round whose poll is answered with an object does what the status says. -/
theorem pollBuild_of_body {items : List (PyKey × PyVal)} (body : q.body? env = some items) :
    pollBuild env p v q.buildId q.client =
      (if q.reported env = some .succeeded then fetchBuild env p v (.dict items) (q.asked env)
        else if q.reported env = some .failed then (.ok (some false), q.asked env)
        else (.ok none, q.asked env)) := by
  have answered : PackageClient.request env (buildStatusRequest env q.buildId) q.client =
      (.ok ⟨200, .ok (.dict items)⟩, q.asked env) := by
    unfold body? request at body
    unfold PackageClient.request
    split at body
    · next answer =>
      cases body
      rw [answer]
      rfl
    · cases body
  have succeeded : q.reported env = some .succeeded ↔
      ((PyVal.getStr "status" items).getD .none).asStr? = some "succeeded" :=
    reported_eq_some_iff body
  have failed : q.reported env = some .failed ↔
      ((PyVal.getStr "status" items).getD .none).asStr? = some "failed" :=
    reported_eq_some_iff body
  unfold pollBuild
  rw [Proc.bind_of_ok answered, if_pos rfl]
  show (if _ then _ else if _ then _ else _ : ClientProc (Option Bool)) (q.asked env) = _
  by_cases first : q.reported env = some .succeeded
  · rw [if_pos first, if_pos (succeeded.1 first)]
  · rw [if_neg first, if_neg (fun h => first (succeeded.2 h))]
    by_cases second : q.reported env = some .failed
    · rw [if_pos second, if_pos (failed.1 second)]
      rfl
    · rw [if_neg second, if_neg (fun h => second (failed.2 h))]
      rfl

theorem reported_of_no_body (body : q.body? env = none) : q.reported env = none := by
  rw [reported, body]
  rfl

/-- Without an object there is no result. -/
theorem pollBuild_of_no_body (body : q.body? env = none) (result : Bool) (s' : PackageClient) :
    pollBuild env p v q.buildId q.client ≠ (.ok (some result), s') := by
  intro h
  obtain ⟨resp, s₁, answered, h⟩ := Proc.exists_of_bind_eq_ok h
  have answer : env.http q.client.log (q.request env) = .ok resp := (Prod.mk.inj answered).1
  split_ifs at h with ok
  · obtain ⟨data, s₂, decoded, h⟩ := Proc.exists_of_bind_eq_ok h
    obtain ⟨status, s₃, field, h⟩ := Proc.exists_of_bind_eq_ok h
    obtain ⟨code, json⟩ := resp
    obtain rfl : json = .ok data := (Prod.mk.inj decoded).1
    obtain rfl : code = 200 := ok
    have got : getField "status" data = .ok status := (Prod.mk.inj field).1
    unfold getField at got
    split at got
    · unfold body? at body
      rw [answer] at body
      cases body
    · cases got
  · cases h

/-- What `fetchBuild` downloads is what the answer names. -/
theorem obtains_of_downloadWheel {items : List (PyKey × PyVal)} (body : q.body? env = some items)
    {url : PyVal} (named : (PyVal.getStr "wheel_url" items).getD .none = url)
    (truthy : url.truthy = true) {path : PyPath} {s' : PackageClient}
    (h : downloadWheel env url (q.asked env) = (.ok (some path), s')) :
    ∃ u b tree, q.Obtains env u b ∧ path = downloadDest env u ∧
      (downloadDest env u).read env.cwd tree = .ok b ∧
      s'.cache = { q.client.cache with tree := tree } := by
  obtain ⟨u, chunks, tree, rfl, rfl, served, written, cache⟩ := exists_of_downloadWheel h
  have url : PyVal.getStr "wheel_url" items = some (.str u) := by
    cases found : PyVal.getStr "wheel_url" items with
    | none =>
      rw [found] at named
      cases named
    | some value =>
      rw [found] at named
      exact congrArg some named
  exact ⟨u, chunks.flatten, tree, ⟨items, chunks, tree, body, url, of_decide_eq_true truthy, served,
    rfl, written⟩, rfl, PyPath.read_of_write written, cache⟩

/-- A download never raises. -/
theorem fst_downloadWheel (env : ClientEnv) (url : PyVal) (s : PackageClient) :
    ∃ path, (downloadWheel env url s).1 = .ok path := by
  unfold downloadWheel
  split
  · exact ⟨_, rfl⟩
  · exact ⟨_, rfl⟩

theorem fetchBuild_dict (items : List (PyKey × PyVal)) (s : PackageClient) :
    fetchBuild env p v (.dict items) s =
      (if ((PyVal.getStr "wheel_url" items).getD .none).truthy then (do
        match ← downloadWheel env ((PyVal.getStr "wheel_url" items).getD .none) with
        | none => return none
        | some wheelPath =>
          let _ ← storeWheel env p v wheelPath ""
          return some (← installLocal env p v) : ClientProc (Option Bool))
      else return none) s := rfl

/-- The answer of a succeeded build is followed by another poll exactly when the wheel cannot be
had. -/
theorem fetchBuild_goesOn_iff {items : List (PyKey × PyVal)} (body : q.body? env = some items) :
    (∃ s', fetchBuild env p v (.dict items) (q.asked env) = (.ok none, s')) ↔
      ¬ ∃ url b, q.Obtains env url b := by
  let url := (PyVal.getStr "wheel_url" items).getD .none
  rw [fetchBuild_dict]
  constructor
  · rintro ⟨s', h⟩ ⟨u, b, items', chunks, tree, body', named, nonempty, served, rfl, written⟩
    obtain rfl := Option.some.inj (body.symm.trans body')
    have here : url = .str u := congrArg (fun found => found.getD .none) named
    have truthy : url.truthy = true := by
      rw [here]
      exact decide_eq_true nonempty
    have written' : (downloadDest env u).write env.cwd (q.asked env).cache.tree chunks.flatten =
        .ok tree := written
    have loaded : downloadWheel env url (q.asked env) = (.ok (some (downloadDest env u)),
        { q.asked env with
          cache := { (q.asked env).cache with tree := tree }
          log := (q.asked env).log ++ [.download u] }) := by
      rw [here]
      have served' : env.stream (q.asked env).log u = .served chunks false := served
      simp only [downloadWheel, receiveWheel, served', written']
      rfl
    rw [if_pos truthy, Proc.bind_of_ok loaded] at h
    obtain ⟨dest, s₁, -, h⟩ := Proc.exists_of_bind_eq_ok h
    obtain ⟨installed, s₂, -, h⟩ := Proc.exists_of_bind_eq_ok h
    cases h
  · intro lost
    by_cases truthy : url.truthy = true
    · rw [if_pos truthy]
      obtain ⟨path, loaded⟩ := fst_downloadWheel env url (q.asked env)
      cases ran : downloadWheel env url (q.asked env) with
      | mk result s₁ =>
        rw [ran] at loaded
        obtain rfl : result = .ok path := loaded
        cases path with
        | none =>
          rw [Proc.bind_of_ok ran]
          exact ⟨s₁, rfl⟩
        | some path =>
          obtain ⟨u, b, -, obtains, -⟩ := obtains_of_downloadWheel body rfl truthy ran
          exact absurd ⟨u, b, obtains⟩ lost
    · rw [if_neg truthy]
      exact ⟨_, rfl⟩

/-- The polls that linger are those that report the end of the build and go on. -/
theorem lingers_iff :
    q.Lingers env ↔ Proc.GoesOn (pollBuild env p v q.buildId) q.client ∧ q.Ends env := by
  unfold Lingers Ends Proc.GoesOn
  cases body : q.body? env with
  | none =>
    rw [reported_of_no_body body]
    simp
  | some items =>
    rw [pollBuild_of_body body]
    cases reported : q.reported env with
    | none => simp
    | some status =>
      cases status with
      | queued => simp [BuildStatus.IsTerminal]
      | building => simp [BuildStatus.IsTerminal]
      | succeeded =>
        rw [if_pos rfl, fetchBuild_goesOn_iff body]
        simp [BuildStatus.IsTerminal]
      | failed => simp
      | cancelled => simp [BuildStatus.IsTerminal]

/-! ## What a success means -/

/-- The build succeeded, its wheel was downloaded and is in the cache, and the last thing that the
client did was a `pip` on it that ended well. -/
def Installs (env : ClientEnv) (p v : String) (q : Poll) (s' : PackageClient) : Prop :=
  q.reported env = some .succeeded ∧ ∃ url b l log, q.Obtains env url b ∧
    Holds env.toCacheEnv p v (downloadDest env url) l b s'.cache ∧
    s'.log = log ++ [.exec (.pip (.cached (downloadDest env url))) s'.cache.tree] ∧
    (downloadDest env url).read env.cwd s'.cache.tree = .ok b ∧
    PipAccepts env log (downloadDest env url)

/-- A download that is stored is in the cache at the place it was downloaded to. -/
theorem holds_of_storeWheel {url : String} {b : Bytes} {s s' : PackageClient} {dest : PyPath}
    (file : (downloadDest env url).read env.cwd s.cache.tree = .ok b)
    (h : storeWheel env p v (downloadDest env url) "" s = (.ok dest, s')) :
    wheelDest env.toCacheEnv (downloadDest env url) = downloadDest env url ∧
      ∃ l, Holds env.toCacheEnv p v (downloadDest env url) l b s'.cache := by
  rw [storeWheel_eq] at h
  obtain ⟨filed, rfl⟩ := Prod.mk.inj h
  cases stored : CacheManager.storeWheel env.toCacheEnv p v (downloadDest env url) ""
      (env.clock s.ticks) (env.clock (s.ticks + 1)) s.cache with
  | mk outcome cache =>
    rw [stored] at filed
    cases outcome with
    | error e => cases filed
    | ok dest' =>
      have kept : Kept env url s.cache := by
        refine (CacheManager.exist_of_storeWheel stored).resolve_right ?_
        rintro ⟨apart, l, hl⟩
        exact apart (in_place_of_locate file hl).symm
      have place := kept.in_place file
      obtain ⟨cache', entry, stored', file', set, path, hash⟩ :=
        CacheManager.storeWheel_in_place place file (place ▸ kept) p v ""
          (env.clock s.ticks) (env.clock (s.ticks + 1))
      obtain rfl := (Prod.mk.inj (stored.symm.trans stored')).2
      obtain ⟨l, hl, node⟩ := PyPath.read_eq_ok_iff.1 file'
      refine ⟨place, l, ⟨entry, ?_, path.trans place.symm, hash⟩, place.symm ▸ hl, node⟩
      rw [set, Dict.get?_set_self]

/-- What is installed locally from the cache is the wheel that the cache holds. -/
theorem installs_of_holds {source : PyPath} {l : Loc} {b : Bytes} {s s' : PackageClient}
    (holds : Holds env.toCacheEnv p v source l b s.cache)
    (h : installLocal env p v s = (.ok true, s')) :
    Holds env.toCacheEnv p v source l b s'.cache ∧
      s'.log = s.log ++ [.exec (.pip (.cached (wheelDest env.toCacheEnv source))) s'.cache.tree] ∧
      PipAccepts env s.log (wheelDest env.toCacheEnv source) := by
  obtain ⟨found, s₁, got, h⟩ := Proc.exists_of_bind_eq_ok h
  obtain ⟨s₁', got', log, -⟩ := getWheel_of_holds holds.holdsWheel
  obtain ⟨same, rfl⟩ := Prod.mk.inj (got.symm.trans got')
  obtain rfl := Except.ok.inj same
  have kept : Holds env.toCacheEnv p v source l b s₁.cache := by
    obtain ⟨e, he, -, hash⟩ := holds.entry
    have spared := holds.getWheel (fun e' he' _ => by
      obtain rfl := Option.some.inj (he.symm.trans he')
      exact hash) (env.clock s.ticks)
    rw [getWheel_eq_ok got] at spared
    exact spared
  have state := congrArg Prod.snd h
  change (pipInstall env (.cached (wheelDest env.toCacheEnv source)) s₁).2 = s' at state
  rw [pipInstall_state] at state
  obtain rfl := state
  have accepted := (fst_pipInstall _ s₁).1 (congrArg Prod.fst h)
  refine ⟨kept, ?_, ?_⟩
  · rw [← log]
  · rw [← log]
    exact accepted

/-- A round that ends in success installs the wheel of the build. -/
theorem installs_of_pollBuild {s' : PackageClient}
    (h : pollBuild env p v q.buildId q.client = (.ok (some true), s')) : q.Installs env p v s' := by
  cases body : q.body? env with
  | none => exact absurd h (pollBuild_of_no_body body true s')
  | some items =>
    rw [pollBuild_of_body body] at h
    split_ifs at h with succeeded failed
    · obtain ⟨url, s₀, field, h⟩ := Proc.exists_of_bind_eq_ok h
      obtain ⟨named, rfl⟩ := Prod.mk.inj field
      obtain rfl := Except.ok.inj named
      split_ifs at h with truthy
      · obtain ⟨path, s₁, loaded, h⟩ := Proc.exists_of_bind_eq_ok h
        cases path with
        | none => cases h
        | some path =>
          obtain ⟨u, b, tree, obtains, rfl, file, cache⟩ :=
            obtains_of_downloadWheel body rfl truthy loaded
          obtain ⟨dest, s₂, stored, h⟩ := Proc.exists_of_bind_eq_ok h
          obtain ⟨installed, s₃, ran, h⟩ := Proc.exists_of_bind_eq_ok h
          obtain ⟨same, rfl⟩ := Prod.mk.inj h
          obtain rfl := Option.some.inj (Except.ok.inj same)
          have file₁ : (downloadDest env u).read env.cwd s₁.cache.tree = .ok b := by
            rw [cache]
            exact file
          obtain ⟨place, l, holds⟩ := holds_of_storeWheel file₁ stored
          obtain ⟨kept, log, accepted⟩ := installs_of_holds holds ran
          rw [place] at log accepted
          refine ⟨succeeded, u, b, l, s₂.log, obtains, kept, log, ?_, accepted⟩
          exact PyPath.read_eq_ok_iff.2 ⟨l, place ▸ kept.place, kept.file⟩
      · cases h
    · cases h
    · cases h

end Poll

/-! ## The loop -/

theorem pollLoop_eq (env : ClientEnv) (p v : String) (buildId : PyVal) (n : ℕ) :
    pollLoop env p v buildId n = Proc.rounds (pollBuild env p v buildId) false n := by
  induction n with
  | zero => rfl
  | succ n ih =>
    rw [pollLoop, Proc.rounds, ih]
    refine congrArg (pollBuild env p v buildId >>= ·) (funext fun result => ?_)
    cases result <;> rfl

/-- How many requests the client has sent. -/
def sentRequests (s : PackageClient) : ℕ :=
  (s.log.filter fun | .http _ => true | _ => false).length

theorem sentRequests_eq {s s' : PackageClient} (h : Since (fun e => ∀ r, e ≠ .http r) s s') :
    sentRequests s' = sentRequests s := by
  obtain ⟨events, log, other⟩ := h
  have none : (events.filter fun | .http _ => true | _ => false) = [] := by
    rw [List.filter_eq_nil_iff]
    intro e mem
    cases e with
    | http r => exact absurd rfl (other _ mem r)
    | strategy | download | exec | register => exact Bool.false_ne_true
  rw [sentRequests, log, List.filter_append, none, List.append_nil, sentRequests]

/-- What a round does after its request. -/
theorem pollBuild_eq (env : ClientEnv) (p v : String) (buildId : PyVal) (s : PackageClient) :
    ∃ rest : ClientProc (Option Bool),
      (∀ s₀, Proc.Keeps (Since (fun e => ∀ r, e ≠ .http r) s₀) rest) ∧
      pollBuild env p v buildId s = rest (Poll.asked env ⟨buildId, s⟩) := by
  have answered : request env (buildStatusRequest env buildId) s =
      (env.http s.log (buildStatusRequest env buildId), Poll.asked env ⟨buildId, s⟩) := rfl
  unfold pollBuild
  rw [Proc.bind_apply, answered]
  cases env.http s.log (buildStatusRequest env buildId) with
  | error e => exact ⟨Proc.raise e, fun _ => Proc.keeps_raise e, rfl⟩
  | ok resp =>
    refine ⟨_, fun s₀ => Proc.Keeps.ite ?_ (Proc.keeps_pure _), rfl⟩
    refine (Proc.keeps_ofExcept _).bind fun data => (Proc.keeps_ofExcept _).bind fun status => ?_
    have fetched := @keeps_since_fetchBuild (fun e => ∀ r, e ≠ .http r) s₀ env
      (fun _ _ _ => nofun) (fun _ => nofun) p v data
    exact fetched.ite ((Proc.keeps_pure _).ite (Proc.keeps_pure _))

/-- A round begins with its request and sends no other. -/
theorem since_pollBuild (env : ClientEnv) (p v : String) (buildId : PyVal) (s : PackageClient) :
    Since (fun e => ∀ r, e ≠ .http r) (Poll.asked env ⟨buildId, s⟩)
      (pollBuild env p v buildId s).2 := by
  obtain ⟨rest, keeps, same⟩ := pollBuild_eq env p v buildId s
  rw [same]
  exact keeps _ _ (Since.refl _)

theorem sentRequests_asked (env : ClientEnv) (q : Poll) :
    sentRequests (q.asked env) = sentRequests q.client + 1 := by
  rw [sentRequests, Poll.asked, List.filter_append, List.length_append]
  rfl

/-- The polls are all that the loop asks, each of them in its state. -/
theorem polls_of_pollLoop (env : ClientEnv) (p v : String) (buildId : PyVal) (n : ℕ)
    (s : PackageClient) :
    let last := (pollLoop env p v buildId n s).2
    sentRequests last =
        sentRequests s + (Proc.starts (pollBuild env p v buildId) n s).length ∧
      ∀ t ∈ Proc.starts (pollBuild env p v buildId) n s,
        t.log ++ [.http (buildStatusRequest env buildId)] <+: last.log := by
  dsimp only
  rw [pollLoop_eq]
  constructor
  · refine Proc.measure_rounds (fun t => ?_) n s
    rw [sentRequests_eq (since_pollBuild env p v buildId t), sentRequests_asked]
  · intro t mem
    have extends' (s : PackageClient) : s.log <+: (pollBuild env p v buildId s).2.log := by
      obtain ⟨events, log, -⟩ := since_pollBuild env p v buildId s
      exact ⟨[_] ++ events, by rw [log, Poll.asked, List.append_assoc]⟩
    obtain ⟨events, log, -⟩ := since_pollBuild env p v buildId t
    have here : t.log ++ [.http (buildStatusRequest env buildId)] <+:
        (pollBuild env p v buildId t).2.log := ⟨events, log.symm⟩
    exact here.trans ((Proc.rounds_of_mem_starts (r := fun s s' => s.log <+: s'.log)
      (fun s => List.prefix_rfl) (fun _ _ _ => List.IsPrefix.trans) extends' n s).2 t mem)

/-- A success is the one of some poll. -/
theorem exists_poll_of_installCloudBuild {env : ClientEnv} {p v : String} {s s' : PackageClient}
    (h : installCloudBuild env p v s = (.ok true, s')) :
    ∃ q ∈ polls env p v s, pollBuild env p v q.buildId q.client = (.ok (some true), s') := by
  have ran := Proc.eq_ok_of_recover h fun e s₁ other => by cases other
  obtain ⟨resp, s₁, answered, ran⟩ := Proc.exists_of_bind_eq_ok ran
  split_ifs at ran with ok
  · obtain ⟨data, s₂, decoded, ran⟩ := Proc.exists_of_bind_eq_ok ran
    obtain ⟨buildId, s₃, field, ran⟩ := Proc.exists_of_bind_eq_ok ran
    have requested : requestBuild env p v s = (.ok buildId, s₃) := by
      unfold requestBuild
      rw [Proc.bind_of_ok answered, if_pos ok, Proc.bind_of_ok decoded]
      exact field
    rw [pollLoop_eq] at ran
    obtain ⟨t, mem, gives⟩ := Proc.exists_of_rounds ran (by decide)
    refine ⟨⟨buildId, t⟩, ?_, gives⟩
    rw [polls, requested]
    exact List.mem_map_of_mem mem
  · cases ran

/-- Whatever is answered: success means that the wheel of a succeeded build was downloaded, stored
and installed; and no poll follows an answer that reports the end of the build exactly when, before
the last possible poll, no answer reports a cancelled build, or a succeeded one whose wheel cannot
be had. -/
theorem polling_stops_iff (env : ClientEnv) (p v : String) (s : PackageClient) :
    ((∀ q ∈ (polls env p v s).dropLast, ¬ q.Ends env) ∧
      ((installCloudBuild env p v s).1 = .ok true →
        ∃ q ∈ polls env p v s, q.Installs env p v (installCloudBuild env p v s).2)) ↔
      ∀ q ∈ (polls env p v s).take 359, ¬ q.Lingers env := by
  have success : (installCloudBuild env p v s).1 = .ok true →
      ∃ q ∈ polls env p v s, q.Installs env p v (installCloudBuild env p v s).2 := by
    intro ok
    obtain ⟨q, mem, gives⟩ := exists_poll_of_installCloudBuild (Prod.ext ok rfl)
    exact ⟨q, mem, Poll.installs_of_pollBuild gives⟩
  refine (and_iff_left success).trans ?_
  unfold polls
  cases requestBuild env p v s with
  | mk result s₁ =>
    cases result with
    | error e => simp
    | ok buildId =>
      dsimp only
      rw [← List.map_dropLast, ← List.map_take, List.forall_mem_map, List.forall_mem_map,
        Proc.forall_mem_dropLast_starts_iff]
      refine forall₂_congr fun t _ => ?_
      rw [Poll.lingers_iff (p := p) (v := v), not_and]

/-- A server that accepts the build and answers the first poll that the build was cancelled, and the
next that it failed. -/
def cancelledEnv : ClientEnv :=
  { sampleClientEnv with
    http := fun log r =>
      if r.method = "POST" then .ok ⟨201, .ok (.dict [(.str "request_id", .str "b1")])⟩
      else if log.length < 2 then .ok ⟨200, .ok (.dict [(.str "status", .str "cancelled")])⟩
      else .ok ⟨200, .ok (.dict [(.str "status", .str "failed")])⟩ }

/-- A cancelled build is asked about again. -/
theorem cancelled_build_polled : ∃ q ∈ (polls cancelledEnv "numpy" "1.26" sampleClient).dropLast,
    q.reported cancelledEnv = some .cancelled ∧ q.Ends cancelledEnv := by
  have reports : (polls cancelledEnv "numpy" "1.26" sampleClient).map (Poll.reported cancelledEnv) =
      [some .cancelled, some .failed] := by decide +kernel
  obtain ⟨q, rest, same, cancelled, others⟩ := List.map_eq_cons_iff.1 reports
  obtain ⟨q', rest', rfl, -, -⟩ := List.map_eq_cons_iff.1 others
  refine ⟨q, ?_, cancelled, .cancelled, cancelled, trivial⟩
  rw [same]
  exact List.mem_cons_self

end PackageClient

end Cpip
