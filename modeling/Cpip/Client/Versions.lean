import Cpip.Client.WheelHash

/-!
# The version that an installation leaves

Only the requirement that pip is given names the version that was asked for.  The other ways to
install a package take what they find: the version that is there, the one that Termux has, and the
one of a wheel.
-/

namespace Cpip

/-- What pip and pkg find under a name, as the version of a package. -/
structure PackageSource where
  /-- The version of the package in a wheel, unless the wheel is one of another package. -/
  wheelVersion : Bytes → String → Option String
  requirementVersion : List ClientEvent → String → String → Option String
  termuxVersion : List ClientEvent → String → String → Option String

namespace PackageSource

variable (w : PackageSource)

def fileVersion (env : ClientEnv) (tree : FileTree Bytes) (p : String) (path : PyPath) :
    Option String :=
  match path.read env.cwd tree with
  | .ok b => w.wheelVersion b p
  | .error _ => none

/-- The version of the package that a command names. -/
def named (env : ClientEnv) (log : List ClientEvent) (tree : FileTree Bytes) (p : String) :
    Command → Option String
  | .pip (.downloaded path) => w.fileVersion env tree p path
  | .pip (.cached path) => w.fileVersion env tree p path
  | .pip (.requirement spec) => w.requirementVersion log spec p
  | .pkg name => w.termuxVersion log name p
  | .apt _ => none

/-- The version of the package that a step installs. -/
def effect (env : ClientEnv) (log : List ClientEvent) (p : String) : ClientEvent → Option String
  | .exec c tree =>
    match env.exec log (c.argv env.executable) with
    | .ok r => if r.returncode = 0 then w.named env log tree p c else none
    | .error _ => none
  | _ => none

/-- pip and pkg install exactly what their command line names, and nothing else installs. -/
structure Exact (env : ClientEnv) (p v : String) : Prop where
  step : ∀ log e,
    env.installedVersion (log ++ [e]) p = (w.effect env log p e).or (env.installedVersion log p)
  pinned : ∀ log, w.requirementVersion log (p ++ "==" ++ v) p = some v

end PackageSource

/-- The event is a command that installs. -/
def ClientEvent.Installing : ClientEvent → Prop
  | .exec (.pip _) _ => True
  | .exec (.pkg _) _ => True
  | _ => False

namespace PackageClient

open CacheManager (wheelDest wheelKey maybeEvict)
open PackageSource (Exact)

variable {env : ClientEnv} {w : PackageSource} {p v : String} {s s' : PackageClient}

/-! ## Single commands -/

theorem version_of_snoc (exact : w.Exact env p v) {e : ClientEvent}
    (log : s'.log = s.log ++ [e]) :
    env.installedVersion s'.log p =
      (w.effect env s.log p e).or (env.installedVersion s.log p) := by
  rw [log]
  exact exact.step s.log e

theorem effect_of_not_installing (log : List ClientEvent) (p : String) :
    ∀ e : ClientEvent, ¬ e.Installing → w.effect env log p e = none
  | .exec (.pip _) _, quiet => absurd trivial quiet
  | .exec (.pkg _) _, quiet => absurd trivial quiet
  | .exec (.apt name) tree, _ => by
    show (match env.exec log ((Command.apt name).argv env.executable) with
      | .ok r => if r.returncode = 0 then none else none
      | .error _ => none) = none
    cases env.exec log ((Command.apt name).argv env.executable) with
    | error e => rfl
    | ok r => exact ite_self none
  | .strategy _, _ => rfl
  | .http _, _ => rfl
  | .download _, _ => rfl
  | .register _, _ => rfl

/-- Without such a command the version stays. -/
theorem version_of_since (exact : w.Exact env p v)
    (since : Since (fun e => ¬ e.Installing) s s') :
    env.installedVersion s'.log p = env.installedVersion s.log p := by
  obtain ⟨events, log, quiet⟩ := since
  rw [log]
  clear log
  induction events using List.reverseRecOn with
  | nil => rw [List.append_nil]
  | append_singleton events e ih =>
    rw [← List.append_assoc, exact.step, effect_of_not_installing _ p e (quiet e (by simp)),
      Option.none_or]
    exact ih fun e' mem => quiet e' (List.mem_append_left [e] mem)

/-- What a command that ends well has installed. -/
theorem version_of_command (exact : w.Exact env p v) (c : Command)
    (ran : (run env c >>= fun r => pure (decide (r.returncode = 0))) s = (.ok true, s')) :
    env.installedVersion s'.log p =
      (w.named env s.log s.cache.tree p c).or (env.installedVersion s.log p) := by
  have log : ({ s with log := s.log ++ [.exec c s.cache.tree] } : PackageClient).log =
      s.log ++ [.exec c s.cache.tree] := rfl
  have first : run env c s = (env.exec s.log (c.argv env.executable),
      { s with log := s.log ++ [.exec c s.cache.tree] }) := rfl
  rw [Proc.bind_apply, first] at ran
  cases answer : env.exec s.log (c.argv env.executable) with
  | error e =>
    rw [answer] at ran
    cases ran
  | ok r =>
    rw [answer] at ran
    obtain ⟨code, rfl⟩ := Prod.mk.inj ran
    have good : r.returncode = 0 := of_decide_eq_true (Except.ok.inj code)
    rw [version_of_snoc exact log, PackageSource.effect, answer]
    dsimp only
    rw [if_pos good]

theorem version_of_pipInstall (exact : w.Exact env p v) {target : PipTarget}
    (ran : pipInstall env target s = (.ok true, s')) :
    env.installedVersion s'.log p =
      (w.named env s.log s.cache.tree p (.pip target)).or (env.installedVersion s.log p) :=
  version_of_command exact (.pip target) ran

theorem version_of_installTermux (exact : w.Exact env p v)
    (ran : installTermux env p s = (.ok true, s')) :
    env.installedVersion s'.log p =
      (w.termuxVersion s.log ("python-" ++ p) p).or (env.installedVersion s.log p) :=
  version_of_command exact (.pkg ("python-" ++ p)) ran

/-! ## Strategies -/

/-- The version that is there once something was installed, which is not asked again. -/
def AfterInstall (env : ClientEnv) (p v : String) (s : PackageClient) (found : Option String) :
    Prop := found.or (env.installedVersion s.log p) = some v

/-- The wheel that the cache answers with has the version; without one the requirement names it. -/
def CacheHasVersion (env : ClientEnv) (w : PackageSource) (p v : String) (s : PackageClient) :
    Prop :=
  ∀ path s₁, getWheel env p v s = (.ok (some path), s₁) →
    AfterInstall env p v s (w.fileVersion env s₁.cache.tree p path)

theorem log_of_getWheel {found : Option PyPath} (got : getWheel env p v s = (.ok found, s')) :
    s'.log = s.log := by
  rw [getWheel_eq] at got
  rw [← (Prod.mk.inj got).2]

theorem version_of_installLocal (exact : w.Exact env p v) (asked : v ≠ "latest")
    (ran : installLocal env p v s = (.ok true, s')) :
    env.installedVersion s'.log p = some v ↔ CacheHasVersion env w p v s := by
  unfold installLocal at ran
  obtain ⟨found, s₁, got, ran⟩ := Proc.exists_of_bind_eq_ok ran
  have version := version_of_pipInstall exact ran
  have log := log_of_getWheel got
  rw [version]
  cases found with
  | none =>
    rw [localTarget, if_pos asked, PackageSource.named, exact.pinned, Option.some_or]
    refine iff_of_true rfl fun path s₂ got' => ?_
    cases got.symm.trans got'
  | some path =>
    rw [log]
    constructor
    · intro after path' s₂ got'
      obtain ⟨same, rfl⟩ := Prod.mk.inj (got.symm.trans got')
      obtain rfl := Option.some.inj (Except.ok.inj same)
      exact after
    · exact fun cached => cached path s₁ got

/-- The URL of the wheel serves a wheel of the version. -/
def UrlHasVersion (env : ClientEnv) (w : PackageSource) (p v : String) (res : PackageResolution)
    (s : PackageClient) : Prop :=
  ∀ url b cache, Served env p res s url b cache → AfterInstall env p v s (w.wheelVersion b p)

theorem Served.unique {res : PackageResolution} {url url' : String} {b b' : Bytes}
    {cache cache' : CacheManager} (h : Served env p res s url b cache)
    (h' : Served env p res s url' b' cache') : b = b' := by
  obtain ⟨s₁, chunks, tree, found, -, served, rfl, -⟩ := h
  obtain ⟨s₁', chunks', tree', found', -, served', rfl, -⟩ := h'
  obtain ⟨same, rfl⟩ := Prod.mk.inj (found.symm.trans found')
  cases same
  obtain ⟨rfl, -⟩ := StreamAnswer.served.inj (served.symm.trans served')
  rfl

theorem since_fetchWheel (p : String) (res : PackageResolution) (s : PackageClient) :
    Since (fun e => ¬ e.Installing) s (fetchWheel env p res s).2 := by
  have asked : Proc.Keeps (Since (fun e => ¬ e.Installing) s) (getWheelUrl env p) := by
    refine Proc.Keeps.recover ?_ fun _ => Proc.keeps_pure _
    refine (keeps_since_request _ id).bind fun _ => Proc.Keeps.ite ?_ (Proc.keeps_pure _)
    exact (Proc.keeps_ofExcept _).bind fun _ => Proc.keeps_ofExcept _
  refine Proc.Keeps.bind ((Proc.keeps_pure _).ite asked) (fun url => ?_) s (Since.refl s)
  exact (keeps_since_downloadWheel url fun _ => id).ite (Proc.keeps_pure _)

/-- A wheel that was downloaded and stored is read with the bytes that were served. -/
theorem stored_of_download {url : String} {b : Bytes} {dest : PyPath} {sha256 : String}
    (file : (downloadDest env url).read env.cwd s.cache.tree = .ok b)
    (stored : storeWheel env p v (downloadDest env url) sha256 s = (.ok dest, s')) :
    s'.log = s.log ∧ (downloadDest env url).read env.cwd s'.cache.tree = .ok b ∧
      wheelDest env.toCacheEnv (downloadDest env url) = downloadDest env url ∧
      ∃ entry, s'.cache.index.get? (wheelKey p v) = some entry ∧
        entry.path = downloadDest env url ∧
        entry.sha256 = if sha256 ≠ "" then sha256 else env.sha256 b := by
  have filed := storeWheel_eq env p v (downloadDest env url) sha256 s
  dsimp only at filed
  rw [stored] at filed
  obtain ⟨outcome, rfl⟩ := Prod.mk.inj filed
  cases result : CacheManager.storeWheel env.toCacheEnv p v (downloadDest env url) sha256
      (env.clock s.ticks) (env.clock (s.ticks + 1)) s.cache with
  | mk answer cache =>
    rw [result] at outcome
    cases answer with
    | error e => cases outcome
    | ok dest' =>
      have kept : Kept env url s.cache := by
        rcases CacheManager.exist_of_storeWheel result with kept | ⟨apart, l, hl⟩
        · exact kept
        · exact absurd (in_place_of_locate file hl).symm apart
      have place := kept.in_place file
      obtain ⟨cache', entry, again, read, index, path, hash⟩ :=
        CacheManager.storeWheel_in_place place file (place ▸ kept) p v sha256
          (env.clock s.ticks) (env.clock (s.ticks + 1))
      obtain ⟨-, rfl⟩ := Prod.mk.inj (result.symm.trans again)
      refine ⟨rfl, read, place, entry, ?_, path, hash⟩
      show cache.index.get? (wheelKey p v) = some entry
      rw [index, Dict.get?_set_self]

theorem version_of_installCloudWheel (exact : w.Exact env p v) {res : PackageResolution}
    (ran : installCloudWheel env p v res s = (.ok true, s')) :
    env.installedVersion s'.log p = some v ↔ UrlHasVersion env w p v res s := by
  unfold installCloudWheel at ran
  obtain ⟨found, s₁, fetched, ran⟩ := Proc.exists_of_bind_eq_ok ran
  have since : Since (fun e => ¬ e.Installing) s (fetchWheel env p res s).2 :=
    since_fetchWheel p res s
  rw [fetched] at since
  cases found with
  | none => cases ran
  | some path =>
    obtain ⟨url, b, rfl, served⟩ := served_of_fetchWheel fetched
    obtain ⟨dest, s₂, stored, ran⟩ := Proc.exists_of_bind_eq_ok ran
    obtain ⟨log, read, -⟩ := stored_of_download served.read stored
    have version := version_of_pipInstall exact ran
    have found : w.named env s₂.log s₂.cache.tree p (.pip (.downloaded (downloadDest env url))) =
        w.wheelVersion b p := by
      rw [PackageSource.named, PackageSource.fileVersion, read]
    rw [found, log, version_of_since exact since] at version
    rw [version]
    constructor
    · intro after url' b' cache' served'
      rw [← served.unique served']
      exact after
    · exact fun has => has url b s₁.cache served

/-! ## Builds -/

/-- A round of the polling loop begins in the second state; at most so many rounds are run. -/
inductive Polled (env : ClientEnv) (p v : String) (buildId : PyVal) :
    ℕ → PackageClient → PackageClient → Prop where
  | here (rounds : ℕ) (s : PackageClient) : Polled env p v buildId (rounds + 1) s s
  | later {rounds : ℕ} {s s₁ s₂ : PackageClient} :
    pollBuild env p v buildId s = (.ok none, s₁) → Polled env p v buildId rounds s₁ s₂ →
      Polled env p v buildId (rounds + 1) s s₂

/-- In the round, the build has succeeded, and its wheel is served to its end and written. -/
def RoundServes (env : ClientEnv) (buildId : PyVal) (s : PackageClient) (url : String)
    (b : Bytes) : Prop :=
  ∃ resp s₁ status state chunks tree,
    request env (buildStatusRequest env buildId) s = (.ok resp, s₁) ∧ resp.statusCode = 200 ∧
    resp.json = .ok status ∧ getField "status" status = .ok state ∧
    state.asStr? = some "succeeded" ∧ getField "wheel_url" status = .ok (.str url) ∧ url ≠ "" ∧
    env.stream s₁.log url = .served chunks false ∧ b = chunks.flatten ∧
    (downloadDest env url).write env.cwd s₁.cache.tree b = .ok tree

theorem RoundServes.unique {buildId : PyVal} {url url' : String} {b b' : Bytes}
    (h : RoundServes env buildId s url b) (h' : RoundServes env buildId s url' b') : b = b' := by
  obtain ⟨resp, s₁, status, state, chunks, tree, asked, -, json, -, -, found, -, served, rfl, -⟩ :=
    h
  obtain ⟨resp', s₁', status', state', chunks', tree', asked', -, json', -, -, found', -, served',
    rfl, -⟩ := h'
  obtain ⟨same, rfl⟩ := Prod.mk.inj (asked.symm.trans asked')
  obtain rfl := Except.ok.inj same
  obtain rfl := Except.ok.inj (json.symm.trans json')
  cases Except.ok.inj (found.symm.trans found')
  obtain ⟨rfl, -⟩ := StreamAnswer.served.inj (served.symm.trans served')
  rfl

/-- The build of the version, once it has succeeded, serves a wheel of the version. -/
def BuildHasVersion (env : ClientEnv) (w : PackageSource) (p v : String) (s : PackageClient) :
    Prop :=
  ∀ resp s₁ data buildId s₂ url b, request env (buildRequest p v) s = (.ok resp, s₁) →
    resp.json = .ok data → getField "request_id" data = .ok buildId →
    Polled env p v buildId 360 s₁ s₂ → RoundServes env buildId s₂ url b →
    AfterInstall env p v s (w.wheelVersion b p)

/-- A round in which the wheel is served ends the polling. -/
theorem RoundServes.ends {buildId : PyVal} {url : String} {b : Bytes}
    (h : RoundServes env buildId s url b) (p v : String) :
    (pollBuild env p v buildId s).1 ≠ .ok none := by
  obtain ⟨resp, s₁, status, state, chunks, tree, asked, code, json, field, succeeded, found,
    nonempty, served, rfl, written⟩ := h
  have decoded : Proc.ofExcept resp.json s₁ = (.ok status, s₁) := by rw [json]; rfl
  have stated : Proc.ofExcept (getField "status" status) s₁ = (.ok state, s₁) := by
    rw [field]; rfl
  have located : Proc.ofExcept (getField "wheel_url" status) s₁ = (.ok (.str url), s₁) := by
    rw [found]; rfl
  have truthy : (PyVal.str url).truthy = true := decide_eq_true nonempty
  have downloaded : downloadWheel env (.str url) s₁ = (.ok (some (downloadDest env url)),
      { s₁ with log := s₁.log ++ [.download url], cache := { s₁.cache with tree := tree } }) := by
    simp only [downloadWheel, receiveWheel, served, written]
    rfl
  unfold pollBuild
  rw [Proc.bind_of_ok asked, if_pos code, Proc.bind_of_ok decoded, Proc.bind_of_ok stated,
    if_pos succeeded]
  unfold fetchBuild
  rw [Proc.bind_of_ok located, if_pos truthy, Proc.bind_of_ok downloaded]
  dsimp only
  -- What the wheel is stored and installed by does not matter, and is kept from being computed.
  generalize storeWheel env p v (downloadDest env url) "" = filed
  generalize installLocal env p v = installed
  refine Proc.fst_bind_ne_ok fun dest s₂ => Proc.fst_bind_ne_ok fun passed s₃ same => ?_
  cases same

theorem Polled.unique {buildId : PyVal} {rounds : ℕ} {s s₁ s₂ : PackageClient}
    (h : Polled env p v buildId rounds s s₁) (h' : Polled env p v buildId rounds s s₂)
    (ends : (pollBuild env p v buildId s₁).1 ≠ .ok none)
    (ends' : (pollBuild env p v buildId s₂).1 ≠ .ok none) : s₁ = s₂ := by
  induction h with
  | here rounds s =>
    cases h' with
    | here => rfl
    | later round _ => exact absurd (congrArg Prod.fst round) ends
  | later round _ ih =>
    cases h' with
    | here => exact absurd (congrArg Prod.fst round) ends'
    | later round' rest =>
      obtain ⟨-, rfl⟩ := Prod.mk.inj (round.symm.trans round')
      exact ih rest ends

/-- A polling loop that returns does so in one of its rounds. -/
theorem exists_polled {buildId : PyVal} {rounds : ℕ}
    (ran : pollLoop env p v buildId rounds s = (.ok true, s')) :
    ∃ s₁, Polled env p v buildId rounds s s₁ ∧
      pollBuild env p v buildId s₁ = (.ok (some true), s') := by
  induction rounds generalizing s with
  | zero => cases ran
  | succ rounds ih =>
    unfold pollLoop at ran
    obtain ⟨result, s₁, round, ran⟩ := Proc.exists_of_bind_eq_ok ran
    cases result with
    | none =>
      obtain ⟨s₂, polled, last⟩ := ih ran
      exact ⟨s₂, .later round polled, last⟩
    | some result =>
      obtain ⟨same, rfl⟩ := Prod.mk.inj ran
      obtain rfl := Except.ok.inj same
      exact ⟨s, .here rounds s, round⟩

/-- What an answer is taken apart into changes nothing. -/
theorem of_ofExcept {α : Type} {x : Except ClientExc α} {a : α}
    (h : Proc.ofExcept x s = (.ok a, s')) : x = .ok a ∧ s' = s :=
  ⟨(Prod.mk.inj h).1, (Prod.mk.inj h).2.symm⟩

theorem since_request (r : HttpRequest) {resp : HttpResponse}
    (asked : request env r s = (.ok resp, s')) : Since (fun e => ¬ e.Installing) s s' := by
  have kept : Proc.Keeps (Since (fun e => ¬ e.Installing) s) (request env r) :=
    keeps_since_request r id
  have since := kept s (Since.refl s)
  rwa [asked] at since

theorem since_downloadWheel {url : PyVal} {found : Option PyPath}
    (downloaded : downloadWheel env url s = (.ok found, s')) :
    Since (fun e => ¬ e.Installing) s s' := by
  have kept : Proc.Keeps (Since (fun e => ¬ e.Installing) s) (downloadWheel env url) :=
    keeps_since_downloadWheel url fun _ => id
  have since := kept s (Since.refl s)
  rwa [downloaded] at since

/-- How a round of the polling loop ends that raises nothing. -/
theorem pollBuild_eq_ok {buildId : PyVal} {result : Option Bool}
    (ran : pollBuild env p v buildId s = (.ok result, s')) :
    result = some false ∨ result = none ∧ Since (fun e => ¬ e.Installing) s s' ∨
      ∃ url b s₁ s₂ dest passed, RoundServes env buildId s url b ∧
        Since (fun e => ¬ e.Installing) s s₁ ∧
        (downloadDest env url).read env.cwd s₁.cache.tree = .ok b ∧
        storeWheel env p v (downloadDest env url) "" s₁ = (.ok dest, s₂) ∧
        installLocal env p v s₂ = (.ok passed, s') ∧ result = some passed := by
  unfold pollBuild at ran
  obtain ⟨resp, s₁, asked, polled⟩ := Proc.exists_of_bind_eq_ok ran
  have since := since_request _ asked
  split_ifs at polled with code
  · obtain ⟨status, s₂, decoded, read⟩ := Proc.exists_of_bind_eq_ok polled
    obtain ⟨json, rfl⟩ := of_ofExcept decoded
    obtain ⟨state, s₃, stated, chosen⟩ := Proc.exists_of_bind_eq_ok read
    obtain ⟨field, rfl⟩ := of_ofExcept stated
    split_ifs at chosen with succeeded failed
    · unfold fetchBuild at chosen
      obtain ⟨url, s₄, located, fetched⟩ := Proc.exists_of_bind_eq_ok chosen
      obtain ⟨found, rfl⟩ := of_ofExcept located
      split_ifs at fetched with truthy
      · obtain ⟨path, s₅, downloaded, filed⟩ := Proc.exists_of_bind_eq_ok fetched
        have since' := since.trans (since_downloadWheel downloaded)
        cases path with
        | none =>
          obtain ⟨same, rfl⟩ := Prod.mk.inj filed
          exact .inr (.inl ⟨(Except.ok.inj same).symm, since'⟩)
        | some path =>
          obtain ⟨url, chunks, tree, rfl, rfl, served, written, cache⟩ :=
            exists_of_downloadWheel downloaded
          obtain ⟨dest, s₆, stored, tried⟩ := Proc.exists_of_bind_eq_ok filed
          obtain ⟨passed, s₇, installed, last⟩ := Proc.exists_of_bind_eq_ok tried
          obtain ⟨same, rfl⟩ := Prod.mk.inj last
          refine .inr (.inr ⟨url, chunks.flatten, s₅, s₆, dest, passed, ?_, since', ?_, stored,
            installed, (Except.ok.inj same).symm⟩)
          · exact ⟨resp, s₄, status, state, chunks, tree, asked, code, json, field, succeeded,
              found, of_decide_eq_true truthy, served, rfl, written⟩
          · rw [cache]
            exact PyPath.read_of_write written
      · obtain ⟨same, rfl⟩ := Prod.mk.inj fetched
        exact .inr (.inl ⟨(Except.ok.inj same).symm, since⟩)
    · obtain ⟨same, rfl⟩ := Prod.mk.inj chosen
      exact .inl (Except.ok.inj same).symm
    · obtain ⟨same, rfl⟩ := Prod.mk.inj chosen
      exact .inr (.inl ⟨(Except.ok.inj same).symm, since⟩)
  · obtain ⟨same, rfl⟩ := Prod.mk.inj polled
    exact .inr (.inl ⟨(Except.ok.inj same).symm, since⟩)

theorem since_polled {buildId : PyVal} {rounds : ℕ} {s s₁ : PackageClient}
    (h : Polled env p v buildId rounds s s₁) : Since (fun e => ¬ e.Installing) s s₁ := by
  induction h with
  | here rounds s => exact Since.refl s
  | later round _ ih =>
    rcases pollBuild_eq_ok round with failed | ⟨-, since⟩ | ⟨url, b, s₁, s₂, dest, passed, h⟩
    · cases failed
    · exact since.trans ih
    · cases h.2.2.2.2.2

/-- The wheel that was just stored is the one that the cache answers with. -/
theorem cacheHasVersion_of_stored {url : String} {b : Bytes} {dest : PyPath}
    (file : (downloadDest env url).read env.cwd s.cache.tree = .ok b)
    (stored : storeWheel env p v (downloadDest env url) "" s = (.ok dest, s')) :
    CacheHasVersion env w p v s' ↔ AfterInstall env p v s' (w.wheelVersion b p) := by
  obtain ⟨-, read, place, entry, found, path, hash⟩ := stored_of_download file stored
  rw [if_neg (by simp)] at hash
  obtain ⟨l, hl, node⟩ := PyPath.read_eq_ok_iff.1 read
  have answer : ∃ s₁, getWheel env p v s' = (.ok (some (downloadDest env url)), s₁) ∧
      (downloadDest env url).read env.cwd s₁.cache.tree = .ok b := by
    have lookup := CacheManager.getWheel_lookup env.toCacheEnv p v (env.clock s'.ticks) s'.cache
    have got := getWheel_eq env p v s'
    generalize CacheManager.getWheel env.toCacheEnv p v (env.clock s'.ticks) s'.cache = r
      at lookup got
    cases lookup with
    | absent absent => cases absent.symm.trans found
    | missing e he hn =>
      obtain rfl := Option.some.inj (he.symm.trans found)
      rw [path, PyPath.node?_eq_some_iff.2 ⟨l, hl, node⟩] at hn
      cases hn
    | directory e l' he hl' dir =>
      obtain rfl := Option.some.inj (he.symm.trans found)
      rw [path] at hl'
      obtain rfl := Except.ok.inj (hl.symm.trans hl')
      rw [FileTree.IsDir, node] at dir
      cases dir
    | corrupt e l' b' he hl' node' wrong =>
      obtain rfl := Option.some.inj (he.symm.trans found)
      rw [path] at hl'
      obtain rfl := Except.ok.inj (hl.symm.trans hl')
      obtain rfl := FileTree.Node.file.inj (Option.some.inj (node.symm.trans node'))
      exact absurd hash.symm wrong
    | found e l' b' he hl' node' right =>
      obtain rfl := Option.some.inj (he.symm.trans found)
      rw [path] at got
      exact ⟨_, got, place ▸ CacheManager.read_saveIndex env.toCacheEnv (place.symm ▸ read)⟩
  obtain ⟨s₁, got, read'⟩ := answer
  have version : w.fileVersion env s₁.cache.tree p (downloadDest env url) = w.wheelVersion b p := by
    rw [PackageSource.fileVersion, read']
  constructor
  · intro has
    exact version ▸ has _ s₁ got
  · intro after path' s₂ got'
    obtain ⟨same, rfl⟩ := Prod.mk.inj (got.symm.trans got')
    obtain rfl := Option.some.inj (Except.ok.inj same)
    rw [version]
    exact after

theorem version_of_installCloudBuild (exact : w.Exact env p v) (asked : v ≠ "latest")
    (ran : installCloudBuild env p v s = (.ok true, s')) :
    env.installedVersion s'.log p = some v ↔ BuildHasVersion env w p v s := by
  have body := Proc.eq_ok_of_recover ran fun e s₁ h => by cases h
  obtain ⟨resp, s₁, requested, accepted⟩ := Proc.exists_of_bind_eq_ok body
  split_ifs at accepted with code
  · obtain ⟨data, s₂, decoded, named⟩ := Proc.exists_of_bind_eq_ok accepted
    obtain ⟨json, rfl⟩ := of_ofExcept decoded
    obtain ⟨buildId, s₃, located, looped⟩ := Proc.exists_of_bind_eq_ok named
    obtain ⟨field, rfl⟩ := of_ofExcept located
    obtain ⟨s₄, polled, last⟩ := exists_polled looped
    rcases pollBuild_eq_ok last with failed | ⟨none, -⟩ |
      ⟨url, b, s₅, s₆, dest, passed, serves, since, read, stored, installed, same⟩
    · cases failed
    · cases none
    · obtain rfl := Option.some.inj same
      have before : Since (fun e => ¬ e.Installing) s s₅ :=
        ((since_request _ requested).trans (since_polled polled)).trans since
      have log := (stored_of_download read stored).1
      rw [version_of_installLocal exact asked installed, cacheHasVersion_of_stored read stored,
        AfterInstall, log, version_of_since exact before]
      constructor
      · intro after resp' s₁' data' buildId' s₂' url' b' requested' json' field' polled' serves'
        obtain ⟨same, rfl⟩ := Prod.mk.inj (requested.symm.trans requested')
        obtain rfl := Except.ok.inj same
        obtain rfl := Except.ok.inj (json.symm.trans json')
        obtain rfl := Except.ok.inj (field.symm.trans field')
        obtain rfl := polled.unique polled' (serves.ends p v) (serves'.ends p v)
        obtain rfl := serves.unique serves'
        exact after
      · exact fun has => has resp _ data buildId s₄ url b requested json field polled serves
  · cases accepted

/-! ## Installations -/

/-- The strategy succeeds in the second state, after those before it in the list have failed. -/
inductive Tried (env : ClientEnv) (p v : String) (res : PackageResolution) :
    List PackageStrategy → PackageClient → PackageStrategy → PackageClient → PackageClient →
      Prop where
  | here (st : PackageStrategy) (rest : List PackageStrategy) {s s' : PackageClient} :
    executeStrategy env p v res st s = (.ok true, s') → Tried env p v res (st :: rest) s st s s'
  | later (st : PackageStrategy) {st' : PackageStrategy} {rest : List PackageStrategy}
    {s s₁ s₂ s' : PackageClient} {result : Except ClientExc Bool} :
    executeStrategy env p v res st s = (result, s₁) → result ≠ .ok true →
      Tried env p v res rest s₁ st' s₂ s' → Tried env p v res (st :: rest) s st' s₂ s'

/-- How an installation comes to return `True`: the package is there, or a strategy succeeds in
`s₁`. -/
inductive Way (env : ClientEnv) (p v : String) (force : Bool) (s s' : PackageClient) :
    Option PackageStrategy → PackageResolution → PackageClient → Prop where
  | present (res : PackageResolution) : resolve env p v s = (.ok res, s') →
    res.strategy = .localInstall → ¬ force → res.reason = "Already installed locally" →
      Way env p v force s s' none res s'
  | tried {res : PackageResolution} {st : PackageStrategy} {s₀ s₁ : PackageClient} :
    resolve env p v s = (.ok res, s₀) →
      Tried env p v res (res.strategy :: res.fallbackStrategies) s₀ st s₁ s' →
        Way env p v force s s' (some st) res s₁

/-- The package is reported as installed, or installed here by the strategy. -/
def LocalWay : Option PackageStrategy → Prop
  | none => True
  | some st => st ∈ [.localInstall, .termuxPkg, .cloudWheel, .cloudBuild]

/-- What the way takes has the version that was asked for. -/
def SourceHasVersion (env : ClientEnv) (w : PackageSource) (p v : String)
    (s : PackageClient) (res : PackageResolution) (s₁ : PackageClient) :
    Option PackageStrategy → Prop
  | none => env.installedVersion s.log p = some v
  | some st =>
    let s₂ : PackageClient := { s₁ with log := s₁.log ++ [.strategy st] }
    match st with
    | .localInstall => CacheHasVersion env w p v s₂
    | .termuxPkg => AfterInstall env p v s₂ (w.termuxVersion s₂.log ("python-" ++ p) p)
    | .cloudWheel => UrlHasVersion env w p v res s₂
    | .cloudBuild => BuildHasVersion env w p v s₂
    | .cloudExec => False
    | .hybrid => False

theorem exists_tried {res : PackageResolution} {strategies : List PackageStrategy} {result : Bool}
    (ran : tryStrategies env p v res strategies s = (.ok result, s')) :
    ∃ st s₁, Tried env p v res strategies s st s₁ s' := by
  induction strategies generalizing s with
  | nil => cases ran
  | cons st rest ih =>
    rw [tryStrategies_cons] at ran
    cases executed : executeStrategy env p v res st s with
    | mk outcome s₁ =>
      rw [executed] at ran
      by_cases success : outcome = .ok true
      · rw [success] at ran executed
        obtain ⟨-, rfl⟩ := Prod.mk.inj ran
        exact ⟨st, s, .here st rest executed⟩
      · have tried : tryStrategies env p v res rest s₁ = (.ok result, s') := by
          split at ran
          · next same => exact absurd (Prod.mk.inj same).1 success
          · next same =>
            obtain ⟨-, rfl⟩ := Prod.mk.inj same
            exact ran
        obtain ⟨st', s₂, later⟩ := ih tried
        exact ⟨st', s₂, .later st executed success later⟩

theorem exists_way {force result : Bool} (ran : install env p v force s = (.ok result, s')) :
    ∃ way res s₁, Way env p v force s s' way res s₁ := by
  unfold install at ran
  obtain ⟨res, s₀, resolved, chosen⟩ := Proc.exists_of_bind_eq_ok ran
  split_ifs at chosen with present
  · obtain ⟨-, rfl⟩ := Prod.mk.inj chosen
    exact ⟨none, res, _, .present res resolved present.1 present.2.1 present.2.2⟩
  · obtain ⟨st, s₁, tried⟩ := exists_tried chosen
    exact ⟨some st, res, s₁, .tried resolved tried⟩

theorem executed_of_tried {res : PackageResolution} {strategies : List PackageStrategy}
    {st : PackageStrategy} {s₁ : PackageClient}
    (tried : Tried env p v res strategies s st s₁ s') :
    executeStrategy env p v res st s₁ = (.ok true, s') := by
  induction tried with
  | here st rest executed => exact executed
  | later st executed failed tried ih => exact ih

theorem reason_of_localResolution {res : PackageResolution}
    (h : localResolution env p v s = (.ok res, s')) :
    res.reason ≠ "Already installed locally" := by
  unfold localResolution at h
  obtain ⟨termux, s₁, -, h⟩ := Proc.exists_of_bind_eq_ok h
  split_ifs at h
  · rw [← Proc.eq_of_pure_eq_ok h]
    simp
  · rw [← Proc.eq_of_pure_eq_ok h]
    simp
  · rw [← Proc.eq_of_pure_eq_ok h]
    simp

/-- The package is reported as installed only when the look-up finds it, which changes nothing. -/
theorem state_of_present {res : PackageResolution} (resolved : resolve env p v s = (.ok res, s'))
    (reason : res.reason = "Already installed locally") : s' = s := by
  have resolution := resolve_resolution env p v s
  rw [resolved] at resolution
  generalize answer : (Except.ok res, s') = r at resolution
  cases resolution with
  | unknown e spec => cases answer
  | failed e s₁ spec got => cases answer
  | installed version spec => exact (Prod.mk.inj answer).2
  | cached path s₁ spec got =>
    obtain rfl := Except.ok.inj (Prod.mk.inj answer).1
    exact absurd reason (by simp [cachedResolution])
  | registry info s₁ s₂ spec got asked =>
    obtain rfl := Except.ok.inj (Prod.mk.inj answer).1
    have first := congrArg (fun reason : String => reason.toList.head?) reason
    simp [cloudResolution] at first
  | unlisted s₁ s₂ spec got asked => exact absurd reason (reason_of_localResolution answer.symm)

/-- After an installation that returns `True`, without setting the package up for the cloud, the
version is the one that was asked for exactly when what it took has that version. -/
theorem install_version_iff (env : ClientEnv) (w : PackageSource) (p v : String) (force : Bool)
    (exact : w.Exact env p v) (asked : v ≠ "latest") (s s' : PackageClient)
    (installed : install env p v force s = (.ok true, s')) :
    (∃ way res s₁, Way env p v force s s' way res s₁) ∧
      ∀ way res s₁, Way env p v force s s' way res s₁ → LocalWay way →
        (env.installedVersion s'.log p = some v ↔ SourceHasVersion env w p v s res s₁ way) := by
  refine ⟨exists_way installed, fun way res s₁ h here => ?_⟩
  cases h with
  | present res resolved strategy unforced reason =>
    rw [state_of_present resolved reason]
    exact Iff.rfl
  | @tried res st s₀ s₁ resolved tried =>
    have executed := executed_of_tried tried
    change (emit (.strategy st) >>= fun _ => _) s₁ = _ at executed
    rw [Proc.bind_of_ok (show emit (.strategy st) s₁ = (.ok (), _) from rfl)] at executed
    cases st with
    | localInstall => exact version_of_installLocal exact asked executed
    | termuxPkg =>
      rw [version_of_installTermux exact executed]
      exact Iff.rfl
    | cloudWheel => exact version_of_installCloudWheel exact executed
    | cloudBuild => exact version_of_installCloudBuild exact asked executed
    | cloudExec => exact absurd here (by simp [LocalWay])
    | hybrid => exact absurd here (by simp [LocalWay])

/-- pip finds the requirement that names the version, and no other package. -/
def sampleSource : PackageSource where
  wheelVersion _ _ := none
  requirementVersion _ spec _ := if spec = "requests" ++ "==" ++ "2.0" then some "2.0" else none
  termuxVersion _ _ _ := none

/-- A device on which pip works, and nothing is installed. -/
def workingEnv : ClientEnv := { sampleClientEnv with exec := fun _ _ => .ok ⟨0, ""⟩ }

/-- The same device, where the version that is there, if any, is `present` at first. -/
def versionedEnv (present : Option String) : ClientEnv :=
  { workingEnv with
    findSpec := fun _ _ => .ok present.isSome
    installedVersion := fun log p =>
      log.foldl (fun found e => (sampleSource.effect workingEnv [] p e).or found) present }

theorem exact_versionedEnv (present : Option String) :
    sampleSource.Exact (versionedEnv present) "requests" "2.0" where
  step log e := by
    have effect : sampleSource.effect (versionedEnv present) log "requests" e =
        sampleSource.effect workingEnv [] "requests" e := by
      cases e with
      | exec c tree =>
        cases c with
        | pip target =>
          cases target with
          | downloaded path => rfl
          | cached path => rfl
          | requirement spec => rfl
        | pkg name => rfl
        | apt name => rfl
      | strategy st => rfl
      | http request => rfl
      | download url => rfl
      | register package => rfl
    rw [effect]
    show List.foldl _ _ (log ++ [e]) = _
    rw [List.foldl_append]
    rfl
  pinned log := by
    show (if "requests" ++ "==" ++ "2.0" = "requests" ++ "==" ++ "2.0" then some "2.0"
      else none) = _
    rw [if_pos rfl]

theorem install_version_iff_requirement :
    ∃ s', install (versionedEnv none) "requests" "2.0" false sampleClient = (.ok true, s') ∧
      (versionedEnv none).installedVersion s'.log "requests" = some "2.0" := by
  let env := versionedEnv none
  let res : PackageResolution := ((resolve env "requests" "2.0" sampleClient).1.toOption).getD
    (cachedResolution "requests" "2.0")
  let s₀ := (resolve env "requests" "2.0" sampleClient).2
  let s' := (executeStrategy env "requests" "2.0" res .localInstall s₀).2
  have installed : install env "requests" "2.0" false sampleClient = (.ok true, s') := rfl
  have way : Way env "requests" "2.0" false sampleClient s' (some .localInstall) res s₀ :=
    .tried rfl (.here .localInstall res.fallbackStrategies rfl)
  have cached : SourceHasVersion env sampleSource "requests" "2.0" sampleClient res s₀
      (some .localInstall) := fun path s₁ got => by cases got
  exact ⟨s', installed, ((install_version_iff env sampleSource "requests" "2.0" false
    (exact_versionedEnv none) (by decide) sampleClient s' installed).2 _ res s₀ way
      (by simp [LocalWay])).2 cached⟩

/-- A package that is there in another version is reported as installed. -/
theorem install_keeps_version :
    sampleSource.Exact (versionedEnv (some "1.0")) "requests" "2.0" ∧
      install (versionedEnv (some "1.0")) "requests" "2.0" false sampleClient =
        (.ok true, sampleClient) ∧
      (versionedEnv (some "1.0")).installedVersion sampleClient.log "requests" = some "1.0" :=
  ⟨exact_versionedEnv (some "1.0"), rfl, rfl⟩

end PackageClient

end Cpip
