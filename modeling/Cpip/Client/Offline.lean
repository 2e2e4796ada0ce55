import Cpip.Client.CacheLedger
import Cpip.Client.Trace

/-!
# Installing offline

In offline mode the registry is not asked, but the last steps of the resolution offer cloud
strategies all the same, and the installer follows them.  Nothing goes to the cloud exactly when the
resolution does not get that far.
-/

namespace Cpip

namespace CacheManager

variable {env : CacheEnv}

/-- `get_wheel` answers otherwise than with nothing: the entry of the wheel is for a file with its
hash, or for a directory, at which it raises. -/
def Answers (env : CacheEnv) (s : CacheManager) (p v : String) : Prop :=
  ∃ e l, s.index.get? (wheelKey p v) = some e ∧ e.path.locate env.cwd s.tree = .ok l ∧
    (s.tree.IsDir l ∨ ∃ b, s.tree.node? l = some (.file b) ∧ env.sha256 b = e.sha256)

theorem getWheel_eq_none_iff {p v : String} {now : ℚ} {s : CacheManager} :
    (getWheel env p v now s).1 = .ok none ↔ ¬ Answers env s p v := by
  have found := getWheel_lookup env p v now s
  generalize getWheel env p v now s = r at found ⊢
  cases found with
  | absent absent =>
    refine iff_of_true rfl ?_
    rintro ⟨e, l, he, -⟩
    cases absent.symm.trans he
  | missing e he hn =>
    refine iff_of_true rfl ?_
    rintro ⟨e', l, he', hl, hnode⟩
    obtain rfl := Option.some.inj (he.symm.trans he')
    rcases hnode with dir | ⟨b, file, -⟩
    · rw [PyPath.node?_eq_some_iff.2 ⟨l, hl, dir⟩] at hn
      cases hn
    · rw [PyPath.node?_eq_some_iff.2 ⟨l, hl, file⟩] at hn
      cases hn
  | directory e l he hl dir =>
    exact iff_of_false nofun (not_not.2 ⟨e, l, he, hl, Or.inl dir⟩)
  | corrupt e l b he hl hnode wrong =>
    refine iff_of_true rfl ?_
    rintro ⟨e', l', he', hl', hnode'⟩
    obtain rfl := Option.some.inj (he.symm.trans he')
    obtain rfl := Except.ok.inj (hl.symm.trans hl')
    rcases hnode' with dir | ⟨b', file, hash⟩
    · rw [FileTree.IsDir, hnode] at dir
      cases dir
    · obtain rfl := FileTree.Node.file.inj (Option.some.inj (hnode.symm.trans file))
      exact wrong hash
  | found e l b he hl hnode hash =>
    exact iff_of_false nofun (not_not.2 ⟨e, l, he, hl, Or.inr ⟨b, hnode, hash⟩⟩)

end CacheManager

/-- The event sends something to the cloud, or registers a package for cloud execution. -/
def ClientEvent.IsCloud : ClientEvent → Prop
  | .http _ => True
  | .download _ => True
  | .register _ => True
  | _ => False

instance (e : ClientEvent) : Decidable e.IsCloud := by
  cases e <;> unfold ClientEvent.IsCloud <;> infer_instance

namespace PackageClient

open CacheManager (sampleCacheEnv sampleTree)

variable {env : ClientEnv}

/-! ## Quiet procedures -/

/-- Since `s₀` nothing went to the cloud, and no package was registered. -/
def Quiet (s₀ s : PackageClient) : Prop :=
  s.cloudPackages = s₀.cloudPackages ∧ Since (fun e => ¬ e.IsCloud) s₀ s

theorem Quiet.refl (s : PackageClient) : Quiet s s := ⟨rfl, Since.refl s⟩

theorem Quiet.snoc {s₀ s : PackageClient} (h : Quiet s₀ s) {e : ClientEvent} (he : ¬ e.IsCloud) :
    Quiet s₀ { s with log := s.log ++ [e] } := ⟨h.1, h.2.snoc he rfl⟩

variable {s₀ : PackageClient}

theorem keeps_quiet_emit {e : ClientEvent} (h : ¬ e.IsCloud) : Proc.Keeps (Quiet s₀) (emit e) :=
  fun _ quiet => quiet.snoc h

theorem keeps_quiet_run (c : Command) : Proc.Keeps (Quiet s₀) (run env c) :=
  fun _ quiet => quiet.snoc id

theorem keeps_quiet_now : Proc.Keeps (Quiet s₀) (now env) := fun _ quiet => quiet

theorem keeps_quiet_withCache {α : Type}
    (f : CacheManager → Except FileError α × CacheManager) :
    Proc.Keeps (Quiet s₀) (withCache f) := fun _ quiet => quiet

theorem keeps_quiet_getWheel (p v : String) : Proc.Keeps (Quiet s₀) (getWheel env p v) :=
  keeps_quiet_now.bind fun _ => keeps_quiet_withCache _

theorem keeps_quiet_pipInstall (target : PipTarget) :
    Proc.Keeps (Quiet s₀) (pipInstall env target) :=
  (keeps_quiet_run _).bind fun _ => Proc.keeps_pure _

/-- A strategy that is not for the cloud sends nothing there. -/
theorem keeps_quiet_executeStrategy (p v : String) (res : PackageResolution)
    {strategy : PackageStrategy} (h : ¬ strategy.IsCloud) :
    Proc.Keeps (Quiet s₀) (executeStrategy env p v res strategy) := by
  refine (keeps_quiet_emit id).bind fun _ => ?_
  cases strategy with
  | localInstall =>
    exact (keeps_quiet_getWheel p v).bind fun _ => keeps_quiet_pipInstall _
  | termuxPkg => exact (keeps_quiet_run _).bind fun _ => Proc.keeps_pure _
  | cloudWheel => exact absurd trivial h
  | cloudBuild => exact absurd trivial h
  | cloudExec => exact absurd trivial h
  | hybrid => exact absurd trivial h

theorem keeps_quiet_tryStrategies (p v : String) (res : PackageResolution)
    {strategies : List PackageStrategy} (h : ∀ st ∈ strategies, ¬ st.IsCloud) :
    Proc.Keeps (Quiet s₀) (tryStrategies env p v res strategies) := by
  induction strategies with
  | nil => exact Proc.keeps_raise _
  | cons strategy rest ih =>
    rw [List.forall_mem_cons] at h
    refine ((keeps_quiet_executeStrategy p v res h.1).recover fun _ =>
      Proc.keeps_pure _).bind fun success => ?_
    exact (Proc.keeps_pure _).ite (ih h.2)

theorem keeps_quiet_hasTermuxPkg (p : String) : Proc.Keeps (Quiet s₀) (hasTermuxPkg env p) :=
  ((keeps_quiet_run _).bind fun _ => Proc.keeps_pure _).recover fun _ => Proc.keeps_pure _

theorem keeps_quiet_localResolution (p v : String) :
    Proc.Keeps (Quiet s₀) (localResolution env p v) := by
  have termux : Proc.Keeps (Quiet s₀) (termuxAvailable env p) :=
    (keeps_quiet_hasTermuxPkg p).ite (Proc.keeps_pure _)
  refine termux.bind fun _ => ?_
  exact (Proc.keeps_pure _).ite ((Proc.keeps_pure _).ite (Proc.keeps_pure _))

theorem keeps_quiet_resolve (offline : env.offlineMode = true) (p v : String) :
    Proc.Keeps (Quiet s₀) (resolve env p v) := by
  refine Proc.Keeps.bind (fun _ quiet => quiet) fun installed => Proc.Keeps.ite ?_ ?_
  · exact Proc.Keeps.bind (fun _ quiet => quiet) fun _ => Proc.keeps_pure _
  · refine (keeps_quiet_getWheel p v).bind fun cached => (Proc.keeps_pure _).ite ?_
    refine Proc.Keeps.bind ?_ fun info => ?_
    · rw [registryInfo, if_pos offline]
      exact Proc.keeps_pure _
    · cases info with
      | none => exact keeps_quiet_localResolution p v
      | some info => exact Proc.keeps_pure _

/-! ## Resolving offline -/

/-- `apt` lists the Termux package of the package. -/
def TermuxLists (env : ClientEnv) (s : PackageClient) (p : String) : Prop :=
  ∃ r, env.exec s.log ((Command.apt ("python-" ++ p)).argv env.executable) = .ok r ∧
    ("python-" ++ p).toList <:+: r.stdout.toList

/-- Offline, the resolution comes to its end before it offers the cloud: the look-up of the module
finds it or raises, the cache answers, or the package is a Termux package on Termux. -/
def Settled (env : ClientEnv) (s : PackageClient) (p v : String) : Prop :=
  env.findSpec s.log (moduleName env p) ≠ .ok false ∨
    CacheManager.Answers env.toCacheEnv s.cache p v ∨
    (env.isTermux = true ∧ TermuxLists env s p)

/-- No strategy of the resolution is for the cloud. -/
def Local (res : PackageResolution) : Prop :=
  ∀ st ∈ res.strategy :: res.fallbackStrategies, ¬ st.IsCloud

theorem hasTermuxPkg_eq (p : String) (s : PackageClient) :
    ∃ b s', hasTermuxPkg env p s = (.ok b, s') ∧ (b = true ↔ TermuxLists env s p) := by
  unfold hasTermuxPkg Proc.recover TermuxLists
  simp only [Proc.bind_apply, run]
  cases env.exec s.log ((Command.apt ("python-" ++ p)).argv env.executable) with
  | error e => exact ⟨false, _, rfl, by simp⟩
  | ok r => exact ⟨_, _, rfl, by simp⟩

theorem localResolution_local_iff (p v : String) (s : PackageClient) :
    (∀ res s', localResolution env p v s = (.ok res, s') → Local res) ↔
      env.isTermux = true ∧ TermuxLists env s p := by
  have termux : ∃ b s', termuxAvailable env p s = (.ok b, s') ∧
      (b = true ↔ env.isTermux = true ∧ TermuxLists env s p) := by
    unfold termuxAvailable
    split_ifs with h
    · obtain ⟨b, s', eq, iff⟩ := hasTermuxPkg_eq p s
      exact ⟨b, s', eq, by rw [iff, and_iff_right h]⟩
    · exact ⟨false, s, rfl, by simp [h]⟩
  obtain ⟨b, s', eq, iff⟩ := termux
  rw [← iff]
  unfold localResolution
  rw [Proc.bind_of_ok eq]
  cases b with
  | true =>
    refine iff_of_true ?_ rfl
    rintro res t h
    obtain rfl := Except.ok.inj (Prod.mk.inj h).1
    simp [Local, PackageStrategy.IsCloud]
  | false =>
    refine iff_of_false ?_ (by simp)
    rw [if_neg (by simp)]
    split_ifs
    · exact fun h => h _ _ rfl .cloudExec (by simp) trivial
    · exact fun h => h _ _ rfl .cloudWheel (by simp) trivial

/-- The look-up of the resolution finds nothing when the cache does not answer. -/
theorem answers_of_getWheel {p v : String} {s s₁ : PackageClient}
    {answer : Except ClientExc (Option PyPath)} (got : getWheel env p v s = (answer, s₁)) :
    answer = .ok none ↔ ¬ CacheManager.Answers env.toCacheEnv s.cache p v := by
  have silent : (CacheManager.getWheel env.toCacheEnv p v (env.clock s.ticks) s.cache).1 =
      .ok none ↔ _ := CacheManager.getWheel_eq_none_iff
  rw [← silent]
  rw [getWheel_eq] at got
  obtain ⟨rfl, -⟩ := Prod.mk.inj got
  cases (CacheManager.getWheel env.toCacheEnv p v (env.clock s.ticks) s.cache).1 with
  | error e => simp [Except.mapError]
  | ok found => simp [Except.mapError]

theorem local_of_alone {res : PackageResolution} (strategy : res.strategy = .localInstall)
    (fallbacks : res.fallbackStrategies = []) : Local res := by
  simp [Local, strategy, fallbacks, PackageStrategy.IsCloud]

/-- Offline, the resolution is free of the cloud exactly when it is settled before. -/
theorem resolve_local_iff (offline : env.offlineMode = true) (p v : String) (s : PackageClient) :
    (∀ res s', resolve env p v s = (.ok res, s') → Local res) ↔ Settled env s p v := by
  have unasked (s₁ : PackageClient) : registryInfo env p v s₁ = (.ok none, s₁) := by
    rw [registryInfo, if_pos offline]
    rfl
  have resolution := resolve_resolution env p v s
  generalize resolve env p v s = r at resolution ⊢
  unfold Settled
  cases resolution with
  | unknown e spec =>
    refine iff_of_true (fun res s' h => nomatch (Prod.mk.inj h).1) (Or.inl ?_)
    exact fun found => nomatch spec.symm.trans found
  | installed version spec =>
    refine iff_of_true (fun res s' h => ?_) (Or.inl fun found => nomatch spec.symm.trans found)
    rw [← Except.ok.inj (Prod.mk.inj h).1]
    exact local_of_alone rfl rfl
  | failed e s₁ spec got =>
    refine iff_of_true (fun res s' h => nomatch (Prod.mk.inj h).1) (Or.inr (Or.inl ?_))
    exact not_not.1 fun h => nomatch (answers_of_getWheel got).2 h
  | cached path s₁ spec got =>
    refine iff_of_true (fun res s' h => ?_) (Or.inr (Or.inl ?_))
    · rw [← Except.ok.inj (Prod.mk.inj h).1]
      exact local_of_alone rfl rfl
    · exact not_not.1 fun h => nomatch (answers_of_getWheel got).2 h
  | registry info s₁ s₂ spec got asked => cases (unasked s₁).symm.trans asked
  | unlisted s₁ s₂ spec got asked =>
    obtain rfl := (Prod.mk.inj ((unasked s₁).symm.trans asked)).2
    have silent := (answers_of_getWheel got).1 rfl
    have log : s₁.log = s.log := by
      rw [getWheel_eq] at got
      rw [← (Prod.mk.inj got).2]
    refine (localResolution_local_iff p v s₁).trans ?_
    simp only [spec, ne_eq, not_true_eq_false, silent, false_or, TermuxLists, log]

/-! ## Installing offline -/

/-- An installation sends nothing to the cloud and registers no package, and its resolution has no
strategy for the cloud. -/
def StaysLocal (env : ClientEnv) (s : PackageClient) (p v : String) (force : Bool) : Prop :=
  Quiet s (install env p v force s).2 ∧
    ∀ res s', resolve env p v s = (.ok res, s') → Local res

/-- A device that is offline, with nothing installed and a `pip` that fails. -/
def sampleClientEnv : ClientEnv where
  toCacheEnv := sampleCacheEnv
  offlineMode := true
  gpuOffload := true
  isTermux := false
  hasGpu := false
  architecture := "aarch64"
  pythonVersion := "3.11"
  executable := "python3"
  lower := fun s => String.ofList (s.toList.map Char.toLower)
  text := plainText
  validate := fun _ => none
  clock := fun n => n
  findSpec := fun _ _ => .ok false
  installedVersion := fun _ _ => none
  http := fun _ _ => .error (.other "no route to host")
  stream := fun _ _ => .refused
  exec := fun _ _ => .ok ⟨1, ""⟩

def sampleClient : PackageClient := ⟨⟨sampleTree, ∅⟩, ∅, [], 0⟩

/-- Offline, an installation stays local exactly when the resolution is settled before it comes to
the cloud. -/
theorem install_staysLocal_iff (env : ClientEnv) (offline : env.offlineMode = true)
    (s : PackageClient) (p v : String) (force : Bool) :
    StaysLocal env s p v force ↔ Settled env s p v := by
  rw [← resolve_local_iff offline]
  refine ⟨And.right, fun resolved => ⟨?_, resolved⟩⟩
  have quiet := keeps_quiet_resolve offline p v s (Quiet.refl s)
  unfold install
  cases hres : resolve env p v s with
  | mk result s' =>
    rw [hres] at quiet
    cases result with
    | error e =>
      rw [Proc.bind_of_error hres]
      exact quiet
    | ok res =>
      rw [Proc.bind_of_ok hres]
      have tried : Proc.Keeps (Quiet s)
          (tryStrategies env p v res (res.strategy :: res.fallbackStrategies)) :=
        keeps_quiet_tryStrategies p v res (resolved res s' hres)
      exact ((Proc.keeps_pure true).ite tried) s' quiet

theorem install_staysLocal_iff_installed :
    StaysLocal { sampleClientEnv with findSpec := fun _ _ => .ok true } sampleClient "requests"
      "latest" false :=
  (install_staysLocal_iff _ rfl _ _ _ _).2 (Or.inl (by decide))

/-- Offline, a package that is neither installed nor cached is asked for in the cloud. -/
theorem install_offline_asks_cloud :
    ¬ StaysLocal sampleClientEnv sampleClient "requests" "latest" false ∧
      ∃ e ∈ (install sampleClientEnv "requests" "latest" false sampleClient).2.log, e.IsCloud := by
  have registered :
      (install sampleClientEnv "requests" "latest" false sampleClient).2.log.getLast? =
        some (.register "requests") := rfl
  refine ⟨fun stays => ?_, .register "requests", List.mem_of_getLast? registered, trivial⟩
  rcases (resolve_local_iff rfl _ _ _).1 stays.2 with found | ⟨e, l, he, -⟩ | ⟨termux, -⟩
  · exact found rfl
  · cases he
  · cases termux

end PackageClient

end Cpip
