import Cpip.Client.CacheKeep
import Cpip.Client.Versions

/-!
# A cache hit

A wheel in the cache ends the resolution, and the resolution that it ends with has no fallbacks: the
installation comes to what pip makes of that wheel, whatever would have succeeded without it.
-/

namespace Cpip

namespace CacheManager

variable {env : CacheEnv} {p v : String} {path : PyPath} {s : CacheManager}

/-- The cache has an entry for the wheel, at a file with the hash of the entry that is not the file
of the index. -/
structure HoldsWheel (env : CacheEnv) (p v : String) (path : PyPath) (s : CacheManager) : Prop where
  valid : ∃ e l b, s.index.get? (wheelKey p v) = some e ∧ e.path = path ∧
    path.locate env.cwd s.tree = .ok l ∧ s.tree.node? l = some (.file b) ∧
    env.sha256 b = e.sha256 ∧ env.indexFile.locate env.cwd s.tree ≠ .ok l

/-- A wheel that was stored is such a wheel. -/
theorem Holds.holdsWheel {source : PyPath} {l : Loc} {b : Bytes} (h : Holds env p v source l b s) :
    HoldsWheel env p v (wheelDest env source) s := by
  obtain ⟨e, he, path, hash⟩ := h.entry
  exact ⟨e, l, b, he, path, h.place, h.file, hash.symm, locate_wheelDest_ne env h.place⟩

theorem HoldsWheel.saveIndex (h : HoldsWheel env p v path s) :
    HoldsWheel env p v path (saveIndex env s) := by
  obtain ⟨e, l, b, he, hpath, hl, file, hash, apart⟩ := h.valid
  obtain ⟨dirs, others⟩ := saveIndex_tree env s
  refine ⟨e, l, b, ?_, hpath, ?_, (others l apart).trans file, hash, ?_⟩
  · rwa [saveIndex_index]
  · exact PyPath.locate_mono (fun l => (dirs l).2) hl
  · exact fun same => apart (PyPath.locate_mono (fun l => (dirs l).1) same)

/-- `get_wheel` answers with the wheel and keeps it. -/
theorem HoldsWheel.getWheel (h : HoldsWheel env p v path s) (now : ℚ) :
    ∃ s', getWheel env p v now s = (.ok (some path), s') ∧ HoldsWheel env p v path s' := by
  obtain ⟨e, l, b, he, rfl, hl, file, hash, apart⟩ := h.valid
  have found := getWheel_lookup env p v now s
  generalize CacheManager.getWheel env p v now s = r at found ⊢
  cases found with
  | absent absent => cases absent.symm.trans he
  | missing e' he' hn =>
    obtain rfl := Option.some.inj (he'.symm.trans he)
    rw [PyPath.node?_eq_some_iff.2 ⟨l, hl, file⟩] at hn
    cases hn
  | directory e' l' he' hl' dir =>
    obtain rfl := Option.some.inj (he'.symm.trans he)
    obtain rfl := Except.ok.inj (hl.symm.trans hl')
    rw [FileTree.IsDir, file] at dir
    cases dir
  | corrupt e' l' b' he' hl' file' wrong =>
    obtain rfl := Option.some.inj (he'.symm.trans he)
    obtain rfl := Except.ok.inj (hl.symm.trans hl')
    obtain rfl := FileTree.Node.file.inj (Option.some.inj (file.symm.trans file'))
    exact absurd hash wrong
  | found e' l' b' he' hl' file' hash' =>
    obtain rfl := Option.some.inj (he'.symm.trans he)
    refine ⟨_, rfl, HoldsWheel.saveIndex ?_⟩
    exact ⟨{ e' with lastAccessed := now }, l, b, Dict.get?_set_self .., rfl, hl, file, hash, apart⟩

end CacheManager

namespace PackageClient

open CacheManager (HoldsWheel Answers sampleStored sampleCacheEnv sampleTree storable_sample)

variable {env : ClientEnv} {p v : String} {path : PyPath} {s s' : PackageClient}

/-- pip, with the wheel of the cache, ends well. -/
def PipAccepts (env : ClientEnv) (log : List ClientEvent) (path : PyPath) : Prop :=
  ∃ r, env.exec log ((Command.pip (.cached path)).argv env.executable) = .ok r ∧ r.returncode = 0

theorem getWheel_of_holds (h : HoldsWheel env.toCacheEnv p v path s.cache) :
    ∃ s', getWheel env p v s = (.ok (some path), s') ∧ s'.log = s.log ∧
      HoldsWheel env.toCacheEnv p v path s'.cache := by
  obtain ⟨cache, got, kept⟩ := h.getWheel (env.clock s.ticks)
  refine ⟨{ s with cache := cache, ticks := s.ticks + 1 }, ?_, rfl, kept⟩
  rw [getWheel_eq, got]
  rfl

theorem fst_pipInstall (target : PipTarget) (s : PackageClient) :
    (pipInstall env target s).1 = .ok true ↔
      ∃ r, env.exec s.log ((Command.pip target).argv env.executable) = .ok r ∧
        r.returncode = 0 := by
  have first : run env (.pip target) s =
      (env.exec s.log ((Command.pip target).argv env.executable),
        { s with log := s.log ++ [.exec (.pip target) s.cache.tree] }) := rfl
  unfold pipInstall
  rw [Proc.bind_apply, first]
  cases env.exec s.log ((Command.pip target).argv env.executable) with
  | error e => simp
  | ok r => simp

/-- The local strategy comes to what pip makes of the wheel. -/
theorem fst_localInstall (res : PackageResolution)
    (h : HoldsWheel env.toCacheEnv p v path s.cache) :
    (executeStrategy env p v res .localInstall s).1 = .ok true ↔
      PipAccepts env (s.log ++ [.strategy .localInstall]) path := by
  let started : PackageClient := { s with log := s.log ++ [.strategy .localInstall] }
  have begun : emit (.strategy .localInstall) s = (.ok (), started) := rfl
  have kept : HoldsWheel env.toCacheEnv p v path started.cache := h
  obtain ⟨s₁, got, log, -⟩ := getWheel_of_holds kept
  unfold executeStrategy
  rw [Proc.bind_of_ok begun]
  show ((getWheel env p v >>= fun cached =>
    pipInstall env (localTarget p v cached)) started).1 = _ ↔ _
  rw [Proc.bind_of_ok got]
  exact (fst_pipInstall _ s₁).trans (by rw [log]; exact Iff.rfl)

/-- A strategy that is tried alone decides the installation. -/
theorem fst_tryStrategies_alone (res : PackageResolution) (strategy : PackageStrategy)
    (s : PackageClient) : (tryStrategies env p v res [strategy] s).1 = .ok true ↔
      (executeStrategy env p v res strategy s).1 = .ok true := by
  rw [tryStrategies_cons]
  split
  · next executed => rw [executed]
  · next result s' failed executed =>
    rw [executed]
    exact iff_of_false nofun failed

/-- With a wheel in the cache, the outcome of an installation for which the package could be looked
up. -/
theorem fst_install_of_holds (force : Bool) {present : Bool}
    (spec : env.findSpec s.log (moduleName env p) = .ok present)
    (h : HoldsWheel env.toCacheEnv p v path s.cache) :
    (install env p v force s).1 = .ok true ↔
      present = true ∧ force = false ∨
        PipAccepts env (s.log ++ [.strategy .localInstall]) path := by
  have resolution := resolve_resolution env p v s
  unfold install
  generalize resolved : resolve env p v s = r at resolution
  obtain ⟨s₁, got, log, kept⟩ := getWheel_of_holds h
  cases resolution with
  | unknown e spec' => cases spec.symm.trans spec'
  | installed version spec' =>
    obtain rfl := Except.ok.inj (spec.symm.trans spec')
    rw [Proc.bind_of_ok resolved]
    cases force with
    | false => exact iff_of_true rfl (Or.inl ⟨rfl, rfl⟩)
    | true =>
      rw [if_neg (by simp)]
      refine ((fst_tryStrategies_alone _ _ s).trans (fst_localInstall _ h)).trans ?_
      simp
  | failed e s₂ spec' got' => cases got.symm.trans got'
  | cached path' s₂ spec' got' =>
    obtain rfl := (Prod.mk.inj (got.symm.trans got')).2
    obtain rfl := Except.ok.inj (spec.symm.trans spec')
    rw [Proc.bind_of_ok resolved, if_neg (by simp [cachedResolution]), ← log]
    refine ((fst_tryStrategies_alone _ _ s₁).trans (fst_localInstall _ kept)).trans ?_
    simp
  | registry info s₂ s₃ spec' got' => cases got.symm.trans got'
  | unlisted s₂ s₃ spec' got' => cases got.symm.trans got'

/-- An installation that returns could look the package up. -/
theorem exists_spec_of_install {force : Bool} (installed : (install env p v force s).1 = .ok true) :
    ∃ present, env.findSpec s.log (moduleName env p) = .ok present := by
  have resolution := resolve_resolution env p v s
  generalize resolved : resolve env p v s = r at resolution
  cases resolution with
  | unknown e spec =>
    unfold install at installed
    rw [Proc.bind_of_error resolved] at installed
    cases installed
  | installed version spec => exact ⟨true, spec⟩
  | failed e s₁ spec => exact ⟨false, spec⟩
  | cached path s₁ spec => exact ⟨false, spec⟩
  | registry info s₁ s₂ spec => exact ⟨false, spec⟩
  | unlisted s₁ s₂ spec => exact ⟨false, spec⟩

/-- An installation that succeeds succeeds with a wheel in the cache as well, where all else is the
same, exactly when the package is there already and nothing is forced, or pip accepts the wheel. -/
theorem install_cache_hit_iff (env : ClientEnv) (p v : String) (force : Bool)
    (s s' : PackageClient) (path : PyPath) (same : s'.log = s.log)
    (installed : (install env p v force s).1 = .ok true)
    (holds : HoldsWheel env.toCacheEnv p v path s'.cache) :
    (install env p v force s').1 = .ok true ↔
      env.findSpec s.log (moduleName env p) = .ok true ∧ force = false ∨
        PipAccepts env (s.log ++ [.strategy .localInstall]) path := by
  obtain ⟨present, spec⟩ := exists_spec_of_install installed
  refine (fst_install_of_holds force (same ▸ spec) holds).trans ?_
  rw [spec, same]
  simp

/-- The client with the wheel of `p` in its cache. -/
def sampleCachedClient : PackageClient := { sampleClient with cache := sampleStored }

theorem holdsWheel_sample :
    HoldsWheel sampleCacheEnv "p" "1" (PyPath.ofString "/h/cache/wheels/x.whl")
      sampleCachedClient.cache := by
  obtain ⟨l, s', stored, holds⟩ := storable_sample.storeWheel "p" "1" 1 1
  have same : sampleStored = s' := congrArg Prod.snd stored
  rw [sampleCachedClient, same]
  exact holds.holdsWheel

theorem install_cache_hit_iff_accepted :
    (install workingEnv "p" "1" false sampleCachedClient).1 = .ok true :=
  (install_cache_hit_iff workingEnv "p" "1" false sampleClient sampleCachedClient _ rfl rfl
    holdsWheel_sample).2 (Or.inr ⟨⟨0, ""⟩, rfl, rfl⟩)

/-- pip rejects the wheel that is in the cache, and installs whatever else it is asked for. -/
def rejectingEnv : ClientEnv :=
  { workingEnv with
    exec := fun _ argv =>
      .ok ⟨if argv.getLast? = some "/h/cache/wheels/x.whl" then 1 else 0, ""⟩ }

/-- A package that is installed from its requirement is not installed once its cache holds a wheel
that pip rejects. -/
theorem cache_hit_fails :
    ¬ Answers rejectingEnv.toCacheEnv sampleClient.cache "p" "1" ∧
      HoldsWheel rejectingEnv.toCacheEnv "p" "1" (PyPath.ofString "/h/cache/wheels/x.whl")
        sampleCachedClient.cache ∧
      (install rejectingEnv "p" "1" false sampleClient).1 = .ok true ∧
      (install rejectingEnv "p" "1" false sampleCachedClient).1 =
        .error (.packageInstall "p" "All strategies exhausted") := by
  refine ⟨?_, holdsWheel_sample, ?_, ?_⟩
  · rintro ⟨e, l, he, -⟩
    cases he
  · decide +kernel
  · decide +kernel

end PackageClient

end Cpip
