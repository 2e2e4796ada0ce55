import Cpip.Client.Offline

/-!
# The hash of a downloaded wheel

The registry may say which hash a wheel has.  `_install_cloud_wheel` hands that hash to the cache,
which records it without looking at the file, and runs pip on the file.  So pip is kept from a wheel
with another hash only when `store_wheel` raises, because the eviction removed the file; the cache
itself never hands such a wheel out.
-/

namespace Cpip

namespace CacheManager

variable {env : CacheEnv} {s : CacheManager}

/-! ## What an eviction leaves -/

theorem sub_removePath (tree : FileTree Bytes) (path : PyPath) :
    FileTree.Sub (removePath env tree path) tree := by
  unfold removePath
  split
  · split
    · next tree' h => exact PyPath.sub_unlink h
    · exact .refl tree
  · split
    · exact PyPath.sub_rmtree env.cwd tree path
    · exact .refl tree

theorem sub_evictLoop (rounds : ℕ) (s : CacheManager) :
    FileTree.Sub (evictLoop env rounds s).tree s.tree := by
  induction rounds generalizing s with
  | zero => exact .refl _
  | succ rounds ih =>
    unfold evictLoop
    split_ifs
    · split
      · exact .refl _
      · next key entry _ => exact (ih _).trans (sub_removePath s.tree entry.path)
    · exact .refl _

/-- What is at the place of a wheel after an eviction was there before. -/
theorem node?_of_maybeEvict {source : PyPath} {n : FileTree.Node Bytes}
    (h : (wheelDest env source).node? env.cwd (maybeEvict env s).tree = some n) :
    (wheelDest env source).node? env.cwd s.tree = some n := by
  obtain ⟨dirs, others⟩ := saveIndex_tree env (evictLoop env s.index.entries.length s)
  obtain ⟨l, hl, hn⟩ := PyPath.node?_eq_some_iff.1 h
  have place := PyPath.locate_mono (fun l => (dirs l).1) hl
  refine PyPath.node?_of_sub (sub_evictLoop _ s) (PyPath.node?_eq_some_iff.2 ⟨l, place, ?_⟩)
  exact (others l (locate_wheelDest_ne env place)).symm.trans hn

theorem isDir_of_maybeEvict {l : Loc} (h : (maybeEvict env s).tree.IsDir l) : s.tree.IsDir l :=
  sub_evictLoop _ s l _ (((saveIndex_tree env _).1 l).1 h)

/-- A wheel that is already in its place is stored when the eviction leaves it there, and is read
with the same bytes then. -/
theorem storeWheel_in_place {path : PyPath} (place : wheelDest env path = path) {b : Bytes}
    (file : path.read env.cwd s.tree = .ok b)
    (left : path.exist env.cwd (maybeEvict env s).tree = true) (p v sha256 : String)
    (cachedAt lastAccessed : ℚ) :
    ∃ s' entry, storeWheel env p v path sha256 cachedAt lastAccessed s = (.ok path, s') ∧
      path.read env.cwd s'.tree = .ok b ∧
      s'.index = (maybeEvict env s).index.set (wheelKey p v) entry ∧
      entry.path = path ∧ entry.sha256 = if sha256 ≠ "" then sha256 else env.sha256 b := by
  obtain ⟨n, hn⟩ := Option.isSome_iff_exists.1 left
  have before := place ▸ node?_of_maybeEvict (place.symm ▸ hn)
  obtain ⟨l, hl, hfile⟩ := PyPath.read_eq_ok_iff.1 file
  obtain rfl := Option.some.inj (before.symm.trans (PyPath.node?_eq_some_iff.2 ⟨l, hl, hfile⟩))
  have read : path.read env.cwd (maybeEvict env s).tree = .ok b :=
    PyPath.read_eq_ok_iff.2 (PyPath.node?_eq_some_iff.1 hn)
  have hashed : (if sha256 ≠ "" then .ok sha256 else hashFile env (maybeEvict env s) path) =
      Except.ok (ε := FileError) (if sha256 ≠ "" then sha256 else env.sha256 b) := by
    split_ifs
    · rfl
    · rw [hashFile, read]
      rfl
  have size : path.statSize env.cwd (maybeEvict env s).tree List.length env.directorySize =
      .ok b.length := by
    rw [PyPath.statSize, hn]
  unfold storeWheel placeWheel
  dsimp only
  rw [place, if_neg (not_not.2 rfl)]
  dsimp only
  rw [hashed]
  dsimp only
  rw [size]
  refine ⟨_, _, rfl, ?_, saveIndex_index .., rfl, rfl⟩
  exact place ▸ read_saveIndex env (place.symm ▸ read)

/-- A wheel is stored only when something is at its place then, or it was copied there. -/
theorem exist_of_storeWheel {p v sha256 : String} {source dest : PyPath}
    {cachedAt lastAccessed : ℚ} {s' : CacheManager}
    (h : storeWheel env p v source sha256 cachedAt lastAccessed s = (.ok dest, s')) :
    (wheelDest env source).exist env.cwd (maybeEvict env s).tree = true ∨
      source ≠ wheelDest env source ∧
        ∃ l, (wheelDest env source).locate env.cwd (maybeEvict env s).tree = .ok l := by
  unfold storeWheel placeWheel at h
  dsimp only at h
  split at h
  · cases h
  · next tree copied =>
    split at h
    · cases h
    · split at h
      · cases h
      · next size sized =>
        by_cases same : source = wheelDest env source
        · rw [if_neg (not_not.2 same)] at copied
          obtain rfl := Except.ok.inj copied
          left
          unfold PyPath.statSize at sized
          unfold PyPath.exist
          split at sized
          · next hn => rw [hn]; rfl
          · next hn => rw [hn]; rfl
          · cases sized
        · rw [if_pos same] at copied
          obtain ⟨l, -, target, -⟩ := PyPath.copy2_eq_ok copied
          by_cases directory :
              (wheelDest env source).isDir env.cwd (maybeEvict env s).tree = true
          · obtain ⟨l, hl, -⟩ := PyPath.isDir_eq_true_iff.1 directory
            exact Or.inr ⟨same, l, hl⟩
          · rw [PyPath.copyTarget, if_neg directory] at target
            exact Or.inr ⟨same, l, target⟩


/-- When the directory of the wheels is a file, a wheel has no place in it. -/
theorem locate_wheelDest_of_file {b : Bytes} (file : env.wheelsDir.read env.cwd s.tree = .ok b)
    (l : Loc) : (wheelDest env env.wheelsDir).locate env.cwd (maybeEvict env s).tree ≠ .ok l := by
  intro hl
  have name : env.wheelsDir.name = "wheels" := by
    have parts := (env.cacheDir.join_of_isPart (s := "wheels") (by decide)).2
    rw [PyPath.name, CacheEnv.wheelsDir, parts, List.getLast?_concat, Option.getD_some]
  rw [wheelDest, name] at hl
  obtain ⟨l₀, hl₀, dir, -⟩ := (PyPath.locate_join_eq_ok (by decide)).1 hl
  have before := PyPath.locate_mono (fun l => isDir_of_maybeEvict) hl₀
  rw [PyPath.read_of_isDir before (isDir_of_maybeEvict dir)] at file
  cases file

end CacheManager

/-- The event is pip on a downloaded wheel whose file has another hash by then. -/
def ClientEvent.Wrong (env : ClientEnv) (hash : String) : ClientEvent → Prop
  | .exec (.pip (.downloaded path)) tree =>
    ∃ b, path.read env.cwd tree = .ok b ∧ env.sha256 b ≠ hash
  | _ => False

theorem ClientEvent.not_wrong_of_not_fromDownload {env : ClientEnv} {hash : String} :
    ∀ e : ClientEvent, ¬ e.FromDownload → ¬ e.Wrong env hash
  | .exec (.pip (.downloaded _)) _, apart => absurd trivial apart
  | .exec (.pip (.cached _)) _, _ => id
  | .exec (.pip (.requirement _)) _, _ => id
  | .exec (.pkg _) _, _ => id
  | .exec (.apt _) _, _ => id
  | .strategy _, _ => id
  | .http _, _ => id
  | .download _, _ => id
  | .register _, _ => id

namespace PackageClient

open CacheManager (wheelDest wheelKey maybeEvict Descends)

variable {env : ClientEnv}

/-! ## Downloading the wheel -/

theorem wheelFilename_no_slash (url : String) : '/' ∉ (wheelFilename url).toList := by
  have last : '/' ∉ (url.toList.splitOn '/').getLast?.getD [] := by
    cases h : (url.toList.splitOn '/').getLast? with
    | none => exact List.not_mem_nil
    | some segment => exact PyPath.not_mem_of_mem_splitOn (List.mem_of_getLast? h)
  simp only [wheelFilename, String.toList_ofList, PyPath.head?_splitOn, Option.getD_some]
  exact fun h => last ((List.takeWhile_prefix _).subset h)

/-- A download goes to the place of its wheel, or to the directory of the wheels when the URL names
no file. -/
theorem downloadDest_eq (url : String) :
    wheelDest env.toCacheEnv (downloadDest env url) = downloadDest env url ∨
      downloadDest env url = env.wheelsDir := by
  by_cases part : IsPart (wheelFilename url)
  · left
    have parts := (env.wheelsDir.join_of_isPart part).2
    rw [wheelDest, downloadDest, PyPath.name, parts, List.getLast?_concat, Option.getD_some]
  · right
    have unnamed : wheelFilename url = "" ∨ wheelFilename url = "." := by
      simp only [IsPart, not_and_or, not_not] at part
      rcases part with empty | dot | slash
      · exact Or.inl empty
      · exact Or.inr dot
      · exact absurd slash (wheelFilename_no_slash url)
    rcases unnamed with h | h
    · rw [downloadDest, h, PyPath.join_empty]
    · rw [downloadDest, h, PyPath.join_dot]

/-- From `s` on, the wheel URL serves the bytes to their end, and they are written; `cache` is the
cache then. -/
def Served (env : ClientEnv) (p : String) (res : PackageResolution) (s : PackageClient)
    (url : String) (b : Bytes) (cache : CacheManager) : Prop :=
  ∃ s₁ chunks tree, wheelUrl env p res s = (.ok (.str url), s₁) ∧ url ≠ "" ∧
    env.stream s₁.log url = .served chunks false ∧ b = chunks.flatten ∧
    (downloadDest env url).write env.cwd s₁.cache.tree b = .ok tree ∧
    cache = { s₁.cache with tree := tree }

variable {p v : String} {res : PackageResolution} {s : PackageClient}

theorem Served.read {url : String} {b : Bytes} {cache : CacheManager}
    (h : Served env p res s url b cache) :
    (downloadDest env url).read env.cwd cache.tree = .ok b := by
  obtain ⟨s₁, chunks, tree, -, -, -, -, written, rfl⟩ := h
  exact PyPath.read_of_write written

theorem Served.fetchWheel {url : String} {b : Bytes} {cache : CacheManager}
    (h : Served env p res s url b cache) :
    ∃ s', PackageClient.fetchWheel env p res s = (.ok (some (downloadDest env url)), s') ∧
      s'.cache = cache := by
  obtain ⟨s₁, chunks, tree, found, nonempty, served, rfl, written, rfl⟩ := h
  have some : (PyVal.str url).truthy = true := decide_eq_true nonempty
  unfold PackageClient.fetchWheel
  rw [Proc.bind_of_ok found, if_pos some]
  simp only [downloadWheel, receiveWheel, served, written]
  exact ⟨_, rfl, rfl⟩

theorem receiveWheel_eq_some {dest path : PyPath} {answer : StreamAnswer} {s s' : PackageClient}
    (h : receiveWheel env dest answer s = (some path, s')) :
    ∃ chunks tree, answer = .served chunks false ∧ path = dest ∧
      dest.write env.cwd s.cache.tree chunks.flatten = .ok tree ∧
      s'.cache = { s.cache with tree := tree } := by
  unfold receiveWheel at h
  split at h
  · cases h
  · next chunks brokenOff =>
    split at h
    · cases h
    · next tree written =>
      obtain ⟨hpath, rfl⟩ := Prod.mk.inj h
      cases brokenOff with
      | true => cases hpath
      | false => exact ⟨chunks, tree, rfl, (Option.some.inj hpath).symm, written, rfl⟩

/-- A download that gives a path was delivered to its end and written there. -/
theorem exists_of_downloadWheel {url : PyVal} {path : PyPath} {s' : PackageClient}
    (h : downloadWheel env url s = (.ok (some path), s')) :
    ∃ u chunks tree, url = .str u ∧ path = downloadDest env u ∧
      env.stream s.log u = .served chunks false ∧
      (downloadDest env u).write env.cwd s.cache.tree chunks.flatten = .ok tree ∧
      s'.cache = { s.cache with tree := tree } := by
  unfold downloadWheel at h
  split at h
  · next url =>
    cases received : receiveWheel env (downloadDest env url) (env.stream s.log url)
        { s with log := s.log ++ [.download url] } with
    | mk result s₂ =>
      rw [received] at h
      obtain ⟨same, rfl⟩ := Prod.mk.inj h
      obtain rfl := Except.ok.inj same
      obtain ⟨chunks, tree, served, rfl, written, cache⟩ := receiveWheel_eq_some received
      exact ⟨url, chunks, tree, rfl, rfl, served, written, cache⟩
  · cases h

theorem served_of_fetchWheel {path : PyPath} {s' : PackageClient}
    (h : fetchWheel env p res s = (.ok (some path), s')) :
    ∃ url b, path = downloadDest env url ∧ Served env p res s url b s'.cache := by
  obtain ⟨url, s₁, found, h⟩ := Proc.exists_of_bind_eq_ok h
  split_ifs at h with truthy
  · obtain ⟨url, chunks, tree, rfl, rfl, served, written, cache⟩ := exists_of_downloadWheel h
    exact ⟨url, _, rfl, s₁, chunks, tree, found, of_decide_eq_true truthy, served, rfl, written,
      cache⟩
  · cases h

theorem keeps_index_fetchWheel (p : String) (res : PackageResolution) (index : CacheIndex) :
    Proc.Keeps (fun s => s.cache.index = index) (fetchWheel env p res) := by
  have asked : Proc.Keeps (fun s => s.cache.index = index) (getWheelUrl env p) := by
    refine Proc.Keeps.recover ?_ fun _ => Proc.keeps_pure _
    refine Proc.Keeps.bind (fun _ h => h) fun _ => Proc.Keeps.ite ?_ (Proc.keeps_pure _)
    exact (Proc.keeps_ofExcept _).bind fun _ => Proc.keeps_ofExcept _
  refine Proc.Keeps.bind ((Proc.keeps_pure _).ite asked) fun url => Proc.Keeps.ite ?_
    (Proc.keeps_pure _)
  intro s h
  unfold downloadWheel
  split
  · next url =>
    obtain ⟨tree, state⟩ := receiveWheel_state (downloadDest env url) (env.stream s.log url)
      { s with log := s.log ++ [.download url] }
    exact (congrArg (fun s => s.cache.index) state).trans h
  · exact h

theorem Served.index {url : String} {b : Bytes} {cache : CacheManager}
    (h : Served env p res s url b cache) : cache.index = s.cache.index := by
  obtain ⟨s', fetched, rfl⟩ := h.fetchWheel
  have kept : (PackageClient.fetchWheel env p res s).2.cache.index = s.cache.index :=
    keeps_index_fetchWheel p res _ s rfl
  rwa [fetched] at kept

/-! ## Installing the wheel -/

/-- The eviction leaves the downloaded file, so that `store_wheel` finds it. -/
def Kept (env : ClientEnv) (url : String) (cache : CacheManager) : Prop :=
  (wheelDest env.toCacheEnv (downloadDest env url)).exist env.cwd
    (maybeEvict env.toCacheEnv cache).tree = true

instance (url : String) (cache : CacheManager) : Decidable (Kept env url cache) :=
  inferInstanceAs (Decidable (_ = true))

/-- The place of the wheel can be found after the eviction only when it is where the file is. -/
theorem in_place_of_locate {url : String} {b : Bytes} {cache : CacheManager} {l : Loc}
    (file : (downloadDest env url).read env.cwd cache.tree = .ok b)
    (place : (wheelDest env.toCacheEnv (downloadDest env url)).locate env.cwd
      (maybeEvict env.toCacheEnv cache).tree = .ok l) :
    wheelDest env.toCacheEnv (downloadDest env url) = downloadDest env url := by
  refine (downloadDest_eq url).resolve_right fun directory => ?_
  rw [directory] at file place
  exact CacheManager.locate_wheelDest_of_file file l place

theorem Kept.in_place {url : String} {b : Bytes} {cache : CacheManager}
    (kept : Kept env url cache) (file : (downloadDest env url).read env.cwd cache.tree = .ok b) :
    wheelDest env.toCacheEnv (downloadDest env url) = downloadDest env url := by
  obtain ⟨n, hn⟩ := Option.isSome_iff_exists.1 kept
  obtain ⟨l, place, -⟩ := PyPath.node?_eq_some_iff.1 hn
  exact in_place_of_locate file place

theorem storeWheel_eq (env : ClientEnv) (p v : String) (source : PyPath) (sha256 : String)
    (s : PackageClient) :
    let stored := CacheManager.storeWheel env.toCacheEnv p v source sha256 (env.clock s.ticks)
      (env.clock (s.ticks + 1)) s.cache
    storeWheel env p v source sha256 s = (stored.1.mapError ClientExc.file,
      { s with cache := stored.2, ticks := s.ticks + 1 + 1 }) := rfl

theorem pipInstall_state (target : PipTarget) (s : PackageClient) :
    (pipInstall env target s).2 =
      { s with log := s.log ++ [.exec (.pip target) s.cache.tree] } := by
  have ran : run env (.pip target) s = (env.exec s.log ((Command.pip target).argv env.executable),
      { s with log := s.log ++ [.exec (.pip target) s.cache.tree] }) := rfl
  unfold pipInstall
  cases h : env.exec s.log ((Command.pip target).argv env.executable) with
  | error e =>
    rw [h] at ran
    rw [Proc.bind_of_error ran]
  | ok result =>
    rw [h] at ran
    rw [Proc.bind_of_ok ran]
    rfl

/-- pip runs on every download that is stored, whatever its hash; the cache then has the wheel with
the hash of the registry. -/
theorem installCloudWheel_of_kept (v : String) {url : String} {b : Bytes} {cache : CacheManager}
    (served : Served env p res s url b cache) (kept : Kept env url cache) :
    ∃ s' tree entry, Since (fun e => ¬ e.FromDownload) s s' ∧
      (downloadDest env url).read env.cwd tree = .ok b ∧
      (installCloudWheel env p v res s).2.log =
        s'.log ++ [.exec (.pip (.downloaded (downloadDest env url))) tree] ∧
      (installCloudWheel env p v res s).2.cache.index =
        (maybeEvict env.toCacheEnv cache).index.set (wheelKey p v) entry ∧
      entry.sha256 = if suppliedHash res ≠ "" then suppliedHash res else env.sha256 b := by
  obtain ⟨s₁, fetched, rfl⟩ := served.fetchWheel
  have place := kept.in_place served.read
  obtain ⟨cache, entry, stored, file, set, -, hash⟩ :=
    CacheManager.storeWheel_in_place place served.read (place ▸ kept) p v (suppliedHash res)
      (env.clock s₁.ticks) (env.clock (s₁.ticks + 1))
  have filed := storeWheel_eq env p v (downloadDest env url) (suppliedHash res) s₁
  rw [stored] at filed
  have since : Since (fun e => ¬ e.FromDownload) s (fetchWheel env p res s).2 :=
    keeps_since_fetchWheel (fun _ => id) p res s (Since.refl s)
  rw [fetched] at since
  unfold installCloudWheel
  rw [Proc.bind_of_ok fetched]
  dsimp only
  rw [Proc.bind_of_ok filed, pipInstall_state]
  exact ⟨_, cache.tree, entry, since, file, rfl, set, hash⟩

/-- Otherwise pip does not run, and nothing is filed in the cache. -/
theorem installCloudWheel_of_not_kept (v : String)
    (lost : ∀ url b cache, Served env p res s url b cache → ¬ Kept env url cache) :
    Since (fun e => ¬ e.FromDownload) s (installCloudWheel env p v res s).2 ∧
      Descends (installCloudWheel env p v res s).2.cache.index s.cache.index := by
  have since : Since (fun e => ¬ e.FromDownload) s (fetchWheel env p res s).2 :=
    keeps_since_fetchWheel (fun _ => id) p res s (Since.refl s)
  have index : (fetchWheel env p res s).2.cache.index = s.cache.index :=
    keeps_index_fetchWheel p res _ s rfl
  unfold installCloudWheel
  cases fetched : fetchWheel env p res s with
  | mk result s₁ =>
    rw [fetched] at since index
    have descends : Descends s₁.cache.index s.cache.index := index ▸ Descends.refl _
    cases result with
    | error e =>
      rw [Proc.bind_of_error fetched]
      exact ⟨since, descends⟩
    | ok found =>
      rw [Proc.bind_of_ok fetched]
      cases found with
      | none => exact ⟨since, descends⟩
      | some path =>
        obtain ⟨url, b, rfl, served⟩ := served_of_fetchWheel fetched
        have filed := storeWheel_eq env p v (downloadDest env url) (suppliedHash res) s₁
        dsimp only at filed ⊢
        cases stored : CacheManager.storeWheel env.toCacheEnv p v (downloadDest env url)
            (suppliedHash res) (env.clock s₁.ticks) (env.clock (s₁.ticks + 1)) s₁.cache with
        | mk outcome cache =>
          rw [stored] at filed
          cases outcome with
          | error e =>
            rw [Proc.bind_of_error filed]
            have fewer := CacheManager.descends_of_storeWheel_error _ stored
            exact ⟨since.of_log_eq rfl, fewer.trans descends⟩
          | ok dest =>
            exfalso
            rcases CacheManager.exist_of_storeWheel stored with kept | ⟨apart, l, hl⟩
            · exact lost url b _ served kept
            · exact apart (in_place_of_locate served.read hl).symm

/-! ## Resolving through the registry -/

theorem getWheel_eq_ok {found : Option PyPath} {s' : PackageClient}
    (h : getWheel env p v s = (.ok found, s')) :
    CacheManager.getWheel env.toCacheEnv p v (env.clock s.ticks) s.cache =
      (.ok found, s'.cache) := by
  rw [getWheel_eq] at h
  obtain ⟨answer, rfl⟩ := Prod.mk.inj h
  cases result : (CacheManager.getWheel env.toCacheEnv p v (env.clock s.ticks) s.cache).1 with
  | error e =>
    rw [result] at answer
    cases answer
  | ok found' =>
    rw [result] at answer
    obtain rfl := Except.ok.inj answer
    exact Prod.ext result rfl

theorem keeps_cache_registryInfo (p v : String) (cache : CacheManager) :
    Proc.Keeps (fun s => s.cache = cache) (registryInfo env p v) := by
  refine (Proc.keeps_pure _).ite (Proc.Keeps.recover ?_ fun _ => Proc.keeps_pure _)
  refine Proc.Keeps.bind (fun _ h => h) fun _ => Proc.Keeps.ite ?_ (Proc.keeps_pure _)
  exact (Proc.keeps_ofExcept _).bind fun _ => Proc.keeps_pure _

theorem info_of_localResolution {s' : PackageClient}
    (h : localResolution env p v s = (.ok res, s')) : res.info = none := by
  obtain ⟨termux, s₁, -, h⟩ := Proc.exists_of_bind_eq_ok h
  split_ifs at h
  · rw [← Proc.eq_of_pure_eq_ok h]
  · rw [← Proc.eq_of_pure_eq_ok h]
  · rw [← Proc.eq_of_pure_eq_ok h]

/-- A resolution with what the registry says comes after a look-up that found nothing. -/
theorem resolve_of_info {info : PackageInfo} {s₁ : PackageClient}
    (h : resolve env p v s = (.ok res, s₁)) (hinfo : res.info = some info) :
    res = cloudResolution env p v info ∧
      CacheManager.getWheel env.toCacheEnv p v (env.clock s.ticks) s.cache =
        (.ok none, s₁.cache) := by
  have resolution := resolve_resolution env p v s
  rw [h] at resolution
  generalize answer : (Except.ok res, s₁) = r at resolution
  cases resolution with
  | unknown e spec => cases answer
  | failed e s' spec got => cases answer
  | installed version spec =>
    cases answer
    cases hinfo
  | cached path s' spec got =>
    cases answer
    cases hinfo
  | registry info' s' s₂ spec got asked =>
    obtain ⟨same, rfl⟩ := Prod.mk.inj answer
    obtain rfl := Except.ok.inj same
    obtain rfl := Option.some.inj hinfo
    have kept : (registryInfo env p v s').2.cache = s'.cache :=
      keeps_cache_registryInfo p v _ s' rfl
    rw [asked] at kept
    exact ⟨rfl, kept ▸ getWheel_eq_ok got⟩
  | unlisted s' s₂ spec got asked =>
    rw [info_of_localResolution answer.symm] at hinfo
    cases hinfo

/-- What the registry said is asked only of a wheel that the index does not have any more. -/
theorem absent_of_resolve {info : PackageInfo} {s₁ : PackageClient}
    (h : resolve env p v s = (.ok res, s₁)) (hinfo : res.info = some info) :
    s₁.cache.index.get? (wheelKey p v) = none ∧ Descends s₁.cache.index s.cache.index := by
  have missed := (resolve_of_info h hinfo).2
  have found := CacheManager.getWheel_lookup env.toCacheEnv p v (env.clock s.ticks) s.cache
  have descends := CacheManager.descends_getWheel env.toCacheEnv p v (env.clock s.ticks) s.cache
  rw [missed] at found descends
  refine ⟨?_, descends⟩
  generalize s₁.cache = cache at found ⊢
  cases found with
  | absent absent => exact absent
  | missing e he hn =>
    rw [CacheManager.saveIndex_index, Dict.get?_pop, if_pos rfl]
  | corrupt e l b he hl hnode wrong =>
    rw [CacheManager.saveIndex_index, Dict.get?_pop, if_pos rfl]

/-! ## Installing -/

theorem fallbackStrategies_cloudResolution (info : PackageInfo) :
    (cloudResolution env p v info).fallbackStrategies =
      [.cloudExec, .cloudBuild].filter
        fun st => decide (st ≠ (cloudResolution env p v info).strategy) := rfl

theorem tryStrategies_cons (strategy : PackageStrategy) (rest : List PackageStrategy) :
    tryStrategies env p v res (strategy :: rest) s =
      match executeStrategy env p v res strategy s with
      | (.ok true, s') => (.ok true, s')
      | (_, s') => tryStrategies env p v res rest s' := by
  show (Proc.recover _ _ >>= _) s = _
  rw [Proc.bind_apply, Proc.recover]
  cases executeStrategy env p v res strategy s with
  | mk result s' =>
    cases result with
    | error e => rfl
    | ok success =>
      cases success with
      | true => rfl
      | false => rfl

/-- What `_install_cloud_wheel` starts from, when the resolution has left `s`. -/
def started (s : PackageClient) : PackageClient :=
  { s with log := s.log ++ [.strategy .cloudWheel] }

/-- After `_install_cloud_wheel` the package is at most set up for the cloud. -/
theorem install_of_cloudWheel {info : PackageInfo} {s₁ : PackageClient} (force : Bool)
    (resolved : resolve env p v s = (.ok res, s₁)) (hinfo : res.info = some info)
    (strategy : res.strategy = .cloudWheel) :
    let s₂ := (installCloudWheel env p v res (started s₁)).2
    Since (fun e => ¬ e.FromDownload) s₂ (install env p v force s).2 ∧
      (install env p v force s).2.cache = s₂.cache := by
  have fallbacks : res.fallbackStrategies = [.cloudExec, .cloudBuild] := by
    rw [(resolve_of_info resolved hinfo).1] at strategy ⊢
    rw [fallbackStrategies_cloudResolution, strategy]
    rfl
  unfold install
  rw [Proc.bind_of_ok resolved, if_neg (by simp [strategy]), strategy, fallbacks,
    tryStrategies_cons]
  rw [show executeStrategy env p v res .cloudWheel s₁ =
    installCloudWheel env p v res (started s₁) from rfl]
  dsimp only
  cases installCloudWheel env p v res (started s₁) with
  | mk result s₂ =>
    have setUp : Since (fun e => ¬ e.FromDownload) s₂
          (tryStrategies env p v res [.cloudExec, .cloudBuild] s₂).2 ∧
        (tryStrategies env p v res [.cloudExec, .cloudBuild] s₂).2.cache = s₂.cache := by
      rw [tryStrategies_cons]
      refine ⟨?_, rfl⟩
      exact ((Since.refl s₂).snoc (e := .strategy .cloudExec) id rfl).snoc
        (e := .register p) id rfl
    cases result with
    | error e => exact setUp
    | ok success =>
      cases success with
      | true => exact ⟨Since.refl s₂, rfl⟩
      | false => exact setUp

/-- A wheel that is found in the cache, whatever the files are by then, has the hash, or is another
wheel, whose entry for the file with its hash was in the index before. -/
def Vouched (env : ClientEnv) (p v hash : String) (before : CacheIndex) (cache : CacheManager) :
    Prop :=
  ∀ p' v' now tree path cache' b,
    CacheManager.getWheel env.toCacheEnv p' v' now { cache with tree := tree } =
      (.ok (some path), cache') → path.read env.cwd tree = .ok b →
    env.sha256 b = hash ∨ wheelKey p' v' ≠ wheelKey p v ∧
      ∃ e, before.get? (wheelKey p' v') = some e ∧ e.path = path ∧ e.sha256 = env.sha256 b

theorem vouched_of_entries {hash : String} {before : CacheIndex} {cache : CacheManager}
    (entries : ∀ key e, cache.index.get? key = some e → e.sha256 = hash ∨ key ≠ wheelKey p v ∧
      ∃ e₀, before.get? key = some e₀ ∧ e₀.path = e.path ∧ e₀.sha256 = e.sha256) :
    Vouched env p v hash before cache := by
  intro p' v' now tree path cache' b got file
  have found := CacheManager.getWheel_lookup env.toCacheEnv p' v' now { cache with tree := tree }
  rw [got] at found
  cases found with
  | found e l b' he hl hnode hash =>
    have same := file.symm.trans (PyPath.read_eq_ok_iff.2 ⟨l, hl, hnode⟩)
    obtain rfl := Except.ok.inj same
    rw [hash]
    refine (entries _ e he).imp_right ?_
    rintro ⟨other, e₀, he₀, hpath, hsha⟩
    exact ⟨other, e₀, he₀, hpath, hsha⟩

/-- An installation runs pip on no download whose file has another hash, and leaves no such wheel to
be found in the cache. -/
def ChecksHash (env : ClientEnv) (p v : String) (force : Bool) (s : PackageClient)
    (res : PackageResolution) (hash : String) : Prop :=
  Since (fun e => ¬ e.Wrong env hash) s (install env p v force s).2 ∧
    (res.strategy = .cloudWheel →
      Vouched env p v hash s.cache.index (install env p v force s).2.cache)

/-- What the wheel URL serves has the hash, or the eviction of `store_wheel` removes its file. -/
def Genuine (env : ClientEnv) (p : String) (res : PackageResolution) (hash : String)
    (s : PackageClient) : Prop :=
  res.strategy = .cloudWheel → ∀ url b cache, Served env p res (started s) url b cache →
    env.sha256 b = hash ∨ ¬ Kept env url cache

section

variable {force : Bool} {s₁ : PackageClient} {info : PackageInfo} {hash : String}
  (resolved : resolve env p v s = (.ok res, s₁)) (hinfo : res.info = some info)

include resolved

theorem since_started : Since (fun e => ¬ e.FromDownload) s (started s₁) := by
  have since : Since (fun e => ¬ e.FromDownload) s (resolve env p v s).2 :=
    keeps_since_resolve (fun _ => id) p v s (Since.refl s)
  rw [resolved] at since
  exact since.snoc (e := .strategy .cloudWheel) id rfl

include hinfo

/-- The hash is right when pip ran on no wheel with another one, although the wheel is stored. -/
theorem sha256_of_since (strategy : res.strategy = .cloudWheel)
    (checked : Since (fun e => ¬ e.Wrong env hash) s (install env p v force s).2) {url : String}
    {b : Bytes} {cache : CacheManager} (served : Served env p res (started s₁) url b cache)
    (kept : Kept env url cache) : env.sha256 b = hash := by
  obtain ⟨s₂, tree, -, fetched, file, log, -⟩ := installCloudWheel_of_kept v served kept
  have after := (install_of_cloudWheel force resolved hinfo strategy).1
  have spared := checked.apply_between ((since_started resolved).trans fetched) log after
  by_contra wrong
  exact spared ⟨b, file, wrong⟩

theorem checksHash_of_kept (strategy : res.strategy = .cloudWheel)
    (supplied : suppliedHash res = hash) {url : String} {b : Bytes} {cache : CacheManager}
    (served : Served env p res (started s₁) url b cache) (kept : Kept env url cache)
    (right : env.sha256 b = hash) : ChecksHash env p v force s res hash := by
  obtain ⟨s₂, tree, entry, fetched, file, log, index, recorded⟩ :=
    installCloudWheel_of_kept v served kept
  obtain ⟨after, final⟩ := install_of_cloudWheel force resolved hinfo strategy
  obtain ⟨-, descends⟩ := absent_of_resolve resolved hinfo
  have apart (e : ClientEvent) : ¬ e.FromDownload → ¬ e.Wrong env hash :=
    ClientEvent.not_wrong_of_not_fromDownload e
  constructor
  · refine Since.trans ?_ (after.imp apart)
    refine (((since_started resolved).trans fetched).imp apart).snoc ?_ log
    rintro ⟨b', file', wrong⟩
    obtain rfl := Except.ok.inj (file.symm.trans file')
    exact wrong right
  · intro _
    have fewer : Descends (maybeEvict env.toCacheEnv cache).index s.cache.index := by
      have evicted := CacheManager.descends_maybeEvict env.toCacheEnv cache
      rw [served.index] at evicted
      exact evicted.trans descends
    rw [final]
    refine vouched_of_entries fun key e he => ?_
    rw [index, Dict.get?_set] at he
    split_ifs at he with same
    · left
      rw [← Option.some.inj he, recorded, supplied, right, ite_self]
    · right
      exact ⟨Ne.symm same, fewer key e he⟩

theorem checksHash_of_not_kept (strategy : res.strategy = .cloudWheel)
    (lost : ∀ url b cache, Served env p res (started s₁) url b cache → ¬ Kept env url cache) :
    ChecksHash env p v force s res hash := by
  obtain ⟨skipped, filed⟩ := installCloudWheel_of_not_kept v lost
  obtain ⟨after, final⟩ := install_of_cloudWheel force resolved hinfo strategy
  obtain ⟨absent, descends⟩ := absent_of_resolve resolved hinfo
  constructor
  · exact (((since_started resolved).trans skipped).trans after).imp
      ClientEvent.not_wrong_of_not_fromDownload
  · intro _
    rw [final]
    refine vouched_of_entries fun key e he => Or.inr ?_
    obtain ⟨e₁, he₁, path₁, sha₁⟩ := filed key e he
    obtain ⟨e₀, he₀, path₀, sha₀⟩ := descends key e₁ he₁
    refine ⟨?_, e₀, he₀, path₀.trans path₁, sha₀.trans sha₁⟩
    rintro rfl
    cases absent.symm.trans he₁

theorem checksHash_of_ne (strategy : res.strategy ≠ .cloudWheel) :
    ChecksHash env p v force s res hash := by
  refine ⟨?_, fun h => absurd h strategy⟩
  have since : Since (fun e => ¬ e.Wrong env hash) s (resolve env p v s).2 :=
    keeps_since_resolve ClientEvent.not_wrong_of_not_fromDownload p v s (Since.refl s)
  have others : ∀ st ∈ res.strategy :: res.fallbackStrategies, st ≠ .cloudWheel := by
    rw [(resolve_of_info resolved hinfo).1] at strategy ⊢
    refine List.forall_mem_cons.2 ⟨strategy, fun st hst => ?_⟩
    rw [fallbackStrategies_cloudResolution] at hst
    rintro rfl
    exact absurd (List.mem_filter.1 hst).1 (by decide)
  rw [resolved] at since
  unfold install
  rw [Proc.bind_of_ok resolved]
  have tried : Proc.Keeps (Since (fun e => ¬ e.Wrong env hash) s)
      (tryStrategies env p v res (res.strategy :: res.fallbackStrategies)) :=
    keeps_since_tryStrategies ClientEvent.not_wrong_of_not_fromDownload p v res others
  exact ((Proc.keeps_pure true).ite tried) s₁ since

end

/-- In every state: an installation for which the registry gives the hash of the wheel runs pip on
no download with another hash, and leaves none to be found in the cache, exactly when what the wheel
URL serves has the hash or does not outlast the eviction. -/
theorem install_checksHash_iff (env : ClientEnv) (p v : String) (force : Bool)
    {s s₁ : PackageClient} {res : PackageResolution} {info : PackageInfo} {hash : String}
    (resolved : resolve env p v s = (.ok res, s₁)) (hinfo : res.info = some info)
    (hhash : info.wheelHash = some hash) :
    ChecksHash env p v force s res hash ↔ Genuine env p res hash s₁ := by
  by_cases strategy : res.strategy = .cloudWheel
  · constructor
    · rintro ⟨checked, -⟩ - url b cache served
      rw [or_iff_not_imp_right, not_not]
      exact sha256_of_since resolved hinfo strategy checked served
    · intro genuine
      by_cases kept : ∃ url b cache, Served env p res (started s₁) url b cache ∧ Kept env url cache
      · obtain ⟨url, b, cache, served, kept⟩ := kept
        have right := (genuine strategy url b cache served).resolve_right (not_not.2 kept)
        have supplied : suppliedHash res = hash := by simp [suppliedHash, hinfo, hhash]
        exact checksHash_of_kept resolved hinfo strategy supplied served kept right
      · refine checksHash_of_not_kept resolved hinfo strategy ?_
        exact fun url b cache served k => kept ⟨url, b, cache, served, k⟩
  · refine iff_of_true (checksHash_of_ne resolved hinfo strategy) ?_
    exact fun h => absurd h strategy

/-- What the registry says of a wheel with the hash. -/
def sampleInfo (hash : String) : PackageInfo where
  name := "requests"
  version := "2.31.0"
  strategy := .cloudWheel
  wheelUrl := some "https://wheels/requests.whl"
  wheelHash := some hash
  requiresGpu := false

/-- A device that is online, where the registry gives the hash and the wheel URL serves one byte. -/
def sampleRegistryEnv (hash : String) : ClientEnv :=
  { sampleClientEnv with
    offlineMode := false
    validate := fun _ => some (sampleInfo hash)
    http := fun _ _ => .ok ⟨200, .ok .none⟩
    stream := fun _ _ => .served [[7]] false }

def sampleResolution (hash : String) : PackageResolution :=
  cloudResolution (sampleRegistryEnv hash) "requests" "latest" (sampleInfo hash)

theorem resolve_sampleRegistry (hash : String) :
    resolve (sampleRegistryEnv hash) "requests" "latest" sampleClient =
      (.ok (sampleResolution hash),
        (resolve (sampleRegistryEnv hash) "requests" "latest" sampleClient).2) := rfl

theorem install_checksHash_iff_genuine :
    ChecksHash (sampleRegistryEnv (sampleSha256 [7])) "requests" "latest" false sampleClient
      (sampleResolution (sampleSha256 [7])) (sampleSha256 [7]) := by
  refine (install_checksHash_iff _ _ _ _ (resolve_sampleRegistry _) rfl rfl).2 ?_
  rintro - url b cache ⟨s₁, chunks, tree, -, -, served, rfl, -⟩
  obtain ⟨rfl, -⟩ := StreamAnswer.served.inj served
  exact Or.inl rfl

/-- pip runs on the byte that the wheel URL serves, although the registry gives another hash. -/
theorem install_runs_wrong_wheel :
    ¬ ChecksHash (sampleRegistryEnv (sampleSha256 [8])) "requests" "latest" false sampleClient
      (sampleResolution (sampleSha256 [8])) (sampleSha256 [8]) := by
  rintro ⟨checked, -⟩
  let env := sampleRegistryEnv (sampleSha256 [8])
  let res := sampleResolution (sampleSha256 [8])
  let s₁ := started (resolve env "requests" "latest" sampleClient).2
  let cache := (fetchWheel env "requests" res s₁).2.cache
  have served : Served env "requests" res s₁ "https://wheels/requests.whl" [7] cache :=
    ⟨s₁, [[7]], cache.tree, rfl, by decide, rfl, rfl, rfl, rfl⟩
  have kept : Kept env "https://wheels/requests.whl" cache := by decide +kernel
  have right := sha256_of_since (resolve_sampleRegistry _) rfl rfl checked served kept
  revert right
  decide

end PackageClient

end Cpip
