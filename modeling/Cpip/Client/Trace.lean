import Cpip.Client.Installer

/-!
# What the client does, by its log

`Since P s₀ s` says that the log of `s` is that of `s₀` with events of `P` after it.  Every
procedure of the installer preserves it when `P` holds of the events of the procedure; only
`_install_cloud_wheel` runs pip on a wheel that it downloaded.
-/

namespace Cpip

/-- The event is pip on a wheel that was just downloaded. -/
def ClientEvent.FromDownload : ClientEvent → Prop
  | .exec (.pip (.downloaded _)) _ => True
  | _ => False

namespace PackageClient

/-- Since `s₀` there were only events of `P`. -/
def Since (P : ClientEvent → Prop) (s₀ s : PackageClient) : Prop :=
  ∃ events, s.log = s₀.log ++ events ∧ ∀ e ∈ events, P e

variable {P : ClientEvent → Prop} {s₀ : PackageClient}

theorem Since.refl (s : PackageClient) : Since P s s := ⟨[], by simp, by simp⟩

theorem Since.snoc {s s' : PackageClient} (h : Since P s₀ s) {e : ClientEvent} (he : P e)
    (hlog : s'.log = s.log ++ [e]) : Since P s₀ s' := by
  obtain ⟨events, hs, all⟩ := h
  refine ⟨events ++ [e], by rw [hlog, hs, List.append_assoc], ?_⟩
  intro e' he'
  rcases List.mem_append.1 he' with he' | he'
  · exact all e' he'
  · exact List.mem_singleton.1 he' ▸ he

theorem Since.of_log_eq {s s' : PackageClient} (h : Since P s₀ s) (hlog : s'.log = s.log) :
    Since P s₀ s' := by
  obtain ⟨events, hs, all⟩ := h
  exact ⟨events, hlog.trans hs, all⟩

theorem Since.trans {s s' : PackageClient} (h : Since P s₀ s) (h' : Since P s s') :
    Since P s₀ s' := by
  obtain ⟨events, hs, all⟩ := h
  obtain ⟨events', hs', all'⟩ := h'
  refine ⟨events ++ events', by rw [hs', hs, List.append_assoc], ?_⟩
  intro e he
  rcases List.mem_append.1 he with he | he
  · exact all e he
  · exact all' e he

variable {Q R : ClientEvent → Prop}

theorem Since.imp {s : PackageClient} (h : Since P s₀ s) (imp : ∀ e, P e → Q e) : Since Q s₀ s := by
  obtain ⟨events, hs, all⟩ := h
  exact ⟨events, hs, fun e he => imp e (all e he)⟩

/-- An event in between is one of `P`, whatever the others are. -/
theorem Since.apply_between {s s₁ s₂ : PackageClient} {e : ClientEvent} (h : Since P s₀ s)
    (before : Since Q s₀ s₁) (log : s₂.log = s₁.log ++ [e]) (after : Since R s₂ s) : P e := by
  obtain ⟨events, hs, all⟩ := h
  obtain ⟨first, hs₁, -⟩ := before
  obtain ⟨last, hs', -⟩ := after
  have same : s₀.log ++ events = s₀.log ++ (first ++ [e] ++ last) := by
    rw [← hs, hs', log, hs₁, List.append_assoc s₀.log, List.append_assoc s₀.log]
  apply all e
  rw [List.append_cancel_left same]
  simp

variable {env : ClientEnv}

/-! ## Single steps -/

theorem getWheel_eq (env : ClientEnv) (p v : String) (s : PackageClient) :
    getWheel env p v s =
      ((CacheManager.getWheel env.toCacheEnv p v (env.clock s.ticks) s.cache).1.mapError
        ClientExc.file,
        { s with
          cache := (CacheManager.getWheel env.toCacheEnv p v (env.clock s.ticks) s.cache).2
          ticks := s.ticks + 1 }) := rfl

theorem keeps_since_emit {e : ClientEvent} (h : P e) : Proc.Keeps (Since P s₀) (emit e) :=
  fun _ since => since.snoc h rfl

theorem keeps_since_run {c : Command} (h : ∀ tree, P (.exec c tree)) :
    Proc.Keeps (Since P s₀) (run env c) := fun s since => since.snoc (h s.cache.tree) rfl

theorem keeps_since_request (r : HttpRequest) (h : P (.http r)) :
    Proc.Keeps (Since P s₀) (request env r) := fun _ since => since.snoc h rfl

theorem keeps_since_now : Proc.Keeps (Since P s₀) (now env) := fun _ since => since.of_log_eq rfl

theorem keeps_since_withCache {α : Type} (f : CacheManager → Except FileError α × CacheManager) :
    Proc.Keeps (Since P s₀) (withCache f) := fun _ since => since.of_log_eq rfl

theorem keeps_since_getWheel (p v : String) : Proc.Keeps (Since P s₀) (getWheel env p v) :=
  keeps_since_now.bind fun _ => keeps_since_withCache _

theorem keeps_since_storeWheel (p v : String) (source : PyPath) (sha256 : String) :
    Proc.Keeps (Since P s₀) (storeWheel env p v source sha256) :=
  keeps_since_now.bind fun _ => keeps_since_now.bind fun _ => keeps_since_withCache _

/-- A download changes the files only. -/
theorem receiveWheel_state (dest : PyPath) (answer : StreamAnswer) (s : PackageClient) :
    ∃ tree,
      (receiveWheel env dest answer s).2 = { s with cache := { s.cache with tree := tree } } := by
  unfold receiveWheel
  split
  · exact ⟨s.cache.tree, rfl⟩
  · split
    · exact ⟨s.cache.tree, rfl⟩
    · next tree _ => exact ⟨tree, rfl⟩

theorem keeps_since_downloadWheel (url : PyVal) (h : ∀ u, P (.download u)) :
    Proc.Keeps (Since P s₀) (downloadWheel env url) := by
  intro s since
  unfold downloadWheel
  split
  · next url =>
    obtain ⟨tree, state⟩ := receiveWheel_state (downloadDest env url) (env.stream s.log url)
      { s with log := s.log ++ [.download url] }
    exact since.snoc (h url) (congrArg log state)
  · exact since

/-! ## Procedures that run pip on no downloaded wheel -/

section Pip

variable (pip : ∀ target tree, ¬ (ClientEvent.exec (.pip target) tree).FromDownload →
  P (.exec (.pip target) tree))

include pip

theorem keeps_since_installLocal (p v : String) :
    Proc.Keeps (Since P s₀) (installLocal env p v) := by
  refine (keeps_since_getWheel p v).bind fun cached => ?_
  refine (keeps_since_run fun _ => pip _ _ ?_).bind fun _ => Proc.keeps_pure _
  cases cached with
  | none => exact id
  | some path => exact id

theorem keeps_since_fetchBuild (download : ∀ u, P (.download u)) (p v : String) (status : PyVal) :
    Proc.Keeps (Since P s₀) (fetchBuild env p v status) := by
  refine (Proc.keeps_ofExcept _).bind fun url => Proc.Keeps.ite ?_ (Proc.keeps_pure _)
  refine (keeps_since_downloadWheel url download).bind fun path => ?_
  cases path with
  | none => exact Proc.keeps_pure _
  | some path =>
    refine (keeps_since_storeWheel p v path "").bind fun _ => ?_
    exact (keeps_since_installLocal pip p v).bind fun _ => Proc.keeps_pure _

end Pip

section Apart

variable (apart : ∀ e : ClientEvent, ¬ e.FromDownload → P e)

include apart

theorem keeps_since_queryCloud (p v : String) : Proc.Keeps (Since P s₀) (queryCloud env p v) := by
  refine Proc.Keeps.recover ?_ fun _ => Proc.keeps_pure _
  refine (keeps_since_request _ (apart _ id)).bind fun resp => Proc.Keeps.ite ?_ (Proc.keeps_pure _)
  exact (Proc.keeps_ofExcept _).bind fun _ => Proc.keeps_pure _

theorem keeps_since_localResolution (p v : String) :
    Proc.Keeps (Since P s₀) (localResolution env p v) := by
  have lists : Proc.Keeps (Since P s₀) (hasTermuxPkg env p) :=
    ((keeps_since_run fun _ => apart _ id).bind fun _ => Proc.keeps_pure _).recover
      fun _ => Proc.keeps_pure _
  refine Proc.Keeps.bind (lists.ite (Proc.keeps_pure _)) fun _ => ?_
  exact (Proc.keeps_pure _).ite ((Proc.keeps_pure _).ite (Proc.keeps_pure _))

theorem keeps_since_resolve (p v : String) : Proc.Keeps (Since P s₀) (resolve env p v) := by
  refine Proc.Keeps.bind (fun _ since => since) fun installed => Proc.Keeps.ite ?_ ?_
  · exact Proc.Keeps.bind (fun _ since => since) fun _ => Proc.keeps_pure _
  · refine (keeps_since_getWheel p v).bind fun cached => (Proc.keeps_pure _).ite ?_
    refine Proc.Keeps.bind ((Proc.keeps_pure _).ite (keeps_since_queryCloud apart p v)) ?_
    intro info
    cases info with
    | none => exact keeps_since_localResolution apart p v
    | some info => exact Proc.keeps_pure _

theorem keeps_since_fetchWheel (p : String) (res : PackageResolution) :
    Proc.Keeps (Since P s₀) (fetchWheel env p res) := by
  have asked : Proc.Keeps (Since P s₀) (getWheelUrl env p) := by
    refine Proc.Keeps.recover ?_ fun _ => Proc.keeps_pure _
    refine (keeps_since_request _ (apart _ id)).bind fun _ => Proc.Keeps.ite ?_ (Proc.keeps_pure _)
    exact (Proc.keeps_ofExcept _).bind fun _ => Proc.keeps_ofExcept _
  refine Proc.Keeps.bind ((Proc.keeps_pure _).ite asked) fun url => ?_
  exact (keeps_since_downloadWheel url fun _ => apart _ id).ite (Proc.keeps_pure _)

theorem keeps_since_pollLoop (p v : String) (buildId : PyVal) (rounds : ℕ) :
    Proc.Keeps (Since P s₀) (pollLoop env p v buildId rounds) := by
  have polled : Proc.Keeps (Since P s₀) (pollBuild env p v buildId) := by
    refine (keeps_since_request _ (apart _ id)).bind fun _ => Proc.Keeps.ite ?_ (Proc.keeps_pure _)
    refine (Proc.keeps_ofExcept _).bind fun data => (Proc.keeps_ofExcept _).bind fun status => ?_
    have fetched := @keeps_since_fetchBuild P s₀ env (fun _ _ => apart _) (fun _ => apart _ id)
      p v data
    exact fetched.ite ((Proc.keeps_pure _).ite (Proc.keeps_pure _))
  induction rounds with
  | zero => exact Proc.keeps_pure _
  | succ rounds ih =>
    refine polled.bind fun result => ?_
    cases result with
    | none => exact ih
    | some result => exact Proc.keeps_pure _

theorem keeps_since_installCloudBuild (p v : String) :
    Proc.Keeps (Since P s₀) (installCloudBuild env p v) := by
  refine Proc.Keeps.recover ?_ fun _ => Proc.keeps_pure _
  refine (keeps_since_request _ (apart _ id)).bind fun _ => Proc.Keeps.ite ?_ (Proc.keeps_pure _)
  refine (Proc.keeps_ofExcept _).bind fun _ => (Proc.keeps_ofExcept _).bind fun buildId => ?_
  exact keeps_since_pollLoop apart p v buildId 360

theorem keeps_since_registerCloudPackage (p : String) (hybrid : Bool) :
    Proc.Keeps (Since P s₀) (registerCloudPackage p hybrid) :=
  (keeps_since_emit (apart _ id)).bind fun _ _ since => since.of_log_eq rfl

/-- A strategy other than `_install_cloud_wheel`. -/
theorem keeps_since_executeStrategy (p v : String) (res : PackageResolution)
    {strategy : PackageStrategy} (h : strategy ≠ .cloudWheel) :
    Proc.Keeps (Since P s₀) (executeStrategy env p v res strategy) := by
  refine (keeps_since_emit (apart _ id)).bind fun _ => ?_
  cases strategy with
  | localInstall => exact keeps_since_installLocal (fun _ _ => apart _) p v
  | termuxPkg => exact (keeps_since_run fun _ => apart _ id).bind fun _ => Proc.keeps_pure _
  | cloudWheel => exact absurd rfl h
  | cloudBuild => exact keeps_since_installCloudBuild apart p v
  | cloudExec =>
    exact (keeps_since_registerCloudPackage apart p false).bind fun _ => Proc.keeps_pure _
  | hybrid =>
    exact (keeps_since_registerCloudPackage apart p true).bind fun _ => Proc.keeps_pure _

theorem keeps_since_tryStrategies (p v : String) (res : PackageResolution)
    {strategies : List PackageStrategy} (h : ∀ st ∈ strategies, st ≠ .cloudWheel) :
    Proc.Keeps (Since P s₀) (tryStrategies env p v res strategies) := by
  induction strategies with
  | nil => exact Proc.keeps_raise _
  | cons strategy rest ih =>
    rw [List.forall_mem_cons] at h
    refine ((keeps_since_executeStrategy apart p v res h.1).recover fun _ =>
      Proc.keeps_pure _).bind fun success => ?_
    exact (Proc.keeps_pure _).ite (ih h.2)

end Apart

end PackageClient

end Cpip
