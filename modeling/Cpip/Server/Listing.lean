import Cpip.Lib.Limits
import Cpip.Runtime.Scheduler
import Cpip.Server.Builds
import Cpip.Server.Packages

/-!
# Lists of builds and of packages

`BuildService.list_builds` takes the last builds of its dictionary by a slice from behind, and
`PackageService.search` goes through the registry until it has enough.  Both give what they are
asked for whenever the limit is positive; with a limit of zero, which no check of a request rejects,
the first gives all builds and the second a package (`limits_iff`).
-/

namespace Cpip

namespace BuildService

/-- `list_builds`, as the builds whose fields are returned. -/
def listBuilds (m : BuildService) (limit : ℤ) : List BuildResult :=
  Limits.suffix (-limit) (m.builds.entries.map Prod.snd)

/-- The ids of the requests that were submitted, one for every submission. -/
def submissions (acts : List Act) : List String :=
  acts.filterMap fun
    | .submit req => some req.requestId
    | .cancel _ => none

/-- The builds that were submitted first most recently, at most `limit` of them, in the order of
their first submissions. -/
def recentBuilds (m : BuildService) (acts : List Act) (limit : ℕ) : List BuildResult :=
  (Limits.last limit (Limits.firsts (submissions acts))).filterMap m.builds.get?

end BuildService

namespace PackageService

/-- `query.lower() in name.lower() or not query`. -/
def isMatch (lower : String → String) (query name : String) : Bool :=
  pyIn (lower query) (lower name) || query == ""

/-- The entry of a package in the results. -/
def row (e : String × RegisteredPackage) : JsonText :=
  .obj [("name", .str e.1), ("version", .str e.2.version), ("strategy", .str e.2.strategy.value)]

/-- `search`, with `str.lower` given.  The architecture is not looked at. -/
def search (lower : String → String) (registry : CloudRegistry) (query _arch : String)
    (limit : ℤ) : List JsonText :=
  Limits.collect (fun e => isMatch lower query e.1) row limit [] registry.entries

/-- The packages that match, in the order of the registry. -/
def found (lower : String → String) (registry : CloudRegistry) (query : String) :
    List (String × RegisteredPackage) :=
  registry.entries.filter fun e => isMatch lower query e.1

/-- The body of `search_packages`; `Query(50, le=100)` rejects a limit above 100 only. -/
def searchPackages (lower : String → String) (registry : CloudRegistry) (q arch : String)
    (limit : ℤ) : Option JsonText :=
  if 100 < limit then none
  else
    let results := search lower registry q arch limit
    some (.obj [("packages", .arr results), ("total", .int results.length)])

end PackageService

/-! ## Builds -/

namespace BuildService

/-- A step keeps the builds in the order of their first submissions. -/
theorem keys_step {m m' : BuildService} {a : Act} {past : List String}
    (keys : m.builds.keys = Limits.firsts past) (hs : step m a = some m') :
    m'.builds.keys = Limits.firsts (past ++ submissions [a]) := by
  cases a with
  | submit req =>
    obtain rfl := Option.some.inj hs
    have ids : submissions [.submit req] = [req.requestId] := rfl
    rw [ids, Limits.firsts_snoc, ← keys]
    refine (Dict.keys_set m.builds req.requestId (submitted req)).trans ?_
    rw [keys]
    simp only [Limits.mem_firsts]
  | cancel buildId =>
    obtain rfl := Option.some.inj hs
    have ids : submissions [.cancel buildId] = [] := rfl
    rw [ids, List.append_nil, ← keys]
    unfold cancelBuild
    cases stored : m.builds.get? buildId with
    | none => rfl
    | some build =>
      dsimp only
      split_ifs
      · rfl
      · have present : buildId ∈ m.builds.keys := by
          rw [Dict.mem_keys_iff, stored]
          rfl
        exact (Dict.keys_set _ _ _).trans (if_pos present)

/-- After a run the builds stand in the order of their first submissions. -/
theorem keys_run {m m' : BuildService} {acts : List Act} {past : List String}
    (keys : m.builds.keys = Limits.firsts past) (ran : Machine.run step m acts = some m') :
    m'.builds.keys = Limits.firsts (past ++ submissions acts) := by
  induction acts generalizing m past with
  | nil =>
    obtain rfl := Option.some.inj ran
    rw [keys, submissions, List.filterMap_nil, List.append_nil]
  | cons a acts ih =>
    obtain ⟨m₁, first, rest⟩ := (Machine.run_cons_eq_some step).1 ran
    have all : submissions (a :: acts) = submissions [a] ++ submissions acts := by
      rw [← List.singleton_append, submissions, List.filterMap_append]
      rfl
    rw [ih (keys_step keys first) rest, all, List.append_assoc]

theorem keys_of_run {m : BuildService} {acts : List Act}
    (ran : Machine.run step empty acts = some m) :
    m.builds.entries.map Prod.fst = Limits.firsts (submissions acts) :=
  @keys_run empty m acts [] rfl ran

theorem recentBuilds_eq {m : BuildService} {acts : List Act}
    (ran : Machine.run step empty acts = some m) (limit : ℕ) :
    recentBuilds m acts limit = Limits.last limit (m.builds.entries.map Prod.snd) := by
  rw [recentBuilds, ← keys_of_run ran, Limits.last_map, Limits.last_map]
  exact m.builds.filterMap_get? (List.drop_subset _ _)

/-- `list_builds` gives the builds it is asked for unless the limit is zero and there are builds. -/
theorem listBuilds_iff {m : BuildService} {acts : List Act}
    (ran : Machine.run step empty acts = some m) (limit : ℕ) :
    listBuilds m limit = recentBuilds m acts limit ↔ 0 < limit ∨ submissions acts = [] := by
  have none : m.builds.entries.map Prod.snd = [] ↔ submissions acts = [] := by
    rw [List.map_eq_nil_iff, ← Limits.firsts_eq_nil_iff (submissions acts), ← keys_of_run ran,
      List.map_eq_nil_iff]
  rw [listBuilds, recentBuilds_eq ran, Limits.suffix_neg_iff, none]

end BuildService

/-- A slice from behind and a loop that looks after it has taken do what they are for exactly when
the limit is positive or there is nothing to list. -/
theorem limits_iff (acts : List BuildService.Act) (lower : String → String)
    (registry : CloudRegistry) (query arch : String) (limit : ℕ) :
    ∃ m, Machine.run BuildService.step .empty acts = some m ∧
      (m.listBuilds limit = m.recentBuilds acts limit ↔
        0 < limit ∨ BuildService.submissions acts = []) ∧
      (PackageService.search lower registry query arch limit =
          ((PackageService.found lower registry query).take limit).map PackageService.row ↔
        0 < limit ∨ PackageService.found lower registry query = []) := by
  obtain ⟨m, ran⟩ := Machine.exists_run BuildService.exists_step .empty acts
  refine ⟨m, ran, BuildService.listBuilds_iff ran limit, ?_⟩
  exact Limits.collect_iff _ _ limit registry.entries

/-- After one build was submitted, a list of no builds has it, and a search for no packages that is
sent to the server finds one. -/
theorem zero_limit :
    (¬ ∀ acts (limit : ℕ), ∃ m, Machine.run BuildService.step .empty acts = some m ∧
      m.listBuilds limit = m.recentBuilds acts limit) ∧
    (¬ ∀ (lower : String → String) (registry : CloudRegistry) (query arch : String) (limit : ℕ),
      PackageService.search lower registry query arch limit =
        ((PackageService.found lower registry query).take limit).map PackageService.row) ∧
    (PackageService.searchPackages id seededRegistry "" "aarch64" 0).isSome := by
  refine ⟨fun all => ?_, fun all => ?_, by decide⟩
  · obtain ⟨m, ran, same⟩ := all [.submit ⟨"b-1", "numpy", "latest", "aarch64", "3.11", 5⟩] 0
    obtain rfl := Option.some.inj ran
    exact absurd same (by decide +kernel)
  · have same := all id seededRegistry "" "aarch64" 0
    have none := congrArg List.length same
    exact absurd none (by decide +kernel)

end Cpip
