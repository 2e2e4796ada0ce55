import Cpip.Lib.Recency
import Cpip.Python.Pathlib
import Cpip.Python.Text

/-!
# The library path of the process (`virtualization/linker.py`)

Every `DynamicLinker` puts its directory at the front of `LD_LIBRARY_PATH`, and takes it out
everywhere else.
-/

namespace Cpip

/-- `os.environ.get("LD_LIBRARY_PATH")`. -/
abbrev LibraryPath := Option String

/-- What happens to the variable: a linker with this directory is activated, or other code of the
process sets it or deletes it. -/
inductive LibraryPathAct where
  | activate (libDir : String)
  | set (value : String)
  | delete
  deriving DecidableEq, Repr

namespace LibraryPath

def splitColons (s : String) : List String := (s.toList.splitOn ':').map String.ofList

def joinColons (paths : List String) : String := ":".intercalate paths

variable (path : LibraryPath)

/-- `[p for p in current.split(":") if p]`. -/
def entries : List String := (splitColons (path.getD "")).filter (· ≠ "")

/-- The value that `configure_env` gives. -/
def configureEnv (libDir : String) : String :=
  joinColons (libDir :: (splitColons (path.getD "")).filter fun p => p ≠ "" ∧ p ≠ libDir)

def act : LibraryPathAct → LibraryPath
  | .activate libDir => some (path.configureEnv libDir)
  | .set value => some value
  | .delete => none

/-- What other code left of the variable, and the directories of the linkers that were activated
since. -/
def since : LibraryPath × List String → LibraryPathAct → LibraryPath × List String
  | (left, dirs), .activate libDir => (left, dirs ++ [libDir])
  | _, .set value => (some value, [])
  | _, .delete => (none, [])

/-- A directory that can stand in the variable. -/
def Listable (libDir : String) : Prop := libDir ≠ "" ∧ ':' ∉ libDir.toList

theorem splitColons_joinColons {paths : List String} (nonempty : paths ≠ [])
    (noColon : ∀ p ∈ paths, ':' ∉ p.toList) : splitColons (joinColons paths) = paths := by
  have split : (joinColons paths).toList.splitOn ':' = paths.map String.toList := by
    rw [joinColons, String.toList_intercalate]
    apply List.splitOn_intercalate
    · intro piece mem
      obtain ⟨p, hp, rfl⟩ := List.mem_map.1 mem
      exact noColon p hp
    · simpa using nonempty
  rw [splitColons, split, List.map_map]
  simp

variable {path}

/-- The directory moves to the front. -/
theorem entries_configureEnv {libDir : String} (listable : Listable libDir) :
    entries (some (path.configureEnv libDir)) = Recency.touch path.entries libDir := by
  have noColon : ∀ p ∈ libDir :: (splitColons (path.getD "")).filter fun p => p ≠ "" ∧ p ≠ libDir,
      ':' ∉ p.toList := by
    intro p mem
    rcases List.mem_cons.1 mem with rfl | mem
    · exact listable.2
    · obtain ⟨piece, inside, rfl⟩ := List.mem_map.1 (List.mem_of_mem_filter mem)
      rw [String.toList_ofList]
      exact PyPath.not_mem_of_mem_splitOn inside
  rw [entries, Option.getD_some, configureEnv, splitColons_joinColons (by simp) noColon,
    List.filter_cons_of_pos (by simpa using listable.1), Recency.touch, entries, List.filter_filter,
    List.filter_filter]
  congr 1
  apply List.filter_congr
  intro p _
  simp [and_comm]

theorem entries_acts {acts : List LibraryPathAct} {left : LibraryPath} {dirs : List String}
    (listable : ∀ d, .activate d ∈ acts → Listable d)
    (now : path.entries = dirs.foldl Recency.touch left.entries) :
    (acts.foldl act path).entries = (acts.foldl since (left, dirs)).2.foldl Recency.touch
      (acts.foldl since (left, dirs)).1.entries := by
  induction acts generalizing path left dirs with
  | nil => exact now
  | cons a acts ih =>
    have rest : ∀ d, .activate d ∈ acts → Listable d :=
      fun d mem => listable d (List.mem_cons_of_mem _ mem)
    rw [List.foldl_cons, List.foldl_cons]
    cases a with
    | activate libDir =>
      apply ih rest
      rw [act, entries_configureEnv (listable libDir List.mem_cons_self), now, List.foldl_concat]
    | set value => exact ih rest rfl
    | delete => exact ih rest rfl

/-- Whatever is looked for is found in the directory that was activated last among those that have
it and were activated since the last change by other code, and else where other code has left it;
and no directory is in the variable twice for having been activated more than once. -/
theorem searched_latest_first (path : LibraryPath) {acts : List LibraryPathAct}
    (listable : ∀ d, .activate d ∈ acts → Listable d) :
    (∀ has : String → Bool, (acts.foldl act path).entries.find? has =
      ((acts.foldl since (path, [])).2.reverse ++
        (acts.foldl since (path, [])).1.entries).find? has) ∧
    ∀ d, (acts.foldl act path).entries.count d = if d ∈ (acts.foldl since (path, [])).2 then 1
      else (acts.foldl since (path, [])).1.entries.count d := by
  have closed := @entries_acts path acts path [] listable rfl
  rw [closed]
  exact ⟨fun has => Recency.find?_foldl_touch has _ _, Recency.count_foldl_touch _ _⟩

theorem searched_latest_first_twice :
    ([.activate "/a", .set "/x::/a", .activate "/b", .activate "/a"].foldl act
      none).entries.find? (· ∈ ["/x", "/b"]) = some "/b" := by
  have listable : ∀ d, .activate d ∈ [.activate "/a", .set "/x::/a", .activate "/b",
      LibraryPathAct.activate "/a"] → Listable d := by
    intro d mem
    simp only [List.mem_cons, LibraryPathAct.activate.injEq, reduceCtorEq, List.not_mem_nil,
      or_false, false_or] at mem
    rcases mem with rfl | rfl | rfl
    · exact ⟨by decide, by decide⟩
    · exact ⟨by decide, by decide⟩
    · exact ⟨by decide, by decide⟩
  exact (searched_latest_first none listable).1 (· ∈ ["/x", "/b"])

end LibraryPath

end Cpip
