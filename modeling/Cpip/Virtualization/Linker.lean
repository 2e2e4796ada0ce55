import Mathlib.Data.List.Infix
import Cpip.Python.Lines

/-!
# Dependencies of shared objects (`virtualization/linker.py`)

`list_dependencies` looks at the first word of a line before it knows that there is one, and gives
up the whole output where there is none.
-/

namespace Cpip

namespace DynamicLinker

/-- `token.endswith(".so") or ".so." in token`. -/
def IsShared (token : String) : Prop :=
  ".so".toList <:+ token.toList ∨ ".so.".toList <:+: token.toList

instance : DecidablePred IsShared := fun token =>
  inferInstanceAs (Decidable (".so".toList <:+ token.toList ∨ ".so.".toList <:+: token.toList))

/-- `line.strip().split()`. -/
def parts (line : String) : List String := pySplit (pyStrip line)

/-- The loop of `list_dependencies`; `none` is the `IndexError` of a line without words. -/
def collect (deps : List String) : List String → Option (List String)
  | [] => some deps
  | line :: lines =>
    match parts line with
    | [] => none
    | token :: _ => collect (if IsShared token then deps ++ [token] else deps) lines

/-- `list_dependencies`, with the output of `ldd` unless that could not be had. -/
def listDependencies (ldd : Option String) : List String :=
  (ldd.bind fun stdout => collect [] (pySplitlines stdout)).getD []

/-- `"not found" in line`. -/
def Missing (line : String) : Prop := "not found".toList <:+: line.toList

instance : DecidablePred Missing := fun line =>
  inferInstanceAs (Decidable ("not found".toList <:+: line.toList))

/-- `verify_dependencies`, with the same. -/
def verifyDependencies (ldd : Option String) : List String :=
  match ldd with
  | none => []
  | some stdout => ((pySplitlines stdout).filter Missing).flatMap fun line => (parts line).take 1

/-! ## What the output says -/

/-- The shared objects that its lines begin with. -/
def dependencies (lines : List String) : List String :=
  (lines.filterMap fun line => (parts line).head?).filter IsShared

/-- Both functions read an output as it is meant: the first one lists its dependencies, and what the
second one reports is listed if every line that says `not found` begins with a dependency. -/
structure Reads (stdout : String) : Prop where
  lists : listDependencies (some stdout) = dependencies (pySplitlines stdout)
  verifies : (∀ line ∈ pySplitlines stdout, Missing line →
      ∃ token ∈ (parts line).head?, IsShared token) →
    ∀ name ∈ verifyDependencies (some stdout), name ∈ listDependencies (some stdout)

theorem parts_eq_nil_iff (line : String) : parts line = [] ↔ IsBlank line :=
  (pySplit_eq_nil_iff _).trans (isBlank_pyStrip_iff line)

theorem dependencies_cons {line token : String} {rest lines : List String}
    (words : parts line = token :: rest) :
    dependencies (line :: lines) =
      (if IsShared token then [token] else []) ++ dependencies lines := by
  have first : (parts line).head? = some token := congrArg List.head? words
  unfold dependencies
  rw [List.filterMap_cons, first]
  dsimp only
  rw [List.filter_cons]
  by_cases shared : IsShared token <;> simp [shared]

theorem collect_eq (lines : List String) (deps : List String) :
    collect deps lines = if ∃ line ∈ lines, IsBlank line then none
      else some (deps ++ dependencies lines) := by
  induction lines generalizing deps with
  | nil => exact congrArg some (List.append_nil deps).symm
  | cons line lines ih =>
    unfold collect
    simp only [List.exists_mem_cons_iff]
    cases words : parts line with
    | nil => exact (if_pos (.inl ((parts_eq_nil_iff line).1 words))).symm
    | cons token rest =>
      have notBlank : ¬ IsBlank line := fun blank => by
        rw [(parts_eq_nil_iff line).2 blank] at words
        cases words
      dsimp only
      rw [ih, dependencies_cons words]
      by_cases shared : IsShared token <;> simp [notBlank, shared]

theorem listDependencies_eq (stdout : String) :
    listDependencies (some stdout) = if ∃ line ∈ pySplitlines stdout, IsBlank line then []
      else dependencies (pySplitlines stdout) := by
  unfold listDependencies
  rw [Option.bind_some, collect_eq]
  split_ifs <;> rfl

theorem mem_dependencies {lines : List String} {line token : String} (mem : line ∈ lines)
    (first : token ∈ (parts line).head?) (shared : IsShared token) : token ∈ dependencies lines :=
  List.mem_filter.2 ⟨List.mem_filterMap.2 ⟨line, mem, first⟩, decide_eq_true shared⟩

/-- The output is read as it is meant exactly if no line of it is blank, or none begins with a
shared object. -/
theorem reads_iff (stdout : String) :
    Reads stdout ↔ (∀ line ∈ pySplitlines stdout, ¬ IsBlank line) ∨
      ∀ line ∈ pySplitlines stdout, ∀ token ∈ (parts line).head?, ¬ IsShared token := by
  have none_iff : dependencies (pySplitlines stdout) = [] ↔
      ∀ line ∈ pySplitlines stdout, ∀ token ∈ (parts line).head?, ¬ IsShared token := by
    simp only [dependencies, List.filter_eq_nil_iff, List.mem_filterMap, decide_eq_true_eq]
    exact ⟨fun h line mem token first => h token ⟨line, mem, first⟩,
      fun h token ⟨line, mem, first⟩ => h line mem token first⟩
  have lists_iff : listDependencies (some stdout) = dependencies (pySplitlines stdout) ↔
      (∀ line ∈ pySplitlines stdout, ¬ IsBlank line) ∨
        dependencies (pySplitlines stdout) = [] := by
    rw [listDependencies_eq]
    split_ifs with blank
    · obtain ⟨line, mem, blank⟩ := blank
      rw [or_iff_right fun h => h line mem blank]
      exact eq_comm
    · exact iff_of_true rfl (.inl fun line mem isBlank => blank ⟨line, mem, isBlank⟩)
  rw [← none_iff, ← lists_iff]
  refine ⟨Reads.lists, fun lists => ⟨lists, fun missing name mem => ?_⟩⟩
  obtain ⟨line, reported, first⟩ := List.mem_flatMap.1 mem
  obtain ⟨mem, notFound⟩ := List.mem_filter.1 reported
  obtain ⟨token, head, shared⟩ := missing line mem (of_decide_eq_true notFound)
  rw [lists]
  cases words : parts line with
  | nil =>
    rw [words] at head
    cases head
  | cons token' rest =>
    rw [words] at head first
    obtain rfl := Option.some.inj head
    obtain rfl := List.mem_singleton.1 first
    exact mem_dependencies mem (words ▸ rfl) shared

/-- An output with one blank line. -/
theorem blank_line_discards : ¬ ∀ stdout, Reads stdout := by
  intro claim
  have lists := (claim "\tlibm.so.6 => /lib/libm.so.6\n\n").lists
  revert lists
  decide +kernel

end DynamicLinker

end Cpip
