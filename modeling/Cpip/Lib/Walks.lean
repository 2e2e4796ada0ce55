import Cpip.Lib.FileTree
import Mathlib.Data.List.Dedup

/-!
# Where paths lead in different trees

A path leads to the place that it spells, when what it goes through are directories (`stops`); so it
leads to the same place in all trees that have the same directories.  `Alike` trees differ in the
contents of files outside of a directory only.
-/

namespace FileTree

variable {β : Type*}

/-- The place that a path spells: each `..` takes one component back. -/
def spell (cur : Loc) (parts : List String) : Loc := parts.foldl stepInto cur

/-- What a path goes through before its last component. -/
def stops : Loc → List String → List Loc
  | _, [] => []
  | cur, name :: rest => cur :: stops (stepInto cur name) rest

theorem resolve_eq_ok_iff {t : FileTree β} {cur l : Loc} {parts : List String} :
    t.resolve cur parts = .ok l ↔ (∀ q ∈ stops cur parts, t.IsDir q) ∧ l = spell cur parts := by
  induction parts generalizing cur with
  | nil => simp [resolve, stops, spell, eq_comm]
  | cons name parts ih =>
    rw [resolve, stops, List.forall_mem_cons, spell, List.foldl_cons]
    unfold IsDir
    cases t.node? cur with
    | none => simp
    | some n =>
      cases n with
      | file b => simp
      | dir => simpa [IsDir, spell] using ih

/-- The last component of a path that does not end in `..` is in the last place that it goes
through. -/
theorem dropLast_spell_mem_stops {cur : Loc} {parts : List String} {name : String}
    (last : parts.getLast? = some name) (up : name ≠ "..") :
    (spell cur parts).dropLast ∈ stops cur parts := by
  induction parts generalizing cur with
  | nil => cases last
  | cons first rest ih =>
    rw [stops, spell, List.foldl_cons]
    cases rest with
    | nil =>
      obtain rfl : first = name := by simpa using last
      rw [List.foldl_nil, stepInto_of_ne cur up, List.dropLast_concat]
      exact List.mem_cons_self
    | cons _ _ =>
      rw [List.getLast?_cons_cons] at last
      exact List.mem_cons_of_mem _ (ih last)

/-! ## Trees of directories -/

/-- The places that lead to a place of the list. -/
def above (ds : List Loc) : List Loc := ([] :: ds.flatMap List.inits).dedup

theorem mem_above {ds : List Loc} {l : Loc} : l ∈ above ds ↔ l = [] ∨ ∃ d ∈ ds, Below l d := by
  simp only [above, List.mem_dedup, List.mem_cons, List.mem_flatMap, List.mem_inits, Below]

/-- The tree of the directories. -/
def ofDirs (ds : List Loc) : FileTree β where
  nodes := ⟨(above ds).map fun l => (l, .dir), by
    rw [List.map_map]
    exact (List.map_id _).symm ▸ List.nodup_dedup _⟩
  root := by
    rw [Dict.get?_eq_some_iff]
    exact List.mem_map.2 ⟨[], mem_above.2 (.inl rfl), rfl⟩
  closed l n h := by
    rw [Dict.get?_eq_some_iff] at h ⊢
    obtain ⟨l', hl', same⟩ := List.mem_map.1 h
    obtain rfl : l' = l := congrArg Prod.fst same
    refine List.mem_map.2 ⟨_, mem_above.2 ?_, rfl⟩
    rcases mem_above.1 hl' with rfl | ⟨d, hd, below⟩
    · exact .inl rfl
    · exact .inr ⟨d, hd, (List.dropLast_prefix l').trans below⟩

theorem isDir_ofDirs {ds : List Loc} {l : Loc} :
    (ofDirs ds : FileTree β).IsDir l ↔ l = [] ∨ ∃ d ∈ ds, Below l d := by
  rw [← mem_above, IsDir, node?, Dict.get?_eq_some_iff]
  show (l, Node.dir) ∈ (above ds).map _ ↔ _
  simp

theorem node?_ofDirs {ds : List Loc} {l : Loc} (absent : ¬ (ofDirs ds : FileTree β).IsDir l) :
    (ofDirs ds : FileTree β).node? l = none := by
  cases h : (ofDirs ds : FileTree β).node? l with
  | none => rfl
  | some n =>
    rw [node?, Dict.get?_eq_some_iff] at h
    obtain ⟨l', mem, same⟩ := List.mem_map.1 h
    obtain rfl : l' = l := congrArg Prod.fst same
    exact absurd (isDir_ofDirs.2 (mem_above.1 mem)) absent

/-! ## Trees that differ in files elsewhere -/

/-- What a node is, without its content. -/
def Node.shape : Node β → Node Unit
  | .file _ => .file ()
  | .dir => .dir

/-- A place directly inside of a directory. -/
def Directly (dir l : Loc) : Prop := ∃ name, l = dir ++ [name]

/-- The trees have the same nodes, and the same files directly inside of a directory. -/
structure Alike (dir : Loc) (t t' : FileTree β) : Prop where
  inside : ∀ l, Directly dir l → t'.node? l = t.node? l
  shape : ∀ l, (t'.node? l).map Node.shape = (t.node? l).map Node.shape

theorem resolve_congr {t t' : FileTree β}
    (shape : ∀ l, (t'.node? l).map Node.shape = (t.node? l).map Node.shape) (cur : Loc)
    (parts : List String) : t'.resolve cur parts = t.resolve cur parts := by
  induction parts generalizing cur with
  | nil => rfl
  | cons name parts ih =>
    have here := shape cur
    rw [resolve, resolve]
    cases h : t.node? cur with
    | none =>
      rw [h, Option.map_none, Option.map_eq_none_iff] at here
      rw [here]
    | some n =>
      obtain ⟨n', hn', same⟩ := Option.map_eq_some_iff.1 (h ▸ here)
      rw [hn']
      cases n <;> cases n' <;> first | rfl | exact ih _ | cases same

end FileTree
