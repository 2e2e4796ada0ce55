import Cpip.Python.Pathlib
import Cpip.Python.Text

/-!
# Directories with a file for each name

A program that keeps one file for each name in a directory, under the name with a suffix, keeps a
map from names to contents.  The operations on the paths are operations on the map.
-/

/-- `path.stem`, for the name of the path. -/
def pyStem (name : String) : String :=
  match rsplitDot name with
  | some (before, after) => if before = "" ∨ after = "" then name else before
  | none => name

/-- The stem of a name that was given an extension. -/
theorem pyStem_append {s ext : String} (nonempty : s ≠ "") (ext_ne : ext ≠ "")
    (noDot : '.' ∉ ext.toList) : pyStem (s ++ "." ++ ext) = s := by
  have noDots : ∀ part ∈ splitDots s ++ [ext], '.' ∉ part.toList := by
    intro part hpart
    rcases List.mem_append.1 hpart with hpart | hpart
    · obtain ⟨piece, hpiece, rfl⟩ := List.mem_map.1 hpart
      rw [String.toList_ofList]
      exact PyPath.not_mem_of_mem_splitOn hpiece
    · exact List.mem_singleton.1 hpart ▸ noDot
  have two : 2 ≤ (splitDots s ++ [ext]).length := by
    have := List.length_pos_iff.2 (splitDots_ne_nil s)
    rw [List.length_append, List.length_singleton]
    omega
  have split := rsplitDot_joinDots noDots two
  rw [joinDots_concat (splitDots_ne_nil s), joinDots_splitDots, List.dropLast_concat,
    joinDots_splitDots, List.getLast?_concat, Option.getD_some] at split
  rw [pyStem, split]
  exact if_neg (by simp [nonempty, ext_ne])

/-- A name with a long suffix is the name of a file. -/
theorem isPart_append {name suffix : String} (noSlash : '/' ∉ name.toList)
    (proper : '/' ∉ suffix.toList) (long : 2 < suffix.toList.length) :
    IsPart (name ++ suffix) ∧ name ++ suffix ≠ ".." := by
  have longer : 2 < (name ++ suffix).toList.length := by
    rw [String.toList_append, List.length_append]
    omega
  refine ⟨⟨?_, ?_, ?_⟩, ?_⟩
  · intro h
    rw [h] at longer
    exact absurd longer (by decide)
  · intro h
    rw [h] at longer
    exact absurd longer (by decide)
  · rw [String.toList_append, List.mem_append, not_or]
    exact ⟨noSlash, proper⟩
  · intro h
    rw [h] at longer
    exact absurd longer (by decide)

theorem append_suffix_inj {name name' suffix : String} :
    name ++ suffix = name' ++ suffix ↔ name = name' := by
  rw [← String.toList_inj, String.toList_append, String.toList_append, List.append_left_inj,
    String.toList_inj]

namespace PyPath

variable {β : Type*}

/-- The names that `dir.glob("*" + suffix)` finds. -/
def glob (cwd : Loc) (t : FileTree β) (dir : PyPath) (suffix : String) : List String :=
  match dir.locate cwd t with
  | .error _ => []
  | .ok l => t.nodes.keys.filterMap fun l' =>
      if l' ≠ [] ∧ l'.dropLast = l ∧ suffix.toList <:+ (l'.getLast?.getD "").toList then l'.getLast?
      else none

theorem mem_glob_iff {cwd : Loc} {t : FileTree β} {dir : PyPath} {suffix s : String} {l : Loc}
    (found : dir.locate cwd t = .ok l) : s ∈ dir.glob cwd t suffix ↔
      suffix.toList <:+ s.toList ∧ (t.node? (l ++ [s])).isSome := by
  simp only [glob, found, List.mem_filterMap, Option.ite_none_right_eq_some]
  constructor
  · rintro ⟨l', present, ⟨nonempty, rfl, ends⟩, last⟩
    rw [last] at ends
    rw [← List.dropLast_append_getLast? s last] at present
    exact ⟨ends, (Dict.mem_keys_iff _ _).1 present⟩
  · rintro ⟨ends, present⟩
    refine ⟨l ++ [s], (Dict.mem_keys_iff _ _).2 present, ⟨by simp, by simp, ?_⟩, by simp⟩
    simpa using ends

/-! ## Directories that are created -/

theorem resolve_of_makeDirs {t t' : FileTree β} {cur l : Loc} {parts : List String}
    (start : t.IsDir cur) (made : t.makeDirs cur parts = (.ok l, t')) :
    t'.resolve cur parts = .ok l ∧ t'.IsDir l ∧ ∀ l', t.IsDir l' → t'.IsDir l' := by
  induction parts generalizing cur t with
  | nil =>
    obtain ⟨rfl, rfl⟩ : cur = l ∧ t = t' := by simpa [FileTree.makeDirs] using made
    exact ⟨rfl, start, fun _ h => h⟩
  | cons name parts ih =>
    rw [FileTree.makeDirs] at made
    split at made
    · next here =>
      obtain ⟨found, dir, kept⟩ := ih here made
      refine ⟨?_, dir, kept⟩
      rw [FileTree.resolve, show t'.node? cur = _ from kept cur start]
      exact found
    · cases made
    · split at made
      · next t₁ new =>
        obtain ⟨free, after⟩ := FileTree.mkdir_eq_ok new
        have here : t₁.IsDir (FileTree.stepInto cur name) := by
          rw [FileTree.IsDir, after, if_pos rfl]
        have more : ∀ l', t.IsDir l' → t₁.IsDir l' := by
          intro l' h
          rw [FileTree.IsDir, after]
          split_ifs
          · rfl
          · exact h
        obtain ⟨found, dir, kept⟩ := ih here made
        refine ⟨?_, dir, fun l' h => kept l' (more l' h)⟩
        rw [FileTree.resolve, show t'.node? cur = _ from kept cur (more cur start)]
        exact found
      · cases made

theorem makeDirs_of_resolve {t : FileTree β} {cur l : Loc} {parts : List String}
    (found : t.resolve cur parts = .ok l) (dir : t.IsDir l) :
    t.makeDirs cur parts = (.ok l, t) := by
  induction parts generalizing cur with
  | nil =>
    obtain rfl := Except.ok.inj found
    rfl
  | cons name parts ih =>
    rw [FileTree.resolve] at found
    split at found
    · have next : t.IsDir (FileTree.stepInto cur name) := by
        cases parts with
        | nil => exact Except.ok.inj found ▸ dir
        | cons _ _ =>
          rw [FileTree.resolve] at found
          split at found
          · assumption
          · cases found
          · cases found
      rw [FileTree.makeDirs, show t.node? (FileTree.stepInto cur name) = _ from next]
      exact ih found
    · cases found
    · cases found

end PyPath

/-! ## The map -/

/-- The names in a directory that end in the suffix are those of the files of a map. -/
structure NamedFiles {β : Type*} (cwd : Loc) (dir : PyPath) (suffix : String) (l : Loc)
    (files : String → Option β) (t : FileTree β) : Prop where
  found : dir.locate cwd t = .ok l
  isDir : t.IsDir l
  node? : ∀ name, t.node? (l ++ [name ++ suffix]) = (files name).map .file

namespace NamedFiles

variable {β : Type*} {cwd : Loc} {dir : PyPath} {suffix name : String} {l : Loc}
  {files : String → Option β} {t : FileTree β}

/-- A directory that was created and has no name with the suffix. -/
theorem of_mkdirs {t' : FileTree β} (made : dir.mkdirs cwd t true = (.ok l, t'))
    (none : dir.glob cwd t' suffix = []) : NamedFiles cwd dir suffix l (fun _ => .none) t' := by
  rw [PyPath.mkdirs, if_neg (by simp)] at made
  obtain ⟨found, isDir, -⟩ := PyPath.resolve_of_makeDirs t.isDir_root made
  refine ⟨found, isDir, fun name => ?_⟩
  have absent : name ++ suffix ∉ dir.glob cwd t' suffix := by simp [none]
  rw [PyPath.mem_glob_iff found, not_and] at absent
  simpa using absent (by rw [String.toList_append]; exact List.suffix_append ..)

theorem mkdirs (h : NamedFiles cwd dir suffix l files t) : dir.mkdirs cwd t true = (.ok l, t) := by
  rw [PyPath.mkdirs, if_neg (by simp)]
  exact PyPath.makeDirs_of_resolve h.found h.isDir

/-- A name is found in the directory when a file has it. -/
theorem mem_glob (h : NamedFiles cwd dir suffix l files t) {s : String} :
    s ∈ dir.glob cwd t suffix ↔ ∃ name, s = name ++ suffix ∧ (files name).isSome := by
  rw [PyPath.mem_glob_iff h.found]
  constructor
  · rintro ⟨⟨front, ends⟩, present⟩
    have split : s = String.ofList front ++ suffix := by
      rw [← String.toList_inj, String.toList_append, String.toList_ofList, ends]
    subst split
    rw [h.node?] at present
    exact ⟨_, rfl, by simpa using present⟩
  · rintro ⟨name, rfl, present⟩
    rw [h.node?]
    refine ⟨?_, by simpa using present⟩
    rw [String.toList_append]
    exact List.suffix_append ..

section Part

variable (h : NamedFiles cwd dir suffix l files t)
  (part : IsPart (name ++ suffix) ∧ name ++ suffix ≠ "..")

include h part

theorem locate : (dir.join (name ++ suffix)).locate cwd t = .ok (l ++ [name ++ suffix]) :=
  (PyPath.locate_join_eq_ok part.1).2
    ⟨l, h.found, h.isDir, (FileTree.stepInto_of_ne l part.2).symm⟩

theorem read : (dir.join (name ++ suffix)).read cwd t =
    match files name with
    | some b => .ok b
    | none => .error .notFound := by
  rw [PyPath.read, h.locate part]
  dsimp only
  rw [FileTree.read, h.node?]
  cases files name <;> rfl

theorem exist : (dir.join (name ++ suffix)).exist cwd t = (files name).isSome := by
  rw [PyPath.exist, PyPath.node?, h.locate part]
  dsimp only
  rw [h.node?, Option.isSome_map]

/-- Writing the file of a name. -/
theorem write (b : β) : ∃ t', (dir.join (name ++ suffix)).write cwd t b = .ok t' ∧
    NamedFiles cwd dir suffix l (Function.update files name (some b)) t' := by
  have notDir : ¬ t.IsDir (l ++ [name ++ suffix]) := by
    rw [FileTree.IsDir, h.node?]
    cases files name <;> simp
  obtain ⟨t', written⟩ :=
    FileTree.exists_write b notDir (by rw [List.dropLast_concat]; exact h.isDir)
  have same (l' : Loc) : t'.IsDir l' ↔ t.IsDir l' := FileTree.isDir_of_write written l'
  refine ⟨t', ?_, PyPath.locate_mono (fun l' => (same l').2) h.found, (same l).2 h.isDir, ?_⟩
  · rw [PyPath.write, h.locate part]
    exact written
  · intro name'
    rw [(FileTree.write_eq_ok written).2.2, h.node?]
    by_cases here : name' = name
    · subst here
      simp
    · have other : l ++ [name ++ suffix] ≠ l ++ [name' ++ suffix] := by
        simpa [append_suffix_inj] using Ne.symm here
      rw [if_neg other, Function.update_of_ne here]

/-- Removing the file of a name, if there is one. -/
theorem unlink : ∃ t', (dir.join (name ++ suffix)).unlink cwd t = .ok t' ∧
    NamedFiles cwd dir suffix l (Function.update files name none) t' := by
  have node := h.node? name
  cases hb : files name with
  | none =>
    rw [hb, Option.map_none] at node
    refine ⟨t, ?_, ?_⟩
    · simp only [PyPath.unlink, h.locate part, node]
    · rwa [← hb, Function.update_eq_self]
  | some b =>
    rw [hb, Option.map_some] at node
    have same (l' : Loc) := FileTree.isDir_prune_of_file node l'
    refine ⟨t.prune (l ++ [name ++ suffix]), PyPath.unlink_of_file (h.locate part) node,
      PyPath.locate_mono (fun l' => (same l').2) h.found, (same l).2 h.isDir, fun name' => ?_⟩
    rw [FileTree.node?_prune_of_file node, h.node?]
    by_cases here : name' = name
    · subst here
      simp
    · have other : l ++ [name' ++ suffix] ≠ l ++ [name ++ suffix] := by
        simpa [append_suffix_inj] using here
      rw [if_neg other, Function.update_of_ne here]

end Part

end NamedFiles

/-! ## Maps of contents -/

section Dict

variable {ν β : Type*} (encode : ν → β) (d : Dict String ν) (name : String)

/-- The contents of the files of a dictionary. -/
def Dict.contents (name : String) : Option β := (d.get? name).map encode

theorem Dict.contents_set (v : ν) : (d.set name v).contents encode =
    Function.update (d.contents encode) name (some (encode v)) := by
  funext name'
  rw [contents, Dict.get?_set]
  by_cases here : name = name'
  · subst here
    simp
  · rw [if_neg here, Function.update_of_ne (Ne.symm here), contents]

theorem Dict.contents_pop : (d.pop name).contents encode =
    Function.update (d.contents encode) name none := by
  funext name'
  rw [contents, Dict.get?_pop]
  by_cases here : name = name'
  · subst here
    simp
  · rw [if_neg here, Function.update_of_ne (Ne.symm here), contents]

end Dict
