import Cpip.Lib.FileTree
import Cpip.Python.Value
import Mathlib.Algebra.Ring.Nat

/-!
# `pathlib`, `os` and `shutil`

A `PyPath` keeps its components as `pathlib` does: two paths to one file can differ, by a `..` or by
the directory that a relative path starts in (`cwd`).  The operations act on a file tree; one that
can fail halfway returns its result with the tree that it leaves.
-/

/-- A component that `pathlib` keeps. -/
def IsPart (s : String) : Prop := s ≠ "" ∧ s ≠ "." ∧ '/' ∉ s.toList

instance (s : String) : Decidable (IsPart s) := inferInstanceAs (Decidable (_ ∧ _ ∧ _))

structure PyPath where
  absolute : Bool
  parts : List String
  proper : ∀ s ∈ parts, IsPart s
  deriving DecidableEq

namespace PyPath

@[ext]
theorem ext {p q : PyPath} (absolute : p.absolute = q.absolute) (parts : p.parts = q.parts) :
    p = q := by
  cases p
  cases q
  cases absolute
  cases parts
  rfl

/-! ## Paths as text -/

theorem not_mem_of_mem_splitOn {c : Char} {l piece : List Char} (h : piece ∈ l.splitOn c) :
    c ∉ piece := by
  induction l generalizing piece with
  | nil =>
    obtain rfl := List.mem_singleton.1 h
    exact List.not_mem_nil
  | cons x rest ih =>
    rw [List.splitOn_cons_eq_if_modifyHead] at h
    split_ifs at h with hx
    · rcases List.mem_cons.1 h with rfl | h
      · exact List.not_mem_nil
      · exact ih h
    · obtain ⟨first, others, hsplit⟩ := List.exists_cons_of_ne_nil (List.splitOn_ne_nil c rest)
      rw [hsplit, List.modifyHead_cons] at h
      rcases List.mem_cons.1 h with rfl | h
      · intro hmem
        rcases List.mem_cons.1 hmem with rfl | hmem
        · exact hx (by simp)
        · exact ih (hsplit ▸ List.mem_cons_self ..) hmem
      · exact ih (hsplit ▸ List.mem_cons_of_mem _ h)

theorem head?_splitOn (c : Char) (l : List Char) :
    (l.splitOn c).head? = some (l.takeWhile (· ≠ c)) := by
  induction l with
  | nil => rfl
  | cons x l ih =>
    rw [List.splitOn_cons_eq_if_modifyHead]
    by_cases hx : x = c
    · simp [hx]
    · rw [if_neg (by simpa using hx), List.head?_modifyHead, ih]
      simp [hx]

/-- The components of a path in text. -/
def split (s : String) : List String :=
  ((s.toList.splitOn '/').map String.ofList).filter fun part => part ≠ "" ∧ part ≠ "."

theorem isPart_of_mem_split {s part : String} (h : part ∈ split s) : IsPart part := by
  simp only [split, List.mem_filter, decide_eq_true_eq, List.mem_map] at h
  obtain ⟨⟨piece, hpiece, rfl⟩, nonempty, noDot⟩ := h
  refine ⟨nonempty, noDot, ?_⟩
  rw [String.toList_ofList]
  exact not_mem_of_mem_splitOn hpiece

theorem split_of_isPart {s : String} (h : IsPart s) : split s = [s] := by
  obtain ⟨nonempty, noDot, noSlash⟩ := h
  simp [split, List.splitOn_eq_singleton noSlash, nonempty, noDot]

/-- `PyPath(s)`. -/
def ofString (s : String) : PyPath where
  absolute := s.toList.head? = some '/'
  parts := split s
  proper _ := isPart_of_mem_split

/-- `str(path)`. -/
def str (p : PyPath) : String :=
  if p.absolute then "/" ++ "/".intercalate p.parts
  else if p.parts = [] then "."
  else "/".intercalate p.parts

theorem split_intercalate {parts : List String} (proper : ∀ part ∈ parts, IsPart part) :
    split ("/".intercalate parts) = parts := by
  have kept : parts.filter (fun part => part ≠ "" ∧ part ≠ ".") = parts := by
    rw [List.filter_eq_self]
    intro part h
    simpa using ⟨(proper part h).1, (proper part h).2.1⟩
  cases parts with
  | nil => decide
  | cons part rest =>
    have pieces : ("/".intercalate (part :: rest)).toList.splitOn '/' =
        (part :: rest).map String.toList := by
      rw [String.toList_intercalate]
      apply List.splitOn_intercalate
      · intro piece hpiece
        obtain ⟨part', hpart, rfl⟩ := List.mem_map.1 hpiece
        exact (proper part' hpart).2.2
      · simp
    rw [split, pieces, List.map_map]
    simpa using kept

theorem head?_intercalate_ne {parts : List String} (proper : ∀ part ∈ parts, IsPart part) :
    ("/".intercalate parts).toList.head? ≠ some '/' := by
  cases parts with
  | nil => decide
  | cons part rest =>
    obtain ⟨nonempty, -, noSlash⟩ := proper part List.mem_cons_self
    have first : part.toList.head? ≠ some '/' := fun h => noSlash (List.mem_of_head? h)
    obtain ⟨c, cs, hcs⟩ := List.exists_cons_of_ne_nil (l := part.toList)
      (fun h => nonempty (String.toList_eq_nil_iff.1 h))
    rw [hcs] at first
    cases rest with
    | nil => simpa [hcs] using first
    | cons next rest => simpa [String.intercalate_cons_cons, hcs] using first

/-- A path is the path of its text. -/
theorem ofString_str (p : PyPath) : ofString p.str = p := by
  obtain ⟨absolute, parts, proper⟩ := p
  have relative := head?_intercalate_ne proper
  cases absolute with
  | true =>
    apply PyPath.ext
    · simp [ofString, str]
    · have body : split ("/" ++ "/".intercalate parts) = split ("/".intercalate parts) := by
        simp [split, List.splitOn_cons_eq_if_modifyHead]
      simpa [ofString, str, body] using split_intercalate proper
  | false =>
    by_cases none : parts = []
    · subst none
      have text : str ⟨false, [], proper⟩ = "." := rfl
      rw [text]
      exact PyPath.ext (show (ofString ".").absolute = false by decide)
        (show split "." = [] by decide)
    · apply PyPath.ext
      · simpa [ofString, str, none] using relative
      · simpa [ofString, str, none] using split_intercalate proper

theorem str_injective : Function.Injective str := Function.LeftInverse.injective ofString_str

/-- `path / s`. -/
def join (p : PyPath) (s : String) : PyPath :=
  if s.toList.head? = some '/' then ofString s
  else ⟨p.absolute, p.parts ++ split s, fun part h =>
    (List.mem_append.1 h).elim (p.proper part) isPart_of_mem_split⟩

/-- `path.parent`. -/
def parent (p : PyPath) : PyPath :=
  ⟨p.absolute, p.parts.dropLast, fun part h => p.proper part (List.mem_of_mem_dropLast h)⟩

/-- `path.name`. -/
def name (p : PyPath) : String := p.parts.getLast?.getD ""

theorem join_of_isPart (p : PyPath) {s : String} (h : IsPart s) :
    (p.join s).absolute = p.absolute ∧ (p.join s).parts = p.parts ++ [s] := by
  have relative : s.toList.head? ≠ some '/' := by
    intro head
    exact h.2.2 (List.mem_of_head? head)
  rw [join, if_neg relative]
  exact ⟨rfl, congrArg (p.parts ++ ·) (split_of_isPart h)⟩

theorem join_empty (p : PyPath) : p.join "" = p := by
  apply PyPath.ext
  · rfl
  · exact List.append_nil p.parts

theorem join_dot (p : PyPath) : p.join "." = p := by
  apply PyPath.ext
  · rfl
  · show p.parts ++ split "." = p.parts
    rw [show split "." = [] by decide, List.append_nil]

theorem isPart_name {p : PyPath} (h : p.name ≠ "") : IsPart p.name := by
  unfold name at h ⊢
  cases last : p.parts.getLast? with
  | none => simp [last] at h
  | some part => exact p.proper _ (List.mem_of_getLast? last)

/-! ## Files -/

variable {β : Type*} (cwd : Loc) (t : FileTree β)

/-- The place that a path names. -/
def locate (p : PyPath) : Except FileError Loc :=
  t.resolve [] ((if p.absolute then [] else cwd) ++ p.parts)

theorem locate_join_eq_ok {cwd : Loc} {t : FileTree β} {p : PyPath} {s : String} (h : IsPart s)
    {l : Loc} : locate cwd t (p.join s) = .ok l ↔
      ∃ l₀, locate cwd t p = .ok l₀ ∧ t.IsDir l₀ ∧ l = FileTree.stepInto l₀ s := by
  obtain ⟨absolute, parts⟩ := p.join_of_isPart h
  unfold locate
  rw [absolute, parts, ← List.append_assoc, FileTree.resolve_append]
  cases t.resolve [] ((if p.absolute then [] else cwd) ++ p.parts) with
  | error e => simp [bind, Except.bind]
  | ok l₀ =>
    simp only [bind, Except.bind, FileTree.resolve, Except.ok.injEq, exists_eq_left',
      FileTree.IsDir]
    cases t.node? l₀ with
    | none => simp
    | some n => cases n <;> simp [eq_comm]

/-- What is no directory is named by the last component. -/
theorem locate_join_of_not_isDir {cwd : Loc} {t : FileTree β} {p : PyPath} {s : String}
    (h : IsPart s) {l : Loc} (place : locate cwd t (p.join s) = .ok l) (notDir : ¬ t.IsDir l) :
    ∃ l₀, locate cwd t p = .ok l₀ ∧ t.IsDir l₀ ∧ l = l₀ ++ [s] := by
  obtain ⟨l₀, hl₀, dir, rfl⟩ := (locate_join_eq_ok h).1 place
  refine ⟨l₀, hl₀, dir, FileTree.stepInto_of_ne l₀ ?_⟩
  rintro rfl
  exact notDir (t.closed _ _ dir)

theorem locate_mono {cwd : Loc} {t t' : FileTree β} (dirs : ∀ l, t.IsDir l → t'.IsDir l)
    {p : PyPath} {l : Loc} (h : locate cwd t p = .ok l) : locate cwd t' p = .ok l :=
  FileTree.resolve_mono dirs h

/-- What is at the place, if anything is. -/
def node? (p : PyPath) : Option (FileTree.Node β) :=
  match locate cwd t p with
  | .ok l => t.node? l
  | .error _ => none

/-- `path.exists()`. -/
def exist (p : PyPath) : Bool := (node? cwd t p).isSome

/-- `path.is_file()`. -/
def isFile (p : PyPath) : Bool :=
  match node? cwd t p with
  | some (.file _) => true
  | _ => false

/-- `path.is_dir()`. -/
def isDir (p : PyPath) : Bool :=
  match node? cwd t p with
  | some .dir => true
  | _ => false

/-- `path.read_bytes()`. -/
def read (p : PyPath) : Except FileError β :=
  match locate cwd t p with
  | .ok l => t.read l
  | .error e => .error e

/-- `path.write_bytes(b)`. -/
def write (p : PyPath) (b : β) : Except FileError (FileTree β) :=
  match locate cwd t p with
  | .ok l => t.write l b
  | .error e => .error e

variable {cwd t}

theorem read_eq_ok_iff {p : PyPath} {b : β} : read cwd t p = .ok b ↔
    ∃ l, locate cwd t p = .ok l ∧ t.node? l = some (.file b) := by
  unfold read FileTree.read
  cases locate cwd t p with
  | error e => simp
  | ok l =>
    simp only [Except.ok.injEq, exists_eq_left']
    cases t.node? l with
    | none => simp
    | some n => cases n <;> simp

theorem write_eq_ok {p : PyPath} {b : β} {t' : FileTree β} (h : write cwd t p b = .ok t') :
    ∃ l, locate cwd t p = .ok l ∧ t.write l b = .ok t' := by
  unfold write at h
  split at h
  · next l hl => exact ⟨l, hl, h⟩
  · cases h

theorem node?_eq_some_iff {p : PyPath} {n : FileTree.Node β} : node? cwd t p = some n ↔
    ∃ l, locate cwd t p = .ok l ∧ t.node? l = some n := by
  unfold node?
  cases locate cwd t p with
  | error e => simp
  | ok l => simp

theorem exist_of_read {p : PyPath} {b : β} (h : read cwd t p = .ok b) : exist cwd t p = true := by
  obtain ⟨l, place, file⟩ := read_eq_ok_iff.1 h
  rw [exist, node?_eq_some_iff.2 ⟨l, place, file⟩]
  rfl

theorem isDir_eq_true_iff {p : PyPath} : isDir cwd t p = true ↔
    ∃ l, locate cwd t p = .ok l ∧ t.IsDir l := by
  unfold isDir node? FileTree.IsDir
  cases locate cwd t p with
  | error e => simp
  | ok l =>
    simp only [Except.ok.injEq, exists_eq_left']
    cases t.node? l with
    | none => simp
    | some n => cases n <;> simp

/-- Whether a file can be written does not depend on what is written. -/
theorem exists_write {p : PyPath} {b : β} {t' : FileTree β} (h : write cwd t p b = .ok t')
    (b' : β) :
    ∃ u, write cwd t p b' = .ok u := by
  obtain ⟨l, found, written⟩ := write_eq_ok h
  obtain ⟨directory, parent, -⟩ := FileTree.write_eq_ok written
  obtain ⟨u, hu⟩ := FileTree.exists_write b' directory parent
  exact ⟨u, by rwa [write, found]⟩

/-- Writing changes nothing exactly if the file holds already what is written. -/
theorem forall_node?_write_iff {p : PyPath} {b : β} {t' : FileTree β}
    (h : write cwd t p b = .ok t') : (∀ l, t'.node? l = t.node? l) ↔ read cwd t p = .ok b := by
  obtain ⟨l, found, written⟩ := write_eq_ok h
  obtain ⟨-, -, after⟩ := FileTree.write_eq_ok written
  rw [read_eq_ok_iff]
  constructor
  · intro same
    refine ⟨l, found, ?_⟩
    rw [← same, after, if_pos rfl]
  · rintro ⟨l', found', holds⟩ place
    obtain rfl : l = l' := Except.ok.inj (found.symm.trans found')
    rw [after]
    split_ifs with here
    · rw [← here, holds]
    · rfl

/-- What was written is read. -/
theorem read_of_write {p : PyPath} {b : β} {t' : FileTree β} (written : write cwd t p b = .ok t') :
    read cwd t' p = .ok b := by
  obtain ⟨l, place, written⟩ := write_eq_ok written
  have dirs := FileTree.isDir_of_write written
  refine read_eq_ok_iff.2 ⟨l, locate_mono (fun l => (dirs l).2) place, ?_⟩
  rw [(FileTree.write_eq_ok written).2.2, if_pos rfl]

variable (cwd t)

/-- `path.unlink(missing_ok=True)`. -/
def unlink (p : PyPath) : Except FileError (FileTree β) :=
  match locate cwd t p with
  | .ok l =>
    match t.node? l with
    | some (.file _) => .ok (t.prune l)
    | some .dir => .error .isADirectory
    | none => .ok t
  | .error .notFound => .ok t
  | .error e => .error e

theorem unlink_of_file {cwd : Loc} {t : FileTree β} {p : PyPath} {l : Loc} {b : β}
    (place : locate cwd t p = .ok l) (file : t.node? l = some (.file b)) :
    unlink cwd t p = .ok (t.prune l) := by
  simp only [unlink, place, file]

theorem read_of_isDir {cwd : Loc} {t : FileTree β} {p : PyPath} {l : Loc}
    (place : locate cwd t p = .ok l) (dir : t.IsDir l) :
    read cwd t p = .error .isADirectory := by
  simp only [read, place, FileTree.read, show t.node? l = _ from dir]

/-- `path.mkdir(parents=True)`, where an existing directory is an error unless `existOk`. -/
def mkdirs (p : PyPath) (existOk : Bool) : Except FileError Loc × FileTree β :=
  if ¬ existOk ∧ exist cwd t p then (.error .fileExists, t)
  else t.makeDirs [] ((if p.absolute then [] else cwd) ++ p.parts)

/-- `shutil.rmtree(path)`: the directory is emptied and then removed by its path, which fails when
the path ends in `..` or leads through what was removed. -/
def rmtree (p : PyPath) : Except FileError Unit × FileTree β :=
  match locate cwd t p with
  | .error e => (.error e, t)
  | .ok l =>
    match t.node? l with
    | none => (.error .notFound, t)
    | some (.file _) => (.error .notADirectory, t)
    | some .dir =>
      match locate cwd (t.empty l) p with
      | .ok _ =>
        if p.name = ".." then (.error .notFound, t.empty l) else (.ok (), (t.empty l).prune l)
      | .error e => (.error e, t.empty l)

theorem sub_unlink {cwd : Loc} {t t' : FileTree β} {p : PyPath} (h : unlink cwd t p = .ok t') :
    FileTree.Sub t' t := by
  unfold unlink at h
  split at h
  · split at h
    · exact Except.ok.inj h ▸ FileTree.sub_prune t _
    · cases h
    · exact Except.ok.inj h ▸ .refl t
  · exact Except.ok.inj h ▸ .refl t
  · cases h

theorem sub_rmtree (p : PyPath) : FileTree.Sub (rmtree cwd t p).2 t := by
  unfold rmtree
  split
  · exact .refl t
  · next l _ =>
    have emptied : FileTree.Sub (t.empty l) t := FileTree.sub_empty t l
    split
    · exact .refl t
    · exact .refl t
    · split
      · split
        · exact emptied
        · exact (FileTree.sub_prune (t.empty l) l).trans emptied
      · exact emptied

/-- What a path names in a tree it names in every tree that has more. -/
theorem node?_of_sub {cwd : Loc} {t t' : FileTree β} (sub : FileTree.Sub t t') {p : PyPath}
    {n : FileTree.Node β} (h : node? cwd t p = some n) : node? cwd t' p = some n := by
  obtain ⟨l, hl, hn⟩ := node?_eq_some_iff.1 h
  exact node?_eq_some_iff.2 ⟨l, locate_mono (fun l dir => sub l _ dir) hl, sub l n hn⟩

/-- Whether both paths name one existing node. -/
def sameFile (p q : PyPath) : Bool :=
  match locate cwd t p, locate cwd t q with
  | .ok l, .ok l' => l = l' ∧ (t.node? l).isSome
  | _, _ => false

/-- Where `shutil.copy2(src, dst)` writes: a directory `dst` stands for the file of the same name in
it. -/
def copyTarget (src dst : PyPath) : PyPath := if isDir cwd t dst then dst.join src.name else dst

/-- `shutil.copy2(src, dst)`. -/
def copy2 (src dst : PyPath) : Except FileError (FileTree β) :=
  let target := copyTarget cwd t src dst
  if sameFile cwd t src target then .error .sameFile
  else
    match read cwd t src with
    | .ok b => write cwd t target b
    | .error e => .error e

theorem copy2_eq_ok {cwd : Loc} {t t' : FileTree β} {src dst : PyPath}
    (h : copy2 cwd t src dst = .ok t') : ∃ l b, locate cwd t (copyTarget cwd t src dst) = .ok l ∧
      locate cwd t src ≠ .ok l ∧ read cwd t src = .ok b ∧ t.write l b = .ok t' := by
  unfold copy2 at h
  dsimp only at h
  split_ifs at h with same
  split at h
  · next b hb =>
    obtain ⟨l, hl, written⟩ := write_eq_ok h
    refine ⟨l, b, hl, fun hsrc => same ?_, hb, written⟩
    obtain ⟨l', hl', hnode⟩ := read_eq_ok_iff.1 hb
    obtain rfl := Except.ok.inj (hsrc.symm.trans hl')
    simp [sameFile, hsrc, hl, hnode]
  · cases h

/-- The path can be written, and names another place than the source. -/
def Apart (src dst : PyPath) : Prop :=
  ∃ l, locate cwd t dst = .ok l ∧ ¬ t.IsDir l ∧ locate cwd t src ≠ .ok l

theorem Apart.copy2 {cwd : Loc} {t : FileTree β} {src dst : PyPath} {b : β}
    (apart : Apart cwd t src dst) (h : read cwd t src = .ok b) :
    ∃ l t', locate cwd t dst = .ok l ∧ copy2 cwd t src dst = .ok t' ∧ t.write l b = .ok t' := by
  obtain ⟨l, hl, notDir, hsrc⟩ := apart
  have target : copyTarget cwd t src dst = dst := by
    rw [copyTarget, if_neg]
    intro directory
    obtain ⟨l', hl', dir⟩ := isDir_eq_true_iff.1 directory
    obtain rfl := Except.ok.inj (hl.symm.trans hl')
    exact notDir dir
  obtain ⟨t', written⟩ := FileTree.exists_write b notDir
    (FileTree.isDir_dropLast_of_resolve (show t.IsDir ([] : Loc).dropLast from t.isDir_root) hl)
  refine ⟨l, t', hl, ?_, written⟩
  obtain ⟨l', hl', hnode⟩ := read_eq_ok_iff.1 h
  have other : l' ≠ l := fun same => hsrc (same ▸ hl')
  simp [PyPath.copy2, target, sameFile, hl, hl', other, h, write, written]

/-- A file that was copied to a path under which a file is read is the file that is read, and was
copied to the path itself. -/
theorem read_of_copy2 {cwd : Loc} {t t' : FileTree β} {src dst : PyPath} {b : β}
    (copied : copy2 cwd t src dst = .ok t') (h : read cwd t' dst = .ok b) :
    read cwd t src = .ok b ∧ Apart cwd t src dst := by
  obtain ⟨l, b', hl, hsrc, hb', written⟩ := copy2_eq_ok copied
  have dirs := FileTree.isDir_of_write written
  obtain ⟨l₁, hl₁, hnode⟩ := read_eq_ok_iff.1 h
  by_cases directory : isDir cwd t dst = true
  · -- the copy went into the directory, which is still there
    obtain ⟨l₀, hl₀, dir⟩ := isDir_eq_true_iff.1 directory
    obtain rfl := Except.ok.inj ((locate_mono (fun l => (dirs l).2) hl₀).symm.trans hl₁)
    have dir' := (dirs l₀).2 dir
    rw [FileTree.IsDir, hnode] at dir'
    cases dir'
  · rw [copyTarget, if_neg directory] at hl
    obtain ⟨notDir, -, after⟩ := FileTree.write_eq_ok written
    obtain rfl := Except.ok.inj ((locate_mono (fun l => (dirs l).2) hl).symm.trans hl₁)
    rw [after, if_pos rfl] at hnode
    obtain rfl := FileTree.Node.file.inj (Option.some.inj hnode)
    exact ⟨hb', l, hl, notDir, hsrc⟩

/-- Whether a copy of `src` in `l` would run into itself: `l` lies in a directory below `src`. -/
def Endless (src l : Loc) : Prop :=
  FileTree.Below src l ∧ src.length + 1 < l.length ∧ t.IsDir (l.take (src.length + 1))

instance (src l : Loc) : Decidable (Endless t src l) := inferInstanceAs (Decidable (_ ∧ _ ∧ _))

/-- `shutil.copytree(src, dst)`. -/
def copytree (src dst : PyPath) : Except FileError Unit × FileTree β :=
  match locate cwd t src with
  | .error e => (.error e, t)
  | .ok source =>
    match t.node? source with
    | none => (.error .notFound, t)
    | some (.file _) => (.error .notADirectory, t)
    | some .dir =>
      match mkdirs cwd t dst false with
      | (.error e, t') => (.error e, t')
      | (.ok l, t') =>
        if Endless t source l then (.error .endless, t')
        else if into : t'.IsDir l then (.ok (), t'.graft l into t source)
        else (.error .notFound, t')

/-- `path.stat().st_size`, where every directory has one size. -/
def statSize (size : β → ℕ) (directory : ℕ) (p : PyPath) : Except FileError ℕ :=
  match node? cwd t p with
  | some (.file b) => .ok (size b)
  | some .dir => .ok directory
  | none => .error .notFound

/-- The sizes of the files below a directory, added up. -/
def dirSize (size : β → ℕ) (p : PyPath) : ℕ :=
  match locate cwd t p with
  | .ok l => ((t.filesBelow l).map size).sum
  | .error _ => 0

/-! ## Paths that stay below a directory -/

/-- The place that a path spells. -/
def place (cwd : Loc) (p : PyPath) : Loc := (if p.absolute then [] else cwd) ++ p.parts

/-- The path does not go up. -/
def Plain (cwd : Loc) (p : PyPath) : Prop := ".." ∉ p.place cwd

/-- A relative path that names something and does not go up. -/
def Inside (s : String) : Prop :=
  s.toList.head? ≠ some '/' ∧ split s ≠ [] ∧ ".." ∉ split s

instance (s : String) : Decidable (Inside s) := inferInstanceAs (Decidable (_ ∧ _ ∧ _))

theorem inside_of_isPart {s : String} (h : IsPart s) (up : s ≠ "..") : Inside s := by
  refine ⟨fun head => h.2.2 (List.mem_of_head? head), ?_, ?_⟩
  · rw [split_of_isPart h]
    exact List.cons_ne_nil s []
  · rw [split_of_isPart h]
    simpa using Ne.symm up

section Inside

open FileTree

variable {β : Type*} {cwd : Loc} {t t' : FileTree β} {p base : PyPath} {s : String} {l : Loc}

theorem place_join (inside : Inside s) : (base.join s).place cwd = base.place cwd ++ split s := by
  rw [join, if_neg inside.1]
  exact (List.append_assoc ..).symm

theorem Plain.join (plain : base.Plain cwd) (inside : Inside s) : (base.join s).Plain cwd := by
  rw [Plain, place_join inside, List.mem_append, not_or]
  exact ⟨plain, inside.2.2⟩

theorem inner_place_join (inside : Inside s) : Inner (base.place cwd) ((base.join s).place cwd) :=
  ⟨split s, inside.2.1, place_join inside⟩

theorem locate_eq_resolve (cwd : Loc) (t : FileTree β) (p : PyPath) :
    p.locate cwd t = t.resolve [] (p.place cwd) := rfl

theorem eq_place_of_locate (plain : p.Plain cwd) (h : p.locate cwd t = .ok l) :
    l = p.place cwd := by
  rw [locate_eq_resolve] at h
  simpa using eq_append_of_resolve plain h

theorem locate_of_isDir (plain : p.Plain cwd) (dir : t.IsDir (p.place cwd)) :
    p.locate cwd t = .ok (p.place cwd) := by
  have top : t.resolve [] (p.place cwd) = .ok ([] ++ p.place cwd) := resolve_of_isDir plain dir
  exact top

/-- A name in a directory is found whether anything has it or not. -/
theorem locate_join_of_isDir (plain : base.Plain cwd) (dir : t.IsDir (base.place cwd))
    (h : IsPart s) (up : s ≠ "..") :
    (base.join s).locate cwd t = .ok ((base.join s).place cwd) := by
  refine (locate_join_eq_ok h).2 ⟨base.place cwd, locate_of_isDir plain dir, dir, ?_⟩
  rw [place_join (inside_of_isPart h up), split_of_isPart h, stepInto_of_ne _ up]

/-- The path names nothing outside of the part. -/
def Leads (cwd : Loc) (part : Loc → Prop) (p : PyPath) : Prop :=
  p.Plain cwd ∧ part (p.place cwd)

variable {part : Loc → Prop}

theorem Leads.of_locate (h : p.Leads cwd part) (found : p.locate cwd t = .ok l) : part l :=
  eq_place_of_locate h.1 found ▸ h.2

theorem leads_join (plain : base.Plain cwd) (inside : Inside s) :
    (base.join s).Leads cwd (Inner (base.place cwd)) :=
  ⟨plain.join inside, inner_place_join inside⟩

theorem Leads.join (h : p.Leads cwd part) (closed : DownClosed part) (inside : Inside s) :
    (p.join s).Leads cwd part :=
  ⟨h.1.join inside, closed _ _ h.2 (by rw [place_join inside]; exact List.prefix_append ..)⟩

theorem Leads.agreeOff_write (h : p.Leads cwd part) {b : β} (written : p.write cwd t b = .ok t') :
    AgreeOff part t t' := by
  obtain ⟨l, found, written⟩ := write_eq_ok written
  exact FileTree.agreeOff_write (h.of_locate found) written

theorem Leads.agreeOff_unlink (h : p.Leads cwd part) (closed : DownClosed part)
    (gone : p.unlink cwd t = .ok t') : AgreeOff part t t' := by
  unfold unlink at gone
  split at gone
  · next l found =>
    split at gone
    · exact Except.ok.inj gone ▸ agreeOff_prune closed (h.of_locate found)
    · cases gone
    · exact Except.ok.inj gone ▸ .refl part t
  · exact Except.ok.inj gone ▸ .refl part t
  · cases gone

theorem Leads.agreeOff_rmtree (h : p.Leads cwd part) (closed : DownClosed part) :
    AgreeOff part t (p.rmtree cwd t).2 := by
  unfold rmtree
  split
  · exact .refl part t
  · next l found =>
    have inside := h.of_locate found
    have emptied : AgreeOff part t (t.empty l) := agreeOff_empty closed inside
    split
    · exact .refl part t
    · exact .refl part t
    · split
      · split
        · exact emptied
        · exact emptied.trans (agreeOff_prune closed inside)
      · exact emptied

/-- What `copy2` writes lies in the part, when the destination and the name in it do. -/
theorem Leads.agreeOff_copy2 {src dst : PyPath} (h : dst.Leads cwd part) (closed : DownClosed part)
    (inside : Inside src.name) (copied : src.copy2 cwd t dst = .ok t') : AgreeOff part t t' := by
  obtain ⟨l, b, found, -, -, written⟩ := copy2_eq_ok copied
  refine FileTree.agreeOff_write ?_ written
  unfold copyTarget at found
  split_ifs at found
  · exact (h.join closed inside).of_locate found
  · exact h.of_locate found

/-- The directories of a path below a directory are created below it. -/
theorem mkdirs_join (plain : base.Plain cwd) (dir : t.IsDir (base.place cwd)) (inside : Inside s)
    (existOk : Bool) :
    AgreeOff (Inner (base.place cwd)) t ((base.join s).mkdirs cwd t existOk).2 ∧
    (∀ l, t.IsDir l → ((base.join s).mkdirs cwd t existOk).2.IsDir l) ∧
    (∀ l, ((base.join s).mkdirs cwd t existOk).1 = .ok l → l = (base.join s).place cwd ∧
      ((base.join s).mkdirs cwd t existOk).2.IsDir l) := by
  unfold mkdirs
  by_cases refused : ¬ existOk ∧ exist cwd t (base.join s)
  · rw [if_pos refused]
    exact ⟨.refl _ t, fun _ h => h, nofun⟩
  · rw [if_neg refused]
    have path : (if (base.join s).absolute then [] else cwd) ++ (base.join s).parts =
        base.place cwd ++ split s := place_join inside
    rw [path, makeDirs_append_of_isDir plain (by simpa using dir), place_join inside,
      List.nil_append]
    obtain ⟨nodes, found⟩ := makeDirs_spec (t := t) inside.2.2 dir
    refine ⟨fun l outside => (nodes l).resolve_right fun h => outside h.1.1, fun l h => ?_, found⟩
    rcases nodes l with same | ⟨-, free, -⟩
    · rw [IsDir, same, h]
    · rw [IsDir, free] at h
      cases h

/-- Making the directories of a path adds directories on it. -/
theorem mkdirs_spec (plain : p.Plain cwd) (t : FileTree β) :
    (∀ l, (p.mkdirs cwd t true).2.node? l = t.node? l ∨
      Below l (p.place cwd) ∧ t.node? l = none ∧ (p.mkdirs cwd t true).2.IsDir l) ∧
    (∀ l, (p.mkdirs cwd t true).1 = .ok l → (p.mkdirs cwd t true).2.IsDir (p.place cwd)) := by
  obtain ⟨nodes, made⟩ := makeDirs_spec plain t.isDir_root
  rw [mkdirs, if_neg (by simp)]
  refine ⟨fun l => (nodes l).imp_right fun h => ⟨h.1.2, h.2⟩, fun l h => ?_⟩
  obtain ⟨rfl, dir⟩ := made l h
  exact dir

theorem mkdirs_of_isDir (plain : p.Plain cwd) (dir : t.IsDir (p.place cwd)) :
    p.mkdirs cwd t true = (.ok (p.place cwd), t) := by
  have passed := @makeDirs_append_of_isDir β t [] (p.place cwd) plain dir []
  rw [List.append_nil, List.nil_append] at passed
  rw [mkdirs, if_neg (by simp)]
  exact passed

/-- A directory is emptied and removed. -/
theorem rmtree_of_isDir (plain : p.Plain cwd) (dir : t.IsDir (p.place cwd)) :
    p.rmtree cwd t = (.ok (), (t.empty (p.place cwd)).prune (p.place cwd)) := by
  have emptied : (t.empty (p.place cwd)).IsDir (p.place cwd) := by
    rw [IsDir, node?_empty, if_pos (Or.inl rfl), dir]
  have up : p.name ≠ ".." := by
    intro h
    unfold name at h
    cases last : p.parts.getLast? with
    | none => simp [last] at h
    | some part =>
      rw [last, Option.getD_some] at h
      exact plain (List.mem_append_right _ (h ▸ List.mem_of_getLast? last))
  rw [rmtree, locate_of_isDir plain dir]
  dsimp only
  rw [show t.node? (p.place cwd) = some .dir from dir]
  dsimp only
  rw [locate_of_isDir plain emptied]
  dsimp only
  rw [if_neg up]

/-- A directory in a directory is created. -/
theorem mkdirs_join_of_free (plain : base.Plain cwd) (dir : t.IsDir (base.place cwd))
    (h : IsPart s) (up : s ≠ "..") (free : t.node? ((base.join s).place cwd) = none) :
    ∃ t', (base.join s).mkdirs cwd t true = (.ok ((base.join s).place cwd), t') ∧
      ∀ l, t'.node? l = if (base.join s).place cwd = l then some .dir else t.node? l := by
  have place : (base.join s).place cwd = base.place cwd ++ [s] := by
    rw [place_join (inside_of_isPart h up), split_of_isPart h]
  have parent : t.IsDir ((base.join s).place cwd).dropLast := by
    rwa [place, List.dropLast_concat]
  obtain ⟨t', made⟩ := exists_mkdir free parent
  refine ⟨t', ?_, (mkdir_eq_ok made).2⟩
  have path : (if (base.join s).absolute then [] else cwd) ++ (base.join s).parts =
      base.place cwd ++ [s] := place
  rw [place] at free made
  rw [mkdirs, if_neg (by simp), path, makeDirs_append_of_isDir plain (by simpa using dir),
    List.nil_append, makeDirs, stepInto_of_ne _ up, free, made, place]
  rfl

/-- A directory of a directory that is removed and created again is there, and empty. -/
theorem recreate_join (plain : base.Plain cwd) (h : IsPart s) (up : s ≠ "..")
    (dir : t.IsDir ((base.join s).place cwd)) :
    ∃ t', (base.join s).mkdirs cwd ((base.join s).rmtree cwd t).2 true =
        (.ok ((base.join s).place cwd), t') ∧ t'.IsDir ((base.join s).place cwd) ∧
      AgreeOff (Inner ((base.join s).place cwd)) t t' := by
  have inside := inside_of_isPart h up
  have place : (base.join s).place cwd = base.place cwd ++ [s] := by
    rw [place_join inside, split_of_isPart h]
  have parent : t.IsDir (base.place cwd) := by
    have closed := t.closed _ _ dir
    rwa [place, List.dropLast_concat] at closed
  rw [rmtree_of_isDir (plain.join inside) dir]
  set l₀ := (base.join s).place cwd
  have left (l : Loc) (outside : ¬ Below l₀ l) :
      ((t.empty l₀).prune l₀).node? l = t.node? l := by
    rw [node?_prune, if_pos (Or.inr outside), node?_empty, if_pos (Or.inr (Or.inr outside))]
  have notBelow : ¬ Below l₀ (base.place cwd) := by
    rw [place]
    intro below
    have shorter := below.length_le
    rw [List.length_append, List.length_singleton] at shorter
    omega
  have free : ((t.empty l₀).prune l₀).node? l₀ = none := by
    rw [node?_prune, if_neg]
    simp [place, Below]
  have above : ((t.empty l₀).prune l₀).IsDir (base.place cwd) := by
    rw [IsDir, left _ notBelow, parent]
  obtain ⟨t', made, after⟩ := mkdirs_join_of_free plain above h up free
  refine ⟨t', made, by rw [IsDir, after, if_pos rfl], fun l outside => ?_⟩
  rw [after]
  split_ifs with here
  · rw [← here, show t.node? l₀ = some .dir from dir]
  · refine left l fun below => outside ?_
    obtain ⟨rest, rfl⟩ := below
    exact ⟨rest, by rintro rfl; exact here (List.append_nil _).symm, rfl⟩

theorem agreeOff_copytree_join {src : PyPath} (plain : base.Plain cwd)
    (dir : t.IsDir (base.place cwd)) (inside : Inside s) :
    AgreeOff (Inner (base.place cwd)) t (src.copytree cwd t (base.join s)).2 := by
  unfold copytree
  obtain ⟨made, -, found⟩ := mkdirs_join plain dir inside false
  split
  · exact .refl _ t
  · split
    · exact .refl _ t
    · exact .refl _ t
    · split
      · next e t' h => rwa [h] at made
      · next l t' h =>
        rw [h] at made found
        split_ifs
        · exact made
        · refine made.trans fun l' outside => ?_
          dsimp only
          rw [node?_graft_of_outside]
          intro below
          refine outside ?_
          rw [(found l rfl).1] at below
          obtain ⟨rest, nonempty, rfl⟩ := below
          exact downClosed_inner _ _ _ (inner_place_join inside) (List.prefix_append ..)
        · exact made

end Inside

end PyPath
