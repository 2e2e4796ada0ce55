import Cpip.Lib.Dict
import Mathlib.Data.List.Infix

/-!
# File trees

A file tree without links: its nodes are files and directories, named by the components of their
absolute path (`Loc`), and what a node lies in is a directory.  `resolve` walks a path that may hold
`..`.  The operations fail as the system calls do (`FileError`); permissions and limits on names or
space are left out.
-/

/-- The components of the absolute path of a node. -/
abbrev Loc := List String

/-- Why a file operation fails. -/
inductive FileError where
  | notFound
  | notADirectory
  | isADirectory
  | fileExists
  | sameFile
  | endless
  deriving DecidableEq, Repr

namespace FileTree

inductive Node (β : Type*) where
  | file (content : β)
  | dir
  deriving DecidableEq, Repr

end FileTree

structure FileTree (β : Type*) where
  nodes : Dict Loc (FileTree.Node β)
  root : nodes.get? [] = some .dir
  closed : ∀ l n, nodes.get? l = some n → nodes.get? l.dropLast = some .dir

namespace FileTree

variable {β : Type*}

def node? (t : FileTree β) (l : Loc) : Option (Node β) := t.nodes.get? l

def IsDir (t : FileTree β) (l : Loc) : Prop := t.node? l = some .dir

instance (t : FileTree β) (l : Loc) : Decidable (t.IsDir l) :=
  match h : t.node? l with
  | some .dir => isTrue h
  | some (.file _) => isFalse (by simp [IsDir, h])
  | none => isFalse (by simp [IsDir, h])

theorem isDir_root (t : FileTree β) : t.IsDir [] := t.root

/-- The tree that holds the root only. -/
def bare : FileTree β where
  nodes := Dict.empty.set [] .dir
  root := rfl
  closed l n h := by
    have hl : l = [] := by
      by_contra hne
      rw [Dict.get?_set, if_neg (Ne.symm hne)] at h
      cases h
    subst hl
    rfl

/-- The tree with the node at a place in a directory that is no directory itself. -/
def put (t : FileTree β) (l : Loc) (n : Node β) (proper : l ≠ [])
    (parent : t.IsDir l.dropLast) (free : ¬ t.IsDir l) : FileTree β where
  nodes := t.nodes.set l n
  root := by rw [Dict.get?_set, if_neg proper, t.root]
  closed l' n' h := by
    have old : t.nodes.get? l'.dropLast = some .dir := by
      rw [Dict.get?_set] at h
      split_ifs at h with hl
      · exact hl ▸ parent
      · exact t.closed l' n' h
    rw [Dict.get?_set, if_neg, old]
    rintro rfl
    exact free old

/-- The tree with the nodes that are kept only, where what a kept node lies in is kept. -/
def restrict (t : FileTree β) (keep : Loc → Bool) (top : keep [])
    (upward : ∀ l, keep l → keep l.dropLast) : FileTree β where
  nodes := t.nodes.filter keep
  root := by rw [Dict.get?_filter, if_pos top, t.root]
  closed l n h := by
    rw [Dict.get?_filter] at h ⊢
    split_ifs at h with hl
    rw [if_pos (upward l hl), t.closed l n h]

/-- `l'` is `l` or lies below it. -/
def Below (l l' : Loc) : Prop := l <+: l'

instance (l l' : Loc) : Decidable (Below l l') := inferInstanceAs (Decidable (l <+: l'))

theorem Below.of_dropLast {l l' : Loc} (h : Below l l'.dropLast) : Below l l' :=
  h.trans (List.dropLast_prefix l')

theorem root_pruned (l : Loc) : decide (([] : Loc) = [] ∨ ¬ Below l []) = true := by simp

/-- The tree without a node and what lies below it; the root stays. -/
def prune (t : FileTree β) (l : Loc) : FileTree β :=
  t.restrict (fun l' => l' = [] ∨ ¬ Below l l') (root_pruned l) (by
    intro l' h
    simp only [decide_eq_true_eq] at h ⊢
    rcases h with rfl | h
    · exact Or.inl rfl
    · exact Or.inr fun below => h below.of_dropLast)

/-- The tree without what lies below a node. -/
def empty (t : FileTree β) (l : Loc) : FileTree β :=
  t.restrict (fun l' => l' = l ∨ l' = [] ∨ ¬ Below l l') (by simp) (by
    intro l' h
    simp only [decide_eq_true_eq] at h ⊢
    rcases h with rfl | rfl | h
    · by_cases hl : l' = []
      · exact Or.inr (Or.inl (by simp [hl]))
      · right; right
        intro below
        have short := below.length_le
        have pos := List.length_pos_iff.2 hl
        simp only [List.length_dropLast] at short
        omega
    · exact Or.inr (Or.inl rfl)
    · exact Or.inr (Or.inr fun below => h below.of_dropLast))

theorem node?_put {t : FileTree β} {l : Loc} {n : Node β} {proper : l ≠ []}
    {parent : t.IsDir l.dropLast} {free : ¬ t.IsDir l} (l' : Loc) :
    (t.put l n proper parent free).node? l' = if l = l' then some n else t.node? l' :=
  Dict.get?_set ..

theorem node?_restrict {t : FileTree β} {keep : Loc → Bool} {top : keep []}
    {upward : ∀ l, keep l → keep l.dropLast} (l : Loc) :
    (t.restrict keep top upward).node? l = if keep l then t.node? l else none :=
  Dict.get?_filter ..

theorem node?_prune (t : FileTree β) (l l' : Loc) :
    (t.prune l).node? l' = if l' = [] ∨ ¬ Below l l' then t.node? l' else none := by
  simp only [prune, node?_restrict, decide_eq_true_eq]

theorem node?_empty (t : FileTree β) (l l' : Loc) :
    (t.empty l).node? l' = if l' = l ∨ l' = [] ∨ ¬ Below l l' then t.node? l' else none := by
  simp only [empty, node?_restrict, decide_eq_true_eq]

/-! ## Copying a directory -/

/-- The place of the copy in `dst` of what lies at a place below `src`. -/
def moved (src dst l : Loc) : Loc := dst ++ l.drop src.length

theorem moved_append (src dst rest : Loc) : moved src dst (src ++ rest) = dst ++ rest := by
  simp [moved]

/-- The entries that a copy of what lies below `src` has in `dst`. -/
def copies (t : FileTree β) (src dst : Loc) : List (Loc × Node β) :=
  (t.nodes.entries.filter fun e => Below src e.1 ∧ e.1 ≠ src).map fun e => (moved src dst e.1, e.2)

theorem mem_copies {t : FileTree β} {src dst l : Loc} {n : Node β} :
    (l, n) ∈ t.copies src dst ↔ ∃ rest, rest ≠ [] ∧ l = dst ++ rest ∧
      t.node? (src ++ rest) = some n := by
  simp only [copies, List.mem_map, List.mem_filter, decide_eq_true_eq, Prod.mk.injEq, node?,
    Dict.get?_eq_some_iff]
  constructor
  · rintro ⟨⟨l', n'⟩, ⟨hmem, ⟨rest, rfl⟩, hne⟩, rfl, rfl⟩
    refine ⟨rest, ?_, moved_append src dst rest, hmem⟩
    rintro rfl
    exact hne (List.append_nil src)
  · rintro ⟨rest, hne, rfl, hmem⟩
    refine ⟨(src ++ rest, n), ⟨hmem, ⟨rest, rfl⟩, ?_⟩, moved_append src dst rest, rfl⟩
    simpa using hne

theorem nodup_copies (t : FileTree β) (src dst : Loc) :
    ((t.copies src dst).map Prod.fst).Nodup := by
  have keys : (t.copies src dst).map Prod.fst =
      ((t.nodes.entries.filter fun e => Below src e.1 ∧ e.1 ≠ src).map Prod.fst).map
        (moved src dst) := by
    simp [copies, Function.comp_def]
  rw [keys]
  refine List.Nodup.map_on ?_ (t.nodes.nodup.sublist (List.filter_sublist.map _))
  intro l hl l' hl' same
  simp only [List.mem_map, List.mem_filter, decide_eq_true_eq] at hl hl'
  obtain ⟨e, ⟨-, ⟨rest, he⟩, -⟩, rfl⟩ := hl
  obtain ⟨e', ⟨-, ⟨rest', he'⟩, -⟩, rfl⟩ := hl'
  rw [← he, ← he', moved_append, moved_append, List.append_cancel_left_eq] at same
  rw [← he, ← he', same]

/-- Nothing is left of what lay below an emptied place. -/
theorem node?_empty_append (t : FileTree β) (l : Loc) {rest : Loc} (h : rest ≠ []) :
    (t.empty l).node? (l ++ rest) = none := by
  rw [node?_empty, if_neg]
  simp [h, Below]

/-- The tree in which below the directory `dst` lies what lies below `src` in another tree. -/
def graft (t : FileTree β) (dst : Loc) (into : t.IsDir dst) (other : FileTree β) (src : Loc) :
    FileTree β where
  nodes := (t.empty dst).nodes.extend (other.copies src dst) (by
    rw [List.map_append]
    refine List.Nodup.append (t.empty dst).nodes.nodup (other.nodup_copies src dst) ?_
    intro l old new
    obtain ⟨⟨_, n⟩, hmem, rfl⟩ := List.mem_map.1 new
    obtain ⟨rest, hne, rfl, -⟩ := mem_copies.1 hmem
    have present := (Dict.mem_keys_iff _ _).1 old
    rw [show (t.empty dst).nodes.get? _ = none from node?_empty_append t dst hne] at present
    cases present)
  root := Dict.get?_extend_eq_some_iff.2 (Or.inl (t.empty dst).root)
  closed l n h := by
    rw [Dict.get?_extend_eq_some_iff] at h ⊢
    rcases h with old | new
    · exact Or.inl ((t.empty dst).closed l n old)
    · obtain ⟨rest, hne, rfl, hnode⟩ := mem_copies.1 new
      rw [List.dropLast_append_of_ne_nil hne]
      by_cases last : rest.dropLast = []
      · have dir : (t.empty dst).node? dst = some .dir := by
          rw [node?_empty, if_pos (Or.inl rfl), into]
        rw [last, List.append_nil]
        exact Or.inl dir
      · refine Or.inr (mem_copies.2 ⟨_, last, rfl, ?_⟩)
        rw [← List.dropLast_append_of_ne_nil hne]
        exact other.closed _ _ hnode

/-! ## Reading and changing one node -/

def read (t : FileTree β) (l : Loc) : Except FileError β :=
  match t.node? l with
  | some (.file b) => .ok b
  | some .dir => .error .isADirectory
  | none => .error .notFound

/-- Writes a file, which is created where there is none. -/
def write (t : FileTree β) (l : Loc) (b : β) : Except FileError (FileTree β) :=
  if directory : t.IsDir l then .error .isADirectory
  else if parent : t.IsDir l.dropLast then
    .ok (t.put l (.file b) (fun hl => directory (hl ▸ t.isDir_root)) parent directory)
  else .error .notFound

/-- Creates a directory. -/
def mkdir (t : FileTree β) (l : Loc) : Except FileError (FileTree β) :=
  if free : t.node? l = none then
    if parent : t.IsDir l.dropLast then
      have directory : ¬ t.IsDir l := by simp [IsDir, free]
      .ok (t.put l .dir (fun hl => directory (hl ▸ t.isDir_root)) parent directory)
    else .error .notFound
  else .error .fileExists

/-- The contents of the files below a place. -/
def filesBelow (t : FileTree β) (l : Loc) : List β :=
  t.nodes.entries.filterMap fun e =>
    match e.2 with
    | .file b => if Below l e.1 ∧ e.1 ≠ l then some b else none
    | .dir => none

/-! ## Walking a path -/

/-- Where a step of a path leads from a directory. -/
def stepInto (cur : Loc) (name : String) : Loc :=
  if name = ".." then cur.dropLast else cur ++ [name]

theorem stepInto_of_ne (cur : Loc) {name : String} (h : name ≠ "..") :
    stepInto cur name = cur ++ [name] := if_neg h

/-- The place that a path names, from a directory; the last component may be missing. -/
def resolve (t : FileTree β) : Loc → List String → Except FileError Loc
  | cur, [] => .ok cur
  | cur, name :: rest =>
    match t.node? cur with
    | some .dir => resolve t (stepInto cur name) rest
    | some (.file _) => .error .notADirectory
    | none => .error .notFound

/-- Creates the directories of a path that are missing. -/
def makeDirs (t : FileTree β) : Loc → List String → Except FileError Loc × FileTree β
  | cur, [] => (.ok cur, t)
  | cur, name :: rest =>
    match t.node? (stepInto cur name) with
    | some .dir => makeDirs t (stepInto cur name) rest
    | some (.file _) => (.error .fileExists, t)
    | none =>
      match t.mkdir (stepInto cur name) with
      | .ok t' => makeDirs t' (stepInto cur name) rest
      | .error e => (.error e, t)

theorem resolve_append (t : FileTree β) (cur : Loc) (parts rest : List String) :
    t.resolve cur (parts ++ rest) = t.resolve cur parts >>= fun l => t.resolve l rest := by
  induction parts generalizing cur with
  | nil => rfl
  | cons name parts ih =>
    simp only [List.cons_append, resolve]
    cases t.node? cur with
    | none => rfl
    | some n =>
      cases n with
      | file b => rfl
      | dir => exact ih _

/-- What a path leads to from the root lies in a directory. -/
theorem isDir_dropLast_of_resolve {t : FileTree β} {cur l : Loc} {parts : List String}
    (start : t.IsDir cur.dropLast) (h : t.resolve cur parts = .ok l) : t.IsDir l.dropLast := by
  induction parts generalizing cur with
  | nil =>
    obtain rfl := Except.ok.inj h
    exact start
  | cons name parts ih =>
    unfold resolve at h
    split at h
    · next dir =>
      refine ih ?_ h
      unfold stepInto
      split_ifs
      · exact t.closed _ _ start
      · rw [List.dropLast_concat]
        exact dir
    · cases h
    · cases h

/-- A path leads to the same place in every tree that has the directories of the tree. -/
theorem resolve_mono {t t' : FileTree β} (dirs : ∀ l, t.IsDir l → t'.IsDir l) {cur l : Loc}
    {parts : List String} (h : t.resolve cur parts = .ok l) : t'.resolve cur parts = .ok l := by
  induction parts generalizing cur with
  | nil => exact h
  | cons name parts ih =>
    unfold resolve at h ⊢
    split at h
    · next dir =>
      rw [dirs cur dir]
      exact ih h
    · cases h
    · cases h

/-! ## What writing and removing leave -/

/-- What an existing node lies below is a directory. -/
theorem isDir_of_below {t : FileTree β} {l l' : Loc} {n : Node β} (h : t.node? l = some n)
    (below : Below l' l) (hne : l' ≠ l) : t.IsDir l' := by
  induction l using List.reverseRecOn generalizing n with
  | nil => exact absurd (List.prefix_nil.1 below) hne
  | append_singleton l₀ name ih =>
    have parent : t.IsDir l₀ := by
      have closed := t.closed _ _ h
      rwa [List.dropLast_concat] at closed
    rcases List.prefix_concat_iff.1 below with same | below
    · exact absurd same hne
    · by_cases here : l' = l₀
      · exact here ▸ parent
      · exact ih parent below here

/-- Removing a file removes no other node. -/
theorem node?_prune_of_file {t : FileTree β} {l : Loc} {b : β} (file : t.node? l = some (.file b))
    (l' : Loc) : (t.prune l).node? l' = if l' = l then none else t.node? l' := by
  have notDir : ¬ t.IsDir l := by
    intro dir
    rw [IsDir, file] at dir
    cases dir
  rw [node?_prune]
  by_cases same : l' = l
  · subst same
    rw [if_pos rfl, if_neg]
    rintro (rfl | outside)
    · exact notDir t.isDir_root
    · exact outside (List.prefix_refl l')
  · rw [if_neg same]
    split_ifs with kept
    · rfl
    · cases hnode : t.node? l' with
      | none => rfl
      | some n =>
        rw [not_or, not_not] at kept
        exact absurd (isDir_of_below hnode kept.2 (Ne.symm same)) notDir

/-- Removing a file removes no directory. -/
theorem isDir_prune_of_file {t : FileTree β} {l : Loc} {b : β} (file : t.node? l = some (.file b))
    (l' : Loc) : (t.prune l).IsDir l' ↔ t.IsDir l' := by
  unfold IsDir
  rw [node?_prune_of_file file]
  split_ifs with same
  · rw [same, file]
    simp
  · rfl

theorem write_eq_ok {t t' : FileTree β} {l : Loc} {b : β} (h : t.write l b = .ok t') :
    ¬ t.IsDir l ∧ t.IsDir l.dropLast ∧
      ∀ l', t'.node? l' = if l = l' then some (.file b) else t.node? l' := by
  unfold write at h
  split_ifs at h with directory parent
  obtain rfl := Except.ok.inj h
  exact ⟨directory, parent, fun l' => node?_put l'⟩

theorem exists_write {t : FileTree β} {l : Loc} (b : β) (directory : ¬ t.IsDir l)
    (parent : t.IsDir l.dropLast) : ∃ t', t.write l b = .ok t' := by
  rw [write, dif_neg directory, dif_pos parent]
  exact ⟨_, rfl⟩

/-- Writing a file changes no directory. -/
theorem isDir_of_write {t t' : FileTree β} {l : Loc} {b : β} (h : t.write l b = .ok t') (l' : Loc) :
    t'.IsDir l' ↔ t.IsDir l' := by
  obtain ⟨directory, -, after⟩ := write_eq_ok h
  unfold IsDir
  rw [after]
  split_ifs with hl
  · subst hl
    exact iff_of_false nofun directory
  · rfl

/-! ## Trees with fewer nodes -/

/-- Every node of the tree is a node of the other. -/
def Sub (t t' : FileTree β) : Prop := ∀ l n, t.node? l = some n → t'.node? l = some n

theorem Sub.refl (t : FileTree β) : Sub t t := fun _ _ h => h

theorem Sub.trans {t₁ t₂ t₃ : FileTree β} (h : Sub t₁ t₂) (h' : Sub t₂ t₃) : Sub t₁ t₃ :=
  fun l n hn => h' l n (h l n hn)

theorem sub_prune (t : FileTree β) (l : Loc) : Sub (t.prune l) t := by
  intro l' n h
  rw [node?_prune] at h
  split_ifs at h
  exact h

theorem sub_empty (t : FileTree β) (l : Loc) : Sub (t.empty l) t := by
  intro l' n h
  rw [node?_empty] at h
  split_ifs at h
  exact h

/-! ## Trees that agree outside of a part -/

/-- The trees have the same nodes outside of the part. -/
def AgreeOff (part : Loc → Prop) (t t' : FileTree β) : Prop :=
  ∀ l, ¬ part l → t'.node? l = t.node? l

/-- A part of a tree that has, with a place, all that lies below it. -/
def DownClosed (part : Loc → Prop) : Prop := ∀ l l', part l → Below l l' → part l'

/-- What lies below a place, without the place itself. -/
def Inner (l l' : Loc) : Prop := ∃ rest, rest ≠ [] ∧ l' = l ++ rest

theorem downClosed_inner (l : Loc) : DownClosed (Inner l) := by
  rintro l' _ ⟨rest, nonempty, rfl⟩ ⟨more, rfl⟩
  exact ⟨rest ++ more, by simp [nonempty], List.append_assoc ..⟩

section AgreeOff

variable {part : Loc → Prop} {t t' : FileTree β} {l : Loc}

theorem AgreeOff.refl (part : Loc → Prop) (t : FileTree β) : AgreeOff part t t := fun _ _ => rfl

theorem AgreeOff.trans {t'' : FileTree β} (h : AgreeOff part t t') (h' : AgreeOff part t' t'') :
    AgreeOff part t t'' := fun l outside => (h' l outside).trans (h l outside)

theorem AgreeOff.mono {part' : Loc → Prop} (h : AgreeOff part t t')
    (wider : ∀ l, part l → part' l) : AgreeOff part' t t' :=
  fun l outside => h l fun inside => outside (wider l inside)

theorem AgreeOff.isDir (h : AgreeOff part t t') (outside : ¬ part l) : t'.IsDir l ↔ t.IsDir l := by
  rw [IsDir, IsDir, h l outside]

theorem agreeOff_prune (closed : DownClosed part) (inside : part l) :
    AgreeOff part t (t.prune l) := by
  intro l' outside
  rw [node?_prune, if_pos (Or.inr fun below => outside (closed l l' inside below))]

theorem agreeOff_empty (closed : DownClosed part) (inside : part l) :
    AgreeOff part t (t.empty l) := by
  intro l' outside
  rw [node?_empty, if_pos (Or.inr (Or.inr fun below => outside (closed l l' inside below)))]

theorem agreeOff_write {b : β} (inside : part l) (h : t.write l b = .ok t') :
    AgreeOff part t t' := by
  intro l' outside
  rw [(write_eq_ok h).2.2, if_neg]
  rintro rfl
  exact outside inside

theorem mkdir_eq_ok (h : t.mkdir l = .ok t') :
    t.node? l = none ∧ ∀ l', t'.node? l' = if l = l' then some .dir else t.node? l' := by
  unfold mkdir at h
  split_ifs at h with free parent
  obtain rfl := Except.ok.inj h
  exact ⟨free, fun l' => node?_put l'⟩

theorem exists_mkdir (free : t.node? l = none) (parent : t.IsDir l.dropLast) :
    ∃ t', t.mkdir l = .ok t' := by
  rw [mkdir, dif_pos free, dif_pos parent]
  exact ⟨_, rfl⟩

theorem agreeOff_mkdir (inside : part l) (h : t.mkdir l = .ok t') : AgreeOff part t t' := by
  intro l' outside
  rw [(mkdir_eq_ok h).2, if_neg]
  rintro rfl
  exact outside inside

/-- Only what lies below the place of the copy is replaced. -/
theorem node?_graft_of_outside {into : t.IsDir l} {other : FileTree β} {src l' : Loc}
    (outside : ¬ Inner l l') : (t.graft l into other src).node? l' = t.node? l' := by
  have kept : (t.empty l).node? l' = t.node? l' := by
    rw [node?_empty, if_pos]
    by_contra below
    simp only [not_or, not_not] at below
    obtain ⟨rest, rfl⟩ := below.2.2
    exact outside ⟨rest, by rintro rfl; exact below.1 (List.append_nil l), rfl⟩
  rw [← kept]
  apply Option.ext
  intro n
  show (Dict.extend _ _ _).get? l' = some n ↔ (t.empty l).nodes.get? l' = some n
  rw [Dict.get?_extend_eq_some_iff, or_iff_left]
  intro copied
  obtain ⟨rest, nonempty, rfl, -⟩ := mem_copies.1 copied
  exact outside ⟨rest, nonempty, rfl⟩

end AgreeOff

/-! ## Paths without `..` -/

section Plain

variable {t t' : FileTree β} {cur l : Loc} {parts : List String}

/-- A path without `..` leads to the place that it spells. -/
theorem eq_append_of_resolve (plain : ".." ∉ parts) (h : t.resolve cur parts = .ok l) :
    l = cur ++ parts := by
  induction parts generalizing cur with
  | nil =>
    obtain rfl := Except.ok.inj h
    exact (List.append_nil cur).symm
  | cons name parts ih =>
    rw [List.mem_cons, not_or] at plain
    unfold resolve at h
    split at h
    · rw [ih plain.2 h, stepInto_of_ne cur (Ne.symm plain.1), List.append_assoc,
        List.singleton_append]
    · cases h
    · cases h

/-- A path without `..` leads to a directory that it spells. -/
theorem resolve_of_isDir (plain : ".." ∉ parts) (dir : t.IsDir (cur ++ parts)) :
    t.resolve cur parts = .ok (cur ++ parts) := by
  induction parts generalizing cur with
  | nil => rw [List.append_nil]; rfl
  | cons name parts ih =>
    rw [List.mem_cons, not_or] at plain
    have here : t.node? cur = some .dir := isDir_of_below dir (List.prefix_append ..) (by simp)
    have step : cur ++ name :: parts = cur ++ [name] ++ parts := by simp
    rw [resolve, here, step]
    dsimp only
    rw [stepInto_of_ne cur (Ne.symm plain.1)]
    exact ih plain.2 (step ▸ dir)

/-- The directories of a path without `..` that are there are passed through. -/
theorem makeDirs_append_of_isDir (plain : ".." ∉ parts) (dir : t.IsDir (cur ++ parts))
    (rest : List String) : t.makeDirs cur (parts ++ rest) = t.makeDirs (cur ++ parts) rest := by
  induction parts generalizing cur with
  | nil => rw [List.append_nil, List.nil_append]
  | cons name parts ih =>
    rw [List.mem_cons, not_or] at plain
    have step : cur ++ name :: parts = cur ++ [name] ++ parts := by simp
    have here : t.node? (cur ++ [name]) = some .dir := by
      by_cases last : parts = []
      · subst last
        exact dir
      · exact isDir_of_below dir (by rw [step]; exact List.prefix_append ..) (by simp [last])
    rw [List.cons_append, makeDirs, stepInto_of_ne cur (Ne.symm plain.1), here, step]
    exact ih plain.2 (step ▸ dir)

/-- What the creation of the directories of a path does: it adds directories on the path, below the
one that it starts in. -/
theorem makeDirs_spec (plain : ".." ∉ parts) (start : t.IsDir cur) :
    (∀ l, (t.makeDirs cur parts).2.node? l = t.node? l ∨
      (Inner cur l ∧ Below l (cur ++ parts)) ∧ t.node? l = none ∧
        (t.makeDirs cur parts).2.IsDir l) ∧
    (∀ l, (t.makeDirs cur parts).1 = .ok l →
      l = cur ++ parts ∧ (t.makeDirs cur parts).2.IsDir l) := by
  induction parts generalizing cur t with
  | nil =>
    refine ⟨fun l => .inl rfl, fun l h => ?_⟩
    obtain rfl := Except.ok.inj h
    exact ⟨(List.append_nil _).symm, start⟩
  | cons name parts ih =>
    rw [List.mem_cons, not_or] at plain
    have step : cur ++ name :: parts = cur ++ [name] ++ parts := by simp
    have deeper {l : Loc} (h : Inner (cur ++ [name]) l) : Inner cur l := by
      obtain ⟨rest, -, rfl⟩ := h
      exact ⟨name :: rest, by simp, by simp⟩
    rw [makeDirs, stepInto_of_ne cur (Ne.symm plain.1), step]
    split
    · next here =>
      obtain ⟨nodes, found⟩ := ih plain.2 here
      exact ⟨fun l => (nodes l).imp_right fun h => ⟨⟨deeper h.1.1, h.1.2⟩, h.2⟩, found⟩
    · exact ⟨fun l => .inl rfl, nofun⟩
    · split
      · next t' made =>
        obtain ⟨free, after⟩ := mkdir_eq_ok made
        have here : t'.IsDir (cur ++ [name]) := by rw [IsDir, after, if_pos rfl]
        obtain ⟨nodes, found⟩ := ih plain.2 here
        refine ⟨fun l => ?_, found⟩
        rcases nodes l with same | ⟨⟨below, onPath⟩, new, dir⟩
        · by_cases hl : cur ++ [name] = l
          · subst hl
            exact .inr ⟨⟨⟨[name], by simp, rfl⟩, List.prefix_append ..⟩, free, by
              rw [IsDir, same, here]⟩
          · exact .inl (by rw [same, after, if_neg hl])
        · refine .inr ⟨⟨deeper below, onPath⟩, ?_, dir⟩
          rw [after] at new
          split_ifs at new
          exact new
      · exact ⟨fun l => .inl rfl, nofun⟩

end Plain

end FileTree
