import Cpip.Lib.Walks
import Cpip.Python.Pathlib

/-!
# Operations that keep to a directory

An operation is confined to a directory when it changes nothing but what lies directly inside, and
what it returns depends on the contents of no file elsewhere.  Reading, writing and removing the
file of a name in the directory are confined when the name stays: with each `..` taken back, it is
the name of something directly inside, or of a directory that the path itself goes through.
-/

namespace PyPath

open FileTree

variable {β : Type*}

/-- The place that a path names, where it names one. -/
def target (cwd : Loc) (p : PyPath) : Loc := spell [] (p.place cwd)

/-- The directory is there. -/
def Opened (cwd : Loc) (dir : PyPath) (t : FileTree β) : Prop :=
  dir.locate cwd t = .ok (dir.target cwd) ∧ t.IsDir (dir.target cwd)

/-- An operation that changes, and depends on, nothing but what lies directly inside of a
directory, and which places are directories. -/
structure Confined {ρ : Type*} (cwd : Loc) (dir : PyPath) (op : FileTree β → ρ × FileTree β) :
    Prop where
  changes : ∀ t, Opened cwd dir t → AgreeOff (Directly (dir.target cwd)) t (op t).2
  depends : ∀ t t', Opened cwd dir t → Opened cwd dir t' → Alike (dir.target cwd) t t' →
    (op t').1 = (op t).1 ∧ ∀ l, Directly (dir.target cwd) l → (op t').2.node? l = (op t).2.node? l

/-- The directories that have to be there for the path of a name in a directory. -/
def passes (cwd : Loc) (dir : PyPath) (s : String) : List Loc :=
  dir.target cwd :: (stops [] (dir.place cwd) ++ stops [] ((dir.join s).place cwd))

/-- The name is one directly inside of the directory, or that of a directory on the way. -/
def Stays (cwd : Loc) (dir : PyPath) (s : String) : Prop :=
  Directly (dir.target cwd) ((dir.join s).target cwd) ∨
    ∃ q ∈ passes cwd dir s, Below ((dir.join s).target cwd) q

instance (dir l : Loc) : Decidable (Directly dir l) :=
  decidable_of_iff (l ≠ [] ∧ l.dropLast = dir) (by
    constructor
    · rintro ⟨nonempty, rfl⟩
      exact ⟨_, (List.dropLast_append_getLast nonempty).symm⟩
    · rintro ⟨name, rfl⟩
      simp)

instance (cwd : Loc) (dir : PyPath) (s : String) : Decidable (Stays cwd dir s) :=
  inferInstanceAs (Decidable (_ ∨ _))

variable {cwd : Loc} {dir : PyPath} {s : String} {t t' : FileTree β}

theorem locate_eq_ok_iff {p : PyPath} {l : Loc} : p.locate cwd t = .ok l ↔
    (∀ q ∈ stops [] (p.place cwd), t.IsDir q) ∧ l = p.target cwd :=
  resolve_eq_ok_iff

/-- A name that stays names something directly inside, or a directory. -/
theorem Stays.directly (stays : Stays cwd dir s) (opened : Opened cwd dir t) {l : Loc}
    (found : (dir.join s).locate cwd t = .ok l) : Directly (dir.target cwd) l ∨ t.IsDir l := by
  obtain ⟨through, rfl⟩ := locate_eq_ok_iff.1 found
  refine stays.imp id ?_
  rintro ⟨q, hq, below⟩
  have isDir : t.IsDir q := by
    rcases List.mem_cons.1 hq with rfl | hq
    · exact opened.2
    · rcases List.mem_append.1 hq with hq | hq
      · exact (locate_eq_ok_iff.1 opened.1).1 q hq
      · exact through q hq
  by_cases here : (dir.join s).target cwd = q
  · exact here ▸ isDir
  · exact isDir_of_below isDir below here

/-! ## Names that do not stay -/

/-- What the last piece of a split text is, when more is appended to the text. -/
theorem splitOn_append {c : Char} (l : List Char) {more : List Char} (absent : c ∉ more) :
    ∃ front piece, l.splitOn c = front ++ [piece] ∧
      (l ++ more).splitOn c = front ++ [piece ++ more] := by
  induction l with
  | nil => exact ⟨[], [], rfl, List.splitOn_eq_singleton absent⟩
  | cons x l ih =>
    obtain ⟨front, piece, before, after⟩ := ih
    rw [List.cons_append, List.splitOn_cons_eq_if_modifyHead,
      List.splitOn_cons_eq_if_modifyHead, before, after]
    split_ifs
    · exact ⟨[] :: front, piece, rfl, rfl⟩
    · cases front with
      | nil => exact ⟨[], x :: piece, rfl, rfl⟩
      | cons f front => exact ⟨(x :: f) :: front, piece, rfl, rfl⟩

/-- The last component of the path of a name with a long suffix. -/
theorem getLast?_place_join (cwd : Loc) (dir : PyPath) (name : String) {suffix : String}
    (proper : '/' ∉ suffix.toList) (long : 2 < suffix.toList.length) :
    ∃ part, ((dir.join (name ++ suffix)).place cwd).getLast? = some part ∧ part ≠ ".." := by
  obtain ⟨front, piece, -, pieces⟩ := splitOn_append name.toList proper
  have longer : 2 < (String.ofList (piece ++ suffix.toList)).toList.length := by
    rw [String.toList_ofList, List.length_append]
    omega
  have other (s : String) (short : s.toList.length ≤ 2) :
      String.ofList (piece ++ suffix.toList) ≠ s := by
    rintro rfl
    omega
  have last : (split (name ++ suffix)).getLast? =
      some (String.ofList (piece ++ suffix.toList)) := by
    have kept : [String.ofList (piece ++ suffix.toList)].filter
        (fun part => part ≠ "" ∧ part ≠ ".") = [String.ofList (piece ++ suffix.toList)] := by
      rw [List.filter_eq_self]
      intro part hpart
      obtain rfl := List.mem_singleton.1 hpart
      exact decide_eq_true ⟨other "" (by decide), other "." (by decide)⟩
    rw [split, String.toList_append, pieces, List.map_append, List.filter_append,
      List.map_singleton, kept, List.getLast?_concat]
  refine ⟨_, ?_, other ".." (by decide)⟩
  have ends : ∃ front, (dir.join (name ++ suffix)).place cwd = front ++ split (name ++ suffix) := by
    rw [join]
    split_ifs
    · exact ⟨_, rfl⟩
    · exact ⟨_, (List.append_assoc ..).symm⟩
  obtain ⟨front', ends⟩ := ends
  rw [ends, List.getLast?_append, last, Option.some_or]

/-- A component of a path stays. -/
theorem stays_of_isPart (cwd : Loc) (dir : PyPath) (part : IsPart s) (up : s ≠ "..") :
    Stays cwd dir s := by
  obtain ⟨absolute, parts⟩ := dir.join_of_isPart part
  refine .inl ⟨s, ?_⟩
  rw [target, place, absolute, parts, ← List.append_assoc, spell, List.foldl_append]
  exact stepInto_of_ne _ up

/-- Where a name does not stay, the place that it names can be free for a file. -/
theorem exists_free {name suffix : String} (leaves : ¬ Stays cwd dir (name ++ suffix))
    (proper : '/' ∉ suffix.toList) (long : 2 < suffix.toList.length) :
    ∃ t : FileTree β, Opened cwd dir t ∧
      (dir.join (name ++ suffix)).locate cwd t = .ok ((dir.join (name ++ suffix)).target cwd) ∧
      t.node? ((dir.join (name ++ suffix)).target cwd) = none ∧
      t.IsDir ((dir.join (name ++ suffix)).target cwd).dropLast := by
  obtain ⟨part, last, up⟩ := getLast?_place_join cwd dir name proper long
  generalize name ++ suffix = s at leaves last ⊢
  rw [Stays, not_or] at leaves
  have passed (q : Loc) (hq : q ∈ passes cwd dir s) :
      (ofDirs (passes cwd dir s) : FileTree β).IsDir q :=
    isDir_ofDirs.2 (.inr ⟨q, hq, List.prefix_refl q⟩)
  have through (q : Loc) (hq : q ∈ stops [] ((dir.join s).place cwd)) :=
    passed q (List.mem_cons_of_mem _ (List.mem_append_right _ hq))
  refine ⟨ofDirs (passes cwd dir s), ⟨?_, passed _ List.mem_cons_self⟩, ?_, node?_ofDirs ?_, ?_⟩
  · exact locate_eq_ok_iff.2
      ⟨fun q hq => passed q (List.mem_cons_of_mem _ (List.mem_append_left _ hq)), rfl⟩
  · exact locate_eq_ok_iff.2 ⟨through, rfl⟩
  · rw [isDir_ofDirs, not_or]
    refine ⟨fun root => leaves.2 ⟨_, List.mem_cons_self, ?_⟩, leaves.2⟩
    rw [root]
    exact List.nil_prefix
  · exact through _ (dropLast_spell_mem_stops last up)

/-! ## Names that stay -/

section Alike

variable (stays : Stays cwd dir s) (opened : Opened cwd dir t)
  (alike : Alike (dir.target cwd) t t')

theorem locate_congr {part : Loc} (alike : Alike part t t') (p : PyPath) :
    p.locate cwd t' = p.locate cwd t := resolve_congr alike.shape [] _

theorem isDir_congr {part : Loc} (alike : Alike part t t') (l : Loc) : t'.IsDir l ↔ t.IsDir l := by
  have shape := alike.shape l
  rw [IsDir, IsDir]
  cases h : t.node? l with
  | none =>
    rw [h, Option.map_none, Option.map_eq_none_iff] at shape
    rw [shape]
  | some n =>
    obtain ⟨n', hn', same⟩ := Option.map_eq_some_iff.1 (h ▸ shape)
    rw [hn']
    cases n <;> cases n' <;> first | exact Iff.rfl | cases same
    exact iff_of_false nofun nofun

include stays opened

include alike in
theorem read_congr : (dir.join s).read cwd t' = (dir.join s).read cwd t := by
  rw [read, read, locate_congr alike]
  cases found : (dir.join s).locate cwd t with
  | error e => rfl
  | ok l =>
    dsimp only
    rw [FileTree.read, FileTree.read]
    rcases stays.directly opened found with inside | isDir
    · rw [alike.inside l inside]
    · rw [show t.node? l = _ from isDir, show t'.node? l = _ from (isDir_congr alike l).2 isDir]

theorem agreeOff_write {b : β} {u : FileTree β} (written : (dir.join s).write cwd t b = .ok u) :
    AgreeOff (Directly (dir.target cwd)) t u := by
  obtain ⟨l, found, written⟩ := write_eq_ok written
  have inside := (stays.directly opened found).resolve_right (FileTree.write_eq_ok written).1
  exact FileTree.agreeOff_write inside written

theorem agreeOff_unlink {u : FileTree β} (gone : (dir.join s).unlink cwd t = .ok u) :
    AgreeOff (Directly (dir.target cwd)) t u := by
  unfold unlink at gone
  split at gone
  · next l found =>
    split at gone
    · next b file =>
      obtain rfl := Except.ok.inj gone
      have inside := (stays.directly opened found).resolve_right fun dir => by
        rw [IsDir, file] at dir
        cases dir
      intro l' outside
      rw [node?_prune_of_file file, if_neg]
      rintro rfl
      exact outside inside
    · cases gone
    · exact Except.ok.inj gone ▸ .refl _ t
  · exact Except.ok.inj gone ▸ .refl _ t
  · cases gone

include alike in
theorem unlink_congr :
    (∃ e, (dir.join s).unlink cwd t = .error e ∧ (dir.join s).unlink cwd t' = .error e) ∨
      ∃ u u', (dir.join s).unlink cwd t = .ok u ∧ (dir.join s).unlink cwd t' = .ok u' ∧
        ∀ l, Directly (dir.target cwd) l → u'.node? l = u.node? l := by
  rw [unlink, unlink, locate_congr alike]
  cases found : (dir.join s).locate cwd t with
  | error e =>
    cases e with
    | notFound => exact .inr ⟨t, t', rfl, rfl, fun l inside => alike.inside l inside⟩
    | _ => exact .inl ⟨_, rfl, rfl⟩
  | ok l =>
    dsimp only
    rcases stays.directly opened found with inside | isDir
    · rw [alike.inside l inside]
      cases node : t.node? l with
      | none => exact .inr ⟨t, t', rfl, rfl, fun l inside => alike.inside l inside⟩
      | some n =>
        cases n with
        | dir => exact .inl ⟨_, rfl, rfl⟩
        | file b =>
          have node' : t'.node? l = some (.file b) := by rw [alike.inside l inside, node]
          refine .inr ⟨_, _, rfl, rfl, fun l' inside' => ?_⟩
          rw [node?_prune_of_file node, node?_prune_of_file node', alike.inside l' inside']
    · rw [show t.node? l = _ from isDir, show t'.node? l = _ from (isDir_congr alike l).2 isDir]
      exact .inl ⟨_, rfl, rfl⟩

end Alike

theorem write_congr (alike : Alike (dir.target cwd) t t') (b : β) :
    (∃ e, (dir.join s).write cwd t b = .error e ∧ (dir.join s).write cwd t' b = .error e) ∨
      ∃ u u', (dir.join s).write cwd t b = .ok u ∧ (dir.join s).write cwd t' b = .ok u' ∧
        ∀ l, Directly (dir.target cwd) l → u'.node? l = u.node? l := by
  rw [write, write, locate_congr alike]
  cases found : (dir.join s).locate cwd t with
  | error e => exact .inl ⟨e, rfl, rfl⟩
  | ok l =>
    dsimp only
    by_cases directory : t.IsDir l
    · left
      refine ⟨.isADirectory, ?_, ?_⟩
      · rw [FileTree.write, dif_pos directory]
      · rw [FileTree.write, dif_pos ((isDir_congr alike l).2 directory)]
    · by_cases parent : t.IsDir l.dropLast
      · right
        obtain ⟨u, hu⟩ := FileTree.exists_write b directory parent
        obtain ⟨u', hu'⟩ := FileTree.exists_write b
          (fun h => directory ((isDir_congr alike l).1 h)) ((isDir_congr alike _).2 parent)
        refine ⟨u, u', hu, hu', fun l' inside => ?_⟩
        rw [(FileTree.write_eq_ok hu).2.2, (FileTree.write_eq_ok hu').2.2, alike.inside l' inside]
      · left
        refine ⟨.notFound, ?_, ?_⟩
        · rw [FileTree.write, dif_neg directory, dif_neg parent]
        · rw [FileTree.write, dif_neg fun h => directory ((isDir_congr alike l).1 h),
            dif_neg fun h => parent ((isDir_congr alike _).1 h)]

theorem exist_congr {part : Loc} (alike : Alike part t t') (p : PyPath) :
    p.exist cwd t' = p.exist cwd t := by
  rw [exist, exist, node?, node?, locate_congr alike]
  cases p.locate cwd t with
  | error e => rfl
  | ok l =>
    have shape := congrArg Option.isSome (alike.shape l)
    simpa using shape

/-! ## Confined operations -/

section Confined

variable {ρ : Type*}

theorem confined_return (cwd : Loc) (dir : PyPath) (r : ρ) :
    Confined cwd dir fun t : FileTree β => (r, t) where
  changes t _ := .refl _ t
  depends _ _ _ _ alike := ⟨rfl, alike.inside⟩

/-- An operation that goes on with what it read is confined when all that it goes on with is. -/
theorem Stays.confined_of_read (stays : Stays cwd dir s) {op : FileTree β → ρ × FileTree β}
    (rest : ∀ r, ∃ op', Confined cwd dir op' ∧
      ∀ t, (dir.join s).read cwd t = r → op t = op' t) : Confined cwd dir op where
  changes t opened := by
    obtain ⟨op', confined, eq⟩ := rest ((dir.join s).read cwd t)
    rw [eq t rfl]
    exact confined.changes t opened
  depends t t' opened opened' alike := by
    obtain ⟨op', confined, eq⟩ := rest ((dir.join s).read cwd t)
    rw [eq t rfl, eq t' (read_congr stays opened alike)]
    exact confined.depends t t' opened opened' alike

/-- An operation that goes on with whether anything has the name. -/
theorem confined_of_exist {op : FileTree β → ρ × FileTree β}
    (rest : ∀ r, ∃ op', Confined cwd dir op' ∧
      ∀ t, (dir.join s).exist cwd t = r → op t = op' t) : Confined cwd dir op where
  changes t opened := by
    obtain ⟨op', confined, eq⟩ := rest ((dir.join s).exist cwd t)
    rw [eq t rfl]
    exact confined.changes t opened
  depends t t' opened opened' alike := by
    obtain ⟨op', confined, eq⟩ := rest ((dir.join s).exist cwd t)
    rw [eq t rfl, eq t' (exist_congr alike _)]
    exact confined.depends t t' opened opened' alike

theorem Stays.confined_of_write (stays : Stays cwd dir s) {op : FileTree β → ρ × FileTree β}
    (b : β) (failed done : ρ)
    (onError : ∀ t e, (dir.join s).write cwd t b = .error e → op t = (failed, t))
    (onOk : ∀ t u, (dir.join s).write cwd t b = .ok u → op t = (done, u)) :
    Confined cwd dir op where
  changes t opened := by
    cases written : (dir.join s).write cwd t b with
    | error e =>
      rw [onError t e written]
      exact .refl _ t
    | ok u =>
      rw [onOk t u written]
      exact agreeOff_write stays opened written
  depends t t' opened opened' alike := by
    rcases write_congr alike b with ⟨e, he, he'⟩ | ⟨u, u', hu, hu', same⟩
    · rw [onError t e he, onError t' e he']
      exact ⟨rfl, alike.inside⟩
    · rw [onOk t u hu, onOk t' u' hu']
      exact ⟨rfl, same⟩

theorem Stays.confined_of_unlink (stays : Stays cwd dir s) {op : FileTree β → ρ × FileTree β}
    (failed done : ρ)
    (onError : ∀ t e, (dir.join s).unlink cwd t = .error e → op t = (failed, t))
    (onOk : ∀ t u, (dir.join s).unlink cwd t = .ok u → op t = (done, u)) :
    Confined cwd dir op where
  changes t opened := by
    cases gone : (dir.join s).unlink cwd t with
    | error e =>
      rw [onError t e gone]
      exact .refl _ t
    | ok u =>
      rw [onOk t u gone]
      exact agreeOff_unlink stays opened gone
  depends t t' opened opened' alike := by
    rcases unlink_congr stays opened alike with ⟨e, he, he'⟩ | ⟨u, u', hu, hu', same⟩
    · rw [onError t e he, onError t' e he']
      exact ⟨rfl, alike.inside⟩
    · rw [onOk t u hu, onOk t' u' hu']
      exact ⟨rfl, same⟩

/-! ## Operations that are not confined -/

variable {name suffix : String} (leaves : ¬ Stays cwd dir (name ++ suffix))
  (proper : '/' ∉ suffix.toList) (long : 2 < suffix.toList.length)

include leaves proper long

/-- A tree in which the name is that of a file, which could have any content. -/
theorem exists_file (b b' : β) : ∃ t t' : FileTree β, Opened cwd dir t ∧ Opened cwd dir t' ∧
    Alike (dir.target cwd) t t' ∧
    (dir.join (name ++ suffix)).locate cwd t = .ok ((dir.join (name ++ suffix)).target cwd) ∧
    t.node? ((dir.join (name ++ suffix)).target cwd) = some (.file b) ∧
    (dir.join (name ++ suffix)).read cwd t = .ok b ∧
    (dir.join (name ++ suffix)).read cwd t' = .ok b' := by
  obtain ⟨t₀, opened, found, free, parent⟩ := exists_free (β := β) leaves proper long
  have notDir : ¬ t₀.IsDir ((dir.join (name ++ suffix)).target cwd) := by
    rw [IsDir, free]
    nofun
  have with_file (b : β) : ∃ t, Opened cwd dir t ∧
      (dir.join (name ++ suffix)).locate cwd t = .ok ((dir.join (name ++ suffix)).target cwd) ∧
      ∀ l, t.node? l =
        if (dir.join (name ++ suffix)).target cwd = l then some (.file b) else t₀.node? l := by
    obtain ⟨t, written⟩ := FileTree.exists_write b notDir parent
    have dirs (l : Loc) : t.IsDir l ↔ t₀.IsDir l := isDir_of_write written l
    exact ⟨t, ⟨locate_mono (fun l => (dirs l).2) opened.1, (dirs _).2 opened.2⟩,
      locate_mono (fun l => (dirs l).2) found, (FileTree.write_eq_ok written).2.2⟩
  obtain ⟨t, opened₁, found₁, node⟩ := with_file b
  obtain ⟨t', opened₂, found₂, node'⟩ := with_file b'
  refine ⟨t, t', opened₁, opened₂, ⟨fun l inside => ?_, fun l => ?_⟩, found₁, ?_,
    read_eq_ok_iff.2 ⟨_, found₁, ?_⟩, read_eq_ok_iff.2 ⟨_, found₂, ?_⟩⟩
  · have other : (dir.join (name ++ suffix)).target cwd ≠ l := by
      rintro rfl
      exact leaves (.inl inside)
    rw [node, node', if_neg other, if_neg other]
  · rw [node, node']
    split_ifs <;> rfl
  · rw [node, if_pos rfl]
  · rw [node, if_pos rfl]
  · rw [node', if_pos rfl]

theorem not_confined_of_read {op : FileTree β → ρ × FileTree β} (b b' : β) {r r' : ρ}
    (first : ∀ t, (dir.join (name ++ suffix)).read cwd t = .ok b → (op t).1 = r)
    (second : ∀ t, (dir.join (name ++ suffix)).read cwd t = .ok b' → (op t).1 = r')
    (different : r' ≠ r) : ¬ Confined cwd dir op := by
  intro confined
  obtain ⟨t, t', opened, opened', alike, -, -, read, read'⟩ := exists_file leaves proper long b b'
  have same := (confined.depends t t' opened opened' alike).1
  rw [first t read, second t' read'] at same
  exact different same

theorem not_confined_of_write {op : FileTree β → ρ × FileTree β} {b : β}
    (writes : ∀ t u, (dir.join (name ++ suffix)).write cwd t b = .ok u → (op t).2 = u) :
    ¬ Confined cwd dir op := by
  intro confined
  obtain ⟨t, opened, found, free, parent⟩ := exists_free (β := β) leaves proper long
  have notDir : ¬ t.IsDir ((dir.join (name ++ suffix)).target cwd) := by
    rw [IsDir, free]
    nofun
  obtain ⟨u, written⟩ := FileTree.exists_write b notDir parent
  have path : (dir.join (name ++ suffix)).write cwd t b = .ok u := by
    rw [write, found]
    exact written
  have same := confined.changes t opened _ fun inside => leaves (.inl inside)
  rw [writes t u path, (FileTree.write_eq_ok written).2.2, if_pos rfl, free] at same
  cases same

theorem not_confined_of_unlink {op : FileTree β → ρ × FileTree β} (b : β)
    (removes : ∀ t u, (dir.join (name ++ suffix)).exist cwd t = true →
      (dir.join (name ++ suffix)).unlink cwd t = .ok u → (op t).2 = u) :
    ¬ Confined cwd dir op := by
  intro confined
  obtain ⟨t, -, opened, -, -, found, node, -, -⟩ := exists_file leaves proper long b b
  have present : (dir.join (name ++ suffix)).exist cwd t = true := by
    rw [exist, node?_eq_some_iff.2 ⟨_, found, node⟩]
    rfl
  have same := confined.changes t opened _ fun inside => leaves (.inl inside)
  rw [removes t _ present (unlink_of_file found node), node?_prune_of_file node, if_pos rfl, node]
    at same
  cases same

end Confined

end PyPath
