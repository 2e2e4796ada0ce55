import Cpip.Python.Tarfile

/-!
# Where the members of an archive are written

Which places a member touches is decided by what its path leads to when it is its turn: a file
through its last link as well, and then with all its names; a link, or a node of another kind, under
its own name only (`StaysIn`).  Extraction keeps to a directory exactly when every member that it
comes to does (`exact_extractMembers`).
-/

namespace Tar

open LinkTree FileTree

/-- Everything that was touched lies below the place. -/
def Inside (root : Loc) (s : Disk) : Prop := ∀ l ∈ s.touched, Below root l

variable {root : Loc}

theorem inside_append_iff {s : Disk} (inside : Inside root s) {t : LinkTree Bytes}
    {places : List Loc} : Inside root ⟨t, s.touched ++ places⟩ ↔ ∀ l ∈ places, Below root l := by
  constructor
  · exact fun all l h => all l (List.mem_append_right _ h)
  · exact fun all l h => (List.mem_append.1 h).elim (inside l) (all l)

/-- The condition under which a procedure, which forgets nothing that was touched, touches nothing
outside. -/
structure Exact {α : Type} (root : Loc) (m : Proc Disk Exc α) (Q : Disk → Prop) : Prop where
  grows : ∀ l, Proc.Keeps (fun s => l ∈ s.touched) m
  inside_iff : ∀ s, Inside root s → (Inside root (m s).2 ↔ Q s)

/-- A procedure that touches directories only. -/
def Silent {α : Type} (m : Proc Disk Exc α) : Prop := ∀ s, (m s).2.touched = s.touched

theorem Silent.inside {α : Type} {m : Proc Disk Exc α} (silent : Silent m) {s : Disk}
    (inside : Inside root s) : Inside root (m s).2 := by
  unfold Inside
  rw [silent s]
  exact inside

theorem Silent.exact {α : Type} {m : Proc Disk Exc α} (silent : Silent m) :
    Exact root m fun _ => True where
  grows l s h := by
    show l ∈ (m s).2.touched
    rw [silent s]
    exact h
  inside_iff s inside := iff_of_true (silent.inside inside) trivial

theorem Silent.bind {α β : Type} {m : Proc Disk Exc α} {f : α → Proc Disk Exc β}
    (first : Silent m) (next : ∀ a, Silent (f a)) : Silent (m >>= f) := by
  intro s
  have before := first s
  rw [Proc.bind_apply]
  split
  · next a s' h =>
    rw [h] at before
    rw [next a s', before]
  · next e s' h =>
    rw [h] at before
    exact before

theorem Silent.recover {m : Proc Disk Exc Unit} {h : Exc → Proc Disk Exc Unit} (body : Silent m)
    (handler : ∀ e, Silent (h e)) : Silent (m.recover h) := by
  intro s
  have before := body s
  unfold Proc.recover
  split
  · next a s' hm =>
    rw [hm] at before
    exact before
  · next e s' hm =>
    rw [hm] at before
    rw [handler e s', before]

theorem Silent.ite {α : Type} {c : Prop} [Decidable c] {m m' : Proc Disk Exc α} (pos : Silent m)
    (neg : Silent m') : Silent (if c then m else m') := by
  split
  · exact pos
  · exact neg

/-- What comes after a procedure is inside only if the procedure was. -/
theorem Exact.inside_of_inside {α : Type} {m : Proc Disk Exc α} {Q : Disk → Prop}
    (h : Exact root m Q) {s : Disk} (inside : Inside root (m s).2) : Inside root s :=
  fun l touched => inside l (h.grows l s touched)

theorem Exact.bind {α β : Type} {m : Proc Disk Exc α} {f : α → Proc Disk Exc β} {Q : Disk → Prop}
    {Q' : α → Disk → Prop} (first : Exact root m Q) (next : ∀ a, Exact root (f a) (Q' a)) :
    Exact root (m >>= f) fun s => Q s ∧ ∀ a s', m s = (.ok a, s') → Q' a s' where
  grows l := (first.grows l).bind fun a => (next a).grows l
  inside_iff s inside := by
    have before := first.inside_iff s inside
    rw [Proc.bind_apply]
    cases h : m s with
    | mk out s' =>
      rw [h] at before
      cases out with
      | error e => exact before.trans ⟨fun holds => ⟨holds, nofun⟩, fun both => both.1⟩
      | ok a =>
        constructor
        · intro all
          have middle : Inside root s' := (next a).inside_of_inside all
          refine ⟨before.1 middle, ?_⟩
          rintro _ _ ⟨⟩
          exact ((next a).inside_iff s' middle).1 all
        · exact fun both => ((next a).inside_iff s' (before.2 both.1)).2 (both.2 a s' rfl)

theorem Exact.recover {α : Type} {m : Proc Disk Exc α} {handler : Exc → Proc Disk Exc α}
    {Q : Disk → Prop} {Q' : Exc → Disk → Prop} (first : Exact root m Q)
    (next : ∀ e, Exact root (handler e) (Q' e)) :
    Exact root (m.recover handler) fun s => Q s ∧ ∀ e s', m s = (.error e, s') → Q' e s' where
  grows l := (first.grows l).recover fun e => (next e).grows l
  inside_iff s inside := by
    have before := first.inside_iff s inside
    unfold Proc.recover
    cases h : m s with
    | mk out s' =>
      rw [h] at before
      cases out with
      | ok a => exact before.trans ⟨fun holds => ⟨holds, nofun⟩, fun both => both.1⟩
      | error e =>
        constructor
        · intro all
          have middle : Inside root s' := (next e).inside_of_inside all
          refine ⟨before.1 middle, ?_⟩
          rintro _ _ ⟨⟩
          exact ((next e).inside_iff s' middle).1 all
        · exact fun both => ((next e).inside_iff s' (before.2 both.1)).2 (both.2 e s' rfl)

theorem Exact.ite {α : Type} {c : Prop} [Decidable c] {m m' : Proc Disk Exc α}
    {Q Q' : Disk → Prop} (pos : Exact root m Q) (neg : Exact root m' Q') :
    Exact root (if c then m else m') fun s => if c then Q s else Q' s := by
  split
  · exact pos
  · exact neg

theorem Exact.congr {α : Type} {m : Proc Disk Exc α} {Q Q' : Disk → Prop} (h : Exact root m Q)
    (same : ∀ s, Q s ↔ Q' s) : Exact root m Q' :=
  ⟨h.grows, fun s inside => (h.inside_iff s inside).trans (same s)⟩

theorem silent_pure {α : Type} (a : α) : Silent (pure a) := fun _ => rfl

theorem silent_raise {α : Type} (e : Exc) : Silent (Proc.raise e : Proc Disk Exc α) := fun _ => rfl

theorem silent_change (f : LinkTree Bytes → Except FileError (LinkTree Bytes)) :
    Silent (change f []) := by
  intro s
  unfold change
  split
  · exact List.append_nil _
  · rfl

theorem silent_mkdir (path : List String) : Silent (mkdir path) :=
  Silent.bind (fun _ => rfl) fun _ => silent_change _

theorem silent_makedirs (path : List String) : Silent (makedirs path) := by
  induction path with
  | nil => exact silent_raise _
  | cons tail head ih =>
    refine Silent.bind (fun _ => rfl) fun there => Silent.ite (silent_mkdir _) ?_
    refine (ih.recover fun e => Silent.ite (silent_pure ()) (silent_raise e)).bind
      fun _ => Silent.ite (silent_pure ()) (silent_mkdir _)

theorem silent_makeUpper (path : List String) : Silent (makeUpper path) :=
  Silent.bind (fun _ => rfl) fun _ => Silent.ite (silent_pure ()) (silent_makedirs _)

/-! ## Single nodes -/

theorem isDir_of_place {t : LinkTree Bytes} {path : List String} {l : Loc}
    (h : t.place maxLinks path = .ok l) : t.IsDir l.dropLast := by
  obtain ⟨-, -, dir, -, -, -, isDir, -, rfl⟩ := place_eq_ok h
  rw [List.dropLast_concat]
  exact isDir

/-- A new node is touched if nothing is at its place. -/
theorem exact_mknode {l : Loc} {n : LinkTree.Node} {s : Disk} (inside : Inside root s)
    (parent : s.tree.IsDir l.dropLast) (known : n.Known s.tree.next) :
    Inside root (change (·.mknode l n) [l] s).2 ↔ (s.tree.node? l = none → Below root l) := by
  by_cases free : s.tree.node? l = none
  · obtain ⟨t, made⟩ := exists_mknode parent known free
    rw [change, made]
    exact (inside_append_iff inside).trans (by simp [free])
  · have fails : ∃ e, s.tree.mknode l n = .error e := by
      cases h : s.tree.mknode l n with
      | error e => exact ⟨e, rfl⟩
      | ok t => exact absurd (mknode_eq_ok h).1.2 free
    obtain ⟨e, failed⟩ := fails
    rw [change, failed]
    exact iff_of_true inside fun h => absurd h free

/-- The file that the path leads to, all of its names, or its place. -/
def WritesInside (root : Loc) (path : List String) (s : Disk) : Prop :=
  ∀ l left, s.tree.walk maxLinks [] path = .ok (l, left) →
    (s.tree.node? l = none → Below root l) ∧
    ∀ i, s.tree.node? l = some (.file i) → ∀ l', s.tree.node? l' = some (.file i) → Below root l'

theorem exact_write (path : List String) (b : Bytes) :
    Exact root (write path b) (WritesInside root path) := by
  refine ⟨fun l => keeps_write (stable_touched l) path b, fun s inside => ?_⟩
  unfold write WritesInside
  by_cases nonempty : path = []
  · rw [if_pos nonempty]
    refine iff_of_true inside fun l left walked => ?_
    have top := s.tree.isDir_root
    subst nonempty
    obtain ⟨rfl, -⟩ := (leads_of_walk walked).unique (.done _ _)
    unfold LinkTree.IsDir at top
    exact ⟨fun h => (by cases top.symm.trans h), fun i h => (by cases top.symm.trans h)⟩
  rw [if_neg nonempty]
  cases walked : s.tree.walk maxLinks [] path with
  | error e => exact iff_of_true inside nofun
  | ok found =>
    obtain ⟨l, left⟩ := found
    dsimp only
    cases node : s.tree.node? l with
    | none =>
      have parent : s.tree.IsDir l.dropLast := by
        rcases (leads_of_walk walked).isDir_dropLast node with ⟨h, -⟩ | h
        · exact absurd h nonempty
        · exact h
      obtain ⟨t, made⟩ := exists_create b parent node
      dsimp only
      rw [change, made]
      refine (inside_append_iff inside).trans ⟨?_, fun all l' h => ?_⟩
      · rintro below _ _ ⟨⟩
        refine ⟨fun _ => below l (List.mem_singleton_self l), fun i h => ?_⟩
        cases node.symm.trans h
      · obtain rfl := List.mem_singleton.1 h
        exact (all l' left rfl).1 node
    | some n =>
      cases n with
      | file i =>
        refine (inside_append_iff inside).trans ⟨?_, fun all l' h => ?_⟩
        · rintro below _ _ ⟨⟩
          refine ⟨fun h => (by cases node.symm.trans h), fun j h l' name => ?_⟩
          cases node.symm.trans h
          exact below l' (mem_names_iff.2 name)
        · exact (all l left rfl).2 i node l' (mem_names_iff.1 h)
      | _ =>
        refine iff_of_true inside ?_
        rintro _ _ ⟨⟩
        exact ⟨fun h => (by cases node.symm.trans h), fun i h => (by cases node.symm.trans h)⟩

theorem exact_mkspecial (path : List String) : Exact root (mkspecial path) fun s =>
    ∀ l, s.tree.place maxLinks path = .ok l → s.tree.node? l = none → Below root l := by
  refine ⟨fun l => keeps_mkspecial (stable_touched l) path, fun s inside => ?_⟩
  unfold mkspecial
  rw [Proc.bind_apply, placeOf]
  cases place : s.tree.place maxLinks path with
  | error e => exact iff_of_true inside (by rintro _ ⟨⟩)
  | ok l =>
    refine (exact_mknode (n := .special) inside (isDir_of_place place) trivial).trans
      ⟨?_, fun all => all l rfl⟩
    rintro below _ ⟨⟩
    exact below

theorem exact_symlink (target : Option LinkTarget) (path : List String) :
    Exact root (symlink target path) fun s => target ≠ none →
      ∀ l, s.tree.place maxLinks path = .ok l → ¬ s.tree.IsDir l → Below root l := by
  refine ⟨fun l => keeps_symlink (stable_touched l) target path, fun s inside => ?_⟩
  unfold symlink
  rw [Proc.bind_apply, placeOf]
  cases place : s.tree.place maxLinks path with
  | error e => exact iff_of_true inside (by rintro _ _ ⟨⟩)
  | ok l =>
    dsimp only
    by_cases dir : s.tree.IsDir l
    · have fails : clear l s = (.error (.os .isADirectory), s) := by
        rw [clear, if_neg (by simp [show s.tree.node? l = _ from dir]), change, LinkTree.unlink,
          dif_pos dir]
      rw [Proc.bind_of_error fails]
      refine iff_of_true inside ?_
      rintro - _ ⟨⟩ notDir
      exact absurd dir notDir
    · obtain ⟨s', cleared, free, parent, touched⟩ : ∃ s', clear l s = (.ok (), s') ∧
          s'.tree.node? l = none ∧ s'.tree.IsDir l.dropLast ∧ s'.touched = s.touched := by
        unfold clear
        by_cases free : s.tree.node? l = none
        · rw [if_pos free]
          exact ⟨s, rfl, free, isDir_of_place place, rfl⟩
        · rw [if_neg free]
          obtain ⟨t, removed⟩ : ∃ t, s.tree.unlink l = .ok t := by
            unfold LinkTree.unlink
            rw [dif_neg dir, if_neg free]
            exact ⟨_, rfl⟩
          refine ⟨⟨t, s.touched ++ []⟩, by rw [change, removed], ?_, ?_, List.append_nil _⟩
          · rw [(unlink_eq_ok removed).2.1, if_pos rfl]
          · exact isDir_of_unlink removed (isDir_of_place place)
      rw [Proc.bind_of_ok cleared]
      have inside' : Inside root s' := by
        unfold Inside
        rw [touched]
        exact inside
      cases target with
      | none => exact iff_of_true inside' (fun h => absurd rfl h)
      | some target =>
        refine (exact_mknode (n := .link target) inside' parent trivial).trans ⟨?_, fun all _ => ?_⟩
        · rintro below - _ ⟨⟩ -
          exact below free
        · exact all (Option.some_ne_none _) l rfl dir

/-- The place of the second name, if the first can be given one. -/
def LinksInside (root : Loc) (source path : List String) (s : Disk) : Prop :=
  ∀ l l', s.tree.place maxLinks source = .ok l → s.tree.place maxLinks path = .ok l' →
    ¬ s.tree.IsDir l → s.tree.node? l ≠ none → s.tree.node? l' = none → Below root l'

theorem exact_link (source path : List String) :
    Exact root (link source path) (LinksInside root source path) := by
  refine ⟨fun l => keeps_link (stable_touched l) source path, fun s inside => ?_⟩
  unfold link LinksInside
  rw [Proc.bind_apply, placeOf]
  cases place : s.tree.place maxLinks source with
  | error e => exact iff_of_true inside (by rintro _ _ ⟨⟩)
  | ok l =>
    dsimp only
    rw [Proc.bind_apply, placeOf]
    cases place' : s.tree.place maxLinks path with
    | error e => exact iff_of_true inside (by rintro _ _ - ⟨⟩)
    | ok l' =>
      dsimp only
      unfold linkNode
      cases node : s.tree.node? l with
      | none =>
        refine iff_of_true inside ?_
        rintro _ _ ⟨⟩ - - there
        exact absurd node there
      | some n =>
        have known : n.Known s.tree.next := s.tree.known l n node
        by_cases dir : n = .dir
        · subst dir
          refine iff_of_true inside ?_
          rintro _ _ ⟨⟩ - notDir
          exact absurd node notDir
        · have notDir : ¬ s.tree.IsDir l := fun h => dir (Option.some.inj (node.symm.trans h))
          have step := exact_mknode (n := n) inside (isDir_of_place place') known
          have whole : (s.tree.node? l' = none → Below root l') ↔
              ∀ l₁ l₂, (Except.ok l : Except FileError Loc) = .ok l₁ →
                (Except.ok l' : Except FileError Loc) = .ok l₂ → ¬ s.tree.IsDir l₁ →
                s.tree.node? l₁ ≠ none → s.tree.node? l₂ = none → Below root l₂ := by
            constructor
            · rintro below _ _ ⟨⟩ ⟨⟩ - -
              exact below
            · exact fun all => all l l' rfl rfl notDir (by simp [node])
          cases n with
          | dir => exact absurd rfl dir
          | _ => exact step.trans whole

/-! ## Members -/

section Members

variable (root : Loc) (base : List String)

/-- What a hard link touches in its turn: itself, or what it refers to if its target is not there.
-/
def HardLinkStays (inTurn : Bool) (linkname : String) (path : List String) (refers : Disk → Prop)
    (s : Disk) : Prop :=
  inTurn = true →
    if (s.tree.nodeAt maxLinks (hardTarget base linkname)).isSome then
      LinksInside root (hardTarget base linkname) path s
    else refers s

/-- What a link touches, and what it refers to if the link cannot be made. -/
def StaysOr (tried : Proc Disk Exc Unit) (stays refers : Disk → Prop) (s : Disk) : Prop :=
  stays s ∧ ∀ e s', tried s = (.error e, s') → e.isSymlinkException = true → refers s'

/-- What the member is written to lies below the place, in the state that it finds once the
directories above it are made; `refers` says the same of what a link refers to. -/
def StaysIn (inTurn : Bool) (kind : Kind) (path : List String) (referenced : Proc Disk Exc Unit)
    (refers : Disk → Prop) (s : Disk) : Prop :=
  match kind with
  | .reg _ => WritesInside root path s
  | .dir => True
  | .sym linkname =>
    StaysOr (symlink (if linkname = "" then none else some (linkTarget linkname)) path)
      (fun s => linkname ≠ "" →
        ∀ l, s.tree.place maxLinks path = .ok l → ¬ s.tree.IsDir l → Below root l) refers s
  | .lnk linkname =>
    StaysOr (makeHardLink base inTurn linkname path referenced)
      (HardLinkStays root base inTurn linkname path refers) refers s
  | .special => ∀ l, s.tree.place maxLinks path = .ok l → s.tree.node? l = none → Below root l

variable (members : Except Exc (List Member))

/-- The same before the directories above the member are made. -/
def Stays : ℕ → Bool → Member → List Member → List String → Disk → Prop
  | 0, _, _, _, _, _ => True
  | depth + 1, inTurn, m, past, path, s => ∀ s', makeUpper path s = (.ok (), s') →
    StaysIn root base inTurn m.kind path (extractReferenced base members depth m past path)
      (fun s => ∀ found, findLinkTarget members m past = .ok found →
        Stays depth false found.1 found.2 path s) s'

/-- Every member stays below the place in the state in which it is extracted. -/
def StayAll : List Member → List Member → Disk → Prop
  | _, [], _ => True
  | past, m :: rest, s =>
    Stays root base members maxNesting true m past (dest base m.name) s ∧
      ∀ s', extractMember base members past m s = (.ok (), s') → StayAll (m :: past) rest s'

variable {root base members}

theorem silent_makedir (path : List String) : Silent (makedir path) := by
  refine (silent_mkdir path).recover fun e s => ?_
  show (if _ then _ else _ : Except Exc Unit × Disk).2.touched = _
  split
  · rfl
  · rfl

theorem exact_makeHardLink (inTurn : Bool) (linkname : String) (path : List String)
    {referenced : Proc Disk Exc Unit} {refers : Disk → Prop} (h : Exact root referenced refers) :
    Exact root (makeHardLink base inTurn linkname path referenced)
      (HardLinkStays root base inTurn linkname path refers) := by
  cases inTurn with
  | false => exact (Silent.exact (silent_raise _)).congr fun s => iff_of_true trivial nofun
  | true =>
    refine ⟨fun l => keeps_makeHardLink base (stable_touched l) true linkname path (h.grows l),
      fun s inside => ?_⟩
    unfold makeHardLink HardLinkStays
    rw [if_pos rfl, Proc.bind_of_ok (show isThere (hardTarget base linkname) s =
      (.ok (s.tree.nodeAt maxLinks (hardTarget base linkname)).isSome, s) from rfl),
      imp_iff_right rfl]
    split
    · exact (exact_link _ path).inside_iff s inside
    · exact h.inside_iff s inside

theorem exact_orReferenced {tried referenced : Proc Disk Exc Unit} {stays refers : Disk → Prop}
    (body : Exact root tried stays) (h : Exact root referenced refers) :
    Exact root (orReferenced tried referenced) (StaysOr tried stays refers) := by
  have handler : Exact root (referenced.recover fun e =>
      Proc.raise (if e = .keyError then .extractError else e)) refers :=
    (h.recover fun e => Silent.exact (silent_raise _)).congr fun s =>
      and_iff_left fun _ _ _ => trivial
  refine (body.recover fun e => handler.ite (Silent.exact (silent_raise e))).congr fun s =>
    and_congr_right fun _ => forall₃_congr fun e s' _ => ?_
  split <;> simp [*]

theorem exact_extractKind (inTurn : Bool) (kind : Kind) (path : List String)
    {referenced : Proc Disk Exc Unit} {refers : Disk → Prop} (h : Exact root referenced refers) :
    Exact root (extractKind base inTurn kind path referenced)
      (StaysIn root base inTurn kind path referenced refers) := by
  cases kind with
  | reg content => exact exact_write path content
  | dir => exact Silent.exact (silent_makedir path)
  | sym linkname =>
    refine exact_orReferenced ((exact_symlink _ path).congr fun s => imp_congr_left ?_) h
    by_cases empty : linkname = "" <;> simp [empty]
  | lnk linkname => exact exact_orReferenced (exact_makeHardLink inTurn linkname path h) h
  | special => exact exact_mkspecial path

theorem exact_extractAs (depth : ℕ) (inTurn : Bool) (m : Member) (past : List Member)
    (path : List String) : Exact root (extractAs base members depth inTurn m past path)
      (Stays root base members depth inTurn m past path) := by
  induction depth generalizing inTurn m past with
  | zero => exact Silent.exact (silent_raise _)
  | succ depth ih =>
    have referenced : Exact root (extractReferenced base members depth m past path) fun s =>
        ∀ found, findLinkTarget members m past = .ok found →
          Stays root base members depth false found.1 found.2 path s := by
      unfold extractReferenced
      cases findLinkTarget members m past with
      | error e => exact (Silent.exact fun _ => rfl).congr fun s => iff_of_true trivial nofun
      | ok found =>
        refine (ih false found.1 found.2).congr fun s => ⟨?_, fun all => all found rfl⟩
        rintro stays _ ⟨⟩
        exact stays
    rw [extractAs_succ]
    refine ((Silent.exact (silent_makeUpper path)).bind fun _ =>
      exact_extractKind inTurn m.kind path referenced).congr fun s => ?_
    exact (iff_of_eq (true_and _)).trans ⟨fun all s' => all () s', fun all _ s' => all s'⟩

theorem exact_extractMember (past : List Member) (m : Member) :
    Exact root (extractMember base members past m)
      (Stays root base members maxNesting true m past (dest base m.name)) :=
  ((exact_extractAs _ true m past _).recover fun _ =>
    Silent.exact (Silent.ite (silent_pure ()) (silent_raise _))).congr fun _ =>
      and_iff_left fun _ _ _ => trivial

/-- Extraction keeps to the place exactly when every member that it comes to does. -/
theorem exact_extractMembers (past rest : List Member) :
    Exact root (extractMembers base members past rest) (StayAll root base members past rest) := by
  induction rest generalizing past with
  | nil => exact Silent.exact (silent_pure ())
  | cons m rest ih =>
    refine ((exact_extractMember past m).bind fun _ => ih (m :: past)).congr fun s => ?_
    exact and_congr_right fun _ => ⟨fun all s' => all () s', fun all _ s' => all s'⟩

theorem exact_extractall (r : TarReading) (fault : Option Fault) :
    Exact root (extractall base r fault)
      (StayAll root base r.getmembers [] (r.cut fault).members) :=
  ((exact_extractMembers [] _).bind fun _ =>
    Silent.exact (Silent.ite (silent_pure ()) (silent_raise _))).congr fun _ =>
      and_iff_left fun _ _ _ => trivial

end Members

end Tar
