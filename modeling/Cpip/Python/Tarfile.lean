import Cpip.Lib.LinkTree
import Cpip.Lib.Proc
import Cpip.Python.PosixPath

/-!
# `tarfile.extractall` without a filter

Members are extracted one after the other, each under the name that it carries: the directories
above it are made, names are followed through the links that earlier members left, and an absolute
name leads anywhere.  A link that cannot be made is replaced by what it refers to in the archive,
and one that refers to nothing there is passed over.  Owners, modes and times are left out.  A fault
of the system shows between two members or while the file of one is written, so what is extracted
then is an archive that is shorter (`TarReading.cut`).
-/

namespace Tar

/-- The directories are counted apart: `touched` are the places of all other nodes that were created
or overwritten. -/
structure Disk where
  tree : LinkTree Bytes
  touched : List Loc

inductive Exc where
  | os (e : FileError)
  | attributeError
  | keyError
  | readError
  | extractError
  | recursionError
  deriving DecidableEq

/-- What `symlink_exception` catches. -/
def Exc.isSymlinkException : Exc → Bool
  | .os _ => true
  | .attributeError => true
  | _ => false

/-- How many links a path may meet. -/
def maxLinks : ℕ := 40

/-! ## System calls -/

def isThere (path : List String) : Proc Disk Exc Bool := fun s =>
  (.ok (s.tree.nodeAt maxLinks path).isSome, s)

def placeOf (path : List String) : Proc Disk Exc Loc := fun s =>
  (match s.tree.place maxLinks path with
  | .ok l => .ok l
  | .error e => .error (.os e), s)

/-- A change of the tree, with the places that it touches. -/
def change (f : LinkTree Bytes → Except FileError (LinkTree Bytes)) (places : List Loc) :
    Proc Disk Exc Unit := fun s =>
  match f s.tree with
  | .ok t => (.ok (), ⟨t, s.touched ++ places⟩)
  | .error e => (.error (.os e), s)

def mkdir (path : List String) : Proc Disk Exc Unit := do
  let l ← placeOf path
  change (·.mknode l .dir) []

/-- `open(path, "wb")`, and the content. -/
def write (path : List String) (b : Bytes) : Proc Disk Exc Unit := fun s =>
  if path = [] then (.error (.os .notFound), s)
  else
    match s.tree.walk maxLinks [] path with
    | .error e => (.error (.os e), s)
    | .ok (l, _) =>
      match s.tree.node? l with
      | none => change (·.create l b) [l] s
      | some (.file i) => change (fun t => .ok (t.store i b)) (s.tree.names i) s
      | some .dir => (.error (.os .isADirectory), s)
      | some (.link _) => (.error (.os .endless), s)
      | some .special => (.ok (), s)

/-- `os.mkfifo` and `os.mknod`. -/
def mkspecial (path : List String) : Proc Disk Exc Unit := do
  let l ← placeOf path
  change (·.mknode l .special) [l]

/-- `os.unlink`, if something is there. -/
def clear (l : Loc) : Proc Disk Exc Unit := fun s =>
  if s.tree.node? l = none then (.ok (), s) else change (·.unlink l) [] s

/-- `os.symlink`, after `os.unlink` of what is there. -/
def symlink (target : Option LinkTarget) (path : List String) : Proc Disk Exc Unit := do
  let l ← placeOf path
  clear l
  match target with
  | some target => change (·.mknode l (.link target)) [l]
  | none => Proc.raise (.os .notFound)

/-- A second name for what is at a place. -/
def linkNode (l l' : Loc) : Proc Disk Exc Unit := fun s =>
  match s.tree.node? l with
  | none => (.error (.os .notFound), s)
  | some .dir => (.error (.os .isADirectory), s)
  | some n => change (·.mknode l' n) [l'] s

/-- `os.link`, which does not follow a link that its source is. -/
def link (source path : List String) : Proc Disk Exc Unit := do
  let l ← placeOf source
  let l' ← placeOf path
  linkNode l l'

/-- `os.makedirs`, for the components in reverse. -/
def makedirs : List String → Proc Disk Exc Unit
  | [] => Proc.raise (.os .fileExists)
  | tail :: head => do
    if ← isThere head.reverse then mkdir (head.reverse ++ [tail])
    else do
      (makedirs head).recover fun e => if e = .os .fileExists then pure () else Proc.raise e
      if tail = "." then pure () else mkdir (head.reverse ++ [tail])

/-! ## Members -/

/-- What a member of an archive is; a type that `tarfile` does not know is extracted as a file. -/
inductive Kind where
  | reg (content : Bytes)
  | dir
  | sym (linkname : String)
  | lnk (linkname : String)
  | special
  deriving DecidableEq

structure Member where
  name : String
  kind : Kind
  deriving DecidableEq

/-- The components of a path, dots included. -/
def nameParts (s : String) : List String :=
  ((s.toList.splitOn '/').map String.ofList).filter (· ≠ "")

def isAbsolute (s : String) : Bool := s.toList.head? = some '/'

/-- The path of a name in the directory `base`, where a slash at the end does not count; no path is
the empty text. -/
def dest (base : List String) (name : String) : List String :=
  if isAbsolute name then nameParts name else base ++ nameParts name

/-- Where a link with this name points; with a slash at the end only to a directory. -/
def linkTarget (linkname : String) : LinkTarget where
  absolute := isAbsolute linkname
  parts := nameParts linkname ++ if linkname.toList.getLast? = some '/' then ["."] else []

/-- `_link_target` of a hard link. -/
def hardTarget (base : List String) (linkname : String) : List String :=
  if isAbsolute linkname then (linkTarget linkname).parts
  else base ++ (linkTarget linkname).parts

variable (base : List String)

/-- `upperdirs` are made. -/
def makeUpper (path : List String) : Proc Disk Exc Unit := do
  if ← isThere path.dropLast then pure () else makedirs path.dropLast.reverse

/-- `makedir`. -/
def makedir (path : List String) : Proc Disk Exc Unit :=
  (mkdir path).recover fun e => fun s =>
    if e = .os .fileExists ∧ s.tree.nodeAt maxLinks path = some .dir then (.ok (), s)
    else (.error e, s)

/-- The `try` of `makelink` for a hard link; what `_find_link_target` gave has no `_link_target`, as
that is put on the members in their turn. -/
def makeHardLink (inTurn : Bool) (linkname : String) (path : List String)
    (referenced : Proc Disk Exc Unit) : Proc Disk Exc Unit :=
  if inTurn then do
    if ← isThere (hardTarget base linkname) then link (hardTarget base linkname) path
    else referenced
  else Proc.raise .attributeError

/-- The `except` of `makelink`, where what the link refers to is extracted in its place. -/
def orReferenced (tried referenced : Proc Disk Exc Unit) : Proc Disk Exc Unit :=
  tried.recover fun e =>
    if e.isSymlinkException then
      referenced.recover fun e => Proc.raise (if e = .keyError then .extractError else e)
    else Proc.raise e

/-- What is made of a member under its path; `referenced` extracts there what a link refers to. -/
def extractKind (inTurn : Bool) (kind : Kind) (path : List String)
    (referenced : Proc Disk Exc Unit) : Proc Disk Exc Unit :=
  match kind with
  | .reg content => write path content
  | .dir => makedir path
  | .sym linkname =>
    orReferenced (symlink (if linkname = "" then none else some (linkTarget linkname)) path)
      referenced
  | .lnk linkname => orReferenced (makeHardLink base inTurn linkname path referenced) referenced
  | .special => mkspecial path

/-- The first of the members with the name, and those after it. -/
def findMember (name : String) : List Member → Option (Member × List Member)
  | [] => none
  | m :: past =>
    if PosixPath.normpath m.name = PosixPath.normpath name then some (m, past)
    else findMember name past

/-- What a link refers to, with the members before it, the last one first: a symbolic link to any
member, and a hard link to one before it. -/
def findReferenced (all : List Member) (m : Member) (past : List Member) :
    Option (Member × List Member) :=
  match m.kind with
  | .sym linkname =>
    findMember ("/".intercalate ([PosixPath.dirname m.name, linkname].filter (· ≠ ""))) all.reverse
  | .lnk linkname => findMember linkname past
  | _ => none

/-- `_find_link_target`, where `members` is what `getmembers` returns or raises. -/
def findLinkTarget (members : Except Exc (List Member)) (m : Member) (past : List Member) :
    Except Exc (Member × List Member) :=
  match members with
  | .error e => .error e
  | .ok all =>
    match findReferenced all m past with
    | some found => .ok found
    | none => .error .keyError

/-- How often `_extract_member` may nest: the interpreter has 1000 frames, some are in use, and a
member takes two. -/
def maxNesting : ℕ := 450

variable (members : Except Exc (List Member))

/-- `_extract_member`, for a member in its turn or what a link refers to. -/
def extractAs : ℕ → Bool → Member → List Member → List String → Proc Disk Exc Unit
  | 0, _, _, _, _ => Proc.raise .recursionError
  | depth + 1, inTurn, m, past, path => do
    makeUpper path
    extractKind base inTurn m.kind path do
      let found ← Proc.ofExcept (findLinkTarget members m past)
      extractAs depth false found.1 found.2 path

/-- What `makelink` does with what the link refers to. -/
def extractReferenced (depth : ℕ) (m : Member) (past : List Member) (path : List String) :
    Proc Disk Exc Unit := do
  let found ← Proc.ofExcept (findLinkTarget members m past)
  extractAs base members depth false found.1 found.2 path

theorem extractAs_succ (depth : ℕ) (inTurn : Bool) (m : Member) (past : List Member)
    (path : List String) : extractAs base members (depth + 1) inTurn m past path =
      makeUpper path >>= fun _ => extractKind base inTurn m.kind path
        (extractReferenced base members depth m past path) := rfl

/-- `_extract_one`, where an `ExtractError` is not fatal. -/
def extractMember (past : List Member) (m : Member) : Proc Disk Exc Unit :=
  (extractAs base members maxNesting true m past (dest base m.name)).recover fun e =>
    if e = .extractError then pure () else Proc.raise e

def extractMembers : List Member → List Member → Proc Disk Exc Unit
  | _, [] => pure ()
  | past, m :: rest => do
    extractMember base members past m
    extractMembers (m :: past) rest

/-- What is read of an archive: its members, and whether it could be read to the end. -/
structure TarReading where
  members : List Member
  complete : Bool

/-- A fault that strikes after some members, and what was written of the next one if it is a file.
-/
structure Fault where
  after : ℕ
  part : Option Bytes

/-- What a call extracts that a fault may strike. -/
def TarReading.cut (r : TarReading) : Option Fault → TarReading
  | none => r
  | some fault => {
      members := r.members.take fault.after ++
        match fault.part, r.members[fault.after]? with
        | some part, some ⟨name, .reg _⟩ => [⟨name, .reg part⟩]
        | _, _ => []
      complete := false }

/-- `getmembers`, which reads the archive to its end. -/
def TarReading.getmembers (r : TarReading) : Except Exc (List Member) :=
  if r.complete then .ok r.members else .error .readError

/-- `tarfile.open` and `extractall`, which a fault may strike. -/
def extractall (r : TarReading) (fault : Option Fault) : Proc Disk Exc Unit := do
  extractMembers base r.getmembers [] (r.cut fault).members
  if (r.cut fault).complete then pure () else Proc.raise .readError

/-! ## What the calls do -/

section After

variable {P : Disk → Prop} {s : Disk}

theorem after_placeOf {α : Type} {path : List String} {f : Loc → Proc Disk Exc α} (failed : P s)
    (next : ∀ l, s.tree.place maxLinks path = .ok l → P (f l s).2) :
    P ((placeOf path >>= f) s).2 := by
  rw [Proc.bind_apply, placeOf]
  cases h : s.tree.place maxLinks path with
  | ok l => exact next l h
  | error e => exact failed

theorem after_isThere {α : Type} {path : List String} {f : Bool → Proc Disk Exc α}
    (next : P (f (s.tree.nodeAt maxLinks path).isSome s).2) : P ((isThere path >>= f) s).2 := next

theorem after_change {f : LinkTree Bytes → Except FileError (LinkTree Bytes)} {places : List Loc}
    (failed : P s) (next : ∀ t, f s.tree = .ok t → P ⟨t, s.touched ++ places⟩) :
    P (change f places s).2 := by
  unfold change
  split
  · next t h => exact next t h
  · exact failed

end After

theorem mkdir_eq_ok {path : List String} {s s' : Disk} (h : mkdir path s = (.ok (), s')) :
    ∃ l, s.tree.place maxLinks path = .ok l ∧ s.tree.mknode l .dir = .ok s'.tree ∧
      s'.touched = s.touched := by
  unfold mkdir at h
  obtain ⟨l, s₁, place, made⟩ := Proc.exists_of_bind_eq_ok h
  unfold placeOf at place
  split at place
  · next l' found =>
    cases place
    unfold change at made
    split at made
    · next t new =>
      cases made
      exact ⟨l, found, new, List.append_nil _⟩
    · cases made
  · cases place

theorem mkdir_eq_error {path : List String} {s s' : Disk} {e : Exc}
    (h : mkdir path s = (.error e, s')) : s' = s := by
  unfold mkdir at h
  rw [Proc.bind_apply] at h
  unfold placeOf at h
  split at h
  · next l s₁ place =>
    obtain ⟨-, rfl⟩ := Prod.mk.inj place
    unfold change at h
    split at h
    · cases h
    · exact (Prod.mk.inj h).2.symm
  · next e' s₁ place =>
    obtain ⟨-, rfl⟩ := Prod.mk.inj place
    exact (Prod.mk.inj h).2.symm

theorem mkdir_of_place {path : List String} {s : Disk} {l : Loc}
    (place : s.tree.place maxLinks path = .ok l) {t : LinkTree Bytes}
    (made : s.tree.mknode l .dir = .ok t) : mkdir path s = (.ok (), ⟨t, s.touched⟩) := by
  unfold mkdir
  have found : placeOf path s = (.ok l, s) := by rw [placeOf, place]
  rw [Proc.bind_of_ok found, change, made, List.append_nil]

/-- A directory that was made is where its path leads, and nothing is in it. -/
structure Fresh (path : List String) (s : Disk) (l : Loc) (left : ℕ) : Prop where
  above : ∃ init last dir, path = init ++ [last] ∧ l = dir ++ [last] ∧
    LinkTree.Leads s.tree maxLinks [] init dir left ∧ s.tree.IsDir dir
  leads : LinkTree.Leads s.tree maxLinks [] path l left
  isDir : s.tree.IsDir l
  bare : ∀ rest, rest ≠ [] → s.tree.node? (l ++ rest) = none

theorem fresh_mkdir {path : List String} {name : String} {s s' : Disk}
    (h : mkdir (path ++ [name]) s = (.ok (), s')) : s'.touched = s.touched ∧
      (∀ p, s.tree.node? p ≠ none → s'.tree.node? p = s.tree.node? p) ∧
      (∀ p, s.tree.node? p = none → s'.tree.node? p = none ∨ s'.tree.IsDir p) ∧
      ∃ l left, Fresh (path ++ [name]) s' l left := by
  obtain ⟨l, place, made, touched⟩ := mkdir_eq_ok h
  obtain ⟨init, last, dir, left, split, leads, isDir, plain, rfl⟩ := LinkTree.place_eq_ok place
  obtain ⟨rfl, same⟩ := List.append_inj' split rfl
  obtain rfl : name = last := (List.cons.inj same).1
  obtain ⟨⟨-, free⟩, nodes, -⟩ := LinkTree.mknode_eq_ok made
  have older : ∀ p, s.tree.node? p ≠ none → s'.tree.node? p = s.tree.node? p := by
    intro p there
    rw [nodes, if_neg]
    rintro rfl
    exact there free
  have new : s'.tree.IsDir (dir ++ [name]) := by rw [LinkTree.IsDir, nodes, if_pos rfl]
  have there : s.tree.node? dir ≠ none := by simp [show s.tree.node? dir = _ from isDir]
  have parent := leads.mono there older
  refine ⟨touched, older, ?_, dir ++ [name], left, ?_, ?_, new, ?_⟩
  · intro p absent
    rw [LinkTree.IsDir, nodes]
    split_ifs
    · exact Or.inr rfl
    · exact Or.inl absent
  · exact ⟨path, name, dir, rfl, rfl, parent, (older dir there).trans isDir⟩
  · refine parent.append ?_
    refine .down ((older dir there).trans isDir) plain.1 plain.2 (fun target found => ?_) (.done ..)
    exact absurd (new.symm.trans found) (by simp)
  · intro rest nonempty
    rw [nodes, if_neg (by simpa using nonempty)]
    exact LinkTree.node?_append_of_none free rest

/-! ## What extraction preserves -/

/-- A condition that no change of a node affects, wherever it happens. -/
structure Stable (I : Disk → Prop) : Prop where
  mknode : ∀ l n places, Proc.Keeps I (change (·.mknode l n) places)
  create : ∀ l b places, Proc.Keeps I (change (·.create l b) places)
  store : ∀ i b places, Proc.Keeps I (change (fun t => .ok (t.store i b)) places)
  unlink : ∀ l places, Proc.Keeps I (change (·.unlink l) places)

section Stable

variable {I : Disk → Prop} (stable : Stable I)

theorem keeps_placeOf (path : List String) : Proc.Keeps I (placeOf path) := fun _ h => h

theorem keeps_isThere (path : List String) : Proc.Keeps I (isThere path) := fun _ h => h

include stable

theorem keeps_mkdir (path : List String) : Proc.Keeps I (mkdir path) :=
  (keeps_placeOf path).bind fun l => stable.mknode l .dir []

theorem keeps_mkspecial (path : List String) : Proc.Keeps I (mkspecial path) :=
  (keeps_placeOf path).bind fun l => stable.mknode l .special [l]

theorem keeps_write (path : List String) (b : Bytes) : Proc.Keeps I (write path b) := by
  intro s h
  unfold write
  split_ifs
  · exact h
  · split
    · exact h
    · next l _ _ =>
      split
      · exact stable.create l b [l] s h
      · next i _ => exact stable.store i b (s.tree.names i) s h
      · exact h
      · exact h
      · exact h

theorem keeps_clear (l : Loc) : Proc.Keeps I (clear l) := by
  intro s h
  unfold clear
  split
  · exact h
  · exact stable.unlink l [] s h

theorem keeps_symlink (target : Option LinkTarget) (path : List String) :
    Proc.Keeps I (symlink target path) := by
  refine (keeps_placeOf path).bind fun l => (keeps_clear stable l).bind fun _ => ?_
  cases target with
  | some target => exact stable.mknode l _ [l]
  | none => exact Proc.keeps_raise _

theorem keeps_link (source path : List String) : Proc.Keeps I (link source path) := by
  refine (keeps_placeOf source).bind fun l => (keeps_placeOf path).bind fun l' s h => ?_
  unfold linkNode
  split
  · exact h
  · exact h
  · exact stable.mknode l' _ [l'] s h

theorem keeps_makedirs (path : List String) : Proc.Keeps I (makedirs path) := by
  induction path with
  | nil => exact Proc.keeps_raise _
  | cons tail head ih =>
    refine (keeps_isThere _).bind fun there => Proc.Keeps.ite (keeps_mkdir stable _) ?_
    refine (ih.recover fun e => Proc.Keeps.ite (Proc.keeps_pure ()) (Proc.keeps_raise e)).bind
      fun _ => Proc.Keeps.ite (Proc.keeps_pure ()) (keeps_mkdir stable _)

theorem keeps_makeUpper (path : List String) : Proc.Keeps I (makeUpper path) :=
  (keeps_isThere _).bind fun _ => Proc.Keeps.ite (Proc.keeps_pure ()) (keeps_makedirs stable _)

theorem keeps_makedir (path : List String) : Proc.Keeps I (makedir path) := by
  refine (keeps_mkdir stable path).recover fun e s h => ?_
  split
  · exact h
  · exact h

theorem keeps_makeHardLink (inTurn : Bool) (linkname : String) (path : List String)
    {referenced : Proc Disk Exc Unit} (kept : Proc.Keeps I referenced) :
    Proc.Keeps I (makeHardLink base inTurn linkname path referenced) :=
  Proc.Keeps.ite ((keeps_isThere _).bind fun _ => Proc.Keeps.ite (keeps_link stable _ path) kept)
    (Proc.keeps_raise _)

omit stable in
theorem keeps_orReferenced {tried referenced : Proc Disk Exc Unit} (body : Proc.Keeps I tried)
    (kept : Proc.Keeps I referenced) : Proc.Keeps I (orReferenced tried referenced) :=
  body.recover fun _ =>
    Proc.Keeps.ite (kept.recover fun _ => Proc.keeps_raise _) (Proc.keeps_raise _)

theorem keeps_extractKind (inTurn : Bool) (kind : Kind) (path : List String)
    {referenced : Proc Disk Exc Unit} (kept : Proc.Keeps I referenced) :
    Proc.Keeps I (extractKind base inTurn kind path referenced) := by
  cases kind with
  | reg content => exact keeps_write stable path content
  | dir => exact keeps_makedir stable path
  | sym linkname => exact keeps_orReferenced (keeps_symlink stable _ path) kept
  | lnk linkname =>
    exact keeps_orReferenced (keeps_makeHardLink base stable inTurn linkname path kept) kept
  | special => exact keeps_mkspecial stable path

theorem keeps_extractAs (depth : ℕ) (inTurn : Bool) (m : Member) (past : List Member)
    (path : List String) : Proc.Keeps I (extractAs base members depth inTurn m past path) := by
  induction depth generalizing inTurn m past with
  | zero => exact Proc.keeps_raise _
  | succ depth ih =>
    exact (keeps_makeUpper stable path).bind fun _ =>
      keeps_extractKind base stable inTurn m.kind path
        ((Proc.keeps_ofExcept _).bind fun found => ih false found.1 found.2)

theorem keeps_extractMember (past : List Member) (m : Member) :
    Proc.Keeps I (extractMember base members past m) :=
  (keeps_extractAs base members stable _ true m past _).recover fun _ =>
    Proc.Keeps.ite (Proc.keeps_pure ()) (Proc.keeps_raise _)

theorem keeps_extractMembers (past rest : List Member) :
    Proc.Keeps I (extractMembers base members past rest) := by
  induction rest generalizing past with
  | nil => exact Proc.keeps_pure ()
  | cons m rest ih => exact (keeps_extractMember base members stable past m).bind fun _ => ih _

theorem keeps_extractall (r : TarReading) (fault : Option Fault) :
    Proc.Keeps I (extractall base r fault) :=
  (keeps_extractMembers base _ stable [] _).bind fun _ =>
    Proc.Keeps.ite (Proc.keeps_pure ()) (Proc.keeps_raise _)

end Stable

theorem isDir_of_mknode {l₀ : Loc} {t t' : LinkTree Bytes} {l : Loc} {n : LinkTree.Node}
    (h : t.mknode l n = .ok t') (dir : t.IsDir l₀) : t'.IsDir l₀ := by
  obtain ⟨⟨-, free⟩, nodes, -⟩ := LinkTree.mknode_eq_ok h
  rw [LinkTree.IsDir, nodes, if_neg, dir]
  rintro rfl
  exact absurd (free.symm.trans dir) (by simp)

theorem isDir_of_unlink {l₀ : Loc} {t t' : LinkTree Bytes} {l : Loc} (h : t.unlink l = .ok t')
    (dir : t.IsDir l₀) : t'.IsDir l₀ := by
  obtain ⟨⟨noDir, -⟩, nodes, -⟩ := LinkTree.unlink_eq_ok h
  rw [LinkTree.IsDir, nodes, if_neg, dir]
  rintro rfl
  exact noDir dir

/-- Directories stay, wherever the members of an archive lead. -/
theorem stable_isDir (l₀ : Loc) : Stable fun s => s.tree.IsDir l₀ where
  mknode _ _ _ _ dir :=
    after_change (P := fun s => s.tree.IsDir l₀) dir fun _ made => isDir_of_mknode made dir
  create _ _ _ _ dir :=
    after_change (P := fun s => s.tree.IsDir l₀) dir fun _ made => isDir_of_mknode made dir
  store _ _ _ _ dir := dir
  unlink _ _ _ dir :=
    after_change (P := fun s => s.tree.IsDir l₀) dir fun _ removed => isDir_of_unlink removed dir

/-- What was touched is not forgotten. -/
theorem stable_touched (l₀ : Loc) : Stable fun s => l₀ ∈ s.touched where
  mknode _ _ _ _ h :=
    after_change (P := fun s => l₀ ∈ s.touched) h fun _ _ => List.mem_append_left _ h
  create _ _ _ _ h :=
    after_change (P := fun s => l₀ ∈ s.touched) h fun _ _ => List.mem_append_left _ h
  store _ _ _ _ h := List.mem_append_left _ h
  unlink _ _ _ h :=
    after_change (P := fun s => l₀ ∈ s.touched) h fun _ _ => List.mem_append_left _ h

end Tar
