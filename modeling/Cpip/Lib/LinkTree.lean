import Cpip.Lib.FileTree

/-!
# File trees with links

A file tree whose nodes are directories, names of files, symbolic links, and other nodes that hold
nothing.  A file is a number with its content, so that several names can lead to one file.  `walk`
follows a path through the links; a path that meets too many of them is an error.  `Leads` says the
same step by step, and what holds of a walk is proved by induction on it.
-/

/-- Where a symbolic link points: from the root, or from the directory that it lies in. -/
structure LinkTarget where
  absolute : Bool
  parts : List String
  deriving DecidableEq, Repr

namespace LinkTree

inductive Node where
  | dir
  | file (inode : ℕ)
  | link (target : LinkTarget)
  | special
  deriving DecidableEq, Repr

/-- A file has one of the first `next` numbers. -/
def Node.Known (next : ℕ) : Node → Prop
  | .file i => i < next
  | _ => True

instance (next : ℕ) (n : Node) : Decidable (n.Known next) := by
  cases n <;> unfold Node.Known <;> infer_instance

end LinkTree

structure LinkTree (β : Type) where
  nodes : Dict Loc LinkTree.Node
  data : ℕ → β
  next : ℕ
  root : nodes.get? [] = some .dir
  closed : ∀ l n, nodes.get? l = some n → nodes.get? l.dropLast = some .dir
  known : ∀ l n, nodes.get? l = some n → n.Known next

namespace LinkTree

variable {β : Type}

def node? (t : LinkTree β) (l : Loc) : Option Node := t.nodes.get? l

def IsDir (t : LinkTree β) (l : Loc) : Prop := t.node? l = some .dir

instance (t : LinkTree β) (l : Loc) : Decidable (t.IsDir l) :=
  inferInstanceAs (Decidable (t.node? l = some .dir))

theorem isDir_root (t : LinkTree β) : t.IsDir [] := t.root

/-- The tree that holds the root only. -/
def bare (b : β) : LinkTree β where
  nodes := Dict.empty.set [] .dir
  data := fun _ => b
  next := 0
  root := rfl
  closed l n h := by
    have hl : l = [] := by
      by_contra hne
      rw [Dict.get?_set, if_neg (Ne.symm hne)] at h
      cases h
    subst hl
    rfl
  known l n h := by
    rw [Dict.get?_set] at h
    split_ifs at h
    · exact Option.some.inj h ▸ trivial
    · cases h

/-- Below what is not there is nothing. -/
theorem node?_append_of_none {t : LinkTree β} {l : Loc} (absent : t.node? l = none) (rest : Loc) :
    t.node? (l ++ rest) = none := by
  induction rest using List.reverseRecOn with
  | nil => rw [List.append_nil, absent]
  | append_singleton rest name ih =>
    by_contra there
    obtain ⟨n, found⟩ := Option.ne_none_iff_exists'.1 there
    have parent := t.closed _ _ found
    rw [← List.append_assoc, List.dropLast_concat] at parent
    exact absurd (ih.symm.trans parent) (by simp)

/-- All names of a file. -/
def names (t : LinkTree β) (i : ℕ) : List Loc :=
  t.nodes.keys.filter fun l => t.node? l = some (.file i)

theorem mem_names_iff {t : LinkTree β} {i : ℕ} {l : Loc} :
    l ∈ t.names i ↔ t.node? l = some (.file i) := by
  simp only [names, List.mem_filter, decide_eq_true_eq, Dict.mem_keys_iff, and_iff_right_iff_imp]
  intro h
  exact Option.isSome_of_eq_some h

/-! ## Changes of one node -/

/-- A new node in a directory; a file has a number already. -/
def mknode (t : LinkTree β) (l : Loc) (n : Node) : Except FileError (LinkTree β) :=
  if h : (t.IsDir l.dropLast ∧ n.Known t.next) ∧ t.node? l = none then
    .ok {
      nodes := t.nodes.set l n
      data := t.data
      next := t.next
      root := by
        have proper : l ≠ [] := by
          rintro rfl
          exact absurd (t.isDir_root.symm.trans h.2) (by simp)
        rw [Dict.get?_set, if_neg proper, t.root]
      closed := by
        intro l' n' h'
        have old : t.nodes.get? l'.dropLast = some .dir := by
          rw [Dict.get?_set] at h'
          split_ifs at h' with hl
          · exact hl ▸ h.1.1
          · exact t.closed l' n' h'
        rw [Dict.get?_set, if_neg, old]
        rintro rfl
        exact absurd (old.symm.trans h.2) (by simp)
      known := by
        intro l' n' h'
        rw [Dict.get?_set] at h'
        split_ifs at h' with hl
        · exact Option.some.inj h' ▸ h.1.2
        · exact t.known l' n' h' }
  else .error (if t.IsDir l.dropLast then .fileExists else .notFound)

/-- The tree with a number for one more file. -/
def allot (t : LinkTree β) (b : β) : LinkTree β where
  nodes := t.nodes
  data := Function.update t.data t.next b
  next := t.next + 1
  root := t.root
  closed := t.closed
  known l n h := by
    have old := t.known l n h
    cases n with
    | file i => exact Nat.lt_succ_of_lt old
    | _ => trivial

/-- A new file in a directory. -/
def create (t : LinkTree β) (l : Loc) (b : β) : Except FileError (LinkTree β) :=
  (t.allot b).mknode l (.file t.next)

/-- The tree with another content for a file. -/
def store (t : LinkTree β) (i : ℕ) (b : β) : LinkTree β :=
  { t with data := Function.update t.data i b }

/-- The tree without the nodes that are not kept, where what a kept node lies in is kept. -/
def restrict (t : LinkTree β) (keep : Loc → Bool) (top : keep [])
    (upward : ∀ l n, t.node? l = some n → keep l → keep l.dropLast) : LinkTree β where
  nodes := t.nodes.filter keep
  data := t.data
  next := t.next
  root := by rw [Dict.get?_filter, if_pos top, t.root]
  closed l n h := by
    rw [Dict.get?_filter] at h ⊢
    split_ifs at h with hl
    rw [if_pos (upward l n h hl), t.closed l n h]
  known l n h := by
    rw [Dict.get?_filter] at h
    split_ifs at h
    exact t.known l n h

/-- The tree without a node that is no directory. -/
def unlink (t : LinkTree β) (l : Loc) : Except FileError (LinkTree β) :=
  if h : t.IsDir l then .error .isADirectory
  else if t.node? l = none then .error .notFound
  else .ok (t.restrict (· ≠ l)
    (by
      have : l ≠ [] := fun e => h (e ▸ t.isDir_root)
      simpa using this.symm)
    (by
      intro l' n h' _
      simp only [ne_eq, decide_eq_true_eq]
      rintro rfl
      exact h (t.closed l' n h')))

/-- The tree without a node and what lies below it; the root stays. -/
def prune (t : LinkTree β) (l : Loc) : LinkTree β :=
  t.restrict (fun l' => l' = [] ∨ ¬ FileTree.Below l l') (FileTree.root_pruned l) (by
    intro l' _ _ h
    simp only [decide_eq_true_eq] at h ⊢
    rcases h with rfl | h
    · exact Or.inl rfl
    · exact Or.inr fun below => h below.of_dropLast)

theorem mknode_eq_ok {t t' : LinkTree β} {l : Loc} {n : Node} (h : t.mknode l n = .ok t') :
    (t.IsDir l.dropLast ∧ t.node? l = none) ∧
      (∀ l', t'.node? l' = if l = l' then some n else t.node? l') ∧
      t'.data = t.data ∧ t'.next = t.next := by
  unfold mknode at h
  split_ifs at h with free
  cases h
  exact ⟨⟨free.1.1, free.2⟩, fun l' => Dict.get?_set .., rfl, rfl⟩

theorem exists_mknode {t : LinkTree β} {l : Loc} {n : Node} (dir : t.IsDir l.dropLast)
    (known : n.Known t.next) (free : t.node? l = none) : ∃ t', t.mknode l n = .ok t' := by
  unfold mknode
  rw [dif_pos ⟨⟨dir, known⟩, free⟩]
  exact ⟨_, rfl⟩

theorem exists_create {t : LinkTree β} {l : Loc} (b : β) (dir : t.IsDir l.dropLast)
    (free : t.node? l = none) : ∃ t', t.create l b = .ok t' :=
  exists_mknode (t := t.allot b) dir (Nat.lt_succ_self t.next) free

theorem unlink_eq_ok {t t' : LinkTree β} {l : Loc} (h : t.unlink l = .ok t') :
    (¬ t.IsDir l ∧ t.node? l ≠ none) ∧
      (∀ l', t'.node? l' = if l = l' then none else t.node? l') ∧
      t'.data = t.data ∧ t'.next = t.next := by
  unfold unlink at h
  split_ifs at h with dir absent
  cases h
  refine ⟨⟨dir, absent⟩, fun l' => ?_, rfl, rfl⟩
  refine (Dict.get?_filter ..).trans ?_
  simp only [ne_eq, decide_eq_true_eq, ite_not, eq_comm (a := l')]
  rfl

@[simp]
theorem node?_store (t : LinkTree β) (i : ℕ) (b : β) (l : Loc) :
    (t.store i b).node? l = t.node? l := rfl

/-! ## Walking -/

/-- One pass over a path from a directory; `follow` goes on at a link. -/
def walkWith (t : LinkTree β) (links : ℕ)
    (follow : Loc → List String → Except FileError (Loc × ℕ)) :
    Loc → List String → Except FileError (Loc × ℕ)
  | cur, [] => .ok (cur, links)
  | cur, name :: rest =>
    match t.node? cur with
    | none => .error .notFound
    | some .dir =>
      if name = "." then walkWith t links follow cur rest
      else if name = ".." then walkWith t links follow cur.dropLast rest
      else
        match t.node? (cur ++ [name]) with
        | some (.link target) => follow (if target.absolute then [] else cur) (target.parts ++ rest)
        | _ => walkWith t links follow (cur ++ [name]) rest
    | some _ => .error .notADirectory

/-- Where a path leads from a directory, and how many more links it may have met. -/
def walk (t : LinkTree β) : ℕ → Loc → List String → Except FileError (Loc × ℕ)
  | 0 => walkWith t 0 fun _ _ => .error .endless
  | links + 1 => walkWith t (links + 1) (walk t links)

/-- The path leads from one place to the other, over some of the links that it may meet. -/
inductive Leads (t : LinkTree β) : ℕ → Loc → List String → Loc → ℕ → Prop
  | done (links : ℕ) (cur : Loc) : Leads t links cur [] cur links
  | dot {links links' : ℕ} {cur l : Loc} {rest : List String} (dir : t.IsDir cur)
      (next : Leads t links cur rest l links') : Leads t links cur ("." :: rest) l links'
  | up {links links' : ℕ} {cur l : Loc} {rest : List String} (dir : t.IsDir cur)
      (next : Leads t links cur.dropLast rest l links') : Leads t links cur (".." :: rest) l links'
  | link {links links' : ℕ} {cur l : Loc} {name : String} {rest : List String}
      {target : LinkTarget} (dir : t.IsDir cur) (dot : name ≠ ".") (up : name ≠ "..")
      (found : t.node? (cur ++ [name]) = some (.link target))
      (next : Leads t links (if target.absolute then [] else cur) (target.parts ++ rest) l links') :
      Leads t (links + 1) cur (name :: rest) l links'
  | down {links links' : ℕ} {cur l : Loc} {name : String} {rest : List String}
      (dir : t.IsDir cur) (dot : name ≠ ".") (up : name ≠ "..")
      (plain : ∀ target, t.node? (cur ++ [name]) ≠ some (.link target))
      (next : Leads t links (cur ++ [name]) rest l links') :
      Leads t links cur (name :: rest) l links'

theorem walkWith_eq_ok {t : LinkTree β} {links links' : ℕ} {cur l : Loc} {parts : List String}
    {follow : Loc → List String → Except FileError (Loc × ℕ)}
    (followed : ∀ cur parts, follow cur parts = .ok (l, links') →
      ∃ fewer, links = fewer + 1 ∧ Leads t fewer cur parts l links')
    (h : walkWith t links follow cur parts = .ok (l, links')) :
    Leads t links cur parts l links' := by
  induction parts generalizing cur with
  | nil =>
    obtain ⟨rfl, rfl⟩ : cur = l ∧ links = links' := by simpa [walkWith] using h
    exact .done ..
  | cons name rest ih =>
    rw [walkWith] at h
    split at h
    · cases h
    · next dir =>
      split_ifs at h with dot up
      · exact dot ▸ .dot dir (ih h)
      · exact up ▸ .up dir (ih h)
      · split at h
        · next target found =>
          obtain ⟨fewer, rfl, next⟩ := followed _ _ h
          exact .link dir dot up found next
        · next plain => exact .down dir dot up plain (ih h)
    · cases h

/-- A walk that ends leads there. -/
theorem leads_of_walk {t : LinkTree β} {links links' : ℕ} {cur l : Loc} {parts : List String}
    (h : t.walk links cur parts = .ok (l, links')) : Leads t links cur parts l links' := by
  induction links generalizing cur parts with
  | zero =>
    refine @walkWith_eq_ok β t 0 links' cur l parts (fun _ _ => .error .endless) (fun _ _ h => ?_) h
    cases h
  | succ links ih => exact walkWith_eq_ok (fun _ _ h => ⟨links, rfl, ih h⟩) h

theorem walk_of_leads {t : LinkTree β} {links links' : ℕ} {cur l : Loc} {parts : List String}
    (h : Leads t links cur parts l links') : t.walk links cur parts = .ok (l, links') := by
  induction h with
  | done links cur => cases links <;> rfl
  | @dot links _ _ _ _ dir _ ih =>
    cases links <;>
    · unfold walk walkWith
      rw [show t.node? _ = _ from dir]
      exact ih
  | @up links _ _ _ _ dir _ ih =>
    cases links <;>
    · unfold walk walkWith
      rw [show t.node? _ = _ from dir]
      exact ih
  | link dir dot up found _ ih =>
    unfold walk walkWith
    rw [show t.node? _ = _ from dir]
    dsimp only
    rw [if_neg dot, if_neg up, found]
    exact ih
  | @down links _ _ _ name _ dir dot up plain _ ih =>
    have step (follow : Loc → List String → Except FileError (Loc × ℕ)) (cur : Loc)
        (rest : List String) (dir : t.IsDir cur)
        (plain : ∀ target, t.node? (cur ++ [name]) ≠ some (.link target)) :
        walkWith t links follow cur (name :: rest) =
          walkWith t links follow (cur ++ [name]) rest := by
      rw [walkWith, show t.node? cur = _ from dir]
      dsimp only
      rw [if_neg dot, if_neg up]
      split
      · next target found => exact absurd found (plain target)
      · rfl
    cases links <;>
    · unfold walk at ih ⊢
      rw [step _ _ _ dir plain]
      exact ih

theorem Leads.append {t : LinkTree β} {links links' links'' : ℕ} {cur l l' : Loc}
    {parts parts' : List String} (h : Leads t links cur parts l links')
    (h' : Leads t links' l parts' l' links'') : Leads t links cur (parts ++ parts') l' links'' := by
  induction h with
  | done => exact h'
  | dot dir _ ih => exact .dot dir (ih h')
  | up dir _ ih => exact .up dir (ih h')
  | link dir dot up found _ ih =>
    refine .link dir dot up found ?_
    have next := ih h'
    rwa [List.append_assoc] at next
  | down dir dot up plain _ ih => exact .down dir dot up plain (ih h')

/-- A path leads to where its second part leads from where its first part does. -/
theorem Leads.split {t : LinkTree β} {links links'' : ℕ} {cur l' : Loc}
    {parts parts' : List String} (h : Leads t links cur (parts ++ parts') l' links'') :
    ∃ l links', Leads t links cur parts l links' ∧ Leads t links' l parts' l' links'' := by
  generalize whole : parts ++ parts' = path at h
  induction h generalizing parts with
  | done links cur =>
    obtain ⟨rfl, rfl⟩ := List.append_eq_nil_iff.1 whole
    exact ⟨cur, links, .done .., .done ..⟩
  | @dot links _ cur l rest dir next ih =>
    cases parts with
    | nil =>
      obtain rfl : parts' = "." :: rest := whole
      exact ⟨_, _, .done .., .dot dir next⟩
    | cons name parts =>
      obtain ⟨rfl, tail⟩ := List.cons.inj whole
      obtain ⟨l₁, links₁, first, second⟩ := ih tail
      exact ⟨l₁, links₁, .dot dir first, second⟩
  | @up links _ cur l rest dir next ih =>
    cases parts with
    | nil =>
      obtain rfl : parts' = ".." :: rest := whole
      exact ⟨_, _, .done .., .up dir next⟩
    | cons name parts =>
      obtain ⟨rfl, tail⟩ := List.cons.inj whole
      obtain ⟨l₁, links₁, first, second⟩ := ih tail
      exact ⟨l₁, links₁, .up dir first, second⟩
  | @link links _ cur l name rest target dir dot up found next ih =>
    cases parts with
    | nil =>
      obtain rfl : parts' = name :: rest := whole
      exact ⟨_, _, .done .., .link dir dot up found next⟩
    | cons _ parts =>
      obtain ⟨rfl, rfl⟩ := List.cons.inj whole
      obtain ⟨l₁, links₁, first, second⟩ := ih (List.append_assoc ..)
      exact ⟨l₁, links₁, .link dir dot up found first, second⟩
  | @down links _ cur l name rest dir dot up plain next ih =>
    cases parts with
    | nil =>
      obtain rfl : parts' = name :: rest := whole
      exact ⟨_, _, .done .., .down dir dot up plain next⟩
    | cons _ parts =>
      obtain ⟨rfl, tail⟩ := List.cons.inj whole
      obtain ⟨l₁, links₁, first, second⟩ := ih tail
      exact ⟨l₁, links₁, .down dir dot up plain first, second⟩

theorem Leads.unique {t : LinkTree β} {links m m' : ℕ} {cur l l' : Loc} {parts : List String}
    (h : Leads t links cur parts l m) (h' : Leads t links cur parts l' m') : l = l' ∧ m = m' := by
  simpa using (walk_of_leads h).symm.trans (walk_of_leads h')

/-- What a path leads to without being there lies in a directory. -/
theorem Leads.isDir_dropLast {t : LinkTree β} {links links' : ℕ} {cur l : Loc} {parts : List String}
    (h : Leads t links cur parts l links') (absent : t.node? l = none) :
    parts = [] ∧ l = cur ∨ t.IsDir l.dropLast := by
  have notDir {l' : Loc} (dir : t.IsDir l') : l ≠ l' := by
    rintro rfl
    exact absurd (absent.symm.trans dir) (by simp)
  induction h with
  | done => exact Or.inl ⟨rfl, rfl⟩
  | dot dir _ ih =>
    rcases ih absent notDir with ⟨-, here⟩ | below
    · exact absurd here (notDir dir)
    · exact Or.inr below
  | up dir _ ih =>
    rcases ih absent notDir with ⟨-, here⟩ | below
    · exact absurd here (notDir (t.closed _ _ dir))
    · exact Or.inr below
  | link dir _ _ _ _ ih =>
    rcases ih absent notDir with ⟨-, here⟩ | below
    · refine absurd here (notDir ?_)
      split_ifs
      · exact t.isDir_root
      · exact dir
    · exact Or.inr below
  | down dir _ _ _ _ ih =>
    rcases ih absent notDir with ⟨-, here⟩ | below
    · rw [here, List.dropLast_concat]
      exact Or.inr dir
    · exact Or.inr below

/-- A path without dots through directories only. -/
theorem leads_of_dirs {t : LinkTree β} (links : ℕ) {cur : Loc} {parts : List String}
    (plain : ∀ name ∈ parts, name ≠ "." ∧ name ≠ "..")
    (dirs : ∀ p, p <+: parts → t.IsDir (cur ++ p)) :
    Leads t links cur parts (cur ++ parts) links := by
  induction parts generalizing cur with
  | nil =>
    rw [List.append_nil]
    exact .done ..
  | cons name rest ih =>
    have here := dirs [] List.nil_prefix
    have next := dirs [name] ⟨rest, rfl⟩
    obtain ⟨dot, up⟩ := plain name List.mem_cons_self
    replace here : t.IsDir cur := by rwa [List.append_nil] at here
    refine .down here dot up (fun target found => ?_) ?_
    · exact absurd (next.symm.trans found) (by simp)
    · have below : ∀ p, p <+: rest → t.IsDir ((cur ++ [name]) ++ p) := by
        intro p hp
        rw [← List.append_cons]
        exact dirs (name :: p) (List.cons_prefix_cons.2 ⟨rfl, hp⟩)
      have whole := ih (fun name' h => plain name' (List.mem_cons_of_mem _ h)) below
      rwa [← List.append_cons] at whole

theorem Leads.ne_none {t : LinkTree β} {links links' : ℕ} {cur l : Loc} {parts : List String}
    (h : Leads t links cur parts l links') (there : t.node? l ≠ none) : t.node? cur ≠ none := by
  cases h with
  | done => exact there
  | dot dir => simp [show t.node? cur = _ from dir]
  | up dir => simp [show t.node? cur = _ from dir]
  | link dir => simp [show t.node? cur = _ from dir]
  | down dir => simp [show t.node? cur = _ from dir]

/-- A path that leads to something still does when other things are added. -/
theorem Leads.mono {t t' : LinkTree β} {links links' : ℕ} {cur l : Loc} {parts : List String}
    (h : Leads t links cur parts l links') (there : t.node? l ≠ none)
    (same : ∀ p, t.node? p ≠ none → t'.node? p = t.node? p) :
    Leads t' links cur parts l links' := by
  have isDir {p : Loc} (dir : t.IsDir p) : t'.IsDir p :=
    (same p (by simp [show t.node? p = _ from dir])).trans dir
  induction h with
  | done => exact .done ..
  | dot dir _ ih => exact .dot (isDir dir) (ih there)
  | up dir _ ih => exact .up (isDir dir) (ih there)
  | link dir dot up found _ ih =>
    exact .link (isDir dir) dot up ((same _ (by simp [found])).trans found) (ih there)
  | down dir dot up plain next ih =>
    refine .down (isDir dir) dot up (fun target => ?_) (ih there)
    rw [same _ (next.ne_none there)]
    exact plain target

/-- A path without dots that meets no link leads straight down, through directories. -/
theorem Leads.real {t : LinkTree β} {links links' : ℕ} {cur l : Loc} {parts : List String}
    (h : Leads t links cur parts l links') (plain : ∀ name ∈ parts, name ≠ "." ∧ name ≠ "..")
    (real : ∀ p, p <+: parts → ∀ target, t.node? (cur ++ p) ≠ some (.link target))
    (dir : t.IsDir l) : l = cur ++ parts ∧ ∀ p, p <+: parts → t.IsDir (cur ++ p) := by
  induction parts generalizing cur links with
  | nil =>
    cases h
    refine ⟨(List.append_nil _).symm, fun p hp => ?_⟩
    rw [List.prefix_nil.1 hp, List.append_nil]
    exact dir
  | cons name rest ih =>
    have names := plain name List.mem_cons_self
    cases h with
    | dot => exact absurd rfl names.1
    | up => exact absurd rfl names.2
    | link _ _ _ found => exact absurd found (real [name] ⟨rest, rfl⟩ _)
    | down here _ _ _ next =>
      obtain ⟨rfl, dirs⟩ := ih next (fun name' h => plain name' (List.mem_cons_of_mem _ h))
        fun p hp target => by
          rw [← List.append_cons]
          exact real (name :: p) (List.cons_prefix_cons.2 ⟨rfl, hp⟩) target
      refine ⟨(List.append_cons ..).symm, fun p hp => ?_⟩
      cases p with
      | nil =>
        rw [List.append_nil]
        exact here
      | cons name' p =>
        obtain ⟨rfl, below⟩ := List.cons_prefix_cons.1 hp
        rw [List.append_cons]
        exact dirs p below

/-- The link stays below the directory that it lies in. -/
def Descends (target : LinkTarget) : Prop :=
  target.absolute = false ∧ ".." ∉ target.parts

/-- Where no link leaves a directory, a path without `..` does not either. -/
theorem Leads.stays {t : LinkTree β} {root : Loc}
    (links : ∀ l, FileTree.Below root l → ∀ target, t.node? l = some (.link target) →
      Descends target)
    {n m : ℕ} {cur l : Loc} {parts : List String} (h : Leads t n cur parts l m)
    (here : FileTree.Below root cur) (noUp : ".." ∉ parts) : FileTree.Below root l := by
  induction h with
  | done => exact here
  | dot _ _ ih => exact ih here fun h => noUp (List.mem_cons_of_mem _ h)
  | up => exact absurd List.mem_cons_self noUp
  | link _ _ _ found _ ih =>
    obtain ⟨relative, descends⟩ := links _ (here.trans (List.prefix_append ..)) _ found
    refine ih (by simpa [relative] using here) fun h => ?_
    exact (List.mem_append.1 h).elim descends fun h => noUp (List.mem_cons_of_mem _ h)
  | down _ _ _ _ _ ih =>
    exact ih (here.trans (List.prefix_append ..)) fun h => noUp (List.mem_cons_of_mem _ h)

/-! ## Paths -/

/-- What a path from the root leads to. -/
def nodeAt (t : LinkTree β) (links : ℕ) (path : List String) : Option Node :=
  match t.walk links [] path with
  | .ok (l, _) => t.node? l
  | .error _ => none

theorem nodeAt_of_leads {t : LinkTree β} {links left : ℕ} {path : List String} {l : Loc}
    (h : Leads t links [] path l left) : t.nodeAt links path = t.node? l := by
  rw [nodeAt, walk_of_leads h]

/-- The place that the last component of a path names, be there a link or nothing. -/
def place (t : LinkTree β) (links : ℕ) (path : List String) : Except FileError Loc :=
  match path.getLast? with
  | none => .error .notFound
  | some last =>
    match t.walk links [] path.dropLast with
    | .error e => .error e
    | .ok (l, _) =>
      if ¬ t.IsDir l then .error (if t.node? l = none then .notFound else .notADirectory)
      else if last = "." ∨ last = ".." then .error .fileExists
      else .ok (l ++ [last])

theorem place_eq_ok {t : LinkTree β} {links : ℕ} {path : List String} {l : Loc}
    (h : t.place links path = .ok l) : ∃ init last dir left, path = init ++ [last] ∧
      Leads t links [] init dir left ∧ t.IsDir dir ∧ (last ≠ "." ∧ last ≠ "..") ∧
      l = dir ++ [last] := by
  unfold place at h
  split at h
  · cases h
  · next last found =>
    split at h
    · cases h
    · next dir left walked =>
      split_ifs at h with isDir dots
      cases h
      refine ⟨path.dropLast, last, dir, left, (List.dropLast_append_getLast? last found).symm,
        leads_of_walk walked, isDir, not_or.1 dots, rfl⟩

theorem place_of_leads {t : LinkTree β} {links left : ℕ} {init : List String} {last : String}
    {dir : Loc} (h : Leads t links [] init dir left) (isDir : t.IsDir dir)
    (plain : last ≠ "." ∧ last ≠ "..") : t.place links (init ++ [last]) = .ok (dir ++ [last]) := by
  unfold place
  rw [List.getLast?_concat, List.dropLast_concat]
  dsimp only
  rw [walk_of_leads h]
  dsimp only
  rw [if_neg (by simpa using isDir), if_neg (by simpa using plain)]

end LinkTree
