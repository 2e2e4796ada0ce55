import Cpip.Python.Tarfile

/-!
# Archives whose names stay inside

Extraction into a new directory, where no member and no link of the archive has an absolute name or
a `..`.  What is below the directory then leads nowhere else: its links descend, and its files have
no name outside (`Tidy`).  So no member is written outside, however the links are combined.
-/

namespace Tar

open LinkTree FileTree

/-- A relative name without `..`. -/
def CleanName (s : String) : Prop := isAbsolute s = false ∧ ".." ∉ nameParts s

instance (s : String) : Decidable (CleanName s) := inferInstanceAs (Decidable (_ ∧ _))

/-- A link has such a name. -/
def Kind.Clean : Kind → Prop
  | .sym linkname => CleanName linkname
  | .lnk linkname => CleanName linkname
  | _ => True

/-- The member and the link that it may be have such names. -/
def Member.Clean (m : Member) : Prop := CleanName m.name ∧ m.kind.Clean

/-- The path leads into the directory by its text. -/
def Under (base path : List String) : Prop := ∃ rest, path = base ++ rest ∧ ".." ∉ rest

theorem under_dest {base : List String} {name : String} (clean : CleanName name) :
    Under base (dest base name) := by
  refine ⟨nameParts name, ?_, clean.2⟩
  rw [dest, clean.1]
  rfl

theorem noUp_linkTarget {linkname : String} (clean : CleanName linkname) :
    Descends (linkTarget linkname) := by
  refine ⟨clean.1, ?_⟩
  unfold linkTarget
  split_ifs
  · intro h
    rcases List.mem_append.1 h with h | h
    · exact clean.2 h
    · exact absurd (List.mem_singleton.1 h) (by decide)
  · simpa using clean.2

theorem under_hardTarget {base : List String} {linkname : String} (clean : CleanName linkname) :
    Under base (hardTarget base linkname) := by
  refine ⟨(linkTarget linkname).parts, ?_, (noUp_linkTarget clean).2⟩
  rw [hardTarget, clean.1]
  rfl

theorem mem_of_findMember {name : String} {ms past : List Member} {m : Member}
    (h : findMember name ms = some (m, past)) : m ∈ ms ∧ ∀ m' ∈ past, m' ∈ ms := by
  induction ms with
  | nil => cases h
  | cons m' ms ih =>
    unfold findMember at h
    split_ifs at h
    · cases h
      exact ⟨List.mem_cons_self, fun m' => List.mem_cons_of_mem _⟩
    · obtain ⟨mem, rest⟩ := ih h
      exact ⟨List.mem_cons_of_mem _ mem, fun m' h' => List.mem_cons_of_mem _ (rest m' h')⟩

/-- What a link refers to is a member of the archive, and so are those before it. -/
theorem forall_of_findReferenced {P : Member → Prop} {ms : List Member} {m m' : Member}
    {past past' : List Member} (all : ∀ m ∈ ms, P m) (before : ∀ m ∈ past, P m)
    (h : findReferenced ms m past = some (m', past')) : P m' ∧ ∀ m ∈ past', P m := by
  have of_found {name : String} {ms : List Member} (known : ∀ m ∈ ms, P m)
      (found : findMember name ms = some (m', past')) : P m' ∧ ∀ m ∈ past', P m := by
    obtain ⟨mem, rest⟩ := mem_of_findMember found
    exact ⟨known m' mem, fun m h => known m (rest m h)⟩
  unfold findReferenced at h
  split at h
  · exact of_found (fun m h => all m (List.mem_reverse.1 h)) h
  · exact of_found before h
  · cases h

theorem findLinkTarget_eq_ok {members : Except Exc (List Member)} {m : Member}
    {past : List Member} {found : Member × List Member}
    (h : findLinkTarget members m past = .ok found) :
    ∃ ms, members = .ok ms ∧ findReferenced ms m past = some found := by
  unfold findLinkTarget at h
  split at h
  · cases h
  · next ms =>
    refine ⟨ms, rfl, ?_⟩
    split at h
    · next looked => rw [looked, Except.ok.inj h]
    · cases h

/-- A fault strikes what is extracted, and leaves names as they are. -/
theorem clean_cut {r : TarReading} (clean : ∀ m ∈ r.members, m.Clean) (fault : Option Fault) :
    ∀ m ∈ (r.cut fault).members, m.Clean := by
  cases fault with
  | none => exact clean
  | some fault =>
    intro m h
    rcases List.mem_append.1 h with h | h
    · exact clean m (List.mem_of_mem_take h)
    · split at h
      · next part name content _ found =>
        obtain rfl := List.mem_singleton.1 h
        exact ⟨(clean _ (List.mem_of_getElem? found)).1, trivial⟩
      · cases h

/-! ## Tidy directories -/

variable {base : List String} {s₀ : Disk} {root : Loc} {left : ℕ}

/-- What was there before the extraction is as it was, and nothing leads out of the directory. -/
structure Tidy (s₀ : Disk) (root : Loc) (s : Disk) : Prop where
  same : ∀ l, s₀.tree.node? l ≠ none → s.tree.node? l = s₀.tree.node? l
  links : ∀ l, Below root l → ∀ target, s.tree.node? l = some (.link target) → Descends target
  files : ∀ l, Below root l → ∀ i, s.tree.node? l = some (.file i) →
    ∀ l', s.tree.node? l' = some (.file i) → Below root l'
  inside : ∀ l ∈ s.touched, Below root l

theorem below_iff {l : Loc} : Below root l ↔ l = root ∨ ∃ rest, rest ≠ [] ∧ l = root ++ rest := by
  constructor
  · rintro ⟨rest, rfl⟩
    by_cases h : rest = []
    · exact Or.inl (by rw [h, List.append_nil])
    · exact Or.inr ⟨rest, h, rfl⟩
  · rintro (rfl | ⟨rest, -, rfl⟩)
    · exact List.prefix_rfl
    · exact List.prefix_append ..

theorem tidy_fresh (fresh : Fresh base s₀ root left) (inside : ∀ l ∈ s₀.touched, Below root l) :
    Tidy s₀ root s₀ := by
  have noNode : ∀ l, Below root l → ∀ n, s₀.tree.node? l = some n → n = .dir := by
    intro l below n found
    rcases below_iff.1 below with rfl | ⟨rest, nonempty, rfl⟩
    · exact Option.some.inj (found.symm.trans fresh.isDir)
    · exact absurd (found.symm.trans (fresh.bare rest nonempty)) (by simp)
  refine ⟨fun _ _ => rfl, fun l below target found => ?_, fun l below i found => ?_, inside⟩
  · cases noNode l below _ found
  · cases noNode l below _ found

section Inside

variable (fresh : Fresh base s₀ root left) {s : Disk} (tidy : Tidy s₀ root s)

include fresh tidy

theorem Tidy.isDir : s.tree.IsDir root :=
  (tidy.same root (by simp [show s₀.tree.node? root = _ from fresh.isDir])).trans fresh.isDir

theorem Tidy.leads : Leads s.tree maxLinks [] base root left :=
  fresh.leads.mono (by simp [show s₀.tree.node? root = _ from fresh.isDir]) tidy.same

theorem Tidy.walk_below {path : List String} (under : Under base path) {l : Loc} {left' : ℕ}
    (h : Leads s.tree maxLinks [] path l left') : Below root l := by
  obtain ⟨rest, rfl, noUp⟩ := under
  obtain ⟨l₁, left₁, first, second⟩ := h.split
  obtain ⟨rfl, rfl⟩ := first.unique (tidy.leads fresh)
  exact second.stays tidy.links List.prefix_rfl noUp

/-- A path that is the directory itself names it as its parent does. -/
theorem Tidy.place_below {path : List String} (under : Under base path) {l : Loc}
    (h : s.tree.place maxLinks path = .ok l) : Below root l := by
  obtain ⟨rest, rfl, noUp⟩ := under
  obtain ⟨init, last, dir, left', split, leads, isDir, plain, rfl⟩ := place_eq_ok h
  rcases List.eq_nil_or_concat' rest with rfl | ⟨rest, name, rfl⟩
  · obtain ⟨init', last', dir', split', rfl, leads', isDir'⟩ := fresh.above
    rw [List.append_nil, split'] at split
    obtain ⟨rfl, same⟩ := List.append_inj' split rfl
    obtain rfl : last' = last := (List.cons.inj same).1
    have again := leads'.mono (by simp [show s₀.tree.node? dir' = _ from isDir']) tidy.same
    obtain ⟨rfl, -⟩ := again.unique leads
    exact List.prefix_rfl
  · rw [← List.append_assoc] at split
    obtain ⟨rfl, same⟩ := List.append_inj' split rfl
    have below := tidy.walk_below fresh ⟨rest, rfl, fun h => noUp (List.mem_append_left _ h)⟩ leads
    exact below.trans (List.prefix_append ..)

/-- What is no directory was not there before. -/
theorem Tidy.absent {l : Loc} (below : Below root l) (notDir : ¬ s.tree.IsDir l) :
    s₀.tree.node? l = none := by
  rcases below_iff.1 below with rfl | ⟨rest, nonempty, rfl⟩
  · exact absurd (tidy.isDir fresh) notDir
  · exact fresh.bare rest nonempty

/-- A new node below the directory. -/
theorem Tidy.mknode {l : Loc} (below : Below root l) {n : LinkTree.Node} {t : LinkTree Bytes}
    (made : s.tree.mknode l n = .ok t) {places : List Loc} (inside : ∀ l ∈ places, Below root l)
    (link : ∀ target, n = .link target → Descends target)
    (file : ∀ i, n = .file i → ∀ l', s.tree.node? l' = some (.file i) → Below root l') :
    Tidy s₀ root ⟨t, s.touched ++ places⟩ := by
  obtain ⟨⟨-, free⟩, nodes, -⟩ := mknode_eq_ok made
  refine ⟨fun l' there => ?_, fun l' below' target found => ?_,
    fun l' below' i found l'' found' => ?_,
    fun l' h => (List.mem_append.1 h).elim (tidy.inside l') (inside l')⟩
  · dsimp only
    rw [nodes, if_neg, tidy.same l' there]
    rintro rfl
    exact there (tidy.absent fresh below (by simp [LinkTree.IsDir, free]))
  · dsimp only at found
    rw [nodes] at found
    split_ifs at found
    · exact link target (Option.some.inj found)
    · exact tidy.links l' below' target found
  · dsimp only at found found'
    rw [nodes] at found found'
    split_ifs at found found' with here here'
    · exact here' ▸ below
    · exact file i (Option.some.inj found) l'' found'
    · rename_i there
      exact there ▸ below
    · exact tidy.files l' below' i found l'' found'

/-- A new file below the directory. -/
theorem Tidy.create {l : Loc} (below : Below root l) {b : Bytes} {t : LinkTree Bytes}
    (made : s.tree.create l b = .ok t) : Tidy s₀ root ⟨t, s.touched ++ [l]⟩ := by
  have alloted : Tidy s₀ root ⟨s.tree.allot b, s.touched⟩ :=
    ⟨tidy.same, tidy.links, tidy.files, tidy.inside⟩
  refine alloted.mknode fresh below made (fun l' h => List.mem_singleton.1 h ▸ below) nofun ?_
  rintro i same l' found
  have known : i < s.tree.next := s.tree.known l' _ found
  rw [← LinkTree.Node.file.inj same] at known
  exact absurd known (Nat.lt_irrefl _)

theorem Tidy.unlink {l : Loc} (below : Below root l) {t : LinkTree Bytes}
    (removed : s.tree.unlink l = .ok t) : Tidy s₀ root ⟨t, s.touched ++ []⟩ := by
  obtain ⟨⟨notDir, -⟩, nodes, -⟩ := unlink_eq_ok removed
  refine ⟨fun l' there => ?_, fun l' below' target found => ?_,
    fun l' below' i found l'' found' => ?_,
    by simpa using tidy.inside⟩
  · dsimp only
    rw [nodes, if_neg, tidy.same l' there]
    rintro rfl
    exact there (tidy.absent fresh below notDir)
  · dsimp only at found
    rw [nodes] at found
    split_ifs at found
    exact tidy.links l' below' target found
  · dsimp only at found found'
    rw [nodes] at found found'
    split_ifs at found found'
    exact tidy.files l' below' i found l'' found'

theorem Tidy.mkdir {path : List String} (under : Under base path) :
    Tidy s₀ root (mkdir path s).2 := by
  unfold Tar.mkdir
  refine after_placeOf tidy fun l place => after_change tidy fun t made => ?_
  exact tidy.mknode fresh (tidy.place_below fresh under place) made (by simp) nofun nofun

theorem Tidy.mkspecial {path : List String} (under : Under base path) :
    Tidy s₀ root (mkspecial path s).2 := by
  unfold Tar.mkspecial
  refine after_placeOf tidy fun l place => after_change tidy fun t made => ?_
  have below := tidy.place_below fresh under place
  exact tidy.mknode fresh below made (fun l' h => List.mem_singleton.1 h ▸ below) nofun nofun

theorem Tidy.write {path : List String} (under : Under base path) (b : Bytes) :
    Tidy s₀ root (write path b s).2 := by
  unfold Tar.write
  rw [apply_ite Prod.snd]
  refine iteInduction (fun _ => tidy) fun _ => ?_
  cases walked : s.tree.walk maxLinks [] path with
  | error e => exact tidy
  | ok found =>
    obtain ⟨l, left'⟩ := found
    have below := tidy.walk_below fresh under (leads_of_walk walked)
    dsimp only
    cases node : s.tree.node? l with
    | none => exact after_change tidy fun t made => tidy.create fresh below made
    | some n =>
      cases n with
      | file i =>
        refine after_change tidy fun t stored => ?_
        cases stored
        refine ⟨tidy.same, tidy.links, tidy.files, fun l' h => ?_⟩
        refine (List.mem_append.1 h).elim (tidy.inside l') fun name => ?_
        exact tidy.files l below i node l' (mem_names_iff.1 name)
      | _ => exact tidy

theorem Tidy.symlink {path : List String} (under : Under base path) {target : Option LinkTarget}
    (clean : ∀ t, target = some t → Descends t) : Tidy s₀ root (symlink target path s).2 := by
  unfold Tar.symlink
  refine after_placeOf tidy fun l place => ?_
  have below := tidy.place_below fresh under place
  have cleared : Tidy s₀ root (clear l s).2 := by
    unfold clear
    split
    · exact tidy
    · exact after_change tidy fun t removed => tidy.unlink fresh below removed
  rw [Proc.bind_apply]
  cases h : clear l s with
  | mk out s' =>
    rw [h] at cleared
    cases out with
    | error e => exact cleared
    | ok u =>
      cases target with
      | none => exact cleared
      | some target =>
        refine after_change cleared fun t made => ?_
        refine cleared.mknode fresh below made (fun l' h => List.mem_singleton.1 h ▸ below) ?_ nofun
        rintro _ ⟨⟩
        exact clean target rfl

theorem Tidy.link {source path : List String} (underSource : Under base source)
    (under : Under base path) : Tidy s₀ root (link source path s).2 := by
  unfold Tar.link
  refine after_placeOf tidy fun l place => after_placeOf tidy fun l' place' => ?_
  have below := tidy.place_below fresh underSource place
  have below' := tidy.place_below fresh under place'
  unfold linkNode
  cases node : s.tree.node? l with
  | none => exact tidy
  | some n =>
    have step (t : LinkTree Bytes) (made : s.tree.mknode l' n = .ok t) :
        Tidy s₀ root ⟨t, s.touched ++ [l']⟩ := by
      refine tidy.mknode fresh below' made (fun l'' h => List.mem_singleton.1 h ▸ below') ?_ ?_
      · rintro target rfl
        exact tidy.links l below target node
      · rintro i rfl
        exact tidy.files l below i node
    cases n with
    | dir => exact tidy
    | _ => exact after_change tidy step

end Inside

/-! ## Extraction -/

variable (fresh : Fresh base s₀ root left)

include fresh

theorem keeps_tidy_mkdir {path : List String} (under : Under base path) :
    Proc.Keeps (Tidy s₀ root) (mkdir path) := fun _ tidy => tidy.mkdir fresh under

theorem keeps_tidy_makedirs {rest : List String} (noUp : ".." ∉ rest) :
    Proc.Keeps (Tidy s₀ root) (makedirs (base ++ rest).reverse) := by
  induction rest using List.reverseRecOn with
  | nil =>
    intro s tidy
    obtain ⟨init, last, dir, split, -, leads, isDir⟩ := fresh.above
    have there : s.tree.nodeAt maxLinks init = some .dir := by
      have there₀ : s₀.tree.node? dir ≠ none := by simp [show s₀.tree.node? dir = _ from isDir]
      rw [nodeAt_of_leads (leads.mono there₀ tidy.same), tidy.same dir there₀, isDir]
    have under : Under base base := ⟨[], (List.append_nil base).symm, by simp⟩
    have made := tidy.mkdir fresh under
    rw [split] at made
    rw [List.append_nil, split, List.reverse_concat]
    unfold makedirs
    refine after_isThere ?_
    rw [List.reverse_reverse, there]
    exact made
  | append_singleton rest name ih =>
    have noUp' : ".." ∉ rest := fun h => noUp (List.mem_append_left _ h)
    have further : Proc.Keeps (Tidy s₀ root) (mkdir ((base ++ rest) ++ [name])) :=
      keeps_tidy_mkdir fresh ⟨rest ++ [name], List.append_assoc .., noUp⟩
    rw [← List.append_assoc, List.reverse_concat]
    unfold makedirs
    rw [List.reverse_reverse]
    refine Proc.Keeps.bind (fun _ h => h) fun there => Proc.Keeps.ite further ?_
    exact ((ih noUp').recover fun e =>
      Proc.Keeps.ite (Proc.keeps_pure ()) (Proc.keeps_raise e)).bind
      fun _ => Proc.Keeps.ite (Proc.keeps_pure ()) further

theorem keeps_tidy_makeUpper {path : List String} (under : Under base path) :
    Proc.Keeps (Tidy s₀ root) (makeUpper path) := by
  obtain ⟨rest, rfl, noUp⟩ := under
  intro s tidy
  unfold makeUpper
  refine after_isThere ?_
  rcases List.eq_nil_or_concat' rest with rfl | ⟨rest, name, rfl⟩
  · obtain ⟨init, last, dir, split, -, leads, isDir⟩ := fresh.above
    have there₀ : s₀.tree.node? dir ≠ none := by simp [show s₀.tree.node? dir = _ from isDir]
    have there : s.tree.nodeAt maxLinks (base ++ []).dropLast = some .dir := by
      rw [List.append_nil, split, List.dropLast_concat,
        nodeAt_of_leads (leads.mono there₀ tidy.same), tidy.same dir there₀, isDir]
    rw [there]
    exact tidy
  · rw [← List.append_assoc, List.dropLast_concat]
    split
    · exact tidy
    · exact keeps_tidy_makedirs fresh (fun h => noUp (List.mem_append_left _ h)) s tidy

/-! ## Members -/

theorem keeps_tidy_makedir {path : List String} (under : Under base path) :
    Proc.Keeps (Tidy s₀ root) (makedir path) := by
  refine (keeps_tidy_mkdir fresh under).recover fun e s tidy => ?_
  split
  · exact tidy
  · exact tidy

theorem keeps_tidy_makeHardLink {linkname : String} (clean : CleanName linkname)
    {path : List String} (under : Under base path) (inTurn : Bool)
    {referenced : Proc Disk Exc Unit} (kept : Proc.Keeps (Tidy s₀ root) referenced) :
    Proc.Keeps (Tidy s₀ root) (makeHardLink base inTurn linkname path referenced) := by
  refine Proc.Keeps.ite ?_ (Proc.keeps_raise _)
  refine Proc.Keeps.bind (fun _ h => h) fun _ => Proc.Keeps.ite ?_ kept
  exact fun s tidy => tidy.link fresh (under_hardTarget clean) under

theorem keeps_tidy_extractKind (inTurn : Bool) {kind : Kind} (clean : kind.Clean)
    {path : List String} (under : Under base path) {referenced : Proc Disk Exc Unit}
    (kept : Proc.Keeps (Tidy s₀ root) referenced) :
    Proc.Keeps (Tidy s₀ root) (extractKind base inTurn kind path referenced) := by
  cases kind with
  | reg content => exact fun s tidy => tidy.write fresh under content
  | dir => exact keeps_tidy_makedir fresh under
  | sym linkname =>
    refine keeps_orReferenced (fun s tidy => tidy.symlink fresh under fun target h => ?_) kept
    split_ifs at h
    exact Option.some.inj h ▸ noUp_linkTarget clean
  | lnk linkname =>
    exact keeps_orReferenced (keeps_tidy_makeHardLink fresh clean under inTurn kept) kept
  | special => exact fun s tidy => tidy.mkspecial fresh under

variable {members : Except Exc (List Member)}
  (all : ∀ ms, members = .ok ms → ∀ m ∈ ms, m.Clean)

include all

theorem keeps_tidy_extractAs (depth : ℕ) (inTurn : Bool) {m : Member} (clean : m.Clean)
    {past : List Member} (before : ∀ m ∈ past, m.Clean) {path : List String}
    (under : Under base path) :
    Proc.Keeps (Tidy s₀ root) (extractAs base members depth inTurn m past path) := by
  induction depth generalizing inTurn m past with
  | zero => exact Proc.keeps_raise _
  | succ depth ih =>
    refine (keeps_tidy_makeUpper fresh under).bind fun _ =>
      keeps_tidy_extractKind fresh inTurn clean.2 under ?_
    intro s tidy
    cases found : findLinkTarget members m past with
    | error e => exact tidy
    | ok target =>
      obtain ⟨ms, loaded, refers⟩ := findLinkTarget_eq_ok found
      obtain ⟨clean', before'⟩ := forall_of_findReferenced (all ms loaded) before refers
      exact ih false clean' before' s tidy

theorem keeps_tidy_extractMembers {past rest : List Member} (before : ∀ m ∈ past, m.Clean)
    (clean : ∀ m ∈ rest, m.Clean) :
    Proc.Keeps (Tidy s₀ root) (extractMembers base members past rest) := by
  induction rest generalizing past with
  | nil => exact Proc.keeps_pure ()
  | cons m rest ih =>
    rw [List.forall_mem_cons] at clean
    have under : Under base (dest base m.name) := under_dest clean.1.1
    have one : Proc.Keeps (Tidy s₀ root) (extractMember base members past m) :=
      (keeps_tidy_extractAs fresh all _ true clean.1 before under).recover fun _ =>
        Proc.Keeps.ite (Proc.keeps_pure ()) (Proc.keeps_raise _)
    exact one.bind fun _ => ih (List.forall_mem_cons.2 ⟨clean.1, before⟩) clean.2

omit all

/-- Archives with clean names leave nothing but what is below their directory. -/
theorem keeps_tidy_extractall {r : TarReading} (clean : ∀ m ∈ r.members, m.Clean)
    (fault : Option Fault) : Proc.Keeps (Tidy s₀ root) (extractall base r fault) := by
  have all : ∀ ms, r.getmembers = .ok ms → ∀ m ∈ ms, m.Clean := by
    intro ms h
    unfold TarReading.getmembers at h
    split_ifs at h
    cases h
    exact clean
  exact (keeps_tidy_extractMembers fresh all (by simp) (clean_cut clean fault)).bind fun _ =>
    Proc.Keeps.ite (Proc.keeps_pure ()) (Proc.keeps_raise _)

end Tar
