import Cpip.Client.CacheLedger

/-!
# The verification of the cache

`verify_integrity` goes through the index once and removes the file of an entry whose recorded hash
it does not have, although an entry before it may be for the same file.
-/

namespace Cpip

namespace CacheManager

open FileTree

variable {env : CacheEnv} {t : FileTree Bytes}

/-! ## What the pass finds -/

/-- The path of the entry exists, and a file there has the recorded hash, if there is one. -/
def Intact (env : CacheEnv) (t : FileTree Bytes) (e : CacheEntry) : Prop :=
  match e.path.node? env.cwd t with
  | none => False
  | some .dir => True
  | some (.file b) => e.sha256 = "" ∨ env.sha256 b = e.sha256

instance (e : CacheEntry) : Decidable (Intact env t e) :=
  match h : e.path.node? env.cwd t with
  | none => isFalse (by simp [Intact, h])
  | some .dir => isTrue (by simp [Intact, h])
  | some (.file b) =>
    decidable_of_iff (e.sha256 = "" ∨ env.sha256 b = e.sha256) (by simp [Intact, h])

/-- There is a file without the recorded hash. -/
def Corrupt (env : CacheEnv) (t : FileTree Bytes) (e : CacheEntry) : Prop :=
  match e.path.node? env.cwd t with
  | some (.file b) => e.sha256 ≠ "" ∧ env.sha256 b ≠ e.sha256
  | _ => False

instance (e : CacheEntry) : Decidable (Corrupt env t e) :=
  match h : e.path.node? env.cwd t with
  | none => isFalse (by simp [Corrupt, h])
  | some .dir => isFalse (by simp [Corrupt, h])
  | some (.file b) =>
    decidable_of_iff (e.sha256 ≠ "" ∧ env.sha256 b ≠ e.sha256) (by simp [Corrupt, h])

/-- One of the entries is for the same file and has another hash. -/
def Spoiled (env : CacheEnv) (t : FileTree Bytes) (entries : List (String × CacheEntry))
    (e : CacheEntry) : Prop :=
  ∃ x ∈ entries, Corrupt env t x.2 ∧ x.2.path.locate env.cwd t = e.path.locate env.cwd t

instance (entries : List (String × CacheEntry)) (e : CacheEntry) :
    Decidable (Spoiled env t entries e) :=
  inferInstanceAs (Decidable (∃ x ∈ entries, _))

/-- The entry is intact when the pass comes to it, after those before it. -/
def Accepted (env : CacheEnv) (t : FileTree Bytes) (before : List (String × CacheEntry))
    (e : CacheEntry) : Prop :=
  Intact env t e ∧ ¬ Spoiled env t before e

instance (before : List (String × CacheEntry)) (e : CacheEntry) :
    Decidable (Accepted env t before e) := inferInstanceAs (Decidable (_ ∧ _))

/-- The entries that are intact when the pass comes to them. -/
def accepted (env : CacheEnv) (t : FileTree Bytes) (before : List (String × CacheEntry)) :
    List (String × CacheEntry) → List (String × CacheEntry)
  | [] => []
  | x :: rest =>
    if Accepted env t before x.2 then x :: accepted env t (before ++ [x]) rest
    else accepted env t (before ++ [x]) rest

/-- The others. -/
def rejected (env : CacheEnv) (t : FileTree Bytes) (before : List (String × CacheEntry)) :
    List (String × CacheEntry) → List (String × CacheEntry)
  | [] => []
  | x :: rest =>
    if Accepted env t before x.2 then rejected env t (before ++ [x]) rest
    else x :: rejected env t (before ++ [x]) rest

/-- The issue names the key. -/
def Names (key issue : String) : Prop :=
  issue = "Missing: " ++ key ∨ issue = "Corrupt: " ++ key ++ " (hash mismatch)"

/-! ## The files during the pass -/

/-- The files without those of the corrupt entries. -/
def Swept (env : CacheEnv) (t : FileTree Bytes) (before : List (String × CacheEntry))
    (t' : FileTree Bytes) : Prop :=
  ∀ l, (t'.node? l = t.node? l ∧
      ∀ x ∈ before, Corrupt env t x.2 → x.2.path.locate env.cwd t ≠ .ok l) ∨
    (t'.node? l = none ∧ (∃ b, t.node? l = some (.file b)) ∧
      ∃ x ∈ before, Corrupt env t x.2 ∧ x.2.path.locate env.cwd t = .ok l)

theorem corrupt_iff {e : CacheEntry} : Corrupt env t e ↔ ∃ l b, e.path.locate env.cwd t = .ok l ∧
    t.node? l = some (.file b) ∧ e.sha256 ≠ "" ∧ env.sha256 b ≠ e.sha256 := by
  unfold Corrupt
  cases node : e.path.node? env.cwd t with
  | none =>
    refine iff_of_false id ?_
    rintro ⟨l, b, place, file, -⟩
    cases node.symm.trans (PyPath.node?_eq_some_iff.2 ⟨l, place, file⟩)
  | some n =>
    obtain ⟨l, place, here⟩ := PyPath.node?_eq_some_iff.1 node
    cases n with
    | dir =>
      refine iff_of_false id ?_
      rintro ⟨l', b, place', file, -⟩
      obtain rfl := Except.ok.inj (place.symm.trans place')
      cases here.symm.trans file
    | file b =>
      constructor
      · exact fun differs => ⟨l, b, place, here, differs⟩
      · rintro ⟨l', b', place', file, differs⟩
        obtain rfl := Except.ok.inj (place.symm.trans place')
        obtain rfl := Node.file.inj (Option.some.inj (here.symm.trans file))
        exact differs

theorem intact_iff {e : CacheEntry} : Intact env t e ↔ ∃ l n, e.path.locate env.cwd t = .ok l ∧
    t.node? l = some n ∧ ∀ b, n = .file b → e.sha256 = "" ∨ env.sha256 b = e.sha256 := by
  unfold Intact
  cases node : e.path.node? env.cwd t with
  | none =>
    refine iff_of_false id ?_
    rintro ⟨l, n, place, here, -⟩
    cases node.symm.trans (PyPath.node?_eq_some_iff.2 ⟨l, place, here⟩)
  | some n =>
    obtain ⟨l, place, here⟩ := PyPath.node?_eq_some_iff.1 node
    constructor
    · intro intact
      refine ⟨l, n, place, here, ?_⟩
      rintro b rfl
      exact intact
    · rintro ⟨l', n', place', here', matches'⟩
      obtain rfl := Except.ok.inj (place.symm.trans place')
      obtain rfl := Option.some.inj (here.symm.trans here')
      cases n with
      | dir => trivial
      | file b => exact matches' b rfl

theorem exist_of_intact {e : CacheEntry} (h : Intact env t e) : e.path.exist env.cwd t := by
  obtain ⟨l, n, place, here, -⟩ := intact_iff.1 h
  rw [PyPath.exist, PyPath.node?_eq_some_iff.2 ⟨l, place, here⟩]
  rfl

theorem not_intact_of_corrupt {e : CacheEntry} (h : Corrupt env t e) : ¬ Intact env t e := by
  unfold Corrupt at h
  unfold Intact
  split at h
  · next b node =>
    rw [node]
    dsimp only
    rw [not_or]
    exact h
  · cases h

theorem swept_nil : Swept env t [] t := fun _ => .inl ⟨rfl, by simp⟩

section Swept

variable {before : List (String × CacheEntry)} {t' : FileTree Bytes} {x : String × CacheEntry}

theorem Swept.isDir (h : Swept env t before t') (l : Loc) : t'.IsDir l ↔ t.IsDir l := by
  rcases h l with ⟨same, -⟩ | ⟨gone, ⟨b, file⟩, -⟩
  · rw [IsDir, IsDir, same]
  · rw [IsDir, IsDir, gone, file]
    exact iff_of_false nofun nofun

/-- Paths lead where they led. -/
theorem Swept.locate_iff (h : Swept env t before t') (p : PyPath) (l : Loc) :
    p.locate env.cwd t' = .ok l ↔ p.locate env.cwd t = .ok l :=
  ⟨PyPath.locate_mono fun l => (h.isDir l).1, PyPath.locate_mono fun l => (h.isDir l).2⟩

/-- What an entry leads to was there before, and no entry spoiled it. -/
theorem Swept.of_node (h : Swept env t before t') {n : Node Bytes}
    (node : x.2.path.node? env.cwd t' = some n) : ∃ l, x.2.path.locate env.cwd t = .ok l ∧
      t'.node? l = some n ∧ t.node? l = some n ∧ ¬ Spoiled env t before x.2 := by
  obtain ⟨l, place, here⟩ := PyPath.node?_eq_some_iff.1 node
  rw [h.locate_iff] at place
  rcases h l with ⟨same, unspoiled⟩ | ⟨gone, -⟩
  · refine ⟨l, place, here, same ▸ here, ?_⟩
    rintro ⟨y, hy, corrupt, samePlace⟩
    exact unspoiled y hy corrupt (samePlace.trans place)
  · cases here.symm.trans gone

theorem Swept.exist_of_accepted (h : Swept env t before t') (ok : Accepted env t before x.2) :
    ∃ n, x.2.path.node? env.cwd t' = some n := by
  obtain ⟨l, n, place, here, -⟩ := intact_iff.1 ok.1
  refine ⟨n, PyPath.node?_eq_some_iff.2 ⟨l, (h.locate_iff _ _).2 place, ?_⟩⟩
  rcases h l with ⟨same, -⟩ | ⟨-, -, y, hy, corrupt, samePlace⟩
  · exact same.trans here
  · exact absurd ⟨y, hy, corrupt, samePlace.trans place.symm⟩ ok.2

/-- Nothing is removed for an entry that is not corrupt, or whose file is gone. -/
theorem Swept.keep (h : Swept env t before t')
    (gone : Corrupt env t x.2 → ∀ l, x.2.path.locate env.cwd t = .ok l → t'.node? l = none) :
    Swept env t (before ++ [x]) t' := by
  intro l
  rcases h l with ⟨same, unspoiled⟩ | ⟨none, file, y, hy, spoils⟩
  · refine .inl ⟨same, fun y hy corrupt place => ?_⟩
    rcases List.mem_append.1 hy with hy | hy
    · exact unspoiled y hy corrupt place
    · rw [List.mem_singleton.1 hy] at corrupt place
      obtain ⟨l', b, place', file, -⟩ := corrupt_iff.1 corrupt
      obtain rfl := Except.ok.inj (place.symm.trans place')
      cases (gone corrupt l place).symm.trans (same.trans file)
  · exact .inr ⟨none, file, y, List.mem_append_left [x] hy, spoils⟩

/-- The file of a corrupt entry is removed. -/
theorem Swept.remove (h : Swept env t before t') (corrupt : Corrupt env t x.2) {l : Loc} {b : Bytes}
    (place : x.2.path.locate env.cwd t = .ok l) (file : t'.node? l = some (.file b)) :
    Swept env t (before ++ [x]) (t'.prune l) := by
  intro l'
  rw [node?_prune_of_file file]
  by_cases here : l' = l
  · subst here
    rw [if_pos rfl]
    refine .inr ⟨rfl, ?_, x, by simp, corrupt, place⟩
    rcases h l' with ⟨same, -⟩ | ⟨none, -⟩
    · exact ⟨b, same ▸ file⟩
    · cases none.symm.trans file
  · rw [if_neg here]
    rcases h l' with ⟨same, unspoiled⟩ | ⟨none, file', y, hy, spoils⟩
    · refine .inl ⟨same, fun y hy corrupt' place' => ?_⟩
      rcases List.mem_append.1 hy with hy | hy
      · exact unspoiled y hy corrupt' place'
      · rw [List.mem_singleton.1 hy, place] at place'
        exact here (Except.ok.inj place').symm
    · exact .inr ⟨none, file', y, List.mem_append_left [x] hy, spoils⟩

end Swept

/-! ## The pass -/

/-- What the pass does with one entry. -/
theorem verifyEntry_spec {s : CacheManager} {before : List (String × CacheEntry)}
    (swept : Swept env t before s.tree) (x : String × CacheEntry) :
    Swept env t (before ++ [x]) (verifyEntry env s x.1 x.2).1.tree ∧
    if Accepted env t before x.2 then (verifyEntry env s x.1 x.2).2 = none ∧
      (verifyEntry env s x.1 x.2).1.index = s.index
    else ∃ issue, (verifyEntry env s x.1 x.2).2 = some issue ∧ Names x.1 issue ∧
      (verifyEntry env s x.1 x.2).1.index = s.index.pop x.1 := by
  unfold verifyEntry
  cases node : x.2.path.node? env.cwd s.tree with
  | none =>
    have missing : ¬ Accepted env t before x.2 := by
      intro ok
      obtain ⟨n, found⟩ := swept.exist_of_accepted ok
      cases node.symm.trans found
    dsimp only
    rw [if_neg missing]
    refine ⟨swept.keep fun _ l place => ?_, _, rfl, .inl rfl, rfl⟩
    rw [← swept.locate_iff] at place
    cases here : s.tree.node? l with
    | none => rfl
    | some n => cases node.symm.trans (PyPath.node?_eq_some_iff.2 ⟨l, place, here⟩)
  | some n =>
    obtain ⟨l, place, here, was, unspoiled⟩ := swept.of_node node
    cases n with
    | dir =>
      have ok : Accepted env t before x.2 :=
        ⟨intact_iff.2 ⟨l, .dir, place, was, nofun⟩, unspoiled⟩
      dsimp only
      rw [if_pos ok]
      refine ⟨swept.keep fun corrupt => ?_, rfl, rfl⟩
      exact absurd ok.1 (not_intact_of_corrupt corrupt)
    | file b =>
      dsimp only
      by_cases differs : x.2.sha256 ≠ "" ∧ env.sha256 b ≠ x.2.sha256
      · have corrupt : Corrupt env t x.2 := corrupt_iff.2 ⟨l, b, place, was, differs⟩
        have refused : ¬ Accepted env t before x.2 := fun ok => not_intact_of_corrupt corrupt ok.1
        rw [if_pos differs, if_neg refused,
          PyPath.unlink_of_file ((swept.locate_iff _ _).2 place) here]
        exact ⟨swept.remove corrupt place here, _, rfl, .inr rfl, rfl⟩
      · have ok : Accepted env t before x.2 := by
          refine ⟨intact_iff.2 ⟨l, .file b, place, was, ?_⟩, unspoiled⟩
          rintro b' same
          obtain rfl := Node.file.inj same
          rwa [not_and_or, not_not, not_not] at differs
        rw [if_neg differs, if_pos ok]
        refine ⟨swept.keep fun corrupt => ?_, rfl, rfl⟩
        exact absurd ok.1 (not_intact_of_corrupt corrupt)

/-- What the pass does: it removes the entries that are not intact when it comes to them. -/
theorem verifyEntries_sweeps {s : CacheManager} {before : List (String × CacheEntry)}
    (swept : Swept env t before s.tree) (rest : List (String × CacheEntry)) :
    Swept env t (before ++ rest) (verifyEntries env s rest).1.tree ∧
      (verifyEntries env s rest).1.index =
        ((rejected env t before rest).map Prod.fst).foldl Dict.pop s.index ∧
      List.Forall₂ (fun x issue => Names x.1 issue) (rejected env t before rest)
        (verifyEntries env s rest).2 := by
  induction rest generalizing s before with
  | nil => exact ⟨by rwa [List.append_nil], rfl, .nil⟩
  | cons x rest ih =>
    obtain ⟨swept', outcome⟩ := verifyEntry_spec swept x
    obtain ⟨whole, index, named⟩ := ih swept'
    rw [List.append_assoc, List.singleton_append] at whole
    rw [rejected]
    simp only [verifyEntries]
    split_ifs at outcome ⊢ with ok
    · obtain ⟨none, same⟩ := outcome
      rw [none]
      exact ⟨whole, same ▸ index, named⟩
    · obtain ⟨issue, some, names, popped⟩ := outcome
      rw [some]
      rw [popped] at index
      exact ⟨whole, index, .cons names named⟩

/-- Every entry is intact when the pass comes to it, or it is not. -/
theorem perm_accepted_rejected (before rest : List (String × CacheEntry)) :
    (accepted env t before rest ++ rejected env t before rest).Perm rest := by
  induction rest generalizing before with
  | nil => exact .nil
  | cons x rest ih =>
    unfold accepted rejected
    split_ifs
    · exact (ih (before ++ [x])).cons x
    · exact List.perm_middle.trans ((ih (before ++ [x])).cons x)

theorem rejected_sublist (before rest : List (String × CacheEntry)) :
    (rejected env t before rest).Sublist rest := by
  induction rest generalizing before with
  | nil => exact .slnil
  | cons x rest ih =>
    unfold rejected
    split_ifs
    · exact (ih _).cons x
    · exact (ih _).cons_cons x

theorem intact_of_accepted {before rest : List (String × CacheEntry)} {x : String × CacheEntry}
    (h : x ∈ accepted env t before rest) : Intact env t x.2 := by
  induction rest generalizing before with
  | nil => cases h
  | cons y rest ih =>
    unfold accepted at h
    split_ifs at h with ok
    · rcases List.mem_cons.1 h with rfl | h
      · exact ok.1
      · exact ih h
    · exact ih h

/-- The index after the pass. -/
def keptIndex (env : CacheEnv) (s : CacheManager) : CacheIndex :=
  ((rejected env s.tree [] s.index.entries).map Prod.fst).foldl Dict.pop s.index

theorem keys_disjoint {s : CacheManager} {x y : String × CacheEntry}
    (hx : x ∈ accepted env t [] s.index.entries) (hy : y ∈ rejected env t [] s.index.entries) :
    x.1 ≠ y.1 := by
  have perm := @perm_accepted_rejected env t [] s.index.entries
  have keys := (perm.map Prod.fst).nodup_iff.2 s.index.nodup
  rw [List.map_append, List.nodup_append] at keys
  exact keys.2.2 x.1 (List.mem_map_of_mem hx) y.1 (List.mem_map_of_mem hy)

theorem get?_keptIndex (s : CacheManager) (key : String) (e : CacheEntry) :
    (keptIndex env s).get? key = some e ↔ (key, e) ∈ accepted env s.tree [] s.index.entries := by
  have perm := @perm_accepted_rejected env s.tree [] s.index.entries
  rw [Dict.get?_eq_some_iff, keptIndex, Dict.entries_foldl_pop, List.mem_filter, decide_eq_true_eq,
    ← perm.mem_iff, List.mem_append]
  constructor
  · rintro ⟨here, spared⟩
    exact here.resolve_right fun mem => spared (List.mem_map_of_mem mem)
  · intro here
    refine ⟨.inl here, fun mem => ?_⟩
    obtain ⟨y, hy, same⟩ := List.mem_map.1 mem
    exact keys_disjoint here hy same.symm

theorem get?_keptIndex_eq_none (s : CacheManager) {x : String × CacheEntry}
    (hx : x ∈ s.index.entries) :
    (keptIndex env s).get? x.1 = none ↔ x ∈ rejected env s.tree [] s.index.entries := by
  have perm := @perm_accepted_rejected env s.tree [] s.index.entries
  constructor
  · intro absent
    rw [← perm.mem_iff, List.mem_append] at hx
    refine hx.resolve_left fun mem => ?_
    cases absent.symm.trans ((get?_keptIndex s x.1 x.2).2 mem)
  · intro mem
    by_contra present
    obtain ⟨e, found⟩ := Option.ne_none_iff_exists'.1 present
    exact keys_disjoint ((get?_keptIndex s x.1 e).1 found) mem rfl

/-! ## What the verification leaves -/

/-- What the verification promises of its result. -/
structure Verified (env : CacheEnv) (s : CacheManager) (r : List String × CacheManager) : Prop where
  remaining : ∀ key e, r.2.index.get? key = some e → Intact env r.2.tree e
  unchanged : ∀ key e, r.2.index.get? key = some e → s.index.get? key = some e
  named : ∃ removed : List (String × CacheEntry), removed.Sublist s.index.entries ∧
    (∀ x ∈ s.index.entries, r.2.index.get? x.1 = none ↔ x ∈ removed) ∧
    List.Forall₂ (fun x issue => Names x.1 issue) removed r.1
  onDisk : ∀ x ∈ accepted env s.tree [] s.index.entries, x.2.path.exist env.cwd r.2.tree
  again : verifyIntegrity env r.2 = ([], r.2)

/-- The entry is for the file of the index. -/
def IsIndexFile (env : CacheEnv) (t : FileTree Bytes) (e : CacheEntry) : Prop :=
  e.path.isFile env.cwd t ∧ e.path.locate env.cwd t = env.indexFile.locate env.cwd t

instance (e : CacheEntry) : Decidable (IsIndexFile env t e) :=
  inferInstanceAs (Decidable (_ ∧ _))

/-- No entry that is found intact is for a file for which an entry has another hash.  The file of
the index is written again when there are issues; an entry for it has the hash of what is written.
-/
def Harmonious (env : CacheEnv) (s : CacheManager) : Prop :=
  ∀ x ∈ accepted env s.tree [] s.index.entries,
    if rejected env s.tree [] s.index.entries ≠ [] ∧ IsIndexFile env s.tree x.2 then
      x.2.sha256 = "" ∨ env.sha256 (env.dumps (keptIndex env s)) = x.2.sha256
    else ¬ Spoiled env s.tree s.index.entries x.2

theorem verifyEntry_of_intact {s : CacheManager} {x : String × CacheEntry}
    (h : Intact env s.tree x.2) : verifyEntry env s x.1 x.2 = (s, none) := by
  unfold Intact at h
  unfold verifyEntry
  cases node : x.2.path.node? env.cwd s.tree with
  | none =>
    rw [node] at h
    exact h.elim
  | some n =>
    rw [node] at h
    cases n with
    | dir => rfl
    | file b =>
      dsimp only at h ⊢
      rw [if_neg]
      rintro ⟨recorded, differs⟩
      exact h.elim recorded differs

/-- Where every entry is intact, there is nothing to do. -/
theorem verifyIntegrity_of_intact {s : CacheManager}
    (h : ∀ key e, s.index.get? key = some e → Intact env s.tree e) :
    verifyIntegrity env s = ([], s) := by
  have quiet (entries : List (String × CacheEntry))
      (intact : ∀ x ∈ entries, Intact env s.tree x.2) :
      verifyEntries env s entries = (s, []) := by
    induction entries with
    | nil => rfl
    | cons x rest ih =>
      rw [List.forall_mem_cons] at intact
      rw [verifyEntries, verifyEntry_of_intact intact.1]
      dsimp only
      rw [ih intact.2]
      rfl
  rw [verifyIntegrity, quiet _ fun x hx => h x.1 x.2 ((Dict.get?_eq_some_iff _ _ _).2 hx)]
  rfl

/-- The verification leaves the kept index, in files that the index may be written to. -/
theorem verifyIntegrity_eq (s : CacheManager) : ∃ t' issues,
    Swept env s.tree s.index.entries t' ∧
    List.Forall₂ (fun x issue => Names x.1 issue) (rejected env s.tree [] s.index.entries) issues ∧
    verifyIntegrity env s = (issues, if rejected env s.tree [] s.index.entries ≠ [] then
      saveIndex env ⟨t', keptIndex env s⟩ else ⟨t', keptIndex env s⟩) := by
  obtain ⟨swept, index, named⟩ := verifyEntries_sweeps (@swept_nil env s.tree) s.index.entries
  refine ⟨(verifyEntries env s s.index.entries).1.tree, (verifyEntries env s s.index.entries).2,
    swept, named, ?_⟩
  have state : (verifyEntries env s s.index.entries).1 =
      ⟨(verifyEntries env s s.index.entries).1.tree, keptIndex env s⟩ := by
    rw [keptIndex, ← index]
  have some_iff : (verifyEntries env s s.index.entries).2 ≠ [] ↔
      rejected env s.tree [] s.index.entries ≠ [] := by
    rw [← List.length_pos_iff, ← List.length_pos_iff, named.length_eq]
  rw [verifyIntegrity]
  simp only [some_iff]
  rw [← state]

section Final

variable {s : CacheManager} {t' : FileTree Bytes} {x : String × CacheEntry}

/-- After the pass, an intact entry is still intact if no entry has another hash for its file. -/
theorem Swept.intact_iff {entries : List (String × CacheEntry)} (h : Swept env t entries t')
    (intact : Intact env t x.2) : Intact env t' x.2 ↔ ¬ Spoiled env t entries x.2 := by
  obtain ⟨l, n, place, here, hash⟩ := CacheManager.intact_iff.1 intact
  constructor
  · intro still
    obtain ⟨l', n', place', here', -⟩ := CacheManager.intact_iff.1 still
    exact (h.of_node (PyPath.node?_eq_some_iff.2 ⟨l', place', here'⟩)).elim fun _ r => r.2.2.2
  · intro unspoiled
    refine CacheManager.intact_iff.2 ⟨l, n, (h.locate_iff _ _).2 place, ?_, hash⟩
    rcases h l with ⟨same, -⟩ | ⟨-, -, y, hy, corrupt, samePlace⟩
    · exact same.trans here
    · exact absurd ⟨y, hy, corrupt, samePlace.trans place.symm⟩ unspoiled

theorem isIndexFile_iff {e : CacheEntry} : IsIndexFile env t e ↔ ∃ l b,
    e.path.locate env.cwd t = .ok l ∧ t.node? l = some (.file b) ∧
      env.indexFile.locate env.cwd t = .ok l := by
  unfold IsIndexFile PyPath.isFile
  constructor
  · rintro ⟨file, same⟩
    split at file
    · next b node =>
      obtain ⟨l, place, here⟩ := PyPath.node?_eq_some_iff.1 node
      exact ⟨l, b, place, here, same ▸ place⟩
    · cases file
  · rintro ⟨l, b, place, here, index⟩
    have node := PyPath.node?_eq_some_iff.2 ⟨l, place, here⟩
    rw [node]
    exact ⟨rfl, place.trans index.symm⟩

/-- Writing the index changes no other file. -/
theorem intact_saveIndex_of_not (swept : Swept env t s.index.entries t') {index : CacheIndex}
    (intact : Intact env t x.2) (other : ¬ IsIndexFile env t x.2) :
    Intact env (saveIndex env ⟨t', index⟩).tree x.2 ↔ Intact env t' x.2 := by
  unfold saveIndex
  split
  · next t'' written =>
    obtain ⟨l', place', wrote⟩ := PyPath.write_eq_ok written
    have dirs := isDir_of_write wrote
    obtain ⟨notDir, -, after⟩ := write_eq_ok wrote
    obtain ⟨l, n, place, here, -⟩ := CacheManager.intact_iff.1 intact
    have apart : l' ≠ l := by
      rintro rfl
      cases n with
      | dir => exact notDir ((swept.isDir l').2 here)
      | file b =>
        exact other (isIndexFile_iff.2 ⟨l', b, place, here, (swept.locate_iff _ _).1 place'⟩)
    have moved (t₁ : FileTree Bytes) (same : ∀ l, t₁.IsDir l ↔ t.IsDir l) :
        Intact env t₁ x.2 ↔ ∃ n, t₁.node? l = some n ∧
          ∀ b, n = .file b → x.2.sha256 = "" ∨ env.sha256 b = x.2.sha256 := by
      rw [CacheManager.intact_iff]
      have led : x.2.path.locate env.cwd t₁ = .ok l :=
        PyPath.locate_mono (fun l => (same l).2) place
      constructor
      · rintro ⟨l₁, n, place₁, rest⟩
        obtain rfl := Except.ok.inj (led.symm.trans place₁)
        exact ⟨n, rest⟩
      · rintro ⟨n, rest⟩
        exact ⟨l, n, led, rest⟩
    rw [moved t' swept.isDir, moved t'' fun l => (dirs l).trans (swept.isDir l), after,
      if_neg apart]
  · rfl

/-- An entry for the file of the index has the hash of what is written there. -/
theorem intact_saveIndex_of_isIndexFile (swept : Swept env t s.index.entries t')
    {index : CacheIndex} (h : IsIndexFile env t x.2) :
    Intact env (saveIndex env ⟨t', index⟩).tree x.2 ↔
      x.2.sha256 = "" ∨ env.sha256 (env.dumps index) = x.2.sha256 := by
  obtain ⟨l, b, place, here, indexPlace⟩ := isIndexFile_iff.1 h
  have notDir : ¬ t'.IsDir l := by
    rw [swept.isDir, IsDir, here]
    exact nofun
  have parent : t'.IsDir l.dropLast := (swept.isDir _).2 (t.closed _ _ here)
  obtain ⟨t'', wrote⟩ := exists_write (env.dumps index) notDir parent
  have written : env.indexFile.write env.cwd t' (env.dumps index) = .ok t'' := by
    rw [PyPath.write, (swept.locate_iff _ _).2 indexPlace]
    exact wrote
  have place'' : x.2.path.locate env.cwd t'' = .ok l :=
    PyPath.locate_mono (fun l => (isDir_of_write wrote l).2) ((swept.locate_iff _ _).2 place)
  have there : t''.node? l = some (.file (env.dumps index)) := by
    rw [(write_eq_ok wrote).2.2, if_pos rfl]
  rw [saveIndex]
  dsimp only
  rw [written, CacheManager.intact_iff]
  constructor
  · rintro ⟨l', n, place', here', hash⟩
    obtain rfl := Except.ok.inj (place''.symm.trans place')
    obtain rfl := Option.some.inj (there.symm.trans here')
    exact hash _ rfl
  · intro hash
    refine ⟨l, _, place'', there, ?_⟩
    rintro b' same
    obtain rfl := Node.file.inj same
    exact hash

end Final

/-- The verification keeps its promises exactly when no entry that it finds intact is for a file for
which another entry has another hash. -/
theorem verifyIntegrity_verified_iff (env : CacheEnv) (s : CacheManager) :
    Verified env s (verifyIntegrity env s) ↔ Harmonious env s := by
  obtain ⟨t', issues, swept, named, result⟩ := @verifyIntegrity_eq env s
  rw [result]
  have index : (if rejected env s.tree [] s.index.entries ≠ [] then
      saveIndex env ⟨t', keptIndex env s⟩ else ⟨t', keptIndex env s⟩).index = keptIndex env s := by
    split_ifs
    · exact saveIndex_index env _
    · rfl
  have intact (x : String × CacheEntry) (hx : x ∈ accepted env s.tree [] s.index.entries) :
      Intact env (if rejected env s.tree [] s.index.entries ≠ [] then
        saveIndex env ⟨t', keptIndex env s⟩ else ⟨t', keptIndex env s⟩).tree x.2 ↔
      if rejected env s.tree [] s.index.entries ≠ [] ∧ IsIndexFile env s.tree x.2 then
        x.2.sha256 = "" ∨ env.sha256 (env.dumps (keptIndex env s)) = x.2.sha256
      else ¬ Spoiled env s.tree s.index.entries x.2 := by
    have before := intact_of_accepted hx
    by_cases saved : rejected env s.tree [] s.index.entries ≠ []
    · by_cases own : IsIndexFile env s.tree x.2
      · rw [if_pos saved, if_pos ⟨saved, own⟩]
        exact intact_saveIndex_of_isIndexFile swept own
      · rw [if_pos saved, if_neg fun h => own h.2, intact_saveIndex_of_not swept before own]
        exact swept.intact_iff before
    · rw [if_neg saved, if_neg fun h => saved h.1]
      exact swept.intact_iff before
  constructor
  · rintro ⟨remaining, -⟩ x hx
    rw [← intact x hx]
    refine remaining x.1 x.2 ?_
    dsimp only
    rw [index]
    exact (get?_keptIndex s x.1 x.2).2 hx
  · intro harmonious
    have still : ∀ key e, (keptIndex env s).get? key = some e →
        Intact env (if rejected env s.tree [] s.index.entries ≠ [] then
          saveIndex env ⟨t', keptIndex env s⟩ else ⟨t', keptIndex env s⟩).tree e := by
      intro key e found
      have hx := (get?_keptIndex s key e).1 found
      exact (intact (key, e) hx).2 (harmonious (key, e) hx)
    refine ⟨?_, ?_, ⟨_, rejected_sublist _ _, ?_, named⟩, ?_, ?_⟩
    · dsimp only
      rw [index]
      exact still
    · dsimp only
      rw [index]
      intro key e found
      have mem : (key, e) ∈ accepted env s.tree [] s.index.entries ++
          rejected env s.tree [] s.index.entries :=
        List.mem_append_left _ ((get?_keptIndex s key e).1 found)
      exact (Dict.get?_eq_some_iff _ _ _).2 ((perm_accepted_rejected _ _).mem_iff.1 mem)
    · dsimp only
      rw [index]
      exact fun x hx => get?_keptIndex_eq_none s hx
    · intro x hx
      exact exist_of_intact ((intact x hx).2 (harmonious x hx))
    · refine verifyIntegrity_of_intact ?_
      rw [index]
      exact still

/-- Two versions of a package that were stored from files of one name. -/
def sharedWheel : CacheManager where
  tree := sampleStored.tree
  index :=
    let entry (version sha256 : String) : CacheEntry :=
      ⟨sampleCacheEnv.wheelsDir.join "x.whl", .wheel "p" version, sha256, 1, 1, 1⟩
    (Dict.empty.set (wheelKey "p" "1") (entry "1" (sampleSha256 [1]))).set (wheelKey "p" "2")
      (entry "2" (sampleSha256 [2]))

/-- The file is the first version's, and is removed because it is not the second version's: the
first version stays in the index without a file. -/
theorem verified_wheel_removed :
    (sharedWheel.index.get? (wheelKey "p" "1")).map CacheEntry.sha256 = some (sampleSha256 [1]) ∧
      (verifyIntegrity sampleCacheEnv sharedWheel).1 = ["Corrupt: wheel:p:2 (hash mismatch)"] ∧
      ((verifyIntegrity sampleCacheEnv sharedWheel).2.index.get? (wheelKey "p" "1")).isSome ∧
      ¬ (sampleCacheEnv.wheelsDir.join "x.whl").exist sampleCacheEnv.cwd
        (verifyIntegrity sampleCacheEnv sharedWheel).2.tree ∧
      (verifyIntegrity sampleCacheEnv (verifyIntegrity sampleCacheEnv sharedWheel).2).1 =
        ["Missing: wheel:p:1"] := by
  decide +kernel

end CacheManager

end Cpip
