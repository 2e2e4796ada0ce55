import Mathlib.Data.Bool.AllAny
import Cpip.Python.Tarfile
import Cpip.Virtualization.Layers

/-!
# Layers of any archive (`virtualization/layers.py`)

`store_layer` for archives of all kinds of members, on files with links.  The directory of a layer
is made before the archive is opened, and once it is there nothing is extracted any more: a call
that fails later leaves a layer that the following calls take for complete.
-/

namespace Cpip

/-- `layers_dir`, an absolute path without dots, the digits of the hash, and the archives as
`tarfile` reads them. -/
structure LayerHost where
  base : List String
  plain : ∀ name ∈ base, IsPart name ∧ name ≠ ".."
  sha256 : Bytes → String
  hex : ∀ b, 16 ≤ (sha256 b).toList.length ∧ ∀ c ∈ (sha256 b).toList, c ∈ "0123456789abcdef".toList
  read : Bytes → Tar.TarReading

namespace LayerHost

open LinkTree Tar

variable (d : LayerHost)

/-- `sha[:16]`. -/
def idOf (data : Bytes) : String := String.ofList ((d.sha256 data).toList.take 16)

/-- `layers_dir / layer_id`. -/
def layerPath (layerId : String) : List String := d.base ++ [layerId]

def hasLayer (layerId : String) (t : LinkTree Bytes) : Bool :=
  (t.nodeAt maxLinks (d.layerPath layerId)).isSome

def getLayerPath (layerId : String) (t : LinkTree Bytes) : Option (List String) :=
  if d.hasLayer layerId t then some (d.layerPath layerId) else none

/-- `path.mkdir(parents=True)`, from the top; the last directory must be new. -/
def mkdirs (path : List String) : List String → Proc Disk Exc Unit
  | [] => pure ()
  | name :: rest => fun s =>
    if rest ≠ [] ∧ s.tree.nodeAt maxLinks (path ++ [name]) = some .dir then
      mkdirs (path ++ [name]) rest s
    else (do
      mkdir (path ++ [name])
      mkdirs (path ++ [name]) rest) s

/-- The files below a path, by their relative names. -/
def filesBelow (path : List String) (t : LinkTree Bytes) : List String :=
  match t.walk maxLinks [] path with
  | .ok (l, _) =>
    ((t.nodes.keys.filter fun l' => FileTree.Below l l' ∧ l' ≠ l).map fun l' =>
      l'.drop l.length).filterMap fun rest =>
        match t.nodeAt maxLinks (path ++ rest) with
        | some (.file _) => some ("/".intercalate rest)
        | _ => none
  | .error _ => []

/-- What `store_layer` returns. -/
def described (data : Bytes) (contentType : String) (t : LinkTree Bytes) : PackageLayer where
  layerId := d.idOf data
  sha256 := d.sha256 data
  size := data.length
  contentType := contentType
  files := filesBelow (d.layerPath (d.idOf data)) t

/-- A new directory with what is extracted to it. -/
def unpack (path : List String) (r : TarReading) (fault : Option Fault) : Proc Disk Exc Unit := do
  mkdirs [] path
  extractall path r fault

/-- `store_layer`, which a fault may strike. -/
def storeLayer (data : Bytes) (contentType : String) (fault : Option Fault) :
    Proc Disk Exc PackageLayer := fun s =>
  if d.hasLayer (d.idOf data) s.tree then (.ok (d.described data contentType s.tree), s)
  else
    match unpack (d.layerPath (d.idOf data)) (d.read data) fault s with
    | (.ok (), s') => (.ok (d.described data contentType s'.tree), s')
    | (.error e, s') => (.error e, s')

/-! ## What a layer holds -/

/-- What is at a place that is no directory. -/
inductive Entry where
  | file (content : Bytes)
  | link (target : LinkTarget)
  | special

def entryAt (t : LinkTree Bytes) (l : Loc) : Option Entry :=
  match t.node? l with
  | some (.file i) => some (.file (t.data i))
  | some (.link target) => some (.link target)
  | some .special => some .special
  | _ => none

/-- What a directory holds under relative names. -/
def contents (path : List String) (t : LinkTree Bytes) (rest : List String) : Option Entry :=
  match t.walk maxLinks [] path with
  | .ok (l, _) => entryAt t (l ++ rest)
  | .error _ => none

/-- The files without the layer. -/
def without (layerId : String) (s : Disk) : Disk :=
  match s.tree.place maxLinks (d.layerPath layerId) with
  | .ok l => if d.hasLayer layerId s.tree then { s with tree := s.tree.prune l } else s
  | .error _ => s

/-- The files of an archive: what its extraction leaves in a new directory, if it can be extracted.
-/
def archiveFiles (data : Bytes) (s : Disk) : Option (List String → Option Entry) :=
  match unpack (d.layerPath (d.idOf data)) (d.read data) none (d.without (d.idOf data) s) with
  | (.ok (), s') => some (contents (d.layerPath (d.idOf data)) s'.tree)
  | (.error _, _) => none

/-- A call that raises adds no layer and takes none away, and one that returns leaves the files of
the archive. -/
structure Lawful (data : Bytes) (contentType : String) (fault : Option Fault) (s : Disk) :
    Prop where
  raising : ∀ e s', d.storeLayer data contentType fault s = (.error e, s') →
    ∀ id, IsPart id → id ≠ ".." → d.hasLayer id s'.tree = d.hasLayer id s.tree ∧
      d.getLayerPath id s'.tree = d.getLayerPath id s.tree
  returning : ∀ layer s', d.storeLayer data contentType fault s = (.ok layer, s') →
    d.archiveFiles data s = some (contents (d.layerPath (d.idOf data)) s'.tree)

/-- A layer that is there is complete, and a new one can be extracted to the end. -/
structure Whole (data : Bytes) (fault : Option Fault) (s : Disk) : Prop where
  present : d.hasLayer (d.idOf data) s.tree = true →
    d.archiveFiles data s = some (contents (d.layerPath (d.idOf data)) s.tree)
  absent : d.hasLayer (d.idOf data) s.tree = false → ∀ s₁,
    mkdirs [] (d.layerPath (d.idOf data)) s = (.ok (), s₁) →
      (extractall (d.layerPath (d.idOf data)) (d.read data) fault s₁).1 = .ok ()

/-! ## The directory of a layer -/

variable {d}

theorem isPart_idOf (data : Bytes) : IsPart (d.idOf data) ∧ d.idOf data ≠ ".." := by
  obtain ⟨long, hex⟩ := d.hex data
  have digit : ∀ c ∈ (d.idOf data).toList, c ∈ "0123456789abcdef".toList := by
    intro c h
    rw [idOf, String.toList_ofList] at h
    exact hex c (List.mem_of_mem_take h)
  have sixteen : (d.idOf data).toList.length = 16 := by
    rw [idOf, String.toList_ofList, List.length_take, min_eq_left long]
  have ne (s : String) (short : s.toList.length ≠ 16) : d.idOf data ≠ s := by
    rintro rfl
    exact short sixteen
  refine ⟨⟨ne _ (by decide), ne _ (by decide), fun h => ?_⟩, ne _ (by decide)⟩
  exact absurd (digit _ h) (by decide)

theorem plain_layerPath {id : String} (part : IsPart id) (up : id ≠ "..") :
    ∀ name ∈ d.layerPath id, name ≠ "." ∧ name ≠ ".." := by
  intro name h
  rcases List.mem_append.1 h with h | h
  · exact ⟨(d.plain name h).1.2.1, (d.plain name h).2⟩
  · obtain rfl := List.mem_singleton.1 h
    exact ⟨part.2.1, up⟩

theorem mkdirs_cons (path : List String) (name : String) (rest : List String) (s : Disk) :
    mkdirs path (name :: rest) s =
      if rest ≠ [] ∧ s.tree.nodeAt maxLinks (path ++ [name]) = some .dir then
        mkdirs (path ++ [name]) rest s
      else (mkdir (path ++ [name]) >>= fun _ => mkdirs (path ++ [name]) rest) s := rfl

/-- In a new directory all further directories can be made. -/
theorem exists_mkdirs {path rest : List String} {s : Disk} {l : Loc} {left : ℕ}
    (fresh : Fresh path s l left) (plain : ∀ name ∈ rest, name ≠ "." ∧ name ≠ "..") :
    ∃ s', mkdirs path rest s = (.ok (), s') := by
  induction rest generalizing path s l left with
  | nil => exact ⟨s, rfl⟩
  | cons name rest ih =>
    have names := plain name List.mem_cons_self
    have bare : s.tree.node? (l ++ [name]) = none := fresh.bare [name] (by simp)
    have noLink : ∀ target, s.tree.node? (l ++ [name]) ≠ some (.link target) := by
      rw [bare]
      exact fun _ => nofun
    have further : Leads s.tree maxLinks [] (path ++ [name]) (l ++ [name]) left :=
      fresh.leads.append (.down fresh.isDir names.1 names.2 noLink (.done ..))
    have absent : s.tree.nodeAt maxLinks (path ++ [name]) = none := by
      rw [nodeAt_of_leads further, bare]
    obtain ⟨t, made⟩ := exists_mknode (n := .dir)
      (by rw [List.dropLast_concat]; exact fresh.isDir) trivial bare
    have done := mkdir_of_place (place_of_leads fresh.leads fresh.isDir names) made
    obtain ⟨-, -, -, l', left', next⟩ := fresh_mkdir done
    obtain ⟨s', all⟩ := ih next fun name' h => plain name' (List.mem_cons_of_mem _ h)
    refine ⟨s', ?_⟩
    rw [mkdirs_cons, if_neg (by simp [absent]), Proc.bind_of_ok done]
    exact all

/-- What fails to make a directory makes none of those above it. -/
theorem mkdirs_eq_error {path rest : List String} {s s' : Disk} {e : Exc}
    (plain : ∀ name ∈ rest, name ≠ "." ∧ name ≠ "..")
    (h : mkdirs path rest s = (.error e, s')) : s' = s := by
  induction rest generalizing path with
  | nil => cases h
  | cons name rest ih =>
    have plainRest : ∀ name' ∈ rest, name' ≠ "." ∧ name' ≠ ".." :=
      fun name' h => plain name' (List.mem_cons_of_mem _ h)
    rw [mkdirs_cons] at h
    split_ifs at h
    · exact ih plainRest h
    · rw [Proc.bind_apply] at h
      split at h
      · next s₁ made =>
        obtain ⟨-, -, -, l, left, fresh⟩ := fresh_mkdir made
        obtain ⟨s₂, done⟩ := exists_mkdirs fresh plainRest
        cases done.symm.trans h
      · next e' s₁ made =>
        obtain ⟨-, rfl⟩ := Prod.mk.inj h
        exact mkdir_eq_error made

/-- The last directory is new, and everything that was there stays. -/
theorem fresh_mkdirs {path rest : List String} {s s' : Disk} (nonempty : rest ≠ [])
    (h : mkdirs path rest s = (.ok (), s')) : s'.touched = s.touched ∧
      (∀ p, s.tree.node? p ≠ none → s'.tree.node? p = s.tree.node? p) ∧
      (∀ p, s.tree.node? p = none → s'.tree.node? p = none ∨ s'.tree.IsDir p) ∧
      ∃ l left, Fresh (path ++ rest) s' l left := by
  induction rest generalizing path s with
  | nil => exact absurd rfl nonempty
  | cons name rest ih =>
    rw [mkdirs_cons] at h
    split_ifs at h with there
    · rw [List.append_cons]
      exact ih there.1 h
    · obtain ⟨_, s₁, made, more⟩ := Proc.exists_of_bind_eq_ok h
      obtain ⟨touched, older, newer, l, left, fresh⟩ := fresh_mkdir made
      by_cases last : rest = []
      · subst last
        cases more
        exact ⟨touched, older, newer, l, left, fresh⟩
      · obtain ⟨touched', older', newer', l', left', fresh'⟩ := ih last more
        rw [List.append_cons]
        refine ⟨touched'.trans touched, fun p hp => ?_, fun p hp => ?_, l', left', fresh'⟩
        · rw [older' p (by rwa [older p hp]), older p hp]
        · rcases newer p hp with none | dir
          · exact newer' p none
          · exact Or.inr ((older' p (by simp [show s₁.tree.node? p = _ from dir])).trans dir)

/-! ## Calls that fail -/

theorem without_of_absent {data : Bytes} {s : Disk}
    (absent : d.hasLayer (d.idOf data) s.tree = false) : d.without (d.idOf data) s = s := by
  unfold without
  split
  · rw [if_neg (by simp [absent])]
  · rfl

/-- What a fault strikes does not come to its end. -/
theorem eq_none_of_extractall {base : List String} {r : TarReading} {fault : Option Fault}
    {s s' : Disk} (h : extractall base r fault s = (.ok (), s')) : fault = none := by
  cases fault with
  | none => rfl
  | some fault =>
    obtain ⟨_, s₁, -, ended⟩ := Proc.exists_of_bind_eq_ok h
    cases ended

/-- No directory above the layers is a link. -/
def Straight (d : LayerHost) (t : LinkTree Bytes) : Prop :=
  ∀ p, p <+: d.base → ∀ target, t.node? p ≠ some (.link target)

/-- Then a layer whose directory was made is there, whatever is extracted next. -/
theorem hasLayer_of_mkdirs {data : Bytes} {s s₁ s₂ : Disk} (straight : d.Straight s.tree)
    (made : mkdirs [] (d.layerPath (d.idOf data)) s = (.ok (), s₁))
    (dirs : ∀ l, s₁.tree.IsDir l → s₂.tree.IsDir l) :
    d.hasLayer (d.idOf data) s₂.tree = true := by
  obtain ⟨part, up⟩ := isPart_idOf (d := d) data
  obtain ⟨-, older, newer, l, left, fresh⟩ := fresh_mkdirs (by simp [layerPath]) made
  obtain ⟨init, last, dir, split, rfl, leads, isDir⟩ := fresh.above
  obtain ⟨rfl, same⟩ :=
    List.append_inj' (show d.base ++ [d.idOf data] = init ++ [last] from split) rfl
  obtain rfl : d.idOf data = last := (List.cons.inj same).1
  have plainBase : ∀ name ∈ d.base, name ≠ "." ∧ name ≠ ".." := fun name h =>
    ⟨(d.plain name h).1.2.1, (d.plain name h).2⟩
  have real : ∀ p, p <+: d.base → ∀ target, s₁.tree.node? ([] ++ p) ≠ some (.link target) := by
    intro p hp target found
    rw [List.nil_append] at found
    by_cases there : s.tree.node? p = none
    · rcases newer p there with none | dir
      · exact absurd (none.symm.trans found) (by simp)
      · exact absurd (dir.symm.trans found) (by simp)
    · exact straight p hp target ((older p there).symm.trans found)
  obtain ⟨rfl, above⟩ := leads.real plainBase real isDir
  have all : ∀ p, p <+: d.base ++ [d.idOf data] → s₂.tree.IsDir ([] ++ p) := by
    intro p hp
    rcases List.prefix_concat_iff.1 hp with rfl | hp
    · exact dirs _ fresh.isDir
    · exact dirs _ (above p hp)
  have there := leads_of_dirs (t := s₂.tree) maxLinks (plain_layerPath (d := d) part up) all
  rw [hasLayer, nodeAt_of_leads there]
  exact Option.isSome_of_eq_some (all _ List.prefix_rfl)

/-- Where the layer is complete if it is there, and can be extracted if not, `store_layer` keeps to
the contract. -/
theorem lawful_of_whole {d : LayerHost} {data : Bytes} {fault : Option Fault} {s : Disk}
    (whole : d.Whole data fault s) (contentType : String) :
    d.Lawful data contentType fault s where
  raising := by
    intro e s' h id _ _
    suffices same : s' = s by rw [same]; exact ⟨rfl, rfl⟩
    unfold storeLayer at h
    split at h
    · cases h
    · next absent =>
      rw [Bool.not_eq_true] at absent
      split at h
      · cases h
      · next e' s₂ failed =>
        obtain ⟨-, rfl⟩ := Prod.mk.inj h
        unfold unpack at failed
        rw [Proc.bind_apply] at failed
        split at failed
        · next s₁ made =>
          have fine := whole.absent absent s₁ made
          rw [failed] at fine
          cases fine
        · next e₁ s₁ made =>
          obtain ⟨-, rfl⟩ := Prod.mk.inj failed
          exact mkdirs_eq_error
            (plain_layerPath (d := d) (isPart_idOf data).1 (isPart_idOf data).2) made
  returning := by
    intro layer s' h
    unfold storeLayer at h
    split at h
    · next present =>
      obtain ⟨-, rfl⟩ := Prod.mk.inj h
      exact whole.present present
    · next absent =>
      rw [Bool.not_eq_true] at absent
      split at h
      · next s₂ done =>
        obtain ⟨-, rfl⟩ := Prod.mk.inj h
        obtain ⟨_, s₁, made, extracted⟩ := Proc.exists_of_bind_eq_ok done
        obtain rfl := eq_none_of_extractall extracted
        unfold archiveFiles
        rw [without_of_absent absent, done]
      · cases h

/-- A layer that is there only in part is seen, as the path of the layers is free of links. -/
theorem whole_of_lawful {d : LayerHost} {data : Bytes} {contentType : String}
    {fault : Option Fault} {s : Disk} (straight : d.Straight s.tree)
    (lawful : d.Lawful data contentType fault s) : d.Whole data fault s where
  present := by
    intro present
    refine lawful.returning (d.described data contentType s.tree) s ?_
    rw [storeLayer, if_pos present]
  absent := by
    intro absent s₁ made
    cases ended : extractall (d.layerPath (d.idOf data)) (d.read data) fault s₁ with
    | mk out s₂ =>
      cases out with
      | ok u => rfl
      | error e =>
        have dirs : ∀ l, s₁.tree.IsDir l → s₂.tree.IsDir l := by
          intro l dir
          have kept := keeps_extractall (d.layerPath (d.idOf data)) (stable_isDir l)
            (d.read data) fault s₁ dir
          rwa [ended] at kept
        have failed : d.storeLayer data contentType fault s = (.error e, s₂) := by
          unfold storeLayer unpack
          rw [if_neg (by simp [absent]), Proc.bind_of_ok made, ended]
        obtain ⟨part, up⟩ := isPart_idOf (d := d) data
        have same := (lawful.raising e s₂ failed _ part up).1
        rw [hasLayer_of_mkdirs straight made dirs, absent] at same
        cases same

/-- `store_layer` keeps to that where the layer is complete if it is there and can be extracted if
not, and nowhere else while the path of the layers is free of links. -/
theorem storeLayer_lawful_iff (d : LayerHost) (data : Bytes) (contentType : String)
    (fault : Option Fault) (s : Disk) :
    (d.Whole data fault s → d.Lawful data contentType fault s) ∧
      (d.Straight s.tree → (d.Lawful data contentType fault s ↔ d.Whole data fault s)) :=
  ⟨fun whole => lawful_of_whole whole contentType, fun straight =>
    ⟨whole_of_lawful straight, fun whole => lawful_of_whole whole contentType⟩⟩

/-- Nothing is an archive for this host. -/
def unreadable : LayerHost where
  base := ["layers"]
  plain := by decide
  sha256 _ := "0123456789abcdef"
  hex _ := ⟨by decide, List.all_iff_forall_prop.1 (by decide)⟩
  read _ := ⟨[], false⟩

/-- A call with data that is no archive raises, and leaves an empty layer. -/
theorem broken_layer_left : ¬ ∀ (d : LayerHost) (data : Bytes) (contentType : String)
    (fault : Option Fault) (s : Disk), d.Lawful data contentType fault s := by
  intro claim
  let s : Disk := ⟨.bare [], []⟩
  have lawful := claim unreadable [1] "python" none s
  have absent : unreadable.hasLayer "0123456789abcdef" s.tree = false := by decide +kernel
  have there : unreadable.hasLayer "0123456789abcdef"
      (unreadable.storeLayer [1] "python" none s).2.tree = true := by decide +kernel
  have failed : (unreadable.storeLayer [1] "python" none s).1.toBool = false := by decide +kernel
  cases ended : unreadable.storeLayer [1] "python" none s with
  | mk out s' =>
    rw [ended] at failed there
    cases out with
    | ok layer => cases failed
    | error e =>
      have same := (lawful.raising e s' ended "0123456789abcdef" (by decide) (by decide)).1
      rw [there, absent] at same
      cases same

end LayerHost

end Cpip
