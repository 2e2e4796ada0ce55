import Cpip.Python.TarInside
import Cpip.Python.TarReach
import Cpip.Virtualization.Extraction

/-!
# Archives that leave the directory of their layer (`virtualization/layers.py`)

`store_layer` extracts archives without a filter, so a member goes where its name leads, through the
links that other members left.  The hash that names the layer is no guard: it is the hash of the
archive itself.
-/

namespace Cpip

namespace LayerHost

open LinkTree FileTree Tar

variable (d : LayerHost)

/-- Every file that the call creates or overwrites lies in the directory that it made. -/
def Confined (data : Bytes) (contentType : String) (fault : Option Fault) (t : LinkTree Bytes) :
    Prop :=
  ∀ l ∈ (d.storeLayer data contentType fault ⟨t, []⟩).2.touched, ∃ s₁ root left,
    mkdirs [] (d.layerPath (d.idOf data)) ⟨t, []⟩ = (.ok (), s₁) ∧
      s₁.tree.walk maxLinks [] (d.layerPath (d.idOf data)) = .ok (root, left) ∧ Below root l

/-- What a new layer touches is what the extraction does. -/
theorem touched_storeLayer {data : Bytes} {contentType : String} {fault : Option Fault}
    {s s₁ : Disk} (absent : d.hasLayer (d.idOf data) s.tree = false)
    (made : mkdirs [] (d.layerPath (d.idOf data)) s = (.ok (), s₁)) :
    (d.storeLayer data contentType fault s).2.touched =
      (extractall (d.layerPath (d.idOf data)) (d.read data) fault s₁).2.touched := by
  unfold storeLayer unpack
  rw [if_neg (by simp [absent]), Proc.bind_of_ok made]
  cases extractall (d.layerPath (d.idOf data)) (d.read data) fault s₁ with
  | mk out s' =>
    cases out with
    | ok u => rfl
    | error e => rfl

/-- A call that makes no directory touches nothing. -/
theorem touched_of_not_made {data : Bytes} {contentType : String} {fault : Option Fault} {s : Disk}
    (h : d.hasLayer (d.idOf data) s.tree = true ∨
      ∃ e s₁, mkdirs [] (d.layerPath (d.idOf data)) s = (.error e, s₁)) :
    (d.storeLayer data contentType fault s).2.touched = s.touched := by
  unfold storeLayer
  split
  · rfl
  · next absent =>
    obtain ⟨e, s₁, failed⟩ := h.resolve_left absent
    unfold unpack
    rw [Proc.bind_of_error failed]
    exact congrArg Disk.touched
      (mkdirs_eq_error (plain_layerPath (d := d) (isPart_idOf data).1 (isPart_idOf data).2) failed)

/-- Once the directory is made, the call keeps to it when the extraction does. -/
theorem confined_iff_inside {data : Bytes} (contentType : String) (fault : Option Fault)
    {t : LinkTree Bytes} {s₁ : Disk} {root : Loc} {left : ℕ}
    (absent : d.hasLayer (d.idOf data) t = false)
    (made : mkdirs [] (d.layerPath (d.idOf data)) ⟨t, []⟩ = (.ok (), s₁))
    (walked : s₁.tree.walk maxLinks [] (d.layerPath (d.idOf data)) = .ok (root, left)) :
    d.Confined data contentType fault t ↔
      Inside root (extractall (d.layerPath (d.idOf data)) (d.read data) fault s₁).2 := by
  unfold Confined Inside
  rw [d.touched_storeLayer absent made]
  refine forall₂_congr fun l _ => ⟨?_, fun below => ⟨s₁, root, left, made, walked, below⟩⟩
  rintro ⟨s₁', root', left', made', walked', below⟩
  obtain rfl : s₁ = s₁' := (Prod.mk.inj (made.symm.trans made')).2
  obtain rfl : root = root' := (Prod.mk.inj (Except.ok.inj (walked.symm.trans walked'))).1
  exact below

/-- The call keeps to the directory exactly when every member that it extracts is written below it;
an archive without absolute names and `..` is of that kind, whatever its links. -/
theorem storeLayer_confined_iff (data : Bytes) (contentType : String) (fault : Option Fault)
    (t : LinkTree Bytes) :
    (d.Confined data contentType fault t ↔ (d.hasLayer (d.idOf data) t = false →
      ∀ s₁ root left, mkdirs [] (d.layerPath (d.idOf data)) ⟨t, []⟩ = (.ok (), s₁) →
        s₁.tree.walk maxLinks [] (d.layerPath (d.idOf data)) = .ok (root, left) →
          StayAll root (d.layerPath (d.idOf data)) (d.read data).getmembers []
            ((d.read data).cut fault).members s₁)) ∧
      ((∀ m ∈ (d.read data).members, m.Clean) → d.Confined data contentType fault t) := by
  by_cases absent : d.hasLayer (d.idOf data) t = false
  · cases made : mkdirs [] (d.layerPath (d.idOf data)) ⟨t, []⟩ with
    | mk out s₁ =>
      cases out with
      | error e =>
        have none : d.Confined data contentType fault t := by
          intro l h
          rw [d.touched_of_not_made (Or.inr ⟨e, s₁, made⟩)] at h
          cases h
        exact ⟨iff_of_true none fun _ _ _ _ made' => (by cases made'),
          fun _ => none⟩
      | ok u =>
        obtain ⟨touched, -, -, root, left, fresh⟩ := fresh_mkdirs (by simp [layerPath]) made
        have walked := walk_of_leads fresh.leads
        rw [List.nil_append] at walked
        have inside : Inside root s₁ := by
          unfold Inside
          rw [touched]
          intro _ touched
          cases touched
        have confined := d.confined_iff_inside contentType fault absent made walked
        refine ⟨?_, fun clean => ?_⟩
        · rw [confined, (exact_extractall _ _).inside_iff s₁ inside]
          constructor
          · rintro stays - s₁' root' left' made' walked'
            obtain rfl : s₁ = s₁' := (Prod.mk.inj made').2
            obtain rfl : root = root' := (Prod.mk.inj (Except.ok.inj (walked.symm.trans walked'))).1
            exact stays
          · exact fun stays => stays absent s₁ root left rfl walked
        · have kept := keeps_tidy_extractall fresh clean fault s₁ (tidy_fresh fresh inside)
          exact confined.2 kept.inside
  · have none : d.Confined data contentType fault t := by
      intro l h
      rw [d.touched_of_not_made (Or.inl (by simpa using absent))] at h
      cases h
    exact ⟨iff_of_true none fun h => absurd h absent, fun _ => none⟩

/-- The archives of this host have one member, which climbs out. -/
def climbing : LayerHost where
  base := ["layers"]
  plain := unreadable.plain
  sha256 _ := "0123456789abcdef"
  hex := unreadable.hex
  read _ := ⟨[⟨"../escaped.py", .reg [1]⟩], true⟩

/-- A member is written beside the directory of its layer. -/
theorem member_escapes : ¬ ∀ (d : LayerHost) (data : Bytes) (contentType : String)
    (fault : Option Fault) (t : LinkTree Bytes), d.Confined data contentType fault t := by
  intro claim
  have touched : ["layers", "escaped.py"] ∈
      (climbing.storeLayer [1] "python" none ⟨.bare [], []⟩).2.touched := by decide +kernel
  have place : ((mkdirs [] ["layers", "0123456789abcdef"] ⟨.bare [], []⟩).2.tree.walk maxLinks []
      ["layers", "0123456789abcdef"]).toOption.map Prod.fst =
        some ["layers", "0123456789abcdef"] := by
    decide +kernel
  obtain ⟨s₁, root, left, made, walked, below⟩ :=
    claim climbing [1] "python" none (.bare []) _ touched
  have made' : mkdirs [] ["layers", "0123456789abcdef"] ⟨.bare [], []⟩ = (.ok (), s₁) := made
  have walked' : s₁.tree.walk maxLinks [] ["layers", "0123456789abcdef"] = .ok (root, left) :=
    walked
  rw [made', walked'] at place
  obtain rfl : root = ["layers", "0123456789abcdef"] := Option.some.inj place
  exact absurd below (by decide)

/-- A symbolic link that cannot take the place of a directory stops nothing. -/
def evading : LayerHost :=
  { climbing with
    read := fun _ => ⟨[⟨"d", .dir⟩, ⟨"d", .sym "nowhere"⟩, ⟨"../escaped.py", .reg [1]⟩], true⟩ }

example : (evading.storeLayer [1] "python" none ⟨.bare [], []⟩).2.touched =
    [["layers", "escaped.py"]] := by
  decide +kernel

end LayerHost

end Cpip
