import Cpip.Lib.Machine
import Cpip.Python.Hashlib
import Cpip.Virtualization.Layers

/-!
# Composed layers

A composed directory is made once and never looked at again.  It is the overlay of its layers as
long as every directory, of a layer or a composition, is made from all that belongs in it.
-/

namespace Cpip

namespace LayerManager

open FileTree FileStep Overlay

variable {d : LayerDisk}

/-! ## Places -/

theorem shortHash_ne_composed (b : Bytes) : shortHash d.toLayerEnv b ≠ "composed" := by
  intro same
  have mem : 'o' ∈ (shortHash d.toLayerEnv b).toList := by
    rw [same]
    decide
  rw [shortHash, String.toList_ofList] at mem
  exact absurd (d.hex b 'o' (List.mem_of_mem_take mem)) (by decide)

theorem ne_composed {layers : List PackageLayer}
    (archives : ∀ l ∈ layers, ∃ data, l.layerId = layerIdOf d data) :
    ∀ l ∈ layers, l.layerId ≠ "composed" := by
  intro l hl
  obtain ⟨data, same⟩ := archives l hl
  rw [same]
  exact shortHash_ne_composed data

/-- What lies in one directory of `layers_dir` does not lie in another. -/
theorem not_below_of_ne {root rest : Loc} {name name' : String} (h : name ≠ name') :
    ¬ Below (root ++ [name]) (root ++ name' :: rest) := by
  rintro ⟨more, same⟩
  rw [List.append_assoc] at same
  exact h (List.cons.inj (List.append_cancel_left same)).1

theorem downClosed_below (l : Loc) : DownClosed (Below l) := fun _ _ h h' => h.trans h'

/-- Nothing lies below a file. -/
theorem fileAt_append_of_isSome {t : FileTree Bytes} {dir p q : Loc}
    (file : (fileAt t dir p).isSome) (proper : q ≠ []) : fileAt t dir (p ++ q) = none := by
  obtain ⟨b, here⟩ := Option.isSome_iff_exists.1 file
  by_contra below
  obtain ⟨b', there⟩ := Option.ne_none_iff_exists'.1 below
  rw [fileAt_eq_some_iff] at here there
  have above : t.IsDir (dir ++ p) := isDir_of_below there ⟨q, by simp⟩ (by simpa using proper.symm)
  rw [IsDir, here] at above
  cases above

theorem node?_append_of_none {t : FileTree Bytes} {l : Loc} (h : t.node? l = none) (rest : Loc) :
    t.node? (l ++ rest) = none := by
  cases rest with
  | nil =>
    rw [List.append_nil]
    exact h
  | cons name rest =>
    by_contra present
    obtain ⟨n, hn⟩ := Option.ne_none_iff_exists'.1 present
    have dir := isDir_of_below hn (List.prefix_append l (name :: rest)) (by simp)
    rw [IsDir, h] at dir
    cases dir

/-! ## What a layer is made of -/

/-- The steps below the directory of a layer stay below it. -/
theorem within_memberSteps (dst : Loc) (m : ArchiveMember) :
    ∀ s ∈ memberSteps dst m, s.Within (Inner dst) := by
  cases m with
  | dir path => exact within_ensureDirs dst path
  | file parent name content =>
    intro s mem
    rcases List.mem_append.1 mem with mem | mem
    · exact within_ensureDirs dst parent s mem
    · have here : Inner dst (dst ++ parent ++ [name]) :=
        ⟨parent ++ [name], by simp, List.append_assoc ..⟩
      rcases List.mem_cons.1 mem with rfl | mem
      · exact here
      · rw [List.mem_singleton.1 mem]
        exact here

theorem within_members (dst : Loc) (members : List ArchiveMember) :
    ∀ s ∈ members.flatMap (memberSteps dst), s.Within (Inner dst) := by
  intro s mem
  obtain ⟨m, -, hs⟩ := List.mem_flatMap.1 mem
  exact within_memberSteps dst m s hs

/-- A directory that is made first stays one while the rest is done below it. -/
theorem isDir_of_run_mkdir {dst : Loc} {rest : List (FileStep Bytes)}
    (within : ∀ s ∈ rest, s.Within (Inner dst)) {t : FileTree Bytes} (absent : t.node? dst = none)
    {k : ℕ} (present : ((run ((.mkdir dst :: rest).take k) t).2.node? dst).isSome) :
    (run ((.mkdir dst :: rest).take k) t).2.IsDir dst := by
  cases k with
  | zero =>
    rw [List.take_zero, run, absent] at present
    cases present
  | succ k =>
    rw [List.take_succ_cons, run] at present ⊢
    split
    · next t₁ made =>
      refine ((agreeOff_run (downClosed_inner dst)
        (fun s mem => within s (List.mem_of_mem_take mem)) t₁).isDir ?_).2 ?_
      · rintro ⟨rest, nonempty, eq⟩
        exact nonempty (by simpa using eq.symm)
      · rw [IsDir, (mkdir_eq_ok made).2, if_pos rfl]
    · next e failed =>
      rw [failed, absent] at present
      cases present

/-- The files of a layer that is extracted whole, whatever else there is. -/
def content (d : LayerDisk) (start : FileTree Bytes) (data : Bytes) : Loc → Option Bytes :=
  match d.unpack data with
  | none => fun _ => none
  | some (members, _) =>
    fileAt (run (storeSteps d data members) start).2 (layerLoc d (layerIdOf d data))

/-- Nothing is in `layers_dir`, which is there. -/
structure Empty (d : LayerDisk) (t : FileTree Bytes) : Prop where
  root : t.IsDir d.root
  free : ∀ rest, rest ≠ [] → t.node? (d.root ++ rest) = none

/-- The steps of an extraction leave the same files wherever the layer was not there. -/
theorem fileAt_run_storeSteps {start t : FileTree Bytes} (empty : Empty d start) {data : Bytes}
    {members : List ArchiveMember} {complete : Bool}
    (unpacked : d.unpack data = some (members, complete)) (root : t.IsDir d.root)
    (absent : t.node? (layerLoc d (layerIdOf d data)) = none) :
    fileAt (run (storeSteps d data members) t).2 (layerLoc d (layerIdOf d data)) =
      content d start data := by
  have parent {t : FileTree Bytes} (root : t.IsDir d.root) :
      t.IsDir (layerLoc d (layerIdOf d data)).dropLast := by
    rw [layerLoc, List.dropLast_concat]
    exact root
  have free : start.node? (layerLoc d (layerIdOf d data)) = none :=
    empty.free [layerIdOf d data] (by simp)
  obtain ⟨t₁, made⟩ := exists_mkdir absent (parent root)
  obtain ⟨start₁, made'⟩ := exists_mkdir free (parent empty.root)
  have after := (mkdir_eq_ok made).2
  have after' := (mkdir_eq_ok made').2
  have same : SameBelow (layerLoc d (layerIdOf d data)) t₁ start₁ := by
    rintro l ⟨rest, rfl⟩
    rw [after, after']
    split_ifs
    · rfl
    · rw [node?_append_of_none absent rest]
      exact (node?_append_of_none free rest).symm
  have ran : run (storeSteps d data members) t =
      run (members.flatMap (memberSteps (layerLoc d (layerIdOf d data)))) t₁ :=
    run_cons_of_ok (s := .mkdir _) made _
  have ran' : run (storeSteps d data members) start =
      run (members.flatMap (memberSteps (layerLoc d (layerIdOf d data)))) start₁ :=
    run_cons_of_ok (s := .mkdir _) made' _
  rw [content, unpacked]
  dsimp only
  rw [ran, ran']
  exact fileAt_congr fun p =>
    same.run (within_members _ members) _ (List.prefix_append _ p)

theorem within_storeSteps (data : Bytes) (members : List ArchiveMember) :
    ∀ s ∈ storeSteps d data members, s.Within (Below (layerLoc d (layerIdOf d data))) := by
  rw [storeSteps, List.forall_mem_cons]
  refine ⟨List.prefix_refl _, fun s mem => ?_⟩
  obtain ⟨m, -, hs⟩ := List.mem_flatMap.1 mem
  exact (within_memberSteps _ m s hs).mono fun _ => below_of_inner

/-! ## What stays true -/

/-- A composed directory has the layer. -/
def Named (s : LayerStore) (layerId : String) : Prop :=
  ∃ layers ∈ s.lists, layerId ∈ layers.map PackageLayer.layerId

/-- A step that makes no composed directory of less than the files of all of its layers, and changes
no layer that a composed directory has. -/
def Good (d : LayerDisk) (s : LayerStore) : LayerOp → Prop
  | .store data _ fault _ =>
    s.tree.node? (layerLoc d (layerIdOf d data)) = none → fault ≠ some 0 →
      (d.unpack data).isSome ∧
      (Named s (layerIdOf d data) → Whole d data fault ∧ layerIdOf d data ∉ s.broken ∧
        ∀ data' ∈ s.archives, layerIdOf d data' = layerIdOf d data → data' = data)
  | .compose layers fault =>
    (∀ l ∈ layers, ∃ data, l.layerId = layerIdOf d data) ∧
    (∀ layers' ∈ s.lists, composedName d.toLayerEnv layers' = composedName d.toLayerEnv layers →
      layers'.map PackageLayer.layerId = layers.map PackageLayer.layerId) ∧
    (s.tree.node? (composedLoc d layers) = none → fault = some 0 ∨ fault = some 1 ∨
      (∀ l ∈ layers, (s.tree.node? (layerLoc d l.layerId)).isSome) ∧
      (∀ l ∈ layers, ∀ l' ∈ layers, ∀ p q, q ≠ [] →
        (fileAt s.tree (layerLoc d l.layerId) p).isSome →
          fileAt s.tree (layerLoc d l'.layerId) (p ++ q) = none) ∧
      Unbroken fault (composeSteps d layers s.tree))
  | .cleanup active fault =>
    ∀ layerId, fault.bind (halfway d s.tree (unused d active s.tree)) = some layerId →
      ¬ Named s layerId

/-- Unless the layer was handled in part, the files are those of its archive. -/
def Extracted (d : LayerDisk) (start : FileTree Bytes) (s : LayerStore) (layerId : String)
    (files : Loc → Option Bytes) : Prop :=
  layerId ∉ s.broken →
    ∃ data ∈ s.archives, layerIdOf d data = layerId ∧ files = content d start data

/-- The directory has the overlay of what its layers were, and those that are there still are. -/
structure Composition (d : LayerDisk) (start : FileTree Bytes) (s : LayerStore)
    (layers : List PackageLayer) (files : String → Loc → Option Bytes) : Prop where
  overlaid : fileAt s.tree (composedLoc d layers) = overlay (layers.map fun l => files l.layerId)
  kept : ∀ l ∈ layers, (s.tree.node? (layerLoc d l.layerId)).isSome →
    fileAt s.tree (layerLoc d l.layerId) = files l.layerId
  extracted : ∀ l ∈ layers, Extracted d start s l.layerId (files l.layerId)

structure Sound (d : LayerDisk) (start : FileTree Bytes) (s : LayerStore) : Prop where
  root : s.tree.IsDir d.root
  proper : ∀ layerId, Named s layerId → layerId ≠ "composed"
  layer : ∀ layerId, layerId ≠ "composed" → (s.tree.node? (layerLoc d layerId)).isSome →
    s.tree.IsDir (layerLoc d layerId) ∧
      Extracted d start s layerId (fileAt s.tree (layerLoc d layerId))
  composed : ∀ name, (s.tree.node? (d.root ++ ["composed", name])).isSome →
    ∃ layers ∈ s.lists, composedName d.toLayerEnv layers = name ∧
      ∃ files, Composition d start s layers files

theorem sound_empty {start : FileTree Bytes} (empty : Empty d start) :
    Sound d start ⟨start, [], [], []⟩ where
  root := empty.root
  proper := by
    rintro layerId ⟨layers, mem, -⟩
    cases mem
  layer := by
    intro layerId _ present
    rw [layerLoc, empty.free _ (by simp)] at present
    cases present
  composed := by
    intro name present
    rw [empty.free _ (by simp)] at present
    cases present

theorem Extracted.mono {start : FileTree Bytes} {s s' : LayerStore} {layerId : String}
    {files : Loc → Option Bytes} (h : Extracted d start s layerId files)
    (archives : s.archives ⊆ s'.archives) (broken : s.broken ⊆ s'.broken) :
    Extracted d start s' layerId files := by
  intro whole
  obtain ⟨data, mem, same⟩ := h fun mem => whole (broken mem)
  exact ⟨data, archives mem, same⟩

section Steps

variable {start : FileTree Bytes} {s s' : LayerStore}

/-- A step on one layer, which changes no files of the layer that a composed directory has. -/
theorem Sound.setLayer (sound : Sound d start s) {layerId : String}
    (proper : layerId ≠ "composed") (lists : s'.lists = s.lists)
    (agree : AgreeOff (Below (layerLoc d layerId)) s.tree s'.tree)
    (archives : s.archives ⊆ s'.archives) (broken : s.broken ⊆ s'.broken)
    (here : (s'.tree.node? (layerLoc d layerId)).isSome → s'.tree.IsDir (layerLoc d layerId) ∧
      Extracted d start s' layerId (fileAt s'.tree (layerLoc d layerId)))
    (named : Named s layerId → (s'.tree.node? (layerLoc d layerId)).isSome →
      ∀ files, Extracted d start s layerId files →
        fileAt s'.tree (layerLoc d layerId) = files) : Sound d start s' := by
  have apart {name : String} (ne : layerId ≠ name) (rest : Loc) :
      s'.tree.node? (d.root ++ name :: rest) = s.tree.node? (d.root ++ name :: rest) :=
    agree _ (not_below_of_ne ne)
  have layerApart {name : String} (ne : layerId ≠ name) (p : Loc) :
      s'.tree.node? (layerLoc d name ++ p) = s.tree.node? (layerLoc d name ++ p) := by
    rw [layerLoc, List.append_assoc, List.singleton_append]
    exact apart ne p
  have namedIff (name : String) : Named s' name ↔ Named s name := by rw [Named, Named, lists]
  refine ⟨?_, fun name h => sound.proper name ((namedIff name).1 h), fun name ne present => ?_,
    fun name present => ?_⟩
  · refine (agree.isDir ?_).2 sound.root
    intro below
    have short := below.length_le
    simp only [layerLoc, List.length_append, List.length_singleton] at short
    omega
  · by_cases same : layerId = name
    · exact same ▸ here (same ▸ present)
    · have unchanged := layerApart same
      have there := unchanged []
      rw [List.append_nil] at there
      rw [there] at present
      obtain ⟨dir, extracted⟩ := sound.layer name ne present
      rw [IsDir, there, fileAt_congr unchanged]
      exact ⟨dir, extracted.mono archives broken⟩
  · rw [apart proper] at present
    obtain ⟨layers, mem, rfl, files, composition⟩ := sound.composed name present
    refine ⟨layers, lists ▸ mem, rfl, files, ?_, fun l hl there => ?_, fun l hl => ?_⟩
    · rw [← composition.overlaid]
      refine fileAt_congr fun p => ?_
      rw [composedLoc, List.append_assoc]
      exact apart proper _
    · by_cases same : layerId = l.layerId
      · have has : Named s layerId := ⟨layers, mem, same ▸ List.mem_map_of_mem hl⟩
        have extracted := composition.extracted l hl
        rw [← same] at extracted there ⊢
        exact named has there _ extracted
      · have unchanged := layerApart same
        have node := unchanged []
        rw [List.append_nil] at node
        rw [fileAt_congr unchanged]
        exact composition.kept l hl (node ▸ there)
    · exact (composition.extracted l hl).mono archives broken

theorem not_made_self (l : Loc) (t : FileTree Bytes) : ¬ Made l t t := by
  rintro ⟨absent, present⟩
  rw [absent] at present
  cases present

theorem snd_storeLayer {t : FileTree Bytes} {data : Bytes} {contentType : String}
    {fault : Option ℕ} {other : FileTree Bytes} {members : List ArchiveMember} {complete : Bool}
    (absent : t.node? (layerLoc d (layerIdOf d data)) = none)
    (unpacked : d.unpack data = some (members, complete)) :
    (storeLayer d data contentType fault other t).2 =
      (perform fault (storeSteps d data members) t).2 := by
  rw [storeLayer, if_neg (by simp [absent]), unpacked]
  dsimp only
  split
  · next same => rw [same]
  · next same =>
    rw [same]
    split_ifs <;> rfl

/-- Nothing is done where the layer is, or where the operation is broken off at once. -/
theorem snd_storeLayer_of_unchanged {t : FileTree Bytes} {data : Bytes} {contentType : String}
    {fault : Option ℕ} {other : FileTree Bytes}
    (h : t.node? (layerLoc d (layerIdOf d data)) ≠ none ∨ fault = some 0) :
    (storeLayer d data contentType fault other t).2 = t := by
  by_cases absent : t.node? (layerLoc d (layerIdOf d data)) = none
  · obtain rfl := h.resolve_left (not_not.2 absent)
    cases unpacked : d.unpack data with
    | none => rw [storeLayer, if_neg (by simp [absent]), unpacked]; rfl
    | some result =>
      rw [snd_storeLayer absent unpacked, snd_perform_some]
      rfl
  · rw [storeLayer, if_pos (Option.ne_none_iff_isSome.1 absent)]

theorem Sound.store (empty : Empty d start) (sound : Sound d start s) {data : Bytes}
    {contentType : String} {fault : Option ℕ} {other : FileTree Bytes}
    (good : Good d s (.store data contentType fault other))
    (h : layerStep d s (.store data contentType fault other) = some s') : Sound d start s' := by
  obtain rfl := Option.some.inj h
  by_cases unchanged : s.tree.node? (layerLoc d (layerIdOf d data)) ≠ none ∨ fault = some 0
  · simp only [snd_storeLayer_of_unchanged unchanged, not_made_self, false_and, if_false]
    exact sound
  · simp only [not_or, not_not] at unchanged
    obtain ⟨absent, begun⟩ := unchanged
    obtain ⟨readable, kept⟩ := good absent begun
    obtain ⟨⟨members, complete⟩, unpacked⟩ := Option.isSome_iff_exists.1 readable
    have result : (storeLayer d data contentType fault other s.tree).2 =
        (perform fault (storeSteps d data members) s.tree).2 := snd_storeLayer absent unpacked
    have files (whole : Whole d data fault) :
        fileAt (perform fault (storeSteps d data members) s.tree).2
          (layerLoc d (layerIdOf d data)) = content d start data := by
      rw [Whole, unpacked] at whole
      rw [perform_of_unbroken whole]
      exact fileAt_run_storeSteps empty unpacked sound.root absent
    simp only [result]
    refine sound.setLayer (shortHash_ne_composed data) rfl
      (agreeOff_perform (downClosed_below _) (within_storeSteps data members) fault s.tree)
      ?_ ?_ (fun present => ⟨?_, ?_⟩) ?_
    · dsimp only
      split_ifs
      · exact List.subset_cons_self ..
      · exact List.Subset.refl _
    · dsimp only
      split_ifs
      · exact List.subset_cons_self ..
      · exact List.Subset.refl _
    · obtain ⟨k, left⟩ := exists_take_of_perform fault (storeSteps d data members) s.tree
      dsimp only at present ⊢
      rw [left] at present ⊢
      exact isDir_of_run_mkdir (within_members _ members) absent present
    · intro unbroken
      dsimp only at unbroken present ⊢
      have made : Made (layerLoc d (layerIdOf d data)) s.tree
          (perform fault (storeSteps d data members) s.tree).2 := ⟨absent, present⟩
      by_cases whole : Whole d data fault
      · rw [if_pos ⟨made, whole⟩]
        exact ⟨data, List.mem_cons_self, rfl, files whole⟩
      · rw [if_pos ⟨made, whole⟩] at unbroken
        exact absurd List.mem_cons_self unbroken
    · intro named _ contents extracted
      obtain ⟨whole, unbroken, only⟩ := kept named
      obtain ⟨data', mem, same, rfl⟩ := extracted unbroken
      rw [only data' mem same]
      exact files whole

/-! ### Removing layers -/

theorem within_removeSteps (t : FileTree Bytes) (dir : Loc) :
    ∀ s ∈ removeSteps d t dir, s.Within (Below dir) := by
  intro s mem
  rcases List.mem_append.1 mem with mem | mem
  · obtain ⟨l, hl, rfl⟩ := List.mem_map.1 mem
    rw [(d.removal_perm _).mem_iff] at hl
    obtain ⟨⟨l', n⟩, entry, rfl⟩ := List.mem_map.1 hl
    obtain ⟨rest, -, rfl, -⟩ := mem_copies.1 entry
    exact List.prefix_append dir rest
  · rw [List.mem_singleton.1 mem]
    exact List.prefix_refl dir

/-- The places that are removed with a directory, itself last. -/
theorem exists_removeSteps_eq (t : FileTree Bytes) (dir : Loc) :
    ∃ ls, removeSteps d t dir = (ls ++ [dir]).map .remove :=
  ⟨_, by rw [List.map_append]; rfl⟩

theorem run_removeSteps (t current : FileTree Bytes) {dir : Loc} (proper : dir ≠ []) :
    ∃ t', run (removeSteps d t dir) current = (.ok (), t') ∧ t'.node? dir = none := by
  obtain ⟨ls, steps⟩ := exists_removeSteps_eq t dir
  refine ⟨(ls ++ [dir]).foldl prune current, by rw [steps, run_map_remove], ?_⟩
  rw [List.foldl_append, List.foldl_cons, List.foldl_nil, node?_prune, if_neg]
  simp [proper, Below]

theorem sub_run_removeSteps (t current : FileTree Bytes) (dir : Loc) (k : ℕ) :
    Sub (run ((removeSteps d t dir).take k) current).2 current := by
  obtain ⟨ls, steps⟩ := exists_removeSteps_eq t dir
  rw [steps, ← List.map_take, run_map_remove]
  exact sub_foldl_prune _ current

theorem Sound.removeAll {t : FileTree Bytes} {names : List String}
    (proper : ∀ name ∈ names, name ≠ "composed") {k : ℕ} (sound : Sound d start s)
    (named : ∀ name, halfway d t names k = some name → ¬ Named s name) :
    Sound d start { s with
      tree :=
        (run ((names.map fun name => removeSteps d t (layerLoc d name)).flatten.take k) s.tree).2
      broken := (halfway d t names k).toList ++ s.broken } := by
  induction names generalizing s k with
  | nil =>
    rw [List.map_nil, List.flatten_nil, List.take_nil]
    exact sound
  | cons name names ih =>
    rw [List.forall_mem_cons] at proper
    rw [List.map_cons, List.flatten_cons]
    rw [halfway] at named ⊢
    have agree (j : ℕ) (current : FileTree Bytes) : AgreeOff (Below (layerLoc d name)) current
        (run ((removeSteps d t (layerLoc d name)).take j) current).2 :=
      agreeOff_run (downClosed_below _)
        (fun s mem => within_removeSteps t _ s (List.mem_of_mem_take mem)) current
    by_cases zero : k = 0
    · rw [if_pos zero, zero, List.take_zero]
      exact sound
    · rw [if_neg zero] at named ⊢
      by_cases inside : k < (removeSteps d t (layerLoc d name)).length
      · rw [if_pos inside] at named ⊢
        rw [List.take_append_of_le_length inside.le]
        refine sound.setLayer proper.1 rfl (agree k s.tree) (List.Subset.refl _)
          (List.subset_append_right ..) (fun present => ⟨?_, fun whole => ?_⟩)
          fun has => absurd has (named name rfl)
        · obtain ⟨n, left⟩ := Option.isSome_iff_exists.1 present
          have before := sub_run_removeSteps t s.tree (layerLoc d name) k _ n left
          have dir := (sound.layer name proper.1 (by rw [before]; rfl)).1
          rw [IsDir, before] at dir
          rw [IsDir]
          exact left.trans dir
        · exact absurd (List.mem_append_left s.broken (by simp)) whole
      · rw [if_neg inside] at named ⊢
        have below : layerLoc d name ≠ [] := by simp [layerLoc]
        obtain ⟨t₁, removed, absent⟩ := run_removeSteps t s.tree below
        have agree₁ := agree (removeSteps d t (layerLoc d name)).length s.tree
        rw [List.take_length, removed] at agree₁
        have now : Sound d start { s with tree := t₁ } := by
          have gone : ¬ (t₁.node? (layerLoc d name)).isSome := by simp [absent]
          exact sound.setLayer proper.1 rfl agree₁ (List.Subset.refl _) (List.Subset.refl _)
            (fun present => absurd present gone) fun _ present => absurd present gone
        rw [List.take_append, List.take_of_length_le (Nat.le_of_not_lt inside),
          run_append_of_ok removed]
        exact ih proper.2 now named

theorem halfway_of_le (t : FileTree Bytes) {names : List String} {k : ℕ}
    (h : (names.map fun name => removeSteps d t (layerLoc d name)).flatten.length ≤ k) :
    halfway d t names k = none := by
  induction names generalizing k with
  | nil => rfl
  | cons name names ih =>
    rw [List.map_cons, List.flatten_cons, List.length_append] at h
    rw [halfway]
    split_ifs with zero inside
    · rfl
    · omega
    · exact ih (by omega)

theorem Sound.cleanup (sound : Sound d start s) {active : List String} {fault : Option ℕ}
    (good : Good d s (.cleanup active fault))
    (h : layerStep d s (.cleanup active fault) = some s') : Sound d start s' := by
  obtain rfl := Option.some.inj h
  have result : (cleanupUnused d active fault s.tree).2 =
      (perform fault (cleanupSteps d active s.tree).flatten s.tree).2 := by
    rw [cleanupUnused]
    split
    · next same => rw [same]
    · next same => rw [same]
  have proper : ∀ name ∈ unused d active s.tree, name ≠ "composed" := by
    intro name mem
    have kept := (List.mem_filter.1 mem).2
    simp only [decide_eq_true_eq] at kept
    exact kept.1
  simp only [result]
  cases fault with
  | none =>
    have done : halfway d s.tree (unused d active s.tree)
        (cleanupSteps d active s.tree).flatten.length = none := halfway_of_le s.tree le_rfl
    have all := sound.removeAll (t := s.tree) (k := (cleanupSteps d active s.tree).flatten.length)
      proper (by
        intro name inside
        rw [done] at inside
        cases inside)
    rw [done, ← cleanupSteps, List.take_length] at all
    exact all
  | some k =>
    rw [snd_perform_some]
    exact sound.removeAll proper good

/-! ### Composing layers -/

theorem agreeOff_ensureDir {l : Loc} {t t' : FileTree Bytes}
    (h : (FileStep.ensureDir l).step t = .ok t') : AgreeOff (· = l) t t' := by
  rw [step_ensureDir] at h
  split_ifs at h
  · obtain rfl := Except.ok.inj h
    exact .refl _ t
  · exact agreeOff_mkdir rfl h

/-- The files of layers none of which is in the way of another. -/
theorem unnested_overlay {ι : Type} {ls : List ι} {f : ι → Loc → Option Bytes}
    (apart : ∀ l ∈ ls, ∀ l' ∈ ls, ∀ p q, q ≠ [] → (f l p).isSome → f l' (p ++ q) = none) :
    Unnested (overlay (ls.map f)) := by
  intro p q above nonempty
  by_contra below
  obtain ⟨_, mem, here⟩ := exists_of_isSome_overlay above
  obtain ⟨_, mem', there⟩ := exists_of_isSome_overlay (Option.ne_none_iff_isSome.1 below)
  obtain ⟨l, hl, rfl⟩ := List.mem_map.1 mem
  obtain ⟨l', hl', rfl⟩ := List.mem_map.1 mem'
  rw [apart l hl l' hl' p q nonempty here] at there
  cases there

/-- The part of the files that the composition of layers is in. -/
def ComposedPart (d : LayerDisk) (layers : List PackageLayer) (l : Loc) : Prop :=
  l = d.root ++ ["composed"] ∨ Below (composedLoc d layers) l

/-- What the composition of layers that are there does where it was not made before: it is broken
off before it makes the directory, or makes the overlay of the layers. -/
inductive Composes (d : LayerDisk) (layers : List PackageLayer) (t : FileTree Bytes) :
    Except StepExc Loc × FileTree Bytes → Prop
  | failed (e : StepExc) (t' : FileTree Bytes)
      (agree : AgreeOff (· = d.root ++ ["composed"]) t t') :
    Composes d layers t (.error e, t')
  | made (t' : FileTree Bytes)
    (present : ∀ l ∈ layers, (t.node? (layerLoc d l.layerId)).isSome)
    (agree : AgreeOff (ComposedPart d layers) t t')
    (dir : t'.IsDir (composedLoc d layers))
    (overlaid : fileAt t' (composedLoc d layers) =
      overlay (layers.map fun l => fileAt t (layerLoc d l.layerId))) :
    Composes d layers t (.ok (composedLoc d layers), t')

theorem Sound.fileAt_layer (sound : Sound d start s) {layers : List PackageLayer}
    (ids : ∀ l ∈ layers, l.layerId ≠ "composed")
    (present : ∀ l ∈ layers, (s.tree.node? (layerLoc d l.layerId)).isSome) {l : PackageLayer}
    (hl : l ∈ layers) :
    ((layerFiles d s.tree l).map Prod.fst).Nodup ∧ ∀ p b, (p, b) ∈ layerFiles d s.tree l ↔
      fileAt s.tree (layerLoc d l.layerId) p = some b := by
  rw [layerFiles, if_pos (present l hl)]
  have order := d.rglob_perm (filesIn s.tree (layerLoc d l.layerId))
  refine ⟨(order.map Prod.fst).nodup_iff.2 (nodup_filesIn ..), fun p b => ?_⟩
  rw [order.mem_iff, mem_filesIn, fileAt_eq_some_iff]
  refine and_iff_right_of_imp fun file => ?_
  rintro rfl
  have dir := (sound.layer l.layerId (ids l hl) (present l hl)).1
  rw [List.append_nil, dir] at file
  cases file

theorem ne_nil_of_mem_layerFiles {t : FileTree Bytes} {l : PackageLayer} {e : Loc × Bytes}
    (mem : e ∈ layerFiles d t l) : e.1 ≠ [] := by
  rw [layerFiles] at mem
  split_ifs at mem
  · rw [(d.rglob_perm _).mem_iff] at mem
    exact (mem_filesIn.1 mem).1
  · cases mem

theorem within_copies (layers : List PackageLayer) (t : FileTree Bytes) (dst : Loc) :
    ∀ s ∈ (layers.flatMap (layerFiles d t)).flatMap (copySteps dst []), s.Within (Below dst) := by
  intro s mem
  obtain ⟨e, he, hs⟩ := List.mem_flatMap.1 mem
  obtain ⟨l, -, file⟩ := List.mem_flatMap.1 he
  exact (within_copySteps dst [] (ne_nil_of_mem_layerFiles file) s hs).mono fun _ => below_of_inner

/-- The copies of layers that are there, none of which is in the way of another, are their overlay.
-/
theorem Sound.copies (sound : Sound d start s) {layers : List PackageLayer}
    (ids : ∀ l ∈ layers, l.layerId ≠ "composed")
    (present : ∀ l ∈ layers, (s.tree.node? (layerLoc d l.layerId)).isSome)
    (apart : ∀ l ∈ layers, ∀ l' ∈ layers, ∀ p q, q ≠ [] →
      (fileAt s.tree (layerLoc d l.layerId) p).isSome →
        fileAt s.tree (layerLoc d l'.layerId) (p ++ q) = none)
    {dst : Loc} {t : FileTree Bytes} (fresh : Reflects dst (fun _ => none) t) :
    ∃ t', run ((layers.flatMap (layerFiles d s.tree)).flatMap (copySteps dst [])) t = (.ok (), t') ∧
      Reflects dst (overlay (layers.map fun l => fileAt s.tree (layerLoc d l.layerId))) t' := by
  have assigned : assignAll (fun _ => none) (layers.flatMap (layerFiles d s.tree)) =
      overlay (layers.map fun l => fileAt s.tree (layerLoc d l.layerId)) := by
    funext p
    exact assignAll_flatMap layers (fun l hl => (sound.fileAt_layer ids present hl).1)
      (fun l hl => (sound.fileAt_layer ids present hl).2) p
  rw [← assigned]
  refine fresh.copyAll [] (fun e mem => ?_) (assigned ▸ unnested_overlay apart)
  obtain ⟨l, -, file⟩ := List.mem_flatMap.1 mem
  exact ne_nil_of_mem_layerFiles file

theorem Sound.composes (sound : Sound d start s) {layers : List PackageLayer} {fault : Option ℕ}
    (good : Good d s (.compose layers fault))
    (absent : s.tree.node? (composedLoc d layers) = none) :
    Composes d layers s.tree (composeLayers d layers fault s.tree) := by
  obtain ⟨archives, -, complete⟩ := good
  have ids := ne_composed archives
  rw [composeLayers, if_neg (by simp [absent])]
  rcases complete absent with rfl | rfl | ⟨present, apart, unbroken⟩
  · exact .failed _ _ (.refl _ _)
  · rw [perform, if_pos (by simp [composeSteps]), composeSteps, List.take_succ_cons, List.take_zero,
      run]
    cases first : (FileStep.ensureDir (d.root ++ ["composed"])).step s.tree with
    | error e => exact .failed _ _ (.refl _ _)
    | ok t₁ => exact .failed _ _ (agreeOff_ensureDir first)
  · rw [perform_of_unbroken unbroken, composeSteps, run]
    cases first : (FileStep.ensureDir (d.root ++ ["composed"])).step s.tree with
    | error e => exact .failed _ _ (.refl _ _)
    | ok t₁ =>
      have before := agreeOff_ensureDir first
      dsimp only
      rw [run]
      cases second : (FileStep.mkdir (composedLoc d layers)).step t₁ with
      | error e => exact .failed _ _ before
      | ok t₂ =>
        obtain ⟨free, after⟩ := mkdir_eq_ok second
        have fresh : Reflects (composedLoc d layers) (fun _ => none) t₂ := by
          have below (p : Loc) (proper : p ≠ []) : t₂.node? (composedLoc d layers ++ p) = none := by
            rw [after, if_neg (by simpa using proper), node?_append_of_none free]
          have here : t₂.IsDir (composedLoc d layers) := by rw [IsDir, after, if_pos rfl]
          refine ⟨here, fun p b => iff_of_false (fun file => ?_) (fun none => ?_),
            fun p proper dir => ?_⟩
          · by_cases proper : p = []
            · subst proper
              rw [List.append_nil, here] at file
              cases file
            · rw [below p proper] at file
              cases file
          · cases none
          · rw [IsDir, below p proper] at dir
            cases dir
        obtain ⟨t', ran, reflects⟩ := sound.copies ids present apart fresh
        dsimp only
        rw [ran]
        refine .made t' present ?_ reflects.isDir ?_
        · have inside : AgreeOff (Below (composedLoc d layers)) t₁ t₂ :=
            agreeOff_mkdir (List.prefix_refl _) second
          have copied := agreeOff_run (downClosed_below (composedLoc d layers))
            (within_copies (d := d) layers s.tree _) t₂
          rw [ran] at copied
          exact (before.mono fun l => .inl).trans ((inside.trans copied).mono fun l => .inr)
        · funext p
          apply Option.ext
          intro b
          rw [fileAt_eq_some_iff, reflects.file]

theorem layer_apart (layers : List PackageLayer) {layerId : String} (proper : layerId ≠ "composed")
    (p : Loc) : ¬ ComposedPart d layers (layerLoc d layerId ++ p) := by
  have outside : ¬ Below (d.root ++ ["composed"]) (layerLoc d layerId ++ p) := by
    rw [layerLoc, List.append_assoc]
    exact not_below_of_ne (Ne.symm proper)
  rintro (same | below)
  · exact outside (same ▸ List.prefix_refl _)
  · refine outside (List.IsPrefix.trans ?_ below)
    exact ⟨[composedName d.toLayerEnv layers], by simp [composedLoc]⟩

theorem composed_apart {layers : List PackageLayer} {name : String}
    (ne : composedName d.toLayerEnv layers ≠ name) (p : Loc) :
    ¬ ComposedPart d layers (d.root ++ ["composed", name] ++ p) := by
  rintro (same | below)
  · simp at same
  · have apart : ¬ Below (d.root ++ ["composed"] ++ [composedName d.toLayerEnv layers])
        (d.root ++ ["composed"] ++ name :: p) := not_below_of_ne ne
    exact apart (by simpa [composedLoc] using below)

/-- A step in the part of a composed directory that has, if it is there, the overlay of its layers.
-/
theorem Sound.setComposed (sound : Sound d start s) {layers : List PackageLayer}
    (ids : ∀ l ∈ layers, l.layerId ≠ "composed") {t : FileTree Bytes}
    {lists : List (List PackageLayer)} (kept : s.lists ⊆ lists) (added : lists ⊆ layers :: s.lists)
    (agree : AgreeOff (ComposedPart d layers) s.tree t)
    (here : (t.node? (composedLoc d layers)).isSome → layers ∈ lists ∧
      (∀ l ∈ layers, (s.tree.node? (layerLoc d l.layerId)).isSome) ∧
      fileAt t (composedLoc d layers) =
        overlay (layers.map fun l => fileAt s.tree (layerLoc d l.layerId))) :
    Sound d start { s with tree := t, lists := lists } := by
  have layerSame {layerId : String} (ne : layerId ≠ "composed") (p : Loc) :
      t.node? (layerLoc d layerId ++ p) = s.tree.node? (layerLoc d layerId ++ p) :=
    agree _ (layer_apart layers ne p)
  have nodeSame {layerId : String} (ne : layerId ≠ "composed") :
      t.node? (layerLoc d layerId) = s.tree.node? (layerLoc d layerId) := by
    have node := layerSame ne []
    rwa [List.append_nil] at node
  refine ⟨?_, ?_, fun layerId ne present => ?_, fun name present => ?_⟩
  · refine (agree.isDir ?_).2 sound.root
    rintro (same | below)
    · simp at same
    · have short := below.length_le
      simp only [composedLoc, List.length_append, List.length_cons] at short
      omega
  · rintro layerId ⟨layers', mem, named⟩
    rcases List.mem_cons.1 (added mem) with same | old
    · obtain ⟨l, hl, rfl⟩ := List.mem_map.1 named
      exact ids l (same ▸ hl)
    · exact sound.proper layerId ⟨layers', old, named⟩
  · dsimp only at present ⊢
    rw [nodeSame ne] at present
    obtain ⟨dir, extracted⟩ := sound.layer layerId ne present
    rw [IsDir, nodeSame ne, fileAt_congr (layerSame ne)]
    exact ⟨dir, extracted⟩
  · by_cases same : composedName d.toLayerEnv layers = name
    · subst same
      obtain ⟨mem, there, overlaid⟩ := here present
      refine ⟨layers, mem, rfl, fun layerId => fileAt s.tree (layerLoc d layerId), overlaid,
        fun l hl _ => fileAt_congr (layerSame (ids l hl)), fun l hl => ?_⟩
      exact (sound.layer l.layerId (ids l hl) (there l hl)).2
    · have outside (p : Loc) : t.node? (d.root ++ ["composed", name] ++ p) =
          s.tree.node? (d.root ++ ["composed", name] ++ p) := agree _ (composed_apart same p)
      have node := outside []
      rw [List.append_nil] at node
      obtain ⟨layers', mem, rfl, files, composition⟩ := sound.composed name (node ▸ present)
      have proper (l : PackageLayer) (hl : l ∈ layers') : l.layerId ≠ "composed" :=
        sound.proper l.layerId ⟨layers', mem, List.mem_map_of_mem hl⟩
      refine ⟨layers', kept mem, rfl, files, ?_, fun l hl there => ?_, composition.extracted⟩
      · exact (fileAt_congr outside).trans composition.overlaid
      · rw [nodeSame (proper l hl)] at there
        exact (fileAt_congr (layerSame (proper l hl))).trans (composition.kept l hl there)

theorem Sound.compose (sound : Sound d start s) {layers : List PackageLayer} {fault : Option ℕ}
    (good : Good d s (.compose layers fault))
    (h : layerStep d s (.compose layers fault) = some s') : Sound d start s' := by
  obtain rfl := Option.some.inj h
  by_cases absent : s.tree.node? (composedLoc d layers) = none
  · have ids : ∀ l ∈ layers, l.layerId ≠ "composed" := ne_composed good.1
    have result := sound.composes good absent
    cases composed : composeLayers d layers fault s.tree with
    | mk answer t =>
    rw [composed] at result
    dsimp only
    cases result with
    | failed e t agree =>
      have still : t.node? (composedLoc d layers) = none := by
        rw [agree _ (by simp [composedLoc]), absent]
      have unmade : ¬ Made (composedLoc d layers) s.tree t := by
        rintro ⟨-, present⟩
        rw [still] at present
        cases present
      rw [if_neg unmade]
      refine sound.setComposed ids (List.Subset.refl _) (List.subset_cons_self ..)
        (agree.mono fun l => .inl) fun present => ?_
      rw [still] at present
      cases present
    | made t present agree dir overlaid =>
      rw [if_pos ⟨absent, by rw [dir]; rfl⟩]
      refine sound.setComposed ids (List.subset_cons_self ..) (List.Subset.refl _) agree fun _ => ?_
      exact ⟨List.mem_cons_self, present, overlaid⟩
  · have unchanged : (composeLayers d layers fault s.tree).2 = s.tree := by
      rw [composeLayers, if_pos (Option.ne_none_iff_isSome.1 absent)]
    simp only [unchanged, not_made_self, if_false]
    exact sound

theorem Sound.step (empty : Empty d start) (sound : Sound d start s) {op : LayerOp}
    (good : Good d s op) (h : layerStep d s op = some s') : Sound d start s' := by
  cases op with
  | store data contentType fault other => exact sound.store empty good h
  | compose layers fault => exact sound.compose good h
  | cleanup active fault => exact sound.cleanup good h

end Steps

/-! ## Layers of one file -/

/-- A compressed archive of the file `m.py`, which has the text `x = 1`. -/
def sampleArchive : Bytes :=
  [31, 139, 8, 0, 0, 0, 0, 0, 2, 3, 203, 213, 43, 168, 100, 160, 49, 48, 0, 2, 51, 19, 19, 48, 13,
    4, 232, 52, 72, 22, 137, 13, 18, 55, 51, 53, 49, 103, 80, 48, 96, 160, 3, 40, 45, 46, 73, 44, 2,
    90, 201, 48, 50, 65, 133, 130, 173, 130, 33, 23, 195, 40, 24, 5, 163, 96, 20, 140, 130, 17, 6,
    0, 194, 179, 9, 3, 0, 8, 0, 0]

/-- A compressed archive of another file `m.py`, which has the text `x = 2`. -/
def laterArchive : Bytes :=
  [31, 139, 8, 0, 0, 0, 0, 0, 2, 3, 203, 213, 43, 168, 100, 160, 49, 48, 0, 2, 51, 19, 19, 48, 13,
    4, 232, 52, 72, 22, 137, 13, 18, 55, 51, 53, 49, 103, 80, 48, 96, 160, 3, 40, 45, 46, 73, 44, 2,
    90, 201, 48, 50, 65, 133, 130, 173, 130, 17, 23, 195, 40, 24, 5, 163, 96, 20, 140, 130, 17, 6,
    0, 68, 156, 141, 55, 0, 8, 0, 0]

/-- The SHA-256 of the archives, of the first digits of the first one and of both, and of the empty
file. -/
def layerSha256 (b : Bytes) : String :=
  if b = sampleArchive then "cfee313b65cdf50a53f6573bf6c4f81b3ad5229b45a3ff504781a0ab2f93e18c"
  else if b = laterArchive then "7b4c06a067941bc350f92958838c1efe85ed900ddf9a23496c79ead54065ee67"
  else if b = encodeUtf8 "cfee313b65cdf50a" then
    "93b0bf49ee88c3614db69526fa5e553656125e0b5a3cc5e8e6253375864ffc27"
  else if b = encodeUtf8 "cfee313b65cdf50a:7b4c06a067941bc3" then
    "23c0afa40574f26d5be6a8b20d4d3314accb2cc295b3a1700edd9cf79e0ebd85"
  else emptySha256

theorem hex_of_all {s : String}
    (h : (s.toList.all fun c => decide (c ∈ "0123456789abcdef".toList)) = true) :
    ∀ c ∈ s.toList, c ∈ "0123456789abcdef".toList :=
  fun c hc => of_decide_eq_true (List.all_eq_true.1 h c hc)

def sampleDisk : LayerDisk where
  layersDir := .ofString "/layers"
  sha256 := layerSha256
  root := ["layers"]
  unpack data :=
    if data = sampleArchive then some ([.file [] "m.py" (encodeUtf8 "x = 1\n")], true)
    else if data = laterArchive then some ([.file [] "m.py" (encodeUtf8 "x = 2\n")], true)
    else some ([], false)
  rglob := id
  rglob_perm := .refl
  iterdir := id
  iterdir_perm := .refl
  removal := List.reverse
  removal_perm := List.reverse_perm
  hex b := by
    unfold layerSha256
    split_ifs <;> exact hex_of_all (by decide +kernel)

/-- `layers_dir` is there. -/
def sampleRoot : FileTree Bytes := bare.put ["layers"] .dir (by decide) (by decide) (by decide)

theorem empty_sampleRoot : Empty sampleDisk sampleRoot where
  root := by decide
  free := by
    intro rest proper
    rw [sampleRoot, node?_put, if_neg (by simp [sampleDisk, proper])]
    exact (Dict.get?_set ..).trans (if_neg (by simp [sampleDisk]))

def sampleLayer : PackageLayer :=
  ⟨"cfee313b65cdf50a", layerSha256 sampleArchive, 80, "python", ["m.py"]⟩

def laterLayer : PackageLayer :=
  ⟨"7b4c06a067941bc3", layerSha256 laterArchive, 80, "python", ["m.py"]⟩

example : (storeLayer sampleDisk sampleArchive "python" none bare sampleRoot).1 =
    .ok sampleLayer := by
  decide +kernel

/-! ## What is composed -/

/-- `compose_layers` of layers that are there gives the overlay of their files, after steps that
make no composed directory of less and change no layer that one has. -/
theorem compose_is_overlay {start : FileTree Bytes} (empty : Empty d start) {ops : List LayerOp}
    (good : Machine.Along (layerStep d) (Good d) ⟨start, [], [], []⟩ ops) {s : LayerStore}
    (ran : Machine.run (layerStep d) ⟨start, [], [], []⟩ ops = some s)
    {layers : List PackageLayer} {fault : Option ℕ} (call : Good d s (.compose layers fault))
    {composed : Loc} {t' : FileTree Bytes}
    (returned : composeLayers d layers fault s.tree = (.ok composed, t'))
    (present : ∀ l ∈ layers, (t'.node? (layerLoc d l.layerId)).isSome) :
    fileAt t' composed = overlay (layers.map fun l => fileAt t' (layerLoc d l.layerId)) := by
  have sound : Sound d start s :=
    Machine.invariant_along (fun s op s' good sound next => sound.step empty good next)
      (sound_empty empty) good ran
  have ids := ne_composed call.1
  by_cases absent : s.tree.node? (composedLoc d layers) = none
  · have result := sound.composes call absent
    rw [returned] at result
    cases result with
    | made t' _ agree dir overlaid =>
      rw [overlaid]
      congr 1
      refine List.map_congr_left fun l hl => ?_
      exact (fileAt_congr fun p => agree _ (layer_apart layers (ids l hl) p)).symm
  · have there : (s.tree.node? (composedLoc d layers)).isSome := Option.ne_none_iff_isSome.1 absent
    rw [composeLayers, if_pos there] at returned
    obtain ⟨same, rfl⟩ := Prod.mk.inj returned
    obtain rfl := Except.ok.inj same
    obtain ⟨layers', mem, name, files, composition⟩ := sound.composed _ there
    have listed := call.2.1 layers' mem name
    have overlaid := composition.overlaid
    rw [composedLoc, name, ← composedLoc, ← Function.comp_def files, ← List.map_map, listed,
      List.map_map] at overlaid
    rw [overlaid]
    congr 1
    refine List.map_congr_left fun l hl => ?_
    have mem' : l.layerId ∈ layers'.map PackageLayer.layerId := listed ▸ List.mem_map_of_mem hl
    obtain ⟨l', hl', eq⟩ := List.mem_map.1 mem'
    have kept := composition.kept l' hl'
    rw [eq] at kept
    exact (kept (present l hl)).symm

theorem eq_of_filesIn_singleton {t : FileTree Bytes} {dir p p' : Loc}
    (only : (filesIn t dir).map Prod.fst = [p']) (file : (fileAt t dir p).isSome) : p = p' := by
  obtain ⟨b, here⟩ := Option.isSome_iff_exists.1 file
  obtain ⟨⟨_, b'⟩, mem, rfl⟩ := List.mem_map.1 (only ▸ List.mem_singleton_self p')
  obtain ⟨proper, node⟩ := mem_filesIn.1 mem
  by_cases top : p = []
  · subst top
    have nothing := fileAt_append_of_isSome file proper
    rw [List.nil_append, fileAt_eq_some_iff.2 node] at nothing
    cases nothing
  · have mem' := List.mem_map_of_mem (f := Prod.fst)
      (mem_filesIn.2 ⟨top, fileAt_eq_some_iff.1 here⟩)
    rw [only] at mem'
    exact List.mem_singleton.1 mem'

/-- Two layers with a file at the same path are stored. -/
def storing : List LayerOp :=
  [.store sampleArchive "python" none bare, .store laterArchive "python" none bare]

/-- The layers are composed, and the later one hides the file of the other. -/
theorem compose_is_overlay_sample : ∃ s t',
    Machine.run (layerStep sampleDisk) ⟨sampleRoot, [], [], []⟩ storing = some s ∧
    composeLayers sampleDisk [sampleLayer, laterLayer] none s.tree =
      (.ok ["layers", "composed", "23c0afa40574f26d"], t') ∧
    fileAt t' ["layers", "composed", "23c0afa40574f26d"] =
      overlay [fileAt t' ["layers", "cfee313b65cdf50a"], fileAt t' ["layers", "7b4c06a067941bc3"]] ∧
    fileAt t' ["layers", "composed", "23c0afa40574f26d"] ["m.py"] =
      some (encodeUtf8 "x = 2\n") := by
  have found : (Machine.run (layerStep sampleDisk) ⟨sampleRoot, [], [], []⟩ storing).map (fun s =>
      (s.lists, [sampleLayer, laterLayer].map fun l =>
        (filesIn s.tree (layerLoc sampleDisk l.layerId)).map Prod.fst)) =
      some ([], [[["m.py"]], [["m.py"]]]) := by decide +kernel
  have composed : (Machine.run (layerStep sampleDisk) ⟨sampleRoot, [], [], []⟩ storing).map
      (fun s =>
      ([sampleLayer, laterLayer].all fun l =>
          (s.tree.node? (layerLoc sampleDisk l.layerId)).isSome &&
          ((composeLayers sampleDisk [sampleLayer, laterLayer] none s.tree).2.node?
            (layerLoc sampleDisk l.layerId)).isSome,
        (composeLayers sampleDisk [sampleLayer, laterLayer] none s.tree).1,
        fileAt (composeLayers sampleDisk [sampleLayer, laterLayer] none s.tree).2
          ["layers", "composed", "23c0afa40574f26d"] ["m.py"])) =
      some (true, .ok ["layers", "composed", "23c0afa40574f26d"],
        some (encodeUtf8 "x = 2\n")) := by decide +kernel
  obtain ⟨s, ran, facts⟩ := Option.map_eq_some_iff.1 found
  rw [ran, Option.map_some, Option.some_inj] at composed
  simp only [Prod.mk.injEq, List.all_eq_true, Bool.and_eq_true] at facts composed
  obtain ⟨lists, files⟩ := facts
  obtain ⟨there, result, later⟩ := composed
  have only (l : PackageLayer) (hl : l ∈ [sampleLayer, laterLayer]) :
      (filesIn s.tree (layerLoc sampleDisk l.layerId)).map Prod.fst = [["m.py"]] := by
    have mem := List.mem_map_of_mem (f := fun l =>
      (filesIn s.tree (layerLoc sampleDisk l.layerId)).map Prod.fst) hl
    rw [files] at mem
    simpa using mem
  have good : Machine.Along (layerStep sampleDisk) (Good sampleDisk) ⟨sampleRoot, [], [], []⟩
      storing := by
    refine ⟨fun _ _ => ⟨rfl, ?_⟩, fun s₁ first => ⟨fun _ _ => ⟨rfl, ?_⟩, fun _ _ => trivial⟩⟩
    · rintro ⟨layers, mem, -⟩
      cases mem
    · rintro ⟨layers, mem, -⟩
      have none : (layerStep sampleDisk ⟨sampleRoot, [], [], []⟩
          (.store sampleArchive "python" none bare)).map LayerStore.lists = some [] := by
        decide +kernel
      rw [first, Option.map_some, Option.some_inj] at none
      rw [none] at mem
      cases mem
  have call : Good sampleDisk s (.compose [sampleLayer, laterLayer] none) := by
    refine ⟨fun l hl => ?_, fun layers mem => ?_, fun _ => .inr (.inr ?_)⟩
    · simp only [List.mem_cons, List.not_mem_nil, or_false] at hl
      rcases hl with rfl | rfl
      · exact ⟨sampleArchive, by decide⟩
      · exact ⟨laterArchive, by decide⟩
    · rw [lists] at mem
      cases mem
    · refine ⟨fun l hl => (there l hl).1, fun l hl l' hl' p q proper file => ?_, fun k fault => ?_⟩
      · obtain rfl := eq_of_filesIn_singleton (only l hl) file
        by_contra below
        have same := eq_of_filesIn_singleton (only l' hl') (Option.ne_none_iff_isSome.1 below)
        exact proper (List.append_right_eq_self.1 same)
      · cases fault
  refine ⟨s, (composeLayers sampleDisk [sampleLayer, laterLayer] none s.tree).2, ran,
    Prod.ext result rfl, ?_, later⟩
  exact compose_is_overlay empty_sampleRoot good ran call (Prod.ext result rfl)
    fun l hl => (there l hl).2

/-- A layer is composed before it is stored: from then on the composition of it has no files. -/
theorem compose_misses_layer :
    ((Machine.run (layerStep sampleDisk) ⟨sampleRoot, [], [], []⟩
      [.compose [sampleLayer] none, .store sampleArchive "python" none bare]).map fun s =>
        ((composeLayers sampleDisk [sampleLayer] none s.tree).1,
          fileAt (composeLayers sampleDisk [sampleLayer] none s.tree).2
            ["layers", "composed", "93b0bf49ee88c361"] ["m.py"],
          overlay [fileAt (composeLayers sampleDisk [sampleLayer] none s.tree).2
            (layerLoc sampleDisk sampleLayer.layerId)] ["m.py"])) =
      some (.ok ["layers", "composed", "93b0bf49ee88c361"], none, some (encodeUtf8 "x = 1\n")) := by
  decide +kernel

end LayerManager

end Cpip
