import Cpip.Lib.Machine
import Cpip.Python.Hashlib
import Cpip.Virtualization.Layers

/-!
# Mounted packages (`virtualization/mount.py`)

`VirtualMount` keeps the directory that every mounted package was composed in, and puts these
directories on the import path.  A directory is on the path once, however many packages share it.
-/

namespace Cpip

open LayerManager

/-- `VirtualMount` with what it works on: `sys.path` and the names in `sys.modules`. -/
structure VirtualMount where
  mounts : Dict String PyPath
  sysPath : List String
  modules : List String

namespace VirtualMount

/-- `mount`; `raised` is what `compose_layers` raises, if it does. -/
def mount (env : LayerEnv) (manifest : PackageManifest) (raised : Option FileError)
    (s : VirtualMount) : Except FileError PyPath × VirtualMount :=
  match s.mounts.get? manifest.name with
  | some dir => (.ok dir, s)
  | none =>
    match raised with
    | some e => (.error e, s)
    | none =>
      let composed := composedDir env manifest.layers
      (.ok composed,
        { s with
          sysPath := if composed.str ∈ s.sysPath then s.sysPath else composed.str :: s.sysPath
          mounts := s.mounts.set manifest.name composed })

/-- The package is the module or holds it. -/
def Holds (package module : String) : Prop :=
  module = package ∨ (package ++ ".").toList <+: module.toList

instance (package module : String) : Decidable (Holds package module) :=
  inferInstanceAs (Decidable (_ ∨ _))

/-- `unmount`; `sys.path.remove` removes the first occurrence. -/
def unmount (name : String) (s : VirtualMount) : VirtualMount where
  mounts := s.mounts.pop name
  sysPath :=
    match s.mounts.get? name with
    | some dir => s.sysPath.erase dir.str
    | none => s.sysPath
  modules := s.modules.filter fun m => ¬ Holds name m

def isMounted (s : VirtualMount) (name : String) : Bool := (s.mounts.get? name).isSome

/-- `unmount_all`. -/
def unmountAll (s : VirtualMount) : VirtualMount :=
  s.mounts.keys.foldl (fun s name => s.unmount name) s

/-! ## Runs -/

/-- A call of `mount`: the layers of the manifest, and what it returned. -/
structure MountCall where
  layers : List PackageLayer
  returned : Except FileError PyPath

/-- A virtual mount with the last call of `mount` for each name. -/
structure Run where
  mount : VirtualMount
  last : Dict String MountCall

inductive Op where
  | mount (manifest : PackageManifest) (raised : Option FileError)
  | unmount (name : String)
  | unmountAll

/-- A mount that has not been used. -/
def Run.init (sysPath modules : List String) : Run := ⟨⟨∅, sysPath, modules⟩, ∅⟩

def step (env : LayerEnv) (s : Run) : Op → Option Run
  | .mount manifest raised =>
    let called := s.mount.mount env manifest raised
    some ⟨called.2, s.last.set manifest.name ⟨manifest.layers, called.1⟩⟩
  | .unmount name => some { s with mount := s.mount.unmount name }
  | .unmountAll => some { s with mount := s.mount.unmountAll }

/-- Every mounted package has the directory of the last manifest under its name on the path, and
`mount` returned it; no other composed directory is on the path. -/
structure Faithful (env : LayerEnv) (s : Run) : Prop where
  mounted : ∀ name, s.mount.isMounted name → ∃ call, s.last.get? name = some call ∧
    call.returned = .ok (composedDir env call.layers) ∧
    (composedDir env call.layers).str ∈ s.mount.sysPath
  others : ∀ layers, (∀ name, s.mount.isMounted name → ∀ call, s.last.get? name = some call →
    composedDir env call.layers ≠ composedDir env layers) →
    (composedDir env layers).str ∉ s.mount.sysPath

/-- A package is mounted again with the layers it has, and no package is unmounted while another
one has the same directory. -/
def Fits (env : LayerEnv) (s : Run) : Op → Prop
  | .mount manifest _ =>
    ∀ dir, s.mount.mounts.get? manifest.name = some dir → dir = composedDir env manifest.layers
  | .unmount name => ∀ dir, s.mount.mounts.get? name = some dir →
    ∀ other, s.mount.mounts.get? other = some dir → other = name
  | .unmountAll => True

/-! ## What the operations do -/

section Operations

variable {env : LayerEnv} {s : VirtualMount} {manifest : PackageManifest}
  {raised : Option FileError} {name : String}

theorem mount_of_mounted {dir : PyPath} (h : s.mounts.get? manifest.name = some dir) :
    s.mount env manifest raised = (.ok dir, s) := by
  simp only [mount, h]

theorem mount_of_raised {e : FileError} (h : s.mounts.get? manifest.name = none) :
    s.mount env manifest (some e) = (.error e, s) := by
  simp only [mount, h]

theorem mount_of_composed (h : s.mounts.get? manifest.name = none) :
    s.mount env manifest none = (.ok (composedDir env manifest.layers),
      { s with
        sysPath := if (composedDir env manifest.layers).str ∈ s.sysPath then s.sysPath
          else (composedDir env manifest.layers).str :: s.sysPath
        mounts := s.mounts.set manifest.name (composedDir env manifest.layers) }) := by
  simp only [mount, h]

theorem unmount_of_mounted {dir : PyPath} (h : s.mounts.get? name = some dir) :
    (s.unmount name).sysPath = s.sysPath.erase dir.str := by
  simp only [unmount, h]

theorem unmount_of_not_mounted (h : s.mounts.get? name = none) :
    (s.unmount name).sysPath = s.sysPath := by
  simp only [unmount, h]

theorem get?_mounts_unmount (other : String) : (s.unmount name).mounts.get? other =
    if name = other then none else s.mounts.get? other := Dict.get?_pop ..

theorem mounts_unmountAll (s : VirtualMount) : s.unmountAll.mounts = ∅ := by
  have popped : ∀ (names : List String) (m : VirtualMount),
      (names.foldl (fun s name => s.unmount name) m).mounts = names.foldl Dict.pop m.mounts := by
    intro names
    induction names with
    | nil => exact fun _ => rfl
    | cons name names ih => exact fun m => ih (m.unmount name)
  apply Dict.ext
  rw [unmountAll, popped, Dict.entries_foldl_pop, List.filter_eq_nil_iff.2]
  · rfl
  · intro e he
    have key : e.1 ∈ s.mounts.keys := List.mem_map_of_mem he
    simpa using key

end Operations

/-! ## What holds after all operations -/

/-- A composed directory is on the path at most once, and only for a mounted package. -/
structure Tidy (env : LayerEnv) (s : VirtualMount) : Prop where
  once : ∀ layers, s.sysPath.count (composedDir env layers).str ≤ 1
  covered : ∀ layers, (composedDir env layers).str ∈ s.sysPath →
    ∃ name, s.mounts.get? name = some (composedDir env layers)

section Tidy

variable {env : LayerEnv} {s : VirtualMount}

theorem Tidy.mount (h : Tidy env s) (manifest : PackageManifest) (raised : Option FileError) :
    Tidy env (s.mount env manifest raised).2 := by
  cases found : s.mounts.get? manifest.name with
  | some dir => rwa [mount_of_mounted found]
  | none =>
    cases raised with
    | some e => rwa [mount_of_raised found]
    | none =>
      rw [mount_of_composed found]
      constructor
      · intro layers
        dsimp only
        split_ifs with here
        · exact h.once layers
        · rw [List.count_cons]
          split_ifs with same
          · rw [← eq_of_beq same, List.count_eq_zero.2 here]
          · exact h.once layers
      · intro layers onPath
        by_cases same : composedDir env manifest.layers = composedDir env layers
        · exact ⟨manifest.name, by rw [Dict.get?_set, if_pos rfl, same]⟩
        · have before : (composedDir env layers).str ∈ s.sysPath := by
            dsimp only at onPath
            split_ifs at onPath with here
            · exact onPath
            · refine (List.mem_cons.1 onPath).resolve_left fun eq => same ?_
              exact (PyPath.str_injective eq).symm
          obtain ⟨name, hname⟩ := h.covered layers before
          refine ⟨name, ?_⟩
          rw [Dict.get?_set, if_neg, hname]
          rintro rfl
          rw [found] at hname
          cases hname

theorem Tidy.unmount (h : Tidy env s) (name : String) : Tidy env (s.unmount name) := by
  cases found : s.mounts.get? name with
  | none =>
    constructor
    · intro layers
      rw [unmount_of_not_mounted found]
      exact h.once layers
    · intro layers onPath
      rw [unmount_of_not_mounted found] at onPath
      obtain ⟨other, hother⟩ := h.covered layers onPath
      refine ⟨other, ?_⟩
      rw [get?_mounts_unmount, if_neg, hother]
      rintro rfl
      rw [found] at hother
      cases hother
  | some dir =>
    constructor
    · intro layers
      rw [unmount_of_mounted found]
      exact (List.erase_sublist.count_le _).trans (h.once layers)
    · intro layers onPath
      rw [unmount_of_mounted found] at onPath
      obtain ⟨other, hother⟩ := h.covered layers (List.mem_of_mem_erase onPath)
      refine ⟨other, ?_⟩
      rw [get?_mounts_unmount, if_neg, hother]
      -- a directory of its own is off the path
      rintro rfl
      obtain rfl := Option.some.inj (found.symm.trans hother)
      have gone := h.once layers
      have left := List.count_pos_iff.2 onPath
      rw [List.count_erase_self] at left
      omega

theorem Tidy.unmountAll (h : Tidy env s) : Tidy env s.unmountAll := by
  unfold VirtualMount.unmountAll
  generalize s.mounts.keys = names
  induction names generalizing s with
  | nil => exact h
  | cons name names ih => exact ih (h.unmount name)

end Tidy

/-! ## Runs whose steps fit -/

/-- What is mounted under a name is what the last call of `mount` for it asked for and returned. -/
structure Settled (env : LayerEnv) (s : Run) : Prop where
  tidy : Tidy env s.mount
  known : ∀ name dir, s.mount.mounts.get? name = some dir → ∃ call, s.last.get? name = some call ∧
    call.returned = .ok dir ∧ dir = composedDir env call.layers ∧ dir.str ∈ s.mount.sysPath

variable {env : LayerEnv}

theorem settled_init {sysPath : List String}
    (fresh : ∀ layers, (composedDir env layers).str ∉ sysPath) (modules : List String) :
    Settled env (.init sysPath modules) where
  tidy :=
    { once := fun layers => (List.count_eq_zero.2 (fresh layers)).trans_le (Nat.zero_le 1)
      covered := fun layers onPath => absurd onPath (fresh layers) }
  known := nofun

theorem Settled.faithful {s : Run} (h : Settled env s) : Faithful env s where
  mounted name mounted := by
    obtain ⟨dir, found⟩ := Option.isSome_iff_exists.1 mounted
    obtain ⟨call, last, returned, rfl, onPath⟩ := h.known name dir found
    exact ⟨call, last, returned, onPath⟩
  others layers unused onPath := by
    obtain ⟨name, found⟩ := h.tidy.covered layers onPath
    obtain ⟨call, last, -, same, -⟩ := h.known name _ found
    exact unused name (by rw [isMounted, found, Option.isSome_some]) call last same.symm

theorem Settled.mount {s : Run} (h : Settled env s) {manifest : PackageManifest}
    (raised : Option FileError) (fits : Fits env s (.mount manifest raised)) :
    Settled env ⟨(s.mount.mount env manifest raised).2,
      s.last.set manifest.name ⟨manifest.layers, (s.mount.mount env manifest raised).1⟩⟩ := by
  refine ⟨h.tidy.mount manifest raised, fun name dir found => ?_⟩
  dsimp only at found ⊢
  rw [Dict.get?_set]
  cases before : s.mount.mounts.get? manifest.name with
  | some dir' =>
    rw [mount_of_mounted before] at found ⊢
    obtain ⟨call, last, returned, eq, onPath⟩ := h.known name dir found
    by_cases same : manifest.name = name
    · subst same
      obtain rfl := Option.some.inj (before.symm.trans found)
      exact ⟨_, if_pos rfl, rfl, fits _ before, onPath⟩
    · exact ⟨call, (if_neg same).trans last, returned, eq, onPath⟩
  | none =>
    have other {dir : PyPath} (found : s.mount.mounts.get? name = some dir) :
        manifest.name ≠ name := by
      rintro rfl
      rw [before] at found
      cases found
    cases raised with
    | some e =>
      rw [mount_of_raised before] at found ⊢
      obtain ⟨call, last, rest⟩ := h.known name dir found
      exact ⟨call, (if_neg (other found)).trans last, rest⟩
    | none =>
      rw [mount_of_composed before] at found ⊢
      dsimp only at found ⊢
      by_cases same : manifest.name = name
      · subst same
        rw [Dict.get?_set_self] at found
        obtain rfl := Option.some.inj found
        refine ⟨_, if_pos rfl, rfl, rfl, ?_⟩
        split_ifs with here
        · exact here
        · exact List.mem_cons_self
      · rw [Dict.get?_set, if_neg same] at found
        obtain ⟨call, last, returned, eq, onPath⟩ := h.known name dir found
        refine ⟨call, (if_neg same).trans last, returned, eq, ?_⟩
        split_ifs
        · exact onPath
        · exact List.mem_cons_of_mem _ onPath

theorem Settled.unmount {s : Run} (h : Settled env s) {name : String}
    (fits : Fits env s (.unmount name)) :
    Settled env { s with mount := s.mount.unmount name } := by
  refine ⟨h.tidy.unmount name, fun other dir found => ?_⟩
  rw [get?_mounts_unmount] at found
  split_ifs at found with same
  obtain ⟨call, last, returned, eq, onPath⟩ := h.known other dir found
  refine ⟨call, last, returned, eq, ?_⟩
  show dir.str ∈ (s.mount.unmount name).sysPath
  cases before : s.mount.mounts.get? name with
  | none => rwa [unmount_of_not_mounted before]
  | some dir' =>
    rw [unmount_of_mounted before]
    refine (List.mem_erase_of_ne fun text => ?_).2 onPath
    obtain rfl := PyPath.str_injective text
    exact same (fits dir before other found).symm

theorem settled_step (s : Run) (op : Op) (s' : Run) (fits : Fits env s op) (h : Settled env s)
    (hs : step env s op = some s') : Settled env s' := by
  cases op with
  | mount manifest raised =>
    obtain rfl := Option.some.inj hs
    exact h.mount raised fits
  | unmount name =>
    obtain rfl := Option.some.inj hs
    exact h.unmount fits
  | unmountAll =>
    obtain rfl := Option.some.inj hs
    refine ⟨h.tidy.unmountAll, fun name dir found => ?_⟩
    rw [mounts_unmountAll] at found
    cases found

/-- A step after which the mounts are faithful fitted. -/
theorem fits_of_faithful_step (s : Run) (op : Op) (s' : Run) (h : Settled env s)
    (hs : step env s op = some s') (after : Faithful env s') : Fits env s op := by
  cases op with
  | mount manifest raised =>
    obtain rfl := Option.some.inj hs
    intro dir found
    have run : s.mount.mount env manifest raised = (.ok dir, s.mount) := mount_of_mounted found
    obtain ⟨call, last, returned, -⟩ := after.mounted manifest.name (by
      simp only [run, isMounted, found, Option.isSome_some])
    simp only [run, Dict.get?_set_self, Option.some.injEq] at last
    subst last
    exact Except.ok.inj returned
  | unmount name =>
    obtain rfl := Option.some.inj hs
    intro dir found other foundOther
    by_contra different
    have mounted : ({ s with mount := s.mount.unmount name } : Run).mount.isMounted other := by
      rw [isMounted, get?_mounts_unmount, if_neg (Ne.symm different), foundOther,
        Option.isSome_some]
    obtain ⟨call, last, -, onPath⟩ := after.mounted other mounted
    obtain ⟨call', last', -, same, -⟩ := h.known other _ foundOther
    obtain rfl := Option.some.inj (last.symm.trans last')
    -- the directory was on the path once
    have once := h.tidy.once call.layers
    rw [← same] at once onPath
    rw [unmount_of_mounted found, ← List.count_pos_iff, List.count_erase_self] at onPath
    omega
  | unmountAll => trivial

/-- The runs in which every step fits are those in which the mounts are faithful throughout. -/
theorem along_fits_iff_faithful (sysPath modules : List String)
    (fresh : ∀ layers, (composedDir env layers).str ∉ sysPath) (ops : List Op) (s : Run)
    (ran : Machine.run (step env) (.init sysPath modules) ops = some s) :
    Machine.Along (step env) (Fits env) (.init sysPath modules) ops ↔
      Machine.Throughout (step env) (Faithful env) (.init sysPath modules) ops :=
  Machine.along_iff_throughout (fun _ h => h.faithful) settled_step fits_of_faithful_step
    (settled_init fresh modules) ran

/-! ## Two packages that share a layer -/

def sampleEnv : LayerEnv := ⟨.ofString "/root/.cpip/cache/layers", sampleSha256⟩

def sampleManifest (name : String) : PackageManifest :=
  ⟨name, [⟨"e3b0c44298fc1c14", emptySha256, 0, "python", []⟩]⟩

/-- A composed directory lies deeper than the import path of the sample. -/
theorem sampleEnv_fresh (layers : List PackageLayer) :
    (composedDir sampleEnv layers).str ∉ ["/usr/lib/python3"] := by
  intro onPath
  have path : composedDir sampleEnv layers = .ofString "/usr/lib/python3" := by
    rw [← PyPath.ofString_str (composedDir sampleEnv layers), List.mem_singleton.1 onPath]
  have relative : (composedName sampleEnv layers).toList.head? ≠ some '/' := by
    simp only [composedName, shortHash, sampleEnv, sampleSha256]
    split_ifs with h
    · decide
    · simp
  have deep := congrArg (fun p : PyPath => p.parts.length) path
  rw [composedDir, PyPath.join, if_neg relative] at deep
  simp only [List.length_append] at deep
  have above : (sampleEnv.layersDir.join "composed").parts.length = 5 := by decide
  have short : (PyPath.ofString "/usr/lib/python3").parts.length = 3 := by decide
  omega

/-- The directory that `b` shares with `a` is off the path once `a` is unmounted. -/
theorem unmount_shared_directory :
    ∃ s, Machine.run (step sampleEnv) (.init ["/usr/lib/python3"] [])
        [.mount (sampleManifest "a") none, .mount (sampleManifest "b") none, .unmount "a"] =
          some s ∧
      s.mount.isMounted "b" = true ∧ s.mount.sysPath = ["/usr/lib/python3"] ∧
      ¬ Faithful sampleEnv s := by
  refine ⟨_, rfl, by decide +kernel, by decide +kernel, fun h => ?_⟩
  obtain ⟨call, -, -, onPath⟩ := h.mounted "b" (by decide +kernel)
  exact sampleEnv_fresh call.layers onPath

/-- One package is mounted twice and unmounted. -/
theorem along_fits_iff_faithful_sample :
    ∃ s, Machine.run (step sampleEnv) (.init ["/usr/lib/python3"] [])
        [.mount (sampleManifest "a") none, .mount (sampleManifest "a") none, .unmount "a"] =
          some s ∧
      (Machine.Along (step sampleEnv) (Fits sampleEnv) (.init ["/usr/lib/python3"] [])
          [.mount (sampleManifest "a") none, .mount (sampleManifest "a") none, .unmount "a"] ↔
        Machine.Throughout (step sampleEnv) (Faithful sampleEnv) (.init ["/usr/lib/python3"] [])
          [.mount (sampleManifest "a") none, .mount (sampleManifest "a") none, .unmount "a"]) :=
  ⟨_, rfl, along_fits_iff_faithful _ _ sampleEnv_fresh _ _ rfl⟩

end VirtualMount

end Cpip
