import Cpip.Lib.FileSteps
import Cpip.Python.Pathlib
import Cpip.Python.Text

/-!
# Package layers (`virtualization/layers.py`)

A layer is the content of an archive, filed under the first characters of the hash of the archive.
A composed directory is named by the hash of the list of the layers that it is composed of.
-/

namespace Cpip

/-- `PackageLayer`. -/
structure PackageLayer where
  layerId : String
  sha256 : String
  size : ℕ
  contentType : String
  files : List String
  deriving DecidableEq, Repr

/-- What the program reads of a `PackageManifest`. -/
structure PackageManifest where
  name : String
  layers : List PackageLayer
  deriving DecidableEq, Repr

/-- What a layer manager is set up with: `layers_dir`, and `sha256(..).hexdigest()`. -/
structure LayerEnv where
  layersDir : PyPath
  sha256 : Bytes → String

namespace LayerManager

variable (env : LayerEnv)

/-- The first 16 digits of a hash. -/
def shortHash (b : Bytes) : String := String.ofList ((env.sha256 b).toList.take 16)

/-- The name of the directory in which layers are composed. -/
def composedName (layers : List PackageLayer) : String :=
  shortHash env (encodeUtf8 (":".intercalate (layers.map PackageLayer.layerId)))

/-- The directory in which layers are composed. -/
def composedDir (layers : List PackageLayer) : PyPath :=
  (env.layersDir.join "composed").join (composedName env layers)

end LayerManager

/-! ## The files of a layer manager -/

/-- What an archive has at a path: a directory, or a file in a directory. -/
inductive ArchiveMember where
  | dir (path : Loc)
  | file (parent : Loc) (name : String) (content : Bytes)

/-- A layer manager with the place of `layers_dir`, the archives as `tarfile` reads them, and the
order in which directories are listed. -/
structure LayerDisk extends LayerEnv where
  root : Loc
  /-- The members of an archive, and whether it is read to its end without an error; `none` when it
  has links, devices, or members outside of the directory that it is extracted to. -/
  unpack : Bytes → Option (List ArchiveMember × Bool)
  rglob : List (Loc × Bytes) → List (Loc × Bytes)
  rglob_perm : ∀ l, (rglob l).Perm l
  iterdir : List String → List String
  iterdir_perm : ∀ l, (iterdir l).Perm l
  /-- The order in which `shutil.rmtree` removes what is below a directory: depth first, as the
  directories list it. -/
  removal : List Loc → List Loc
  removal_perm : ∀ l, (removal l).Perm l
  hex : ∀ b, ∀ c ∈ (sha256 b).toList, c ∈ "0123456789abcdef".toList

/-- Why an operation raises: at a file step, or because the archive cannot be read. -/
inductive LayerExc where
  | step (e : StepExc)
  | archive
  deriving DecidableEq, Repr

namespace LayerManager

open FileStep

variable (d : LayerDisk)

/-- `layers_dir / layer_id`. -/
def layerLoc (layerId : String) : Loc := d.root ++ [layerId]

/-- The place of `composedDir`. -/
def composedLoc (layers : List PackageLayer) : Loc :=
  d.root ++ ["composed", composedName d.toLayerEnv layers]

/-- `shortHash`, for the id of a layer. -/
def layerIdOf (data : Bytes) : String := shortHash d.toLayerEnv data

def memberSteps (dst : Loc) : ArchiveMember → List (FileStep Bytes)
  | .dir path => ensureDirs dst path
  | .file parent name content =>
    ensureDirs dst parent ++
      [.write (dst ++ parent ++ [name]) [], .write (dst ++ parent ++ [name]) content]

/-- The steps of `store_layer` for an archive of files and directories. -/
def storeSteps (data : Bytes) (members : List ArchiveMember) : List (FileStep Bytes) :=
  .mkdir (layerLoc d (layerIdOf d data)) ::
    members.flatMap (memberSteps (layerLoc d (layerIdOf d data)))

/-- The result of `store_layer`. -/
def storedLayer (data : Bytes) (contentType : String) (t : FileTree Bytes) : PackageLayer where
  layerId := layerIdOf d data
  sha256 := d.sha256 data
  size := data.length
  contentType := contentType
  files := (d.rglob (filesIn t (layerLoc d (layerIdOf d data)))).map fun e => "/".intercalate e.1

/-- `store_layer`, which may be broken off after some steps; an archive of other things leaves any
files. -/
def storeLayer (data : Bytes) (contentType : String) (fault : Option ℕ) (other : FileTree Bytes)
    (t : FileTree Bytes) : Except LayerExc PackageLayer × FileTree Bytes :=
  if (t.node? (layerLoc d (layerIdOf d data))).isSome then
    (.ok (storedLayer d data contentType t), t)
  else
    match d.unpack data with
    | none =>
      if fault = some 0 then (.error (.step .fault), t)
      else (.ok (storedLayer d data contentType other), other)
    | some (members, complete) =>
      match perform fault (storeSteps d data members) t with
      | (.error e, t') => (.error (.step e), t')
      | (.ok _, t') =>
        if complete then (.ok (storedLayer d data contentType t'), t') else (.error .archive, t')

/-- The files of a layer in the order in which they are listed. -/
def layerFiles (t : FileTree Bytes) (layer : PackageLayer) : List (Loc × Bytes) :=
  if (t.node? (layerLoc d layer.layerId)).isSome then
    d.rglob (filesIn t (layerLoc d layer.layerId))
  else []

/-- The steps of `compose_layers`; the layers do not change while they are copied. -/
def composeSteps (layers : List PackageLayer) (t : FileTree Bytes) : List (FileStep Bytes) :=
  .ensureDir (d.root ++ ["composed"]) :: .mkdir (composedLoc d layers) ::
    (layers.flatMap (layerFiles d t)).flatMap (copySteps (composedLoc d layers) [])

/-- `compose_layers`. -/
def composeLayers (layers : List PackageLayer) (fault : Option ℕ) (t : FileTree Bytes) :
    Except StepExc Loc × FileTree Bytes :=
  if (t.node? (composedLoc d layers)).isSome then (.ok (composedLoc d layers), t)
  else
    match perform fault (composeSteps d layers t) t with
    | (.error e, t') => (.error e, t')
    | (.ok _, t') => (.ok (composedLoc d layers), t')

/-- `shutil.rmtree`: the directory itself is removed last. -/
def removeSteps (t : FileTree Bytes) (dir : Loc) : List (FileStep Bytes) :=
  (d.removal ((t.copies dir dir).map Prod.fst)).map .remove ++ [.remove dir]

/-- The directories in `layers_dir` that `cleanup_unused` removes. -/
def unused (active : List String) (t : FileTree Bytes) : List String :=
  (d.iterdir ((t.copies d.root []).filterMap fun e =>
    match e.1 with
    | [name] => some name
    | _ => none)).filter fun name =>
      name ≠ "composed" ∧ name ∉ active ∧ t.IsDir (layerLoc d name)

/-- The steps of `cleanup_unused`, directory by directory. -/
def cleanupSteps (active : List String) (t : FileTree Bytes) : List (List (FileStep Bytes)) :=
  (unused d active t).map fun name => removeSteps d t (layerLoc d name)

/-- `cleanup_unused`. -/
def cleanupUnused (active : List String) (fault : Option ℕ) (t : FileTree Bytes) :
    Except StepExc ℕ × FileTree Bytes :=
  match perform fault (cleanupSteps d active t).flatten t with
  | (.error e, t') => (.error e, t')
  | (.ok _, t') => (.ok (unused d active t).length, t')

/-- The directory, of those that are removed, inside of which the removal is broken off. -/
def halfway (t : FileTree Bytes) : List String → ℕ → Option String
  | [], _ => none
  | name :: rest, k =>
    if k = 0 then none
    else if k < (removeSteps d t (layerLoc d name)).length then some name
    else halfway t rest (k - (removeSteps d t (layerLoc d name)).length)

/-- The archive has files and directories only, and its extraction is not broken off. -/
def Whole (data : Bytes) (fault : Option ℕ) : Prop :=
  match d.unpack data with
  | none => False
  | some (members, _) => Unbroken fault (storeSteps d data members)

instance (data : Bytes) (fault : Option ℕ) : Decidable (Whole d data fault) :=
  match h : d.unpack data with
  | none => isFalse (by simp [Whole, h])
  | some (members, _) =>
    decidable_of_iff (Unbroken fault (storeSteps d data members)) (by simp [Whole, h])

/-- The files, with the archives that were extracted whole, the layers that were extracted or
removed in part, and the lists that a directory was made for. -/
structure LayerStore where
  tree : FileTree Bytes
  archives : List Bytes
  broken : List String
  lists : List (List PackageLayer)

/-- An operation, and after how many file steps it is broken off, if it is. -/
inductive LayerOp where
  | store (data : Bytes) (contentType : String) (fault : Option ℕ) (other : FileTree Bytes)
  | compose (layers : List PackageLayer) (fault : Option ℕ)
  | cleanup (active : List String) (fault : Option ℕ)

/-- The place was made by the operation. -/
def Made (l : Loc) (t t' : FileTree Bytes) : Prop := t.node? l = none ∧ (t'.node? l).isSome

instance (l : Loc) (t t' : FileTree Bytes) : Decidable (Made l t t') :=
  inferInstanceAs (Decidable (_ ∧ _))

def layerStep (s : LayerStore) : LayerOp → Option LayerStore
  | .store data contentType fault other =>
    let t' := (storeLayer d data contentType fault other s.tree).2
    let made := Made (layerLoc d (layerIdOf d data)) s.tree t'
    some { s with
      tree := t'
      archives := if made ∧ Whole d data fault then data :: s.archives else s.archives
      broken := if made ∧ ¬ Whole d data fault then layerIdOf d data :: s.broken else s.broken }
  | .compose layers fault =>
    let t' := (composeLayers d layers fault s.tree).2
    some { s with
      tree := t'
      lists := if Made (composedLoc d layers) s.tree t' then layers :: s.lists else s.lists }
  | .cleanup active fault =>
    some { s with
      tree := (cleanupUnused d active fault s.tree).2
      broken := (fault.bind (halfway d s.tree (unused d active s.tree))).toList ++ s.broken }

end LayerManager

end Cpip
