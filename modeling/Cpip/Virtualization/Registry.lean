import Mathlib.Algebra.Order.BigOperators.Group.Finset
import Cpip.Python.JsonBytes
import Cpip.Python.NamedFiles

/-!
# The registry of package manifests (`virtualization/registry.py`)

A registry keeps each manifest in memory and in a file.  The file has no metadata of layers, and the
list of the packages comes from the names of the files: so a manifest is returned as it was stored,
and listed under its name, when it has no metadata and its name does not hold `.manifest`.
-/

namespace Cpip

namespace PackageRegistry

/-- `PackageLayer`, with all of its fields. -/
structure Layer where
  layerId : String
  sha256 : String
  size : ℤ
  contentType : String
  files : List String
  metadata : List (PyKey × PyVal)

/-- `PackageManifest`, with all of its fields. -/
structure Manifest where
  name : String
  version : String
  layers : List Layer
  entryPoint : String
  pythonRequires : String
  dependencies : List String

end PackageRegistry

/-- What a registry is set up with; `iterdir` is the order in which a directory is read. -/
structure RegistryEnv extends JsonFiles where
  metadataDir : PyPath
  cwd : Loc
  iterdir : List String → List String
  iterdir_perm : ∀ l, (iterdir l).Perm l

/-- A registry with the files. -/
structure PackageRegistry where
  tree : FileTree Bytes
  cache : Dict String PackageRegistry.Manifest

namespace PackageRegistry

/-! ## Manifests in JSON -/

def Layer.value (l : Layer) : PyVal :=
  .dict [(.str "layer_id", .str l.layerId), (.str "sha256", .str l.sha256),
    (.str "size", .int l.size), (.str "content_type", .str l.contentType),
    (.str "files", .list (l.files.map .str))]

/-- `data` in `store`. -/
def Manifest.value (m : Manifest) : PyVal :=
  .dict [(.str "name", .str m.name), (.str "version", .str m.version),
    (.str "entry_point", .str m.entryPoint), (.str "python_requires", .str m.pythonRequires),
    (.str "dependencies", .list (m.dependencies.map .str)),
    (.str "layers", .list (m.layers.map Layer.value))]

/-- One round of the loop over the layers in `_parse_manifest`. -/
def parseLayer : PyVal → Option Layer
  | .dict items => do
    let layerId ← (PyVal.getStr "layer_id" items).bind PyVal.asStr?
    let sha256 ← (PyVal.getStr "sha256" items).bind PyVal.asStr?
    let size ← (PyVal.getStr "size" items).bind PyVal.asInt?
    let contentType ← ((PyVal.getStr "content_type" items).getD (.str "python")).asStr?
    let files ← ((PyVal.getStr "files" items).getD (.list [])).asListOf? PyVal.asStr?
    return ⟨layerId, sha256, size, contentType, files, []⟩
  | _ => none

/-- `_parse_manifest`, of a value whose fields have the types of the fields of a manifest. -/
def parseManifest : PyVal → Option Manifest
  | .dict items => do
    let layers ← ((PyVal.getStr "layers" items).getD (.list [])).asListOf? parseLayer
    let name ← (PyVal.getStr "name" items).bind PyVal.asStr?
    let version ← (PyVal.getStr "version" items).bind PyVal.asStr?
    let entryPoint ← ((PyVal.getStr "entry_point" items).getD (.str "")).asStr?
    let pythonRequires ← ((PyVal.getStr "python_requires" items).getD (.str "")).asStr?
    let dependencies ← ((PyVal.getStr "dependencies" items).getD (.list [])).asListOf? PyVal.asStr?
    return ⟨name, version, layers, entryPoint, pythonRequires, dependencies⟩
  | _ => none

/-! ## The operations -/

variable (env : RegistryEnv)

/-- `PackageRegistry.__init__`, where it does not raise. -/
def create (tree : FileTree Bytes) : Option PackageRegistry :=
  match env.metadataDir.mkdirs env.cwd tree true with
  | (.ok _, tree') => some ⟨tree', ∅⟩
  | (.error _, _) => none

def manifestFile (name : String) : PyPath := env.metadataDir.join (name ++ ".manifest.json")

/-- `get`. -/
def get (name : String) (s : PackageRegistry) : Option Manifest × PackageRegistry :=
  match s.cache.get? name with
  | some manifest => (some manifest, s)
  | none =>
    match (manifestFile env name).read env.cwd s.tree with
    | .error _ => (none, s)
    | .ok b =>
      match (env.parse b).bind fun t => parseManifest t.loads with
      | none => (none, s)
      | some manifest => (some manifest, { s with cache := s.cache.set name manifest })

/-- `store`. -/
def store (manifest : Manifest) (s : PackageRegistry) : Except PyExc Unit × PackageRegistry :=
  match env.py.dumpsStrict manifest.value with
  | .error e => (.error e, s)
  | .ok t =>
    match (manifestFile env manifest.name).write env.cwd s.tree (env.spell t) with
    | .error _ => (.error (.other "OSError"), s)
    | .ok tree => (.ok (), ⟨tree, s.cache.set manifest.name manifest⟩)

/-- `list_packages`. -/
def listPackages (s : PackageRegistry) : List String :=
  (env.iterdir (env.metadataDir.glob env.cwd s.tree ".manifest.json")).map fun file =>
    pyRemove ".manifest" (pyStem file)

/-- `remove`. -/
def remove (name : String) (s : PackageRegistry) : Except PyExc Unit × PackageRegistry :=
  match (manifestFile env name).unlink env.cwd s.tree with
  | .error _ => (.error (.other "OSError"), s)
  | .ok tree => (.ok (), ⟨tree, s.cache.pop name⟩)

inductive Call where
  | store (manifest : Manifest)
  | remove (name : String)

def Call.name : Call → String
  | .store manifest => manifest.name
  | .remove name => name

/-- What a call leaves, whether it returns or raises. -/
def serve (s : PackageRegistry) : Call → PackageRegistry
  | .store manifest => (PackageRegistry.store env manifest s).2
  | .remove name => (PackageRegistry.remove env name s).2

/-! ## What a registry is for -/

/-- The manifests that were stored and not removed since. -/
def record (kept : Dict String Manifest) : Call → Dict String Manifest
  | .store manifest => kept.set manifest.name manifest
  | .remove name => kept.pop name

def stored (calls : List Call) : Dict String Manifest := calls.foldl record ∅

/-- The registry lists the names of the manifests, and returns each manifest, from memory and to
one that is created anew on its directory. -/
structure Faithful (kept : Dict String Manifest) (s : PackageRegistry) : Prop where
  listed : ∀ name, name ∈ listPackages env s ↔ (kept.get? name).isSome
  same : ∀ name manifest, kept.get? name = some manifest → (get env name s).1 = some manifest
  fresh : ∃ s', create env s.tree = some s' ∧
    ∀ name manifest, kept.get? name = some manifest → (get env name s').1 = some manifest

/-! ## What the files hold -/

/-- A manifest as its file has it. -/
def Layer.plain (l : Layer) : Layer := { l with metadata := [] }

def Manifest.plain (m : Manifest) : Manifest := { m with layers := m.layers.map Layer.plain }

theorem plain_eq_self_iff (m : Manifest) :
    m.plain = m ↔ ∀ layer ∈ m.layers, layer.metadata = [] := by
  have layer (l : Layer) : l.plain = l ↔ l.metadata = [] := by
    constructor
    · intro same
      exact (congrArg Layer.metadata same).symm
    · intro none
      rw [Layer.plain, ← none]
  have layers : m.layers.map Layer.plain = m.layers ↔ ∀ l ∈ m.layers, l.plain = l := by
    simpa using List.map_inj_left (l := m.layers) (f := Layer.plain) (g := id)
  simp only [layer] at layers
  rw [← layers]
  constructor
  · intro same
    exact congrArg Manifest.layers same
  · intro same
    rw [Manifest.plain, same]

theorem parseLayer_value (l : Layer) : parseLayer l.value = some l.plain := by
  simp [Layer.value, Layer.plain, parseLayer, PyVal.getStr_cons, PyVal.asStr?, PyVal.asInt?,
    PyVal.asListOf?_strings]

theorem parseManifest_value (m : Manifest) : parseManifest m.value = some m.plain := by
  simp [Manifest.value, Manifest.plain, parseManifest, PyVal.getStr_cons, PyVal.asStr?,
    PyVal.asListOf?_strings, PyVal.asListOf?_map parseLayer_value]

theorem isJson_layer (l : Layer) : l.value.IsJson := by
  refine (PyVal.everywhere_dict_iff _).2 ⟨by simp [PyVal.IsJsonNode], ?_⟩
  have files := PyVal.isJson_strings l.files
  simp only [List.forall_mem_cons, List.not_mem_nil, false_implies, implies_true, and_true]
  exact ⟨trivial, trivial, trivial, trivial, files⟩

theorem isJson_manifest (m : Manifest) : m.value.IsJson := by
  refine (PyVal.everywhere_dict_iff _).2 ⟨by simp [PyVal.IsJsonNode], ?_⟩
  have dependencies := PyVal.isJson_strings m.dependencies
  have layers : (PyVal.list (m.layers.map Layer.value)).IsJson :=
    PyVal.isJson_list fun l _ => isJson_layer l
  simp only [List.forall_mem_cons, List.not_mem_nil, false_implies, implies_true, and_true]
  exact ⟨trivial, trivial, trivial, trivial, dependencies, layers⟩

/-- The file of a manifest. -/
def fileOf (m : Manifest) : Bytes :=
  match env.py.dumpsStrict m.value with
  | .ok t => env.spell t
  | .error _ => []

/-- A manifest is written to its file, and read from there without metadata. -/
theorem exists_text (m : Manifest) : ∃ t, env.py.dumpsStrict m.value = .ok t ∧
    fileOf env m = env.spell t ∧
    ((env.parse (fileOf env m)).bind fun t => parseManifest t.loads) = some m.plain := by
  obtain ⟨t, dumped, loaded⟩ := env.py.loads_dumps (isJson_manifest m)
  rw [← env.py.dumpsStrict_of_isJson (isJson_manifest m)] at dumped
  have file : fileOf env m = env.spell t := by rw [fileOf, dumped]
  refine ⟨t, dumped, file, ?_⟩
  rw [file, env.parse_spell, Option.bind_some, loaded, parseManifest_value]

variable {env}

/-! ## Runs -/

/-- The files of a registry are those of the manifests that it has in memory. -/
def Filed (env : RegistryEnv) (l : Loc) (s : PackageRegistry) : Prop :=
  NamedFiles env.cwd env.metadataDir ".manifest.json" l (s.cache.contents (fileOf env)) s.tree

theorem isPart_manifest {name : String} (noSlash : '/' ∉ name.toList) :
    IsPart (name ++ ".manifest.json") ∧ name ++ ".manifest.json" ≠ ".." :=
  isPart_append noSlash (by decide) (by decide)

theorem filed_create {tree : FileTree Bytes} {s : PackageRegistry}
    (created : create env tree = some s)
    (none : env.metadataDir.glob env.cwd s.tree ".manifest.json" = []) :
    ∃ l, Filed env l s ∧ s.cache = ∅ := by
  unfold create at created
  split at created
  · next l tree' made =>
    obtain rfl := Option.some.inj created
    exact ⟨l, .of_mkdirs made none, rfl⟩
  · cases created

theorem Filed.store {l : Loc} {s : PackageRegistry} (h : Filed env l s) {m : Manifest}
    (noSlash : '/' ∉ m.name.toList) : ∃ tree,
    PackageRegistry.store env m s = (.ok (), ⟨tree, s.cache.set m.name m⟩) ∧
      Filed env l ⟨tree, s.cache.set m.name m⟩ := by
  obtain ⟨t, dumped, file, -⟩ := exists_text env m
  obtain ⟨tree, written, filed⟩ := h.write (isPart_manifest noSlash) (env.spell t)
  refine ⟨tree, ?_, ?_⟩
  · rw [PackageRegistry.store, dumped]
    dsimp only
    rw [manifestFile, written]
  · rw [Filed, Dict.contents_set, file]
    exact filed

theorem Filed.remove {l : Loc} {s : PackageRegistry} (h : Filed env l s) {name : String}
    (noSlash : '/' ∉ name.toList) : ∃ tree,
    PackageRegistry.remove env name s = (.ok (), ⟨tree, s.cache.pop name⟩) ∧
      Filed env l ⟨tree, s.cache.pop name⟩ := by
  obtain ⟨tree, gone, filed⟩ := h.unlink (isPart_manifest noSlash)
  refine ⟨tree, ?_, ?_⟩
  · rw [PackageRegistry.remove, manifestFile, gone]
  · rw [Filed, Dict.contents_pop]
    exact filed

theorem Filed.serve {l : Loc} {s : PackageRegistry} (h : Filed env l s) {call : Call}
    (noSlash : '/' ∉ call.name.toList) :
    Filed env l (serve env s call) ∧ (serve env s call).cache = record s.cache call := by
  cases call with
  | store m =>
    obtain ⟨tree, result, filed⟩ := h.store noSlash
    rw [PackageRegistry.serve, result]
    exact ⟨filed, rfl⟩
  | remove name =>
    have proper : '/' ∉ name.toList := noSlash
    obtain ⟨tree, result, filed⟩ := h.remove proper
    rw [PackageRegistry.serve, result]
    exact ⟨filed, rfl⟩

/-- The memory after a run is what was stored and not removed since, and so are the files. -/
theorem Filed.run {l : Loc} {s : PackageRegistry} (h : Filed env l s) {calls : List Call}
    (noSlash : ∀ call ∈ calls, '/' ∉ call.name.toList) :
    Filed env l (calls.foldl (PackageRegistry.serve env) s) ∧
      (calls.foldl (PackageRegistry.serve env) s).cache = calls.foldl record s.cache := by
  induction calls generalizing s with
  | nil => exact ⟨h, rfl⟩
  | cons call calls ih =>
    rw [List.forall_mem_cons] at noSlash
    obtain ⟨filed, cache⟩ := h.serve noSlash.1
    rw [List.foldl_cons, List.foldl_cons, ← cache]
    exact ih filed noSlash.2

/-- A manifest that is kept was there or is one of those that were stored. -/
theorem name_of_kept {calls : List Call} {kept : Dict String Manifest} {name : String}
    (h : ((calls.foldl record kept).get? name).isSome) :
    (kept.get? name).isSome ∨ ∃ call ∈ calls, call.name = name := by
  induction calls generalizing kept with
  | nil => exact .inl h
  | cons call calls ih =>
    rcases ih h with before | ⟨call', mem, named⟩
    · by_cases here : call.name = name
      · exact .inr ⟨call, List.mem_cons_self, here⟩
      · left
        cases call with
        | store m =>
          have other : m.name ≠ name := here
          rwa [record, Dict.get?_set, if_neg other] at before
        | remove name' =>
          have other : name' ≠ name := here
          rwa [record, Dict.get?_pop, if_neg other] at before
    · exact .inr ⟨call', List.mem_cons_of_mem _ mem, named⟩

/-! ## Listing and reading -/

/-- A finite set that a map which makes nothing larger maps onto itself is left as large as it is,
element by element. -/
theorem size_eq_of_image_eq {α : Type} [DecidableEq α] {S : Finset α} {f : α → α} (size : α → ℕ)
    (shrinks : ∀ x, size (f x) ≤ size x) (same : S.image f = S) {x : α} (hx : x ∈ S) :
    size (f x) = size x := by
  have injective : Set.InjOn f S := Finset.card_image_iff.1 (congrArg Finset.card same)
  have total : ∑ y ∈ S, size (f y) = ∑ y ∈ S, size y := by
    rw [← Finset.sum_image (f := size) injective, same]
  exact (Finset.sum_eq_sum_iff_of_le fun y _ => shrinks y).1 total x hx

theorem listed_name (name : String) :
    pyRemove ".manifest" (pyStem (name ++ ".manifest.json")) = pyRemove ".manifest" name := by
  have file : name ++ ".manifest.json" = name ++ ".manifest" ++ "." ++ "json" := by
    rw [String.append_assoc, String.append_assoc]
    rfl
  have nonempty : name ++ ".manifest" ≠ "" := by
    intro h
    have size := congrArg (fun s => s.toList.length) h
    simp at size
  rw [file, pyStem_append nonempty (by decide) (by decide)]
  exact @pyRemove_append '.' "manifest".toList (by decide) name

theorem Filed.mem_listPackages {l : Loc} {s : PackageRegistry} (h : Filed env l s) (name : String) :
    name ∈ listPackages env s ↔
      ∃ name', (s.cache.get? name').isSome ∧ pyRemove ".manifest" name' = name := by
  rw [listPackages, List.mem_map]
  constructor
  · rintro ⟨file, mem, rfl⟩
    obtain ⟨name', rfl, present⟩ := h.mem_glob.1 ((env.iterdir_perm _).mem_iff.1 mem)
    exact ⟨name', by simpa [Dict.contents] using present, (listed_name name').symm⟩
  · rintro ⟨name', present, rfl⟩
    refine ⟨name' ++ ".manifest.json", ?_, listed_name name'⟩
    exact (env.iterdir_perm _).mem_iff.2 (h.mem_glob.2 ⟨name', rfl, by simpa [Dict.contents]⟩)

/-- The packages are listed under their names when no name holds `.manifest`. -/
theorem Filed.listed_iff {l : Loc} {s : PackageRegistry} (h : Filed env l s) :
    (∀ name, name ∈ listPackages env s ↔ (s.cache.get? name).isSome) ↔
      ∀ name, (s.cache.get? name).isSome → ¬ ".manifest".toList <:+: name.toList := by
  simp only [h.mem_listPackages]
  constructor
  · intro listed name present occurs
    have same : s.cache.keys.toFinset.image (pyRemove ".manifest") = s.cache.keys.toFinset := by
      ext name
      simpa [Dict.mem_keys_iff] using listed name
    have mem : name ∈ s.cache.keys.toFinset := by simpa [Dict.mem_keys_iff] using present
    have size := size_eq_of_image_eq (fun name => name.toList.length)
      (length_pyRemove_le ".manifest") same mem
    have shorter := length_pyRemove_lt (by decide) occurs
    omega
  · intro absent name
    have unchanged (name' : String) (present : (s.cache.get? name').isSome) :
        pyRemove ".manifest" name' = name' :=
      (pyRemove_eq_self_iff (by decide)).2 (absent name' present)
    constructor
    · rintro ⟨name', present, rfl⟩
      rwa [unchanged name' present]
    · intro present
      exact ⟨name, present, unchanged name present⟩

theorem Filed.create {l : Loc} {s : PackageRegistry} (h : Filed env l s) :
    PackageRegistry.create env s.tree = some ⟨s.tree, ∅⟩ := by
  rw [PackageRegistry.create, h.mkdirs]

theorem Filed.get_fresh {l : Loc} {s : PackageRegistry} (h : Filed env l s) {name : String}
    (noSlash : '/' ∉ name.toList) :
    (get env name ⟨s.tree, ∅⟩).1 = (s.cache.get? name).map Manifest.plain := by
  rw [get, Dict.get?_empty]
  dsimp only
  rw [manifestFile, h.read (isPart_manifest noSlash), Dict.contents]
  cases s.cache.get? name with
  | none => rfl
  | some m =>
    obtain ⟨t, -, -, parsed⟩ := exists_text env m
    rw [Option.map_some]
    dsimp only
    rw [parsed]
    rfl

/-- The registry is faithful to what it keeps exactly when no name that it keeps holds `.manifest`
and no layer that it keeps has metadata. -/
theorem Filed.faithful_iff_proper {l : Loc} {s : PackageRegistry} (h : Filed env l s)
    (noSlash : ∀ name, (s.cache.get? name).isSome → '/' ∉ name.toList) :
    Faithful env s.cache s ↔ ∀ name m, s.cache.get? name = some m →
      ¬ ".manifest".toList <:+: name.toList ∧ ∀ layer ∈ m.layers, layer.metadata = [] := by
  have fresh (name : String) (m : Manifest) (kept : s.cache.get? name = some m) :
      (get env name ⟨s.tree, ∅⟩).1 = some m ↔ ∀ layer ∈ m.layers, layer.metadata = [] := by
    rw [h.get_fresh (noSlash name (by rw [kept]; rfl)), kept, Option.map_some, Option.some.injEq,
      plain_eq_self_iff]
  constructor
  · intro faithful name m kept
    obtain ⟨s', created, returned⟩ := faithful.fresh
    obtain rfl := Option.some.inj (h.create.symm.trans created)
    exact ⟨h.listed_iff.1 faithful.listed name (by rw [kept]; rfl),
      (fresh name m kept).1 (returned name m kept)⟩
  · intro proper
    refine ⟨h.listed_iff.2 fun name present => ?_, fun name m kept => ?_, _, h.create,
      fun name m kept => ?_⟩
    · obtain ⟨m, kept⟩ := Option.isSome_iff_exists.1 present
      exact (proper name m kept).1
    · rw [get, kept]
    · exact (fresh name m kept).2 (proper name m kept).2

def sampleEnv : RegistryEnv where
  toJsonFiles := sampleJson
  metadataDir := .ofString "/h/metadata"
  cwd := ["h"]
  iterdir := id
  iterdir_perm l := .refl l

/-- The registry that is opened where nothing is yet. -/
def opened : PackageRegistry := (create sampleEnv .bare).getD ⟨.bare, ∅⟩

theorem create_opened : create sampleEnv .bare = some opened := by
  have isSome : (create sampleEnv .bare).isSome := by decide +kernel
  obtain ⟨s, hs⟩ := Option.isSome_iff_exists.1 isSome
  rw [opened, hs]
  rfl

theorem glob_opened :
    sampleEnv.metadataDir.glob sampleEnv.cwd opened.tree ".manifest.json" = [] := by
  decide +kernel

def sampleManifest (name : String) (metadata : List (PyKey × PyVal)) : Manifest :=
  ⟨name, "1", [⟨"l", "", 3, "python", ["a.py"], metadata⟩], "", "", []⟩

/-- After any calls, a registry that was opened on a directory without manifests lists and returns
exactly what was stored and not removed since if and only if, of that, no name holds `.manifest` and
no layer has metadata. -/
theorem registry_faithful_iff {tree : FileTree Bytes} {start : PackageRegistry} {calls : List Call}
    (created : create env tree = some start)
    (unused : env.metadataDir.glob env.cwd start.tree ".manifest.json" = [])
    (noSlash : ∀ call ∈ calls, '/' ∉ call.name.toList) :
    Faithful env (stored calls) (calls.foldl (serve env) start) ↔
      ∀ name m, (stored calls).get? name = some m →
        ¬ ".manifest".toList <:+: name.toList ∧ ∀ layer ∈ m.layers, layer.metadata = [] := by
  obtain ⟨l, filed, empty⟩ := filed_create created unused
  obtain ⟨after, cache⟩ := filed.run noSlash
  rw [empty] at cache
  have names (name : String) (present : ((stored calls).get? name).isSome) :
      '/' ∉ name.toList := by
    rcases name_of_kept present with before | ⟨call, mem, rfl⟩
    · cases before
    · exact noSlash call mem
  have exact_here := after.faithful_iff_proper
  rw [cache] at exact_here
  exact exact_here names

theorem registry_faithful_iff_sample :
    create sampleEnv .bare = some opened ∧
      (Faithful sampleEnv (stored [.store (sampleManifest "a" []), .remove "b"])
          ([.store (sampleManifest "a" []), .remove "b"].foldl (serve sampleEnv) opened) ↔
        ∀ name m, (stored [.store (sampleManifest "a" []), .remove "b"]).get? name = some m →
          ¬ ".manifest".toList <:+: name.toList ∧ ∀ layer ∈ m.layers, layer.metadata = []) :=
  ⟨create_opened, registry_faithful_iff create_opened glob_opened (by decide)⟩

theorem not_faithful_store {m : Manifest} (noSlash : '/' ∉ m.name.toList)
    (improper : ".manifest".toList <:+: m.name.toList ∨ ∃ layer ∈ m.layers, layer.metadata ≠ []) :
    ¬ Faithful sampleEnv (stored [.store m]) (serve sampleEnv opened (.store m)) := by
  obtain ⟨l, filed, empty⟩ := filed_create create_opened glob_opened
  have proper : '/' ∉ (Call.store m).name.toList := noSlash
  obtain ⟨after, cache⟩ := filed.serve proper
  have only : (serve sampleEnv opened (.store m)).cache = stored [.store m] := by
    rw [cache, empty]
    rfl
  have kept : (stored [.store m]).get? m.name = some m := Dict.get?_set_self ..
  intro faithful
  rw [← only] at faithful kept
  have noSlashes (name : String)
      (present : ((serve sampleEnv opened (.store m)).cache.get? name).isSome) :
      '/' ∉ name.toList := by
    rw [only] at present
    rcases name_of_kept present with before | ⟨call, mem, rfl⟩
    · cases before
    · exact List.mem_singleton.1 mem ▸ proper
  have whole := (after.faithful_iff_proper noSlashes).1 faithful m.name m kept
  rcases improper with occurs | ⟨layer, mem, some_metadata⟩
  · exact whole.1 occurs
  · exact some_metadata (whole.2 layer mem)

/-- A package that is listed under a name that it does not have, and one that loses metadata. -/
theorem registry_not_faithful :
    ¬ Faithful sampleEnv (stored [.store (sampleManifest "a.manifest" [])])
        (serve sampleEnv opened (.store (sampleManifest "a.manifest" []))) ∧
      ¬ Faithful sampleEnv (stored [.store (sampleManifest "a" [(.str "k", .int 1)])])
        (serve sampleEnv opened (.store (sampleManifest "a" [(.str "k", .int 1)]))) :=
  ⟨not_faithful_store (by decide) (.inl (by decide)),
    not_faithful_store (by decide) (.inr ⟨_, List.mem_cons_self, nofun⟩)⟩

end PackageRegistry

end Cpip
