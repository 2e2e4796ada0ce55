import Cpip.Client.Configs
import Cpip.Client.Dispatch
import Cpip.Python.Confinement
import Cpip.Virtualization.Registry

/-!
# Names that are given to the stores

The cache, the registry and the configuration manager make a path from a name that they are given.
The file that they read, write or remove lies directly in their directory when the name stays there
(`PyPath.Stays`), as every name without `/` does.
-/

namespace Cpip

open PyPath (Confined Stays)

/-- The stores that keep a file for each name that they are given. -/
structure NameStores where
  cache : CacheDisk
  registry : RegistryEnv
  configs : ConfigEnv

namespace NameStores

/-- Where a path is made from a name. -/
inductive Site where
  | getMetadata
  | storeMetadata
  | cacheInvalidate
  | registryGet
  | registryStore
  | registryRemove
  | saveConfig
  | deleteConfig

variable (e : NameStores)

def Site.cwd : Site → Loc
  | .getMetadata | .storeMetadata | .cacheInvalidate => e.cache.cwd
  | .registryGet | .registryStore | .registryRemove => e.registry.cwd
  | .saveConfig | .deleteConfig => e.configs.cwd

def Site.dir : Site → PyPath
  | .getMetadata | .storeMetadata | .cacheInvalidate => e.cache.metadataDir
  | .registryGet | .registryStore | .registryRemove => e.registry.metadataDir
  | .saveConfig | .deleteConfig => e.configs.configDir

def Site.suffix : Site → String
  | .registryGet | .registryStore | .registryRemove => ".manifest.json"
  | _ => ".json"

/-- What the operation is for a name keeps to the directory, whatever else it is given and whatever
the store has in memory. -/
def ConfinedAt (name : String) (site : Site) : Prop :=
  match site with
  | .getMetadata => ∀ now index, Confined (site.cwd e) (site.dir e) fun t =>
      let r := CacheManager.getMetadata e.cache name now ⟨t, index⟩
      (r.1, r.2.tree)
  | .storeMetadata => ∀ metadata now index, Confined (site.cwd e) (site.dir e) fun t =>
      let r := CacheManager.storeMetadata e.cache name metadata now ⟨t, index⟩
      (r.1, r.2.tree)
  | .cacheInvalidate => ∀ index, Confined (site.cwd e) (site.dir e) fun t =>
      let r := CpipDaemon.handleCacheInvalidate e.cache [(.str "package", .str name)] ⟨t, index⟩
      (r.1, r.2.tree)
  | .registryGet => ∀ cache, Confined (site.cwd e) (site.dir e) fun t =>
      let r := PackageRegistry.get e.registry name ⟨t, cache⟩
      ((r.1, r.2.cache), r.2.tree)
  | .registryStore => ∀ (manifest : PackageRegistry.Manifest) cache, manifest.name = name →
      Confined (site.cwd e) (site.dir e) fun t =>
        let r := PackageRegistry.store e.registry manifest ⟨t, cache⟩
        ((r.1, r.2.cache), r.2.tree)
  | .registryRemove => ∀ cache, Confined (site.cwd e) (site.dir e) fun t =>
      let r := PackageRegistry.remove e.registry name ⟨t, cache⟩
      ((r.1, r.2.cache), r.2.tree)
  | .saveConfig => ∀ (config : InfrastructureConfig) configs, config.name = name →
      Confined (site.cwd e) (site.dir e) fun t =>
        let r := ConfigManager.saveConfig e.configs config ⟨t, configs⟩
        ((r.1, r.2.configs), r.2.tree)
  | .deleteConfig => ∀ configs, Confined (site.cwd e) (site.dir e) fun t =>
      let r := ConfigManager.deleteConfig e.configs name ⟨t, configs⟩
      ((r.1, r.2.configs), r.2.tree)

/-! ## Names that stay -/

section Stays

variable {e} {name : String}

/-- A file is removed; what is returned tells whether it went. -/
def unlinked {ρ : Type} (cwd : Loc) (path : PyPath) (failed done : ρ) (t : FileTree Bytes) :
    ρ × FileTree Bytes :=
  match path.unlink cwd t with
  | .error _ => (failed, t)
  | .ok u => (done, u)

theorem confined_unlinked {ρ : Type} {cwd : Loc} {dir : PyPath} {s : String}
    (stays : Stays cwd dir s) (failed done : ρ) :
    Confined cwd dir (unlinked cwd (dir.join s) failed done) := by
  apply stays.confined_of_unlink failed done
  · intro t e gone
    rw [unlinked, gone]
  · intro t u gone
    rw [unlinked, gone]

theorem confined_getMetadata {d : CacheDisk} (stays : Stays d.cwd d.metadataDir (name ++ ".json"))
    (now : ℚ) (index : CacheIndex) : Confined d.cwd d.metadataDir fun t =>
      let r := CacheManager.getMetadata d name now ⟨t, index⟩
      (r.1, r.2.tree) := by
  refine stays.confined_of_read fun r => ?_
  cases r with
  | error err =>
    refine ⟨_, PyPath.confined_return _ _ (.ok none), fun t read => ?_⟩
    simp only [CacheManager.getMetadata, CacheManager.metaFile, read]
  | ok b =>
    cases loaded : (d.parse b).map JsonText.loads with
    | none =>
      refine ⟨_, PyPath.confined_return _ _ (.ok none), fun t read => ?_⟩
      simp only [CacheManager.getMetadata, CacheManager.metaFile, read, loaded]
    | some v =>
      by_cases dict : ∃ items, v = .dict items
      · obtain ⟨items, rfl⟩ := dict
        cases expires : CacheManager.expired now
            ((PyVal.getStr "_cached_at" items).getD (.int 0)) with
        | none =>
          refine ⟨_, PyPath.confined_return _ _
            (.error (.typeError "unsupported operand type")), fun t read => ?_⟩
          simp only [CacheManager.getMetadata, CacheManager.metaFile, read, loaded, expires]
        | some old =>
          cases old with
          | false =>
            refine ⟨_, PyPath.confined_return _ _ (.ok (some (.dict items))), fun t read => ?_⟩
            simp only [CacheManager.getMetadata, CacheManager.metaFile, read, loaded, expires]
          | true =>
            refine ⟨_, confined_unlinked stays (.ok none) (.ok none), fun t read => ?_⟩
            simp only [CacheManager.getMetadata, CacheManager.metaFile, read, loaded, expires]
            unfold unlinked
            cases (d.metadataDir.join (name ++ ".json")).unlink d.cwd t <;> rfl
      · refine ⟨_, PyPath.confined_return _ _ (.error (.attributeError "get")), fun t read => ?_⟩
        simp only [CacheManager.getMetadata, CacheManager.metaFile, read, loaded]
        cases v with
        | dict items => exact absurd ⟨items, rfl⟩ dict
        | _ => rfl

theorem confined_storeMetadata {d : CacheDisk}
    (stays : Stays d.cwd d.metadataDir (name ++ ".json")) (metadata : List (PyKey × PyVal))
    (now : ℚ) (index : CacheIndex) : Confined d.cwd d.metadataDir fun t =>
      let r := CacheManager.storeMetadata d name metadata now ⟨t, index⟩
      (r.1, r.2.tree) := by
  unfold CacheManager.storeMetadata
  cases d.py.dumpsStrict (.dict (Dict.assign (.str "_cached_at") (.float (.finite now)) metadata))
    with
  | error err => exact PyPath.confined_return _ _ _
  | ok text =>
    apply stays.confined_of_write (d.spell text) (.error (.other "OSError")) (.ok ())
    · intro t err written
      simp only [CacheManager.metaFile, written]
    · intro t u written
      simp only [CacheManager.metaFile, written]

theorem confined_handleCacheInvalidate {d : CacheDisk}
    (stays : Stays d.cwd d.metadataDir (name ++ ".json")) (index : CacheIndex) :
    Confined d.cwd d.metadataDir fun t =>
      let r := CpipDaemon.handleCacheInvalidate d [(.str "package", .str name)] ⟨t, index⟩
      (r.1, r.2.tree) := by
  unfold CpipDaemon.handleCacheInvalidate
  simp only [PyVal.getStr_cons, if_pos, Option.getD_some, PyText.toStr]
  cases (PyVal.str name).truthy with
  | false => exact PyPath.confined_return _ _ _
  | true =>
    apply stays.confined_of_unlink (.error (.other "OSError"))
      (.ok (.dict [(.str "status", .str "ok")]))
    · intro t err gone
      simp only [CacheManager.metaFile, gone, if_pos]
    · intro t u gone
      simp only [CacheManager.metaFile, gone, if_pos]

theorem confined_registryGet {r : RegistryEnv}
    (stays : Stays r.cwd r.metadataDir (name ++ ".manifest.json"))
    (cache : Dict String PackageRegistry.Manifest) : Confined r.cwd r.metadataDir fun t =>
      let result := PackageRegistry.get r name ⟨t, cache⟩
      ((result.1, result.2.cache), result.2.tree) := by
  cases found : cache.get? name with
  | some manifest =>
    simp only [PackageRegistry.get, found]
    exact PyPath.confined_return _ _ (some manifest, cache)
  | none =>
    refine stays.confined_of_read fun read => ?_
    cases read with
    | error err =>
      refine ⟨_, PyPath.confined_return _ _ (none, cache), fun t read => ?_⟩
      simp only [PackageRegistry.get, found, PackageRegistry.manifestFile, read]
    | ok b =>
      cases parsed : (r.parse b).bind fun text => PackageRegistry.parseManifest text.loads with
      | none =>
        refine ⟨_, PyPath.confined_return _ _ (none, cache), fun t read => ?_⟩
        simp only [PackageRegistry.get, found, PackageRegistry.manifestFile, read, parsed]
      | some manifest =>
        refine ⟨_, PyPath.confined_return _ _ (some manifest, cache.set name manifest),
          fun t read => ?_⟩
        simp only [PackageRegistry.get, found, PackageRegistry.manifestFile, read, parsed]

theorem confined_registryStore {r : RegistryEnv} {manifest : PackageRegistry.Manifest}
    (stays : Stays r.cwd r.metadataDir (manifest.name ++ ".manifest.json"))
    (cache : Dict String PackageRegistry.Manifest) : Confined r.cwd r.metadataDir fun t =>
      let result := PackageRegistry.store r manifest ⟨t, cache⟩
      ((result.1, result.2.cache), result.2.tree) := by
  unfold PackageRegistry.store
  cases r.py.dumpsStrict manifest.value with
  | error err => exact PyPath.confined_return _ _ (Except.error err, cache)
  | ok text =>
    apply stays.confined_of_write (r.spell text) (.error (.other "OSError"), cache)
      (.ok (), cache.set manifest.name manifest)
    · intro t err written
      simp only [PackageRegistry.manifestFile, written]
    · intro t u written
      simp only [PackageRegistry.manifestFile, written]

theorem confined_registryRemove {r : RegistryEnv}
    (stays : Stays r.cwd r.metadataDir (name ++ ".manifest.json"))
    (cache : Dict String PackageRegistry.Manifest) : Confined r.cwd r.metadataDir fun t =>
      let result := PackageRegistry.remove r name ⟨t, cache⟩
      ((result.1, result.2.cache), result.2.tree) := by
  unfold PackageRegistry.remove
  apply stays.confined_of_unlink (.error (.other "OSError"), cache) (.ok (), cache.pop name)
  · intro t err gone
    simp only [PackageRegistry.manifestFile, gone]
  · intro t u gone
    simp only [PackageRegistry.manifestFile, gone]

theorem confined_saveConfig {c : ConfigEnv} {config : InfrastructureConfig}
    (stays : Stays c.cwd c.configDir (config.name ++ ".json"))
    (configs : Dict String InfrastructureConfig) : Confined c.cwd c.configDir fun t =>
      let result := ConfigManager.saveConfig c config ⟨t, configs⟩
      ((result.1, result.2.configs), result.2.tree) := by
  unfold ConfigManager.saveConfig
  cases c.py.dumpsStrict (ConfigManager.serializeConfig config) with
  | error err =>
    apply stays.confined_of_write (c.partialDump (ConfigManager.serializeConfig config))
      (.error (.other "OSError"), configs) (.error err, configs)
    · intro t err written
      simp only [ConfigManager.configFile, written]
    · intro t u written
      simp only [ConfigManager.configFile, written]
  | ok text =>
    apply stays.confined_of_write (c.spell text) (.error (.other "OSError"), configs)
      (.ok (), configs.set config.name config)
    · intro t err written
      simp only [ConfigManager.configFile, written]
    · intro t u written
      simp only [ConfigManager.configFile, written]

theorem confined_deleteConfig {c : ConfigEnv} (stays : Stays c.cwd c.configDir (name ++ ".json"))
    (configs : Dict String InfrastructureConfig) : Confined c.cwd c.configDir fun t =>
      let result := ConfigManager.deleteConfig c name ⟨t, configs⟩
      ((result.1, result.2.configs), result.2.tree) := by
  unfold ConfigManager.deleteConfig
  refine @PyPath.confined_of_exist _ _ _ (name ++ ".json") _ _ fun present => ?_
  cases present with
  | false =>
    refine ⟨_, PyPath.confined_return _ _ (.ok (), configs), fun t absent => ?_⟩
    simp only [ConfigManager.configFile, absent, Bool.false_eq_true, if_false]
  | true =>
    refine ⟨_, confined_unlinked stays (.error (.other "OSError"), configs)
      (.ok (), configs.pop name), fun t present => ?_⟩
    simp only [ConfigManager.configFile, present, if_true]
    unfold unlinked
    cases (c.configDir.join (name ++ ".json")).unlink c.cwd t <;> rfl

theorem confinedAt_of_stays {site : Site}
    (stays : Stays (site.cwd e) (site.dir e) (name ++ site.suffix)) : ConfinedAt e name site := by
  cases site with
  | getMetadata => exact confined_getMetadata stays
  | storeMetadata => exact confined_storeMetadata stays
  | cacheInvalidate => exact confined_handleCacheInvalidate stays
  | registryGet => exact confined_registryGet stays
  | registryStore =>
    rintro manifest cache rfl
    exact confined_registryStore stays cache
  | registryRemove => exact confined_registryRemove stays
  | saveConfig =>
    rintro config configs rfl
    exact confined_saveConfig stays configs
  | deleteConfig => exact confined_deleteConfig stays

end Stays

/-! ## Names that leave -/

section Leaves

variable {name : String}

theorem not_confined_getMetadata {d : CacheDisk}
    (leaves : ¬ Stays d.cwd d.metadataDir (name ++ ".json")) (index : CacheIndex) :
    ¬ Confined d.cwd d.metadataDir fun t =>
      let r := CacheManager.getMetadata d name 0 ⟨t, index⟩
      (r.1, r.2.tree) := by
  have fresh : CacheManager.expired 0 (.int 0) = some false := by decide +kernel
  have different : (.error (.attributeError "get") : Except PyExc (Option PyVal)) ≠
      .ok (some (.dict [])) := nofun
  refine PyPath.not_confined_of_read leaves (by decide) (by decide) (d.spell (.obj []))
    (d.spell .null) ?_ ?_ different
  · intro t read
    have loaded : (d.parse (d.spell (.obj []))).map JsonText.loads = some (.dict []) := by
      rw [d.parse_spell]
      rfl
    have noTime : (PyVal.getStr "_cached_at" []).getD (.int 0) = .int 0 := rfl
    simp only [CacheManager.getMetadata, CacheManager.metaFile, read, loaded, noTime, fresh]
  · intro t read
    have loaded : (d.parse (d.spell .null)).map JsonText.loads = some .none := by
      rw [d.parse_spell]
      rfl
    simp only [CacheManager.getMetadata, CacheManager.metaFile, read, loaded]

theorem not_confined_storeMetadata {d : CacheDisk}
    (leaves : ¬ Stays d.cwd d.metadataDir (name ++ ".json")) (index : CacheIndex) :
    ¬ Confined d.cwd d.metadataDir fun t =>
      let r := CacheManager.storeMetadata d name [] 0 ⟨t, index⟩
      (r.1, r.2.tree) := by
  have dumped : d.py.dumpsStrict
      (.dict (Dict.assign (.str "_cached_at") (.float (.finite 0)) [])) =
      .ok (.obj [("_cached_at", .float (.finite 0))]) := rfl
  apply PyPath.not_confined_of_write leaves (by decide) (by decide)
  intro t u written
  simp only [CacheManager.storeMetadata, dumped]
  rw [CacheManager.metaFile, written]

theorem not_confined_handleCacheInvalidate {d : CacheDisk}
    (leaves : ¬ Stays d.cwd d.metadataDir (name ++ ".json")) (index : CacheIndex) :
    ¬ Confined d.cwd d.metadataDir fun t =>
      let r := CpipDaemon.handleCacheInvalidate d [(.str "package", .str name)] ⟨t, index⟩
      (r.1, r.2.tree) := by
  have truthy : (PyVal.str name).truthy = true := by
    refine decide_eq_true ?_
    rintro rfl
    exact leaves (PyPath.stays_of_isPart _ _ (by decide) (by decide))
  refine PyPath.not_confined_of_unlink leaves (by decide) (by decide) [] ?_
  intro t u _ gone
  simp only [CpipDaemon.handleCacheInvalidate, PyVal.getStr_cons, if_pos, Option.getD_some,
    PyText.toStr, truthy, CacheManager.metaFile, gone]

theorem not_confined_registryGet {r : RegistryEnv}
    (leaves : ¬ Stays r.cwd r.metadataDir (name ++ ".manifest.json")) :
    ¬ Confined r.cwd r.metadataDir fun t =>
      let result := PackageRegistry.get r name ⟨t, ∅⟩
      ((result.1, result.2.cache), result.2.tree) := by
  let manifest : PackageRegistry.Manifest := ⟨name, "", [], "", "", []⟩
  obtain ⟨_, -, -, parsed⟩ := PackageRegistry.exists_text r manifest
  have refused : ((r.parse (r.spell .null)).bind fun t => PackageRegistry.parseManifest t.loads) =
      none := by
    rw [r.parse_spell]
    rfl
  have different : ((none, ∅) : Option PackageRegistry.Manifest × Dict String _) ≠
      (some manifest.plain, Dict.set ∅ name manifest.plain) := nofun
  refine PyPath.not_confined_of_read leaves (by decide) (by decide)
    (PackageRegistry.fileOf r manifest) (r.spell .null) ?_ ?_ different
  · intro t read
    simp only [PackageRegistry.get, Dict.get?_empty, PackageRegistry.manifestFile, read, parsed]
  · intro t read
    simp only [PackageRegistry.get, Dict.get?_empty, PackageRegistry.manifestFile, read, refused]

theorem not_confined_registryStore {r : RegistryEnv}
    (leaves : ¬ Stays r.cwd r.metadataDir (name ++ ".manifest.json")) :
    ¬ Confined r.cwd r.metadataDir fun t =>
      let result := PackageRegistry.store r ⟨name, "", [], "", "", []⟩ ⟨t, ∅⟩
      ((result.1, result.2.cache), result.2.tree) := by
  obtain ⟨text, dumped, -⟩ := PackageRegistry.exists_text r ⟨name, "", [], "", "", []⟩
  apply PyPath.not_confined_of_write leaves (by decide) (by decide)
  intro t u written
  simp only [PackageRegistry.store, dumped]
  rw [PackageRegistry.manifestFile, written]

theorem not_confined_registryRemove {r : RegistryEnv}
    (leaves : ¬ Stays r.cwd r.metadataDir (name ++ ".manifest.json")) :
    ¬ Confined r.cwd r.metadataDir fun t =>
      let result := PackageRegistry.remove r name ⟨t, ∅⟩
      ((result.1, result.2.cache), result.2.tree) := by
  refine PyPath.not_confined_of_unlink leaves (by decide) (by decide) [] ?_
  intro t u _ gone
  simp only [PackageRegistry.remove, PackageRegistry.manifestFile, gone]

theorem not_confined_saveConfig {c : ConfigEnv}
    (leaves : ¬ Stays c.cwd c.configDir (name ++ ".json")) :
    ¬ Confined c.cwd c.configDir fun t =>
      let result := ConfigManager.saveConfig c
        { name := name, type := .hybrid, provider := .local_ }
        ⟨t, ∅⟩
      ((result.1, result.2.configs), result.2.tree) := by
  let config : InfrastructureConfig := { name := name, type := .hybrid, provider := .local_ }
  have metadata : (PyVal.dict config.metadata).IsJson :=
    (PyVal.everywhere_dict_iff _).2 ⟨⟨nofun, List.nodup_nil⟩, nofun⟩
  obtain ⟨text, dumped, -⟩ := ConfigManager.exists_text c metadata
  apply PyPath.not_confined_of_write leaves (by decide) (by decide)
  intro t u written
  simp only [ConfigManager.saveConfig, config, dumped]
  rw [ConfigManager.configFile, written]

theorem not_confined_deleteConfig {c : ConfigEnv}
    (leaves : ¬ Stays c.cwd c.configDir (name ++ ".json")) :
    ¬ Confined c.cwd c.configDir fun t =>
      let result := ConfigManager.deleteConfig c name ⟨t, ∅⟩
      ((result.1, result.2.configs), result.2.tree) := by
  refine PyPath.not_confined_of_unlink leaves (by decide) (by decide) [] ?_
  intro t u present gone
  simp only [ConfigManager.deleteConfig, ConfigManager.configFile, present, if_true, gone]

theorem stays_of_confinedAt {e : NameStores} {site : Site} (confined : ConfinedAt e name site) :
    Stays (site.cwd e) (site.dir e) (name ++ site.suffix) := by
  by_contra leaves
  cases site with
  | getMetadata => exact not_confined_getMetadata leaves ∅ (confined 0 ∅)
  | storeMetadata => exact not_confined_storeMetadata leaves ∅ (confined [] 0 ∅)
  | cacheInvalidate => exact not_confined_handleCacheInvalidate leaves ∅ (confined ∅)
  | registryGet => exact not_confined_registryGet leaves (confined ∅)
  | registryStore => exact not_confined_registryStore leaves (confined _ ∅ rfl)
  | registryRemove => exact not_confined_registryRemove leaves (confined ∅)
  | saveConfig => exact not_confined_saveConfig leaves (confined _ ∅ rfl)
  | deleteConfig => exact not_confined_deleteConfig leaves (confined ∅)

end Leaves

/-- What is read, written or removed for a name lies directly in the directory of the store, for all
files that there can be, exactly when the name stays there. -/
theorem name_confined_iff (e : NameStores) (site : Site) (name : String) :
    ConfinedAt e name site ↔ Stays (site.cwd e) (site.dir e) (name ++ site.suffix) :=
  ⟨stays_of_confinedAt, confinedAt_of_stays⟩

def sampleStores : NameStores where
  cache := CacheManager.sampleDisk
  registry := PackageRegistry.sampleEnv
  configs := ConfigManager.sampleEnv

theorem not_stays_sample (site : Site) :
    ¬ Stays (site.cwd sampleStores) (site.dir sampleStores) ("../x" ++ site.suffix) := by
  cases site <;> decide +kernel

/-- A name that leads out of the directory, in each of the four components. -/
theorem name_not_confined :
    ¬ ConfinedAt sampleStores "../x" .storeMetadata ∧
      ¬ ConfinedAt sampleStores "../x" .cacheInvalidate ∧
      ¬ ConfinedAt sampleStores "../x" .registryGet ∧
      ¬ ConfinedAt sampleStores "../x" .saveConfig :=
  ⟨fun confined => not_stays_sample _ (stays_of_confinedAt confined),
    fun confined => not_stays_sample _ (stays_of_confinedAt confined),
    fun confined => not_stays_sample _ (stays_of_confinedAt confined),
    fun confined => not_stays_sample _ (stays_of_confinedAt confined)⟩

end NameStores

end Cpip
