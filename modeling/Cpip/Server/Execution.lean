import Cpip.Executor.Pool
import Cpip.Runtime.Hooks

/-!
# What a method string means on the server

The string does not say where the module path ends.  `ExecutionService` imports its first component
only, and the program of `ExecutionPool` imports all but the last one.
-/

namespace Cpip

namespace ExecutionService

/-- The object that `_execute_sandboxed` calls, or returns when it cannot be called. -/
def resolve (tree : ModuleTree) (fuel : ℕ) (method : String) (s : Interp) :
    Option (Except Raised Obj) :=
  match splitDots method with
  | moduleName :: attr :: attrs =>
    if moduleName = "" then some (.error (.valueError "Empty module name"))
    else
      match importName tree fuel [moduleName] s with
      | none => none
      | some (.error e, _) => some (.error e)
      | some (.ok mod, s') => some (s'.getattrs mod (attr :: attrs))
  | _ => some (.error (.valueError ("Invalid method: " ++ method)))

end ExecutionService

namespace ExecutionPool

/-- The imports of the generated program, and the name that it calls. -/
def program (method : String) : Program :=
  ⟨[(splitDots method).dropLast, ["json"]], splitDots method⟩

/-- The text of a program that calls the name and prints the result. -/
def text (r : ArgsRepr) (p : Program) (args : List PyVal) (kwargs : Dict String PyVal) : String :=
  "import " ++ "; import ".intercalate (p.imports.map joinDots) ++ "; r = " ++ joinDots p.name ++
    "(*" ++ r.args args ++ ", **" ++ r.kwargs kwargs ++
    "); print(json.dumps(\x7b'result': str(r)\x7d))"

/-- `_build_code` writes the program down. -/
theorem buildCode_eq_text (r : ArgsRepr) {method : String} (two : 2 ≤ (splitDots method).length)
    (args : List PyVal) (kwargs : Dict String PyVal) :
    buildCode r method args kwargs = text r (program method) args kwargs := by
  have imports : "; import ".intercalate ((program method).imports.map joinDots) =
      joinDots (splitDots method).dropLast ++ "; import " ++ "json" := by
    simp [program, joinDots]
  have name : joinDots (program method).name = method := joinDots_splitDots method
  rw [buildCode, rsplitDot, if_neg (by omega)]
  unfold text
  rw [imports, name]
  dsimp only
  simp only [String.append_assoc]
  congr 2

end ExecutionPool

/-! ## Where the two agree with a local evaluation -/

section Agreement

variable (tree : ModuleTree) (m attrs : ModPath) (start : Interp)

/-- A component of a dotted name. -/
def IsName (name : String) : Prop := name ≠ "" ∧ '.' ∉ name.toList

instance : DecidablePred IsName := fun name =>
  inferInstanceAs (Decidable (name ≠ "" ∧ '.' ∉ name.toList))

/-- The top package imports every package on the way to the module. -/
def TopSuffices : Prop :=
  ∀ fuel s, load tree fuel (m.take 1) start = some (none, s) →
    ∀ part, part ≠ [] → part <+: m → s.Loaded part

/-- All of the attribute path but its last component is modules, which the module imports. -/
def PathLoaded : Prop :=
  ∀ fuel s, load tree fuel m start = some (none, s) →
    ∀ part, part <+: attrs.dropLast → s.Loaded (m ++ part)

/-- The standard library's `json` is imported without a change to what is there. -/
def JsonHarmless : Prop :=
  ∀ fuel s, load tree fuel m start = some (none, s) →
    ∃ fuel' s', load tree fuel' ["json"] s = some (none, s') ∧ s.Extends s'

/-- The name of a module on the way that the top package did not import is bound to nothing. -/
def OtherwiseUnbound : Prop :=
  ∀ fuel s top, load tree fuel (m.take 1) start = some (none, s) →
    s.modules.get? (m.take 1) = some top →
    ∀ part name, part ≠ [] → part ++ [name] <+: m → ¬ s.Loaded (part ++ [name]) →
      ∀ o, s.getattrs top part.tail = .ok o → s.attrs.get? (o, name) = none

/-- What is not imported on the attribute path is no module. -/
def OtherwiseMissing : Prop :=
  ∀ fuel s, load tree fuel m start = some (none, s) →
    ∀ part, part <+: attrs.dropLast → ¬ s.Loaded (m ++ part) → tree (m ++ part) = none

variable {tree m attrs start}

theorem take_one_of_ne_nil (nonempty : m ≠ []) : m.take 1 = [m.headD ""] := by
  cases m with
  | nil => exact absurd rfl nonempty
  | cons top m => rfl

theorem resolve_joinDots {fuel : ℕ} (nonempty : m ≠ []) (names : ∀ name ∈ m ++ attrs, IsName name)
    (callable : attrs ≠ []) :
    ExecutionService.resolve tree fuel (joinDots (m ++ attrs)) start =
      match importName tree fuel (m.take 1) start with
      | none => none
      | some (.error e, _) => some (.error e)
      | some (.ok mod, s') => some (s'.getattrs mod (m.tail ++ attrs)) := by
  cases m with
  | nil => exact absurd rfl nonempty
  | cons top rest =>
    have parts : splitDots (joinDots (top :: rest ++ attrs)) = top :: (rest ++ attrs) :=
      splitDots_joinDots (by simp) fun name mem => (names name mem).2
    obtain ⟨attr, attrs', split⟩ : ∃ attr attrs', rest ++ attrs = attr :: attrs' :=
      List.exists_cons_of_ne_nil (by simp [callable])
    have named : top ≠ "" := (names top (by simp)).1
    rw [ExecutionService.resolve, parts, split]
    dsimp only
    rw [if_neg named, List.tail_cons, split]
    rfl

/-- The service finds what a local evaluation does when the top package suffices. -/
theorem resolve_of_topSuffices {fuel : ℕ} {s : Interp} {top o : Obj} (coherent : start.Coherent)
    (nonempty : m ≠ []) (names : ∀ name ∈ m ++ attrs, IsName name) (callable : attrs ≠ [])
    (imported : importName tree fuel m start = some (.ok top, s))
    (evaluated : s.getattrs top (m.tail ++ attrs) = .ok o) (h : TopSuffices tree m start) {k : ℕ}
    (enough : fuel ≤ k) :
    ExecutionService.resolve tree k (joinDots (m ++ attrs)) start = some (.ok o) := by
  obtain ⟨loaded, bound⟩ := load_of_importName nonempty coherent imported
  have single : m.take 1 ≠ [] := by simpa using nonempty
  obtain ⟨s₁, first⟩ := exists_load_of_prefix coherent loaded single (List.take_prefix 1 m)
  have split : m.take 1 ++ m.tail = m := by
    rw [← List.drop_one]
    exact List.take_append_drop 1 m
  have whole : load tree (fuel + m.tail.length) (m.take 1 ++ m.tail) start = some (none, s₁) := by
    apply load_of_loaded_below coherent single first
    intro part sub
    apply h fuel s₁ first
    · simp [nonempty]
    · have sub' : m.take 1 ++ part <+: m.take 1 ++ m.tail :=
        (List.prefix_append_right_inj _).2 sub
      rwa [split] at sub'
  rw [split] at whole
  obtain rfl : s₁ = s := congrArg Prod.snd (load_unique whole loaded)
  have present : s₁.Loaded ((m.take 1).take 1) := by
    rw [List.take_take]
    exact loaded_self_of_load first
  obtain ⟨top', bound', ran⟩ := importName_of_load (load_mono enough first) present
  rw [List.take_take] at bound'
  obtain rfl : top' = top := Option.some.inj (bound'.symm.trans bound)
  rw [resolve_joinDots nonempty names callable, ran]
  exact congrArg some evaluated

/-- Otherwise it finds nothing, unless a name on the way is bound by something else. -/
theorem topSuffices_of_resolve {k : ℕ} {o : Obj} (coherent : start.Coherent) (nonempty : m ≠ [])
    (names : ∀ name ∈ m ++ attrs, IsName name) (callable : attrs ≠ [])
    (unbound : OtherwiseUnbound tree m start)
    (found : ExecutionService.resolve tree k (joinDots (m ++ attrs)) start = some (.ok o)) :
    TopSuffices tree m start := by
  rw [resolve_joinDots nonempty names callable] at found
  have single : m.take 1 ≠ [] := by simpa using nonempty
  cases ran : importName tree k (m.take 1) start with
  | none =>
    rw [ran] at found
    cases found
  | some result =>
    obtain ⟨e | mod, s⟩ := result
    · rw [ran] at found
      cases found
    · rw [ran] at found
      obtain ⟨first, bound⟩ := load_of_importName single coherent ran
      rw [List.take_take] at bound
      intro fuel s' first' part inner sub
      obtain rfl : s = s' := congrArg Prod.snd (load_unique first first')
      by_contra absent
      obtain ⟨above, name, rfl⟩ : ∃ above name, part = above ++ [name] :=
        ⟨part.dropLast, part.getLast inner, (List.dropLast_append_getLast inner).symm⟩
      have deep : above ≠ [] := by
        rintro rfl
        obtain ⟨rest, split⟩ := sub
        have top : m.take 1 = [name] := by rw [← split]; rfl
        exact absent (by simpa [top] using loaded_self_of_load first)
      obtain ⟨rest, split⟩ := sub
      have path : m.tail ++ attrs = above.tail ++ (name :: (rest ++ attrs)) := by
        rw [← split, List.append_assoc, List.tail_append_of_ne_nil deep]
        simp
      have evaluated : s.getattrs mod (m.tail ++ attrs) = .ok o := Option.some.inj found
      rw [path, Interp.getattrs_append] at evaluated
      cases walked : s.getattrs mod above.tail with
      | error e =>
        rw [walked] at evaluated
        cases evaluated
      | ok p =>
        have free := unbound k s mod first bound above name deep ⟨rest, split⟩ absent p walked
        rw [walked] at evaluated
        change s.getattrs p (name :: (rest ++ attrs)) = .ok o at evaluated
        rw [Interp.getattrs, free] at evaluated
        cases evaluated

theorem program_joinDots (names : ∀ name ∈ m ++ attrs, IsName name) (callable : attrs ≠ []) :
    ExecutionPool.program (joinDots (m ++ attrs)) =
      ⟨[m ++ attrs.dropLast, ["json"]], m ++ attrs⟩ := by
  have parts : splitDots (joinDots (m ++ attrs)) = m ++ attrs :=
    splitDots_joinDots (by simp [callable]) fun name mem => (names name mem).2
  rw [ExecutionPool.program, parts, List.dropLast_append_of_ne_nil callable]

/-- The program evaluates what a local evaluation does when the path to the last component is
modules that are imported. -/
theorem eval_of_pathLoaded {fuel : ℕ} {s : Interp} {top o : Obj} (coherent : start.Coherent)
    (nonempty : m ≠ []) (names : ∀ name ∈ m ++ attrs, IsName name) (callable : attrs ≠ [])
    (imported : importName tree fuel m start = some (.ok top, s))
    (evaluated : s.getattrs top (m.tail ++ attrs) = .ok o) (json : JsonHarmless tree m start)
    (h : PathLoaded tree m attrs start) :
    ∃ n, ∀ k, n ≤ k → (ExecutionPool.program (joinDots (m ++ attrs))).eval tree k start =
      some (.ok o) := by
  obtain ⟨loaded, bound⟩ := load_of_importName nonempty coherent imported
  obtain ⟨fuel', s', ran', extended⟩ := json fuel s loaded
  refine ⟨max (fuel + attrs.dropLast.length) fuel', fun k enough => ?_⟩
  have whole := load_of_loaded_below coherent nonempty loaded (h fuel s loaded)
  have takes : (m ++ attrs.dropLast).take 1 = m.take 1 := by
    cases m with
    | nil => exact absurd rfl nonempty
    | cons top m => rfl
  have first : importName tree k (m ++ attrs.dropLast) start = some (.ok top, s) := by
    have present : s.Loaded ((m ++ attrs.dropLast).take 1) := by
      rw [takes]
      exact Option.isSome_iff_exists.2 ⟨top, bound⟩
    obtain ⟨top', bound', ran⟩ :=
      importName_of_load (load_mono ((Nat.le_max_left _ _).trans enough) whole) present
    rw [takes] at bound'
    obtain rfl : top' = top := Option.some.inj (bound'.symm.trans bound)
    exact ran
  obtain ⟨module, boundJson, second⟩ :=
    importName_of_load (load_mono ((Nat.le_max_right _ _).trans enough) ran')
      (loaded_self_of_load ran')
  have head : (m ++ attrs.dropLast).headD "" = m.headD "" := by
    cases m with
    | nil => exact absurd rfl nonempty
    | cons top m => rfl
  have head' : (m ++ attrs).headD "" = m.headD "" := by
    cases m with
    | nil => exact absurd rfl nonempty
    | cons top m => rfl
  have tail : (m ++ attrs).tail = m.tail ++ attrs := List.tail_append_of_ne_nil nonempty
  have names' : (((∅ : Dict String Obj).set (m.headD "") top).set "json" module).get?
      (m.headD "") = some top := by
    rw [Dict.get?_set]
    split_ifs with same
    · -- The package is `json` itself, which is bound to the same module twice.
      have again := extended.modules _ _ bound
      rw [take_one_of_ne_nil nonempty, ← same] at again
      exact boundJson.symm.trans again
    · exact Dict.get?_set_self ..
  have bindings : importAll tree k [m ++ attrs.dropLast, ["json"]] ∅ start =
      some (.ok (((∅ : Dict String Obj).set (m.headD "") top).set "json" module), s') := by
    rw [importAll, first]
    dsimp only
    rw [importAll, second]
    dsimp only
    rw [importAll, head]
    rfl
  rw [program_joinDots names callable, Program.eval, bindings]
  dsimp only
  rw [head', names', tail]
  exact congrArg some (extended.getattrs evaluated)

theorem pathLoaded_of_eval {fuel : ℕ} {s : Interp} {top : Obj} (coherent : start.Coherent)
    (nonempty : m ≠ []) (names : ∀ name ∈ m ++ attrs, IsName name) (callable : attrs ≠ [])
    (imported : importName tree fuel m start = some (.ok top, s))
    (missing : OtherwiseMissing tree m attrs start) {k : ℕ} {o : Obj}
    (evaluated : (ExecutionPool.program (joinDots (m ++ attrs))).eval tree k start =
      some (.ok o)) : PathLoaded tree m attrs start := by
  obtain ⟨loaded, -⟩ := load_of_importName nonempty coherent imported
  rw [program_joinDots names callable, Program.eval] at evaluated
  cases ran : importName tree k (m ++ attrs.dropLast) start with
  | none =>
    simp only [importAll, ran] at evaluated
    cases evaluated
  | some result =>
    obtain ⟨e | top', s'⟩ := result
    · simp only [importAll, ran] at evaluated
      cases evaluated
    · obtain ⟨whole, -⟩ := load_of_importName (by simp [nonempty]) coherent ran
      intro fuel' s'' loaded'
      obtain rfl : s = s'' := congrArg Prod.snd (load_unique loaded loaded')
      exact loaded_below_of_load coherent nonempty loaded (missing fuel s loaded) whole

/-- Where `import m` and then `m.attrs` succeed: the client sends `m.attrs`, which the service
resolves to the same object when the top package suffices, and the generated program when the path
to the last component is loaded modules.  Otherwise they fail, unless the name of a module that is
not imported means something else. -/
theorem method_resolves {fuel : ℕ} {s : Interp} {top o : Obj} (coherent : start.Coherent)
    (nonempty : m ≠ []) (callable : attrs ≠ []) (names : ∀ name ∈ m ++ attrs, IsName name)
    (isPublic : ∀ attr ∈ attrs, ¬ Proxy.Underscored attr)
    (imported : importName tree fuel m start = some (.ok top, s))
    (evaluated : s.getattrs top (m.tail ++ attrs) = .ok o) (json : JsonHarmless tree m start) :
    ∃ method p,
      Proxy.getattrs (Proxy.importedNames m) (.module (m.headD "")) (m.tail ++ attrs) = .ok p ∧
      p.call = some method ∧
      (∀ r args kwargs, ExecutionPool.buildCode r method args kwargs =
        ExecutionPool.text r (ExecutionPool.program method) args kwargs) ∧
      (TopSuffices tree m start →
        ∃ n, ∀ k, n ≤ k → ExecutionService.resolve tree k method start = some (.ok o)) ∧
      (PathLoaded tree m attrs start →
        ∃ n, ∀ k, n ≤ k → (ExecutionPool.program method).eval tree k start = some (.ok o)) ∧
      (OtherwiseUnbound tree m start → ¬ TopSuffices tree m start →
        ∀ k o', ExecutionService.resolve tree k method start ≠ some (.ok o')) ∧
      (OtherwiseMissing tree m attrs start → ¬ PathLoaded tree m attrs start →
        ∀ k o', (ExecutionPool.program method).eval tree k start ≠ some (.ok o')) := by
  obtain ⟨attr, rest, rfl⟩ := List.exists_cons_of_ne_nil callable
  have sent := Proxy.getattrs_path nonempty (fun part mem => (names part mem).2)
    (isPublic attr (by simp))
  have parts : splitDots (joinDots (m ++ attr :: rest)) = m ++ attr :: rest :=
    splitDots_joinDots (by simp) fun name mem => (names name mem).2
  refine ⟨_, _, sent, rfl, fun r args kwargs => ?_, fun h => ?_, fun h => ?_, ?_, ?_⟩
  · apply ExecutionPool.buildCode_eq_text
    have := List.length_pos_iff.2 nonempty
    rw [parts, List.length_append, List.length_cons]
    omega
  · exact ⟨fuel, fun k enough =>
      resolve_of_topSuffices coherent nonempty names callable imported evaluated h enough⟩
  · exact eval_of_pathLoaded coherent nonempty names callable imported evaluated json h
  · exact fun unbound insufficient k o' found =>
      insufficient (topSuffices_of_resolve coherent nonempty names callable unbound found)
  · exact fun missing absent k o' found =>
      absent (pathLoaded_of_eval coherent nonempty names callable imported missing found)

/-- A package that imports its module, which has a function. -/
def eagerTree : ModuleTree
  | ["a"] => some fun _ => .load ["a", "b"] fun _ => .done
  | ["a", "b"] => some fun b => .new fun g => .setattr b "g" g .done
  | ["json"] => some fun _ => .done
  | _ => none

/-- A package that does not, and the module has a class with a method. -/
def lazyTree : ModuleTree
  | ["a"] => some fun _ => .done
  | ["a", "b"] => some fun b =>
    .new fun c => .new fun g => .setattr c "g" g (.setattr b "C" c .done)
  | ["json"] => some fun _ => .done
  | _ => none

/-- Nothing is missing below a module whose only attribute is the last one. -/
theorem pathLoaded_singleton (tree : ModuleTree) (m : ModPath) (attr : String) {start : Interp} :
    PathLoaded tree m [attr] start := by
  intro fuel s loaded part sub
  obtain rfl := List.prefix_nil.1 sub
  rw [List.append_nil]
  exact loaded_self_of_load loaded

/-- The interpreter after a path was imported. -/
def afterImport (tree : ModuleTree) (path : ModPath) : Interp :=
  ((importName tree 5 path .fresh).map Prod.snd).getD .fresh

/-- A new module extends what is there. -/
theorem extends_setModule {s : Interp} {path : ModPath} (new : ¬ s.Loaded path) (o : Obj) :
    s.Extends (s.alloc.setModule path o) where
  modules path' o' found := by
    have other : path ≠ path' := by
      rintro rfl
      exact new (Option.isSome_iff_exists.2 ⟨o', found⟩)
    show (s.modules.set path o).get? path' = some o'
    rw [Dict.get?_set, if_neg other]
    exact found
  attrs _ _ _ found := found

theorem method_resolves_sample :
    ∃ method,
      (∃ n, ∀ k, n ≤ k → ExecutionService.resolve eagerTree k method .fresh = some (.ok 2)) ∧
      ∃ n, ∀ k, n ≤ k → (ExecutionPool.program method).eval eagerTree k .fresh = some (.ok 2) := by
  have imported : importName eagerTree 5 ["a", "b"] .fresh =
      some (.ok 0, afterImport eagerTree ["a", "b"]) := by decide +kernel
  have loaded : load eagerTree 5 ["a", "b"] .fresh =
      some (none, afterImport eagerTree ["a", "b"]) := by decide +kernel
  have first : load eagerTree 5 ["a"] .fresh =
      some (none, afterImport eagerTree ["a", "b"]) := by decide +kernel
  have json : JsonHarmless eagerTree ["a", "b"] .fresh := by
    intro fuel s ran
    obtain rfl : s = _ := congrArg Prod.snd (load_unique ran loaded)
    exact ⟨1, (afterImport eagerTree ["a", "b"]).alloc.setModule ["json"] 3, by decide +kernel,
      extends_setModule (by decide +kernel) 3⟩
  have top : TopSuffices eagerTree ["a", "b"] .fresh := by
    intro fuel s ran part nonempty sub
    obtain rfl : s = _ := congrArg Prod.snd (load_unique ran first)
    exact loaded_of_load Interp.coherent_fresh loaded nonempty sub
  have evaluated : (afterImport eagerTree ["a", "b"]).getattrs 0 ["b", "g"] = .ok 2 := by
    decide +kernel
  have callable : ["g"] ≠ [] := by simp
  obtain ⟨method, -, -, -, -, service, program, -⟩ :=
    method_resolves Interp.coherent_fresh (by simp) callable (by decide +kernel)
      (by decide +kernel) imported evaluated json
  have path : PathLoaded eagerTree ["a", "b"] ["g"] .fresh := pathLoaded_singleton eagerTree _ "g"
  exact ⟨method, service top, program path⟩

/-- The service does not import the module, and the program imports the class. -/
theorem method_not_resolved :
    importName lazyTree 5 ["a", "b"] .fresh =
        some (.ok 0, afterImport lazyTree ["a", "b"]) ∧
      (afterImport lazyTree ["a", "b"]).getattrs 0 ["b", "C", "g"] = .ok 3 ∧
      (Proxy.getattrs (Proxy.importedNames ["a", "b"]) (.module "a") ["b", "C", "g"]) =
        .ok (.callable "a.b.C.g") ∧
      ExecutionService.resolve lazyTree 5 "a.b.C.g" .fresh = some (.error (.attributeError "b")) ∧
      (ExecutionPool.program "a.b.C.g").eval lazyTree 5 .fresh =
        some (.error (.moduleNotFound ["a", "b", "C"])) := by
  decide +kernel

end Agreement

end Cpip
