import Mathlib.Data.Bool.AllAny
import Cpip.Builder.Worker
import Cpip.Python.Glob

/-!
# The cross compiler (`builder/compiler.py`)

All builds put their wheels into one directory, where they stay.  `compile` takes the first name of
it that begins like the package, so what it returns depends on every wheel that the directory lists
before the right one.
-/

namespace Cpip

namespace Builder

/-- A `CompileResult` with what the worker does not read of it. -/
structure CompileReport extends CompileResult where
  log : String
  duration : ℚ

/-- What a build command leaves; `built` is the version of the wheel that it made, which it does not
report. -/
structure BuildProcess where
  returncode : ℤ
  stdout : String
  stderr : String
  built : String

inductive BuildOutcome where
  | completed (p : BuildProcess)
  | timedOut
  | raised (message : String)

/-- The build command, beside which other builds may run, and the clock before and after it. -/
structure CompilerEnv where
  run : List String → FileTree Bytes → BuildOutcome × FileTree Bytes
  start : ℚ
  finish : ℚ

/-- The arguments of `compile`. -/
structure Build where
  package : String
  version : String
  pythonVersion : String
  targetArch : String

structure CrossCompiler where
  dockerImage : String
  useDocker : Bool

/-- `package.replace("-", "_")`. -/
def underscored (package : String) : String :=
  String.ofList (package.toList.map fun c => if c = '-' then '_' else c)

def wheelPattern (package : String) : String := underscored package ++ "*" ++ ".whl"

def outputDir : PyPath := .ofString "/tmp/cpip-builds"

/-- The text of an absolute path. -/
def pathText (parts : List String) : String := "/" ++ "/".intercalate parts

namespace CrossCompiler

variable (env : CompilerEnv) (c : CrossCompiler) (b : Build) (t : FileTree Bytes)

def versionSpec : String := if b.version ≠ "latest" then "==" ++ b.version else ""

/-- `cmd`. -/
def command : List String :=
  if c.useDocker then
    ["docker", "run", "--rm", "-e", "PACKAGE=" ++ b.package ++ versionSpec b,
      "-e", "PYTHON_VERSION=" ++ b.pythonVersion, "-e", "TARGET_ARCH=" ++ b.targetArch,
      "-v", outputDir.str ++ ":/output", c.dockerImage, "build"]
  else ["pip", "wheel", b.package ++ versionSpec b, "--no-deps", "-w", outputDir.str]

/-- `compile`, which raises when it cannot make the directory. -/
def compile : Except FileError CompileReport × FileTree Bytes :=
  match outputDir.mkdirs [] t true with
  | (.error e, t) => (.error e, t)
  | (.ok _, t) =>
    let duration := env.finish - env.start
    match env.run (c.command b) t with
    | (.completed p, t) =>
      if p.returncode = 0 then
        match Glob.glob t outputDir (wheelPattern b.package) with
        | .ok wheels => (.ok ⟨⟨true, wheels.head?.map pathText, ""⟩, p.stdout, duration⟩, t)
        | .error message => (.ok ⟨⟨false, none, message⟩, "", duration⟩, t)
      else (.ok ⟨⟨false, none, p.stderr⟩, p.stdout, duration⟩, t)
    | (.timedOut, t) => (.ok ⟨⟨false, none, "Build timed out (1hr limit)"⟩, "", 3600⟩, t)
    | (.raised message, t) => (.ok ⟨⟨false, none, message⟩, "", duration⟩, t)

/-! ## The wheel that was asked for -/

/-- The distribution and the version in the name of a wheel, which may have a build number. -/
def wheelFields (name : String) : Option (String × String) :=
  if ['.', 'w', 'h', 'l'] <:+ name.toList then
    match (name.toList.take (name.length - 4)).splitOn '-' with
    | [distribution, version, _, _, _] => some (.ofList distribution, .ofList version)
    | [distribution, version, _, _, _, _] => some (.ofList distribution, .ofList version)
    | _ => none
  else none

-- when two texts are one version to pip
variable (same : String → String → Prop)

/-- The path is that of a wheel of this package in this version. -/
structure IsWheelOf (package version path : String) : Prop where
  file : (PyPath.ofString path).isFile [] t = true
  named : ∃ v, wheelFields (PyPath.ofString path).name = some (underscored package, v) ∧
    same v version

/-- What the build command leaves if it succeeds. -/
def succeeded : Option (BuildProcess × FileTree Bytes) :=
  match outputDir.mkdirs [] t true with
  | (.error _, _) => none
  | (.ok _, t) =>
    match env.run (c.command b) t with
    | (.completed p, t) => if p.returncode = 0 then some (p, t) else none
    | _ => none

/-- The version that was asked for, or the one that was just built. -/
def wanted (p : BuildProcess) : String := if b.version = "latest" then p.built else b.version

/-- A build that succeeds returns no wheel or its own. -/
def ReturnsOwnWheel : Prop :=
  ∀ p t', succeeded env c b t = some (p, t') →
    ∀ report t'', compile env c b t = (.ok report, t'') →
      ∀ path, report.wheelPath = some path → IsWheelOf t'' same b.package (wanted b p) path

/-- Whatever is not right comes after something that is. -/
def Guarded {α : Type*} (right : α → Prop) (l : List α) : Prop :=
  ∀ before x after, l = before ++ x :: after → right x ∨ ∃ y ∈ before, right y

theorem guarded_iff {α : Type*} {right : α → Prop} {l : List α} :
    Guarded right l ↔ ∀ x, l.head? = some x → right x := by
  constructor
  · intro guarded x first
    obtain ⟨rest, rfl⟩ : ∃ rest, l = x :: rest := by
      cases l with
      | nil => cases first
      | cons y rest => exact ⟨rest, by rw [Option.some.inj first]⟩
    rcases guarded [] x rest rfl with h | ⟨y, hy, -⟩
    · exact h
    · exact absurd hy List.not_mem_nil
  · rintro first before x after rfl
    cases before with
    | nil => exact Or.inl (first x rfl)
    | cons y before => exact Or.inr ⟨y, List.mem_cons_self, first y rfl⟩

/-- The wheels that are looked at are those names of the directory that pass a test. -/
theorem guarded_filter_map_iff {α γ : Type*} {right : γ → Prop} {p : α → Bool} {f : α → γ}
    {l : List α} : Guarded right ((l.filter p).map f) ↔
      ∀ before x after, l = before ++ x :: after → p x →
        right (f x) ∨ ∃ y ∈ before, p y ∧ right (f y) := by
  constructor
  · rintro guarded before x after rfl hx
    rcases guarded ((before.filter p).map f) (f x) ((after.filter p).map f)
      (by simp [hx]) with h | ⟨_, hy, h⟩
    · exact Or.inl h
    · obtain ⟨y, kept, rfl⟩ := List.mem_map.1 hy
      obtain ⟨hy, py⟩ := List.mem_filter.1 kept
      exact Or.inr ⟨y, hy, py, h⟩
  · intro each
    rw [guarded_iff]
    intro z first
    rw [List.head?_map] at first
    obtain ⟨x, hx, rfl⟩ := Option.map_eq_some_iff.1 first
    rw [List.head?_filter] at hx
    obtain ⟨px, before, after, rfl, none⟩ := List.find?_eq_some_iff_append.1 hx
    rcases each before x after rfl px with h | ⟨y, hy, py, -⟩
    · exact h
    · exact absurd py (by simpa using none y hy)

/-- A name that the pattern of a package without special characters finds. -/
def Begins (package name : String) : Prop :=
  ∃ middle, name = underscored package ++ middle ++ ".whl"

/-- The names in the shared directory, in the order in which it lists them. -/
def listing (t : FileTree Bytes) : List String :=
  if Glob.isDirAt t outputDir.parts then Glob.scandir t outputDir.parts else []

/-- The names of distributions have no special characters. -/
def IsPlain (package : String) : Prop := ∀ ch ∈ package.toList, ¬ Glob.IsMagic ch ∧ ch ≠ '/'

theorem plain_underscored {package : String} (plain : IsPlain package) :
    IsPlain (underscored package) := by
  intro ch h
  rw [underscored, String.toList_ofList, List.mem_map] at h
  obtain ⟨x, hx, rfl⟩ := h
  split_ifs
  · exact ⟨by decide, by decide⟩
  · exact plain x hx

theorem glob_wheelPattern {package : String} (plain : IsPlain package) (t : FileTree Bytes) :
    Glob.glob t outputDir (wheelPattern package) =
      .ok (((listing t).filter (Glob.fnmatch (wheelPattern package))).map
        fun name => outputDir.parts ++ [name]) := by
  rw [wheelPattern, Glob.glob_eq (plain_underscored plain) (List.all_iff_forall_prop.1 (by decide)),
    listing]
  split_ifs <;> rfl

theorem fnmatch_wheelPattern {package : String} (plain : IsPlain package) (name : String) :
    Glob.fnmatch (wheelPattern package) name = true ↔ Begins package name :=
  Glob.fnmatch_iff (fun ch h => (plain_underscored plain ch h).1)
    (List.all_iff_forall_prop.1 (by decide)) name

variable {env c b t same}

/-- A build that succeeds returns the first of the wheels that the pattern finds. -/
theorem compile_of_succeeded {p : BuildProcess} {t' : FileTree Bytes}
    (h : succeeded env c b t = some (p, t')) : ∃ report, compile env c b t = (.ok report, t') ∧
      report.wheelPath = match Glob.glob t' outputDir (wheelPattern b.package) with
        | .ok wheels => wheels.head?.map pathText
        | .error _ => none := by
  unfold succeeded at h
  unfold compile
  generalize outputDir.mkdirs [] t true = made at h ⊢
  obtain ⟨_ | l, t₁⟩ := made
  · cases h
  · dsimp only at h ⊢
    generalize env.run (c.command b) t₁ = ran at h ⊢
    obtain ⟨p' | _ | message, t₂⟩ := ran
    · dsimp only at h ⊢
      split_ifs at h with ok
      obtain ⟨rfl, rfl⟩ := Prod.mk.inj (Option.some.inj h)
      rw [if_pos ok]
      cases Glob.glob t₂ outputDir (wheelPattern b.package) with
      | ok wheels => exact ⟨_, rfl, rfl⟩
      | error message => exact ⟨_, rfl, rfl⟩
    · cases h
    · cases h

/-- The wheel is the right one exactly when every other that the pattern finds is listed after one
that is right; for a plain name the pattern finds the names that begin with it. -/
theorem returnsOwnWheel_iff (env : CompilerEnv) (c : CrossCompiler) (b : Build)
    (t : FileTree Bytes) (same : String → String → Prop) :
    (ReturnsOwnWheel env c b t same ↔ ∀ p t', succeeded env c b t = some (p, t') →
      ∀ wheels, Glob.glob t' outputDir (wheelPattern b.package) = .ok wheels →
        Guarded (IsWheelOf t' same b.package (wanted b p)) (wheels.map pathText)) ∧
    (IsPlain b.package → (ReturnsOwnWheel env c b t same ↔
      ∀ p t', succeeded env c b t = some (p, t') →
        ∀ before name after, listing t' = before ++ name :: after → Begins b.package name →
          IsWheelOf t' same b.package (wanted b p) (pathText ["tmp", "cpip-builds", name]) ∨
          ∃ name' ∈ before, Begins b.package name' ∧
            IsWheelOf t' same b.package (wanted b p)
              (pathText ["tmp", "cpip-builds", name']))) := by
  have general : ReturnsOwnWheel env c b t same ↔ ∀ p t', succeeded env c b t = some (p, t') →
      ∀ wheels, Glob.glob t' outputDir (wheelPattern b.package) = .ok wheels →
        Guarded (IsWheelOf t' same b.package (wanted b p)) (wheels.map pathText) := by
    refine forall₃_congr fun p t' h => ?_
    obtain ⟨report, compiled, path⟩ := compile_of_succeeded h
    constructor
    · intro right wheels found
      rw [guarded_iff, List.head?_map]
      rw [found] at path
      exact fun x first => right report t' compiled x (path.trans first)
    · rintro guarded report' t'' compiled' x hx
      obtain ⟨rfl, rfl⟩ : report = report' ∧ t' = t'' := by
        simpa using compiled.symm.trans compiled'
      rw [path] at hx
      split at hx
      · next wheels found =>
        refine guarded_iff.1 (guarded wheels found) x ?_
        rw [List.head?_map, hx]
      · cases hx
  refine ⟨general, fun plain => general.trans (forall₃_congr fun p t' _ => ?_)⟩
  rw [glob_wheelPattern plain]
  simp only [Except.ok.injEq, forall_eq', List.map_map]
  rw [guarded_filter_map_iff]
  simp only [fnmatch_wheelPattern plain]
  rfl

/-- The shared directory with a wheel that an earlier build of another package left. -/
def earlierBuild : FileTree Bytes :=
  ((FileTree.bare.put ["tmp"] .dir (by decide) (by decide) (by decide)).put ["tmp", "cpip-builds"]
    .dir (by decide) (by decide) (by decide)).put
      ["tmp", "cpip-builds", "numpy_financial-1.0.0-py3-none-any.whl"] (.file [1])
      (by decide) (by decide) (by decide)

def bothBuilds : FileTree Bytes :=
  earlierBuild.put ["tmp", "cpip-builds", "numpy-1.26.4-cp311-cp311-linux_aarch64.whl"] (.file [2])
    (by decide) (by decide) (by decide)

/-- A build of `numpy` returns the wheel of `numpy-financial`. -/
theorem returns_other_wheel : ¬ ∀ (env : CompilerEnv) (c : CrossCompiler) (b : Build)
    (t : FileTree Bytes) (same : String → String → Prop), ReturnsOwnWheel env c b t same := by
  intro claim
  let numpy : BuildProcess := ⟨0, "", "", "1.26.4"⟩
  let env : CompilerEnv := ⟨fun _ _ => (.completed numpy, bothBuilds), 0, 60⟩
  let b : Build := ⟨"numpy", "latest", "3.11", "aarch64"⟩
  have succeeds : succeeded env ⟨"", false⟩ b earlierBuild = some (numpy, bothBuilds) := rfl
  obtain ⟨report, compiled, path⟩ := compile_of_succeeded succeeds
  have found : Glob.glob bothBuilds outputDir (wheelPattern b.package) =
      .ok [["tmp", "cpip-builds", "numpy_financial-1.0.0-py3-none-any.whl"],
        ["tmp", "cpip-builds", "numpy-1.26.4-cp311-cp311-linux_aarch64.whl"]] := by
    have plain : ∀ ch ∈ "numpy".toList, ¬ Glob.IsMagic ch ∧ ch ≠ '/' :=
      List.all_iff_forall_prop.1 (by decide)
    rw [glob_wheelPattern plain]
    exact congrArg Except.ok (by decide +kernel)
  have fields : wheelFields (PyPath.ofString (pathText
      ["tmp", "cpip-builds", "numpy_financial-1.0.0-py3-none-any.whl"])).name =
      some ("numpy_financial", "1.0.0") := by decide +kernel
  rw [found] at path
  obtain ⟨-, v, named, -⟩ :=
    claim env ⟨"", false⟩ b earlierBuild Eq numpy bothBuilds succeeds report
    bothBuilds compiled _ path
  have other := (Prod.mk.inj (Option.some.inj (fields.symm.trans named))).1
  exact absurd other (by decide +kernel)

end CrossCompiler

end Builder

end Cpip
