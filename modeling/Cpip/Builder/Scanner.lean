import Cpip.Builder.Worker
import Cpip.Python.PosixPath

/-!
# The package scanner (`builder/scanner.py`)

`scan_wheel` looks at the names of the members of a wheel.  Its two tests for path traversal, a
leading slash and two dots anywhere, are stricter than what the rules for paths need, so a name that
passes them stays in any directory that it is joined to.
-/

namespace Cpip

namespace Builder

/-- A member of an archive. -/
structure ZipInfo where
  filename : String
  fileSize : ℕ

/-- What `zipfile` makes of a file: no archive for `is_zipfile`, one that `ZipFile` cannot read, or
an archive. -/
inductive ZipReading where
  | notZip
  | unreadable (e : PyExc)
  | archive (infolist : List ZipInfo)

/-- `zf.namelist()`. -/
def ZipReading.namelist : ZipReading → List String
  | .archive infolist => infolist.map ZipInfo.filename
  | _ => []

/-- A `ScanResult` with what the worker does not read of it. -/
structure WheelScan extends ScanResult where
  package : String
  sha256 : String
  fileCount : ℕ
  totalSize : ℕ

/-- What the scanner asks of the system: the hash function and the archive reader. -/
structure ScannerEnv where
  sha256 : Bytes → String
  zip : Bytes → ZipReading

namespace PackageScanner

/-- The test for path traversal. -/
def traverses (name : String) : Bool := ['/'] <+: name.toList ∨ ['.', '.'] <:+: name.toList

/-- `name.endswith((".sh", ".bat", ".cmd", ".ps1"))`. -/
def isScript (name : String) : Bool :=
  [".sh", ".bat", ".cmd", ".ps1"].any fun ending => ending.toList <:+ name.toList

/-- `zf.getinfo(name).file_size`, for the last of the members with the name. -/
def sizeOf (infolist : List ZipInfo) (name : String) : ℕ :=
  ((infolist.reverse.find? fun info => info.filename = name).map ZipInfo.fileSize).getD 0

/-- The issues of one name. -/
def issuesOf (infolist : List ZipInfo) (name : String) : List String :=
  (if traverses name then ["Path traversal: " ++ name] else []) ++
    (if isScript name then ["Script file: " ++ name] else []) ++
    (if sizeOf infolist name > 500 * 1024 * 1024 then
      ["Oversized file: " ++ name ++ " (" ++ toString (sizeOf infolist name) ++ " bytes)"] else [])

/-- One name in the loop of `scan_wheel`. -/
def scanName (infolist : List ZipInfo) (result : WheelScan) (name : String) : WheelScan :=
  { result with
    clean := if traverses name then false else result.clean
    issues := result.issues ++ issuesOf infolist name }

/-- `scan_wheel`, for a wheel with this name and content. -/
def scanWheel (env : ScannerEnv) (name : String) (content : Bytes) : Except PyExc WheelScan :=
  let result : WheelScan := ⟨⟨true, []⟩, name, env.sha256 content, 0, 0⟩
  match env.zip content with
  | .notZip => .ok { result with clean := false, issues := ["Not a valid zip/wheel file"] }
  | .unreadable e => .error e
  | .archive infolist =>
    let result := { result with
      fileCount := infolist.length
      totalSize := (infolist.map ZipInfo.fileSize).sum }
    .ok ((infolist.map ZipInfo.filename).foldl (scanName infolist) result)

/-! ## What the loop finds -/

section Loop

variable {infolist : List ZipInfo} {names : List String} {result : WheelScan}

theorem clean_foldl : (names.foldl (scanName infolist) result).clean = true ↔
    result.clean = true ∧ ∀ name ∈ names, traverses name = false := by
  induction names generalizing result with
  | nil => simp
  | cons name names ih =>
    rw [List.foldl_cons, ih, List.forall_mem_cons]
    cases traversal : traverses name with
    | true => simp [scanName, traversal]
    | false => simp [scanName, traversal]

theorem issues_foldl : (names.foldl (scanName infolist) result).issues =
    result.issues ++ names.flatMap (issuesOf infolist) := by
  induction names generalizing result with
  | nil => simp
  | cons name names ih =>
    rw [List.foldl_cons, ih, List.flatMap_cons, ← List.append_assoc]
    rfl

end Loop

/-- Every traversal is listed, and a clean wheel has none. -/
theorem scanWheel_spec {env : ScannerEnv} {name : String} {content : Bytes} {result : WheelScan}
    (scanned : scanWheel env name content = .ok result) :
    (result.clean = true → ∀ member ∈ (env.zip content).namelist, traverses member = false) ∧
      ∀ member ∈ (env.zip content).namelist, traverses member = true →
        "Path traversal: " ++ member ∈ result.issues := by
  unfold scanWheel at scanned
  cases zip : env.zip content with
  | notZip => exact ⟨fun _ => nofun, nofun⟩
  | unreadable e => exact ⟨fun _ => nofun, nofun⟩
  | archive infolist =>
    rw [zip] at scanned
    obtain rfl := Except.ok.inj scanned
    constructor
    · intro clean
      exact (clean_foldl.1 clean).2
    · intro member mem traversal
      rw [issues_foldl]
      refine List.mem_append_right _ (List.mem_flatMap.2 ⟨member, mem, ?_⟩)
      simp [issuesOf, traversal]

/-! ## Names that stay -/

/-- Joined to the target and normalised, the name is the target or inside of it. -/
def StaysIn (target name : String) : Prop :=
  PosixPath.Within (PosixPath.normpath target) (PosixPath.normpath (PosixPath.join target name))

instance (target name : String) : Decidable (StaysIn target name) :=
  inferInstanceAs (Decidable (_ = _ ∨ _ <+: _))

/-- What passes the tests stays in every directory. -/
theorem staysIn_of_not_traverses {target name : String} (absolute : ['/'] <+: target.toList)
    (passed : traverses name = false) : StaysIn target name := by
  unfold traverses at passed
  simp only [decide_eq_false_iff_not, not_or] at passed
  refine PosixPath.within_join absolute passed.1 fun up => passed.2 ?_
  exact PosixPath.infix_of_mem_split up

/-- A wheel that is reported clean has only members that stay in every directory, and every member
that leaves one is listed. -/
theorem scanWheel_confines (env : ScannerEnv) (name : String) (content : Bytes) (result : WheelScan)
    (scanned : scanWheel env name content = .ok result) :
    (result.clean = true → ∀ target : String, ['/'] <+: target.toList →
      ∀ member ∈ (env.zip content).namelist, StaysIn target member) ∧
    ∀ target : String, ['/'] <+: target.toList → ∀ member ∈ (env.zip content).namelist,
      ¬ StaysIn target member → "Path traversal: " ++ member ∈ result.issues := by
  obtain ⟨clean, listed⟩ := scanWheel_spec scanned
  constructor
  · intro isClean target absolute member mem
    exact staysIn_of_not_traverses absolute (clean isClean member mem)
  · intro target absolute member mem leaves
    refine listed member mem ?_
    by_contra passed
    exact leaves (staysIn_of_not_traverses absolute (Bool.eq_false_iff.2 passed))

/-- A wheel with these members, each of one byte. -/
def sampleScanner (members : List String) : ScannerEnv where
  sha256 _ := ""
  zip _ := .archive (members.map fun name => ⟨name, 1⟩)

/-- A wheel with a usual member and one that leads to `/etc`. -/
theorem scanWheel_confines_sample : ∃ result,
    scanWheel (sampleScanner ["pkg/__init__.py", "../../etc/passwd"]) "pkg.whl" [] = .ok result ∧
      "Path traversal: ../../etc/passwd" ∈ result.issues := by
  refine ⟨_, rfl, (scanWheel_confines (sampleScanner ["pkg/__init__.py", "../../etc/passwd"])
    "pkg.whl" [] _ rfl).2 "/srv" (by decide) "../../etc/passwd" (by decide) ?_⟩
  decide +kernel

end PackageScanner

end Builder

end Cpip
