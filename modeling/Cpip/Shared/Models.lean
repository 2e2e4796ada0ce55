import Cpip.Python.Value

/-!
# Packages and builds (`shared/models.py`)

The part of the package models that the client decides by, and the models of the builds.
-/

namespace Cpip

/-- How a package should be provided to the client. -/
inductive PackageStrategy where
  | localInstall
  | termuxPkg
  | cloudWheel
  | cloudBuild
  | cloudExec
  | hybrid
  deriving DecidableEq, Repr

def PackageStrategy.value : PackageStrategy → String
  | .localInstall => "local_install"
  | .termuxPkg => "termux_pkg"
  | .cloudWheel => "cloud_wheel"
  | .cloudBuild => "cloud_build"
  | .cloudExec => "cloud_exec"
  | .hybrid => "hybrid"

/-- A strategy that uses the cloud. -/
def PackageStrategy.IsCloud : PackageStrategy → Prop
  | .localInstall => False
  | .termuxPkg => False
  | _ => True

instance (s : PackageStrategy) : Decidable s.IsCloud := by
  cases s <;> unfold PackageStrategy.IsCloud <;> infer_instance

/-- Package metadata from the cloud registry. -/
structure PackageInfo where
  name : String
  version : String
  strategy : PackageStrategy
  wheelUrl : Option String
  wheelHash : Option String
  requiresGpu : Bool
  deriving DecidableEq, Repr

/-- Result of resolving how to provide a package. -/
structure PackageResolution where
  package : String
  version : String
  strategy : PackageStrategy
  info : Option PackageInfo
  fallbackStrategies : List PackageStrategy
  reason : String
  deriving DecidableEq, Repr

/-- Status of a cloud build job. -/
inductive BuildStatus where
  | queued
  | building
  | succeeded
  | failed
  | cancelled
  deriving DecidableEq, Repr

/-- Request to build a package, without the fields that nothing reads. -/
structure BuildRequest where
  requestId : String
  packageName : String
  packageVersion : String
  targetArchitecture : String
  pythonVersion : String
  priority : ℤ
  deriving DecidableEq, Repr

/-- Result of a cloud build. -/
structure BuildResult where
  requestId : String
  status : BuildStatus
  packageName : String
  packageVersion : String
  wheelUrl : Option String
  wheelHash : Option String
  wheelSize : ℤ
  buildLog : String
  durationSeconds : ℚ
  error : Option String
  deriving DecidableEq, Repr

end Cpip
