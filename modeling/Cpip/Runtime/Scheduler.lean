import Cpip.Python.Text
import Cpip.Client.Resolver

/-!
# The execution scheduler (`runtime/scheduler.py`)

Where a method call is executed is decided from its dotted name, the device and the size of its
arguments.
-/

namespace Cpip

/-- `piece in s`. -/
def pyIn (piece s : String) : Bool := decide (piece.toList <:+: s.toList)

inductive SchedulerDecision where
  | here | cloud | hybrid | gpu
  deriving DecidableEq, Repr

/-- `ScheduleResult`; 1 is the highest priority. -/
structure ScheduleResult where
  decision : SchedulerDecision
  reason : String
  priority : ℕ
  deriving DecidableEq, Repr

/-- `ExecutionScheduler`: what it knows of the device, and the functions that it calls. -/
structure ExecutionScheduler where
  hasGpu : Bool
  /-- `str.lower`. -/
  lower : String → String
  /-- `_estimate_size`. -/
  estimateSize : PyVal → ℤ

namespace ExecutionScheduler

/-- `method.split(".")[0]`. -/
def topPackage (method : String) : String := (splitDots method).head?.getD ""

def gpuMethods : List String := ["cuda", "gpu", "to('cuda')", ".cuda()", "npu"]

def gpuPackages : List String := ["torch", "tensorflow", "jax", "cupy"]

/-- `_needs_gpu`. -/
def needsGpu (lower : String → String) (method : String) : Bool :=
  decide (topPackage method ∈ gpuPackages) || gpuMethods.any fun g => pyIn g (lower method)

variable (e : ExecutionScheduler)

/-- `_is_large_operation`: more than 100 MB. -/
def isLargeOperation (args : List PyVal) : Bool :=
  decide (100 * 1024 * 1024 < (args.map e.estimateSize).sum)

def schedule (method : String) (args : List PyVal) : ScheduleResult :=
  let top := topPackage method
  if needsGpu e.lower method then
    if e.hasGpu then ⟨.here, "Local GPU available", 5⟩
    else ⟨.gpu, "GPU operation → cloud GPU", 2⟩
  else if top ∈ cloudPreferredPackages then ⟨.cloud, top ++ " is cloud-preferred", 3⟩
  else if e.isLargeOperation args then ⟨.cloud, "Large data operation", 4⟩
  else ⟨.here, "Standard local execution", 8⟩

/-- A call goes to a cloud GPU exactly when it needs a GPU and the device has none. -/
theorem decision_schedule_eq_gpu_iff (method : String) (args : List PyVal) :
    (e.schedule method args).decision = .gpu ↔
      needsGpu e.lower method = true ∧ e.hasGpu = false := by
  unfold schedule
  cases needsGpu e.lower method with
  | true => cases e.hasGpu <;> simp
  | false =>
    simp only [Bool.false_eq_true, if_false, false_and, iff_false]
    split_ifs <;> simp

end ExecutionScheduler

end Cpip
