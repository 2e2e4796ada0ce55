import Cpip.Runtime.Scheduler

/-!
# The execution pool (`executor/pool.py`, `executor/gpu_runtime.py`, `executor/browser_runtime.py`)

The pool chooses the runtime of a method call, and with it the sandbox.  It tells GPU operations by
other words than the scheduler of the client does.
-/

namespace Cpip

/-- `SandboxConfig`. -/
structure SandboxConfig where
  memoryLimit : String := "4g"
  cpuLimit : ℚ := 4
  timeout : ℕ := 600
  network : Bool := false
  gpu : Bool := false
  image : String := "python:3.11-slim"
  deriving DecidableEq, Repr

/-- The command of `Sandbox.execute`, for a generated container name. -/
def SandboxConfig.command (floatStr : ℚ → String) (name code : String) (cfg : SandboxConfig) :
    List String :=
  ["docker", "run", "--rm", "--name", name, "--memory=" ++ cfg.memoryLimit,
    "--cpus=" ++ floatStr cfg.cpuLimit, "--read-only",
    "--tmpfs", "/tmp:rw,noexec,nosuid,size=256m"] ++
  (if cfg.network then [] else ["--network=none"]) ++
  (if cfg.gpu then ["--gpus", "all"] else []) ++
  [cfg.image, "python", "-c", code]

/-- The container has a GPU exactly when the configuration says so. -/
theorem SandboxConfig.mem_command_iff (floatStr : ℚ → String) (name code : String)
    (cfg : SandboxConfig) (named : ∀ s ∈ [name, cfg.image, code], s ≠ "--gpus") :
    "--gpus" ∈ cfg.command floatStr name code ↔ cfg.gpu = true := by
  have memory : "--gpus" ≠ "--memory=" ++ cfg.memoryLimit := fun h => by
    simpa using congrArg String.toList h
  have cpus : "--gpus" ≠ "--cpus=" ++ floatStr cfg.cpuLimit := fun h => by
    simpa using congrArg String.toList h
  simp only [List.forall_mem_cons, List.not_mem_nil, false_implies, implies_true, and_true] at named
  cases network : cfg.network <;> cases gpu : cfg.gpu <;>
    simp [command, network, gpu, memory, cpus, named.1.symm, named.2.1.symm, named.2.2.symm]

/-- What a sandbox is asked to run.  The script of a browser call is any value. -/
structure SandboxCall where
  code : PyVal
  config : SandboxConfig

/-- `repr` of the positional and of the keyword arguments. -/
structure ArgsRepr where
  args : List PyVal → String
  kwargs : Dict String PyVal → String

namespace GpuRuntime

variable (r : ArgsRepr)

/-- `_build_torch_code`. -/
def buildTorchCode (method : String) (args : List PyVal) (kwargs : Dict String PyVal) : String :=
  "\nimport torch, json, sys\nresult = " ++ method ++ "(*" ++ r.args args ++ ", **" ++
    r.kwargs kwargs ++ ")\nif hasattr(result, 'tolist'): result = result.tolist()\n" ++
    "print(json.dumps(\x7b\"result\": result\x7d))\n"

/-- `_build_tf_code`. -/
def buildTfCode (method : String) (args : List PyVal) (kwargs : Dict String PyVal) : String :=
  "\nimport tensorflow as tf, json\nresult = " ++ method ++ "(*" ++ r.args args ++ ", **" ++
    r.kwargs kwargs ++ ")\nif hasattr(result, 'numpy'): result = result.numpy().tolist()\n" ++
    "print(json.dumps(\x7b\"result\": result\x7d))\n"

def executeTorch (method : String) (args : List PyVal) (kwargs : Dict String PyVal) :
    SandboxCall where
  code := .atom (.str (buildTorchCode r method args kwargs))
  config := { gpu := true, image := "pytorch/pytorch:latest", memoryLimit := "8g" }

def executeTensorflow (method : String) (args : List PyVal) (kwargs : Dict String PyVal) :
    SandboxCall where
  code := .atom (.str (buildTfCode r method args kwargs))
  config := { gpu := true, image := "tensorflow/tensorflow:latest-gpu", memoryLimit := "8g" }

end GpuRuntime

/-- `BrowserRuntime.run_playwright`. -/
def BrowserRuntime.runPlaywright (script : PyVal) : SandboxCall where
  code := script
  config := { image := "mcr.microsoft.com/playwright/python:latest", network := true,
              memoryLimit := "4g", timeout := 120 }

namespace ExecutionPool

variable (lower : String → String) (r : ArgsRepr)

/-- `_needs_gpu`. -/
def needsGpu (method : String) : Bool :=
  ["torch", "cuda", "tensorflow", "jax", "cupy"].any fun g => pyIn g (lower method)

/-- `_build_code`. -/
def buildCode (method : String) (args : List PyVal) (kwargs : Dict String PyVal) : String :=
  match rsplitDot method with
  | some (module, _) =>
    "import " ++ module ++ "; import json; r = " ++ method ++ "(*" ++ r.args args ++ ", **" ++
      r.kwargs kwargs ++ "); print(json.dumps(\x7b'result': str(r)\x7d))"
  | none => "import json; print(json.dumps(\x7b'result': 'no-op'\x7d))"

/-- The runtime that is found by name when the call is not for the GPU. -/
def executeElsewhere (method : String) (args : List PyVal) (kwargs : Dict String PyVal)
    (mode : String) : SandboxCall :=
  if mode = "browser" ∨ pyIn "playwright" method then
    BrowserRuntime.runPlaywright ((kwargs.get? "script").getD (.atom (.str "")))
  else ⟨.atom (.str (buildCode r method args kwargs)), {}⟩

def execute (method : String) (args : List PyVal) (kwargs : Dict String PyVal) (mode : String) :
    SandboxCall :=
  if mode = "gpu" ∨ needsGpu lower method then
    if pyIn "torch" method then GpuRuntime.executeTorch r method args kwargs
    else if pyIn "tensorflow" method ∨ pyIn "tf." method then
      GpuRuntime.executeTensorflow r method args kwargs
    else executeElsewhere r method args kwargs mode
  else executeElsewhere r method args kwargs mode

/-- The method names a library that the GPU runtime has. -/
def NamesGpuLibrary (method : String) : Prop :=
  pyIn "torch" method ∨ pyIn "tensorflow" method ∨ pyIn "tf." method

instance : DecidablePred NamesGpuLibrary := fun _ => inferInstanceAs (Decidable (_ ∨ _ ∨ _))

theorem gpu_executeElsewhere (method : String) (args : List PyVal) (kwargs : Dict String PyVal)
    (mode : String) : (executeElsewhere r method args kwargs mode).config.gpu = false := by
  unfold executeElsewhere
  split_ifs <;> rfl

/-- A sandbox has a GPU exactly when the method names a library that the GPU runtime has, and the
mode or the method asks for a GPU. -/
theorem gpu_execute_iff (method : String) (args : List PyVal) (kwargs : Dict String PyVal)
    (mode : String) : (execute lower r method args kwargs mode).config.gpu = true ↔
      (mode = "gpu" ∨ needsGpu lower method) ∧ NamesGpuLibrary method := by
  unfold execute NamesGpuLibrary
  by_cases asked : mode = "gpu" ∨ needsGpu lower method
  · rw [if_pos asked]
    by_cases torch : pyIn "torch" method
    · simp [torch, asked, GpuRuntime.executeTorch]
    · by_cases tensorflow : pyIn "tensorflow" method ∨ pyIn "tf." method
      · simp [torch, tensorflow, asked, GpuRuntime.executeTensorflow]
      · rw [if_neg torch, if_neg tensorflow, gpu_executeElsewhere]
        simp [torch, not_or.1 tensorflow]
  · rw [if_neg asked, gpu_executeElsewhere]
    simp [asked]

/-- What the scheduler sends to a cloud GPU runs in a sandbox with a GPU exactly when the method
names a library that the GPU runtime has, or the scheduler does not ask for a GPU at all. -/
theorem scheduled_gpu_has_gpu_iff (estimateSize : PyVal → ℤ) (method : String) (args : List PyVal)
    (kwargs : Dict String PyVal) :
    ((ExecutionScheduler.schedule ⟨false, lower, estimateSize⟩ method args).decision = .gpu →
        (execute lower r method args kwargs "gpu").config.gpu = true) ↔
      (NamesGpuLibrary method ∨ ExecutionScheduler.needsGpu lower method = false) := by
  rw [ExecutionScheduler.decision_schedule_eq_gpu_iff, gpu_execute_iff]
  cases ExecutionScheduler.needsGpu lower method <;> simp

/-- `jax.numpy.dot` is a GPU operation for both, but the pool has no GPU runtime for it. -/
theorem scheduled_gpu_without_gpu :
    let lower := fun s : String => String.ofList (s.toList.map Char.toLower)
    (ExecutionScheduler.schedule ⟨false, lower, fun _ => 0⟩ "jax.numpy.dot" []).decision = .gpu ∧
      (execute lower ⟨fun _ => "[]", fun _ => "{}"⟩ "jax.numpy.dot" [] ∅ "gpu").config.gpu =
        false := by
  decide +kernel

end ExecutionPool

end Cpip
