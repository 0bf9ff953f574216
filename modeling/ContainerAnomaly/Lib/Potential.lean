import Mathlib
import ContainerAnomaly.Lib.Machine

/-!
# Potentials

A machine whose every step pays, out of what its input is charged and of a potential of its state,
for what it puts out: in a run it puts out no more than the inputs are charged and the first state
is worth (`Machine.Pays.run`).
-/

namespace ContainerAnomaly.Lib

namespace Machine

variable {σ ι ο : Type} (machine : Machine σ ι ο)

/-- Each step from a sound state pays for its outputs. -/
structure Pays (sound : σ → Prop) (potential : σ → Nat) (charge : ι → Nat) (worth : ο → Nat) :
    Prop where
  /-- A step keeps what is sound. -/
  keeps : ∀ state input, sound state → sound (machine.step state input).1
  /-- The outputs of a step and the potential after it are paid for by the potential before it
  and the charge. -/
  pays : ∀ state input, sound state →
    ((machine.step state input).2.map worth).sum + potential (machine.step state input).1 ≤
      potential state + charge input

variable {machine} {sound : σ → Prop} {potential : σ → Nat} {charge : ι → Nat} {worth : ο → Nat}

/-- In every run, the outputs and the potential that is left are paid for. -/
theorem Pays.run (pays : machine.Pays sound potential charge worth) (start : σ)
    (begins : sound start) (inputs : List ι) :
    ((machine.outputs start inputs).map worth).sum + potential (machine.final start inputs) ≤
      potential start + (inputs.map charge).sum := by
  induction inputs generalizing start with
  | nil => simp [outputs]
  | cons input inputs ih =>
    have rest := ih _ (pays.keeps start input begins)
    have first := pays.pays start input begins
    rw [outputs_cons, final_cons, List.map_append, List.sum_append, List.map_cons, List.sum_cons]
    omega

end Machine

end ContainerAnomaly.Lib
