import ContainerAnomaly.Lib.Machine
import Mathlib.Algebra.BigOperators.Fin
import Mathlib.Tactic.Abel

/-!
# Processes that share a store

A program is run by several processes on one store; each of its atomic steps changes the store and
the place where the process stands. A run takes the steps of the processes in any order. When every
step settles in the store what the process owes by moving on, a run settles it as a whole
(`Ledger.run`).
-/

namespace ContainerAnomaly.Lib

/-- A program for processes of type `ι` on a store of type `σ`: the next atomic step of a process
that stands at a place, with what it puts out. -/
structure Shared (ι σ π ο : Type) where
  /-- The step of a process, on what is shared and where it is. -/
  step : ι → σ → π → (σ × π) × List ο

namespace Shared

variable {ι σ π ο : Type} (program : Shared ι σ π ο)

/-- What a process makes of the store and of its place in some steps that nothing comes between. -/
def alone (process : ι) (steps : Nat) (state : σ × π) : σ × π :=
  (fun state => (program.step process state.1 state.2).1)^[steps] state

/-- No steps change nothing. -/
theorem alone_zero (process : ι) (state : σ × π) : program.alone process 0 state = state := rfl

/-- The next step of a process on its own. -/
theorem alone_succ (process : ι) (steps : Nat) (state : σ × π) :
    program.alone process (steps + 1) state =
      program.alone process steps (program.step process state.1 state.2).1 := rfl

variable [DecidableEq ι]

/-- The processes together; the input of a step is the process that takes it. -/
def machine : Machine (σ × (ι → π)) ι ο where
  step state process :=
    let taken := program.step process state.1 (state.2 process)
    ((taken.1.1, Function.update state.2 process taken.1.2), taken.2)

/-- A step moves its own process. -/
theorem step_self (state : σ × (ι → π)) (process : ι) :
    (program.machine.step state process).1.2 process =
      (program.step process state.1 (state.2 process)).1.2 :=
  Function.update_self _ _ _

/-- A process that nothing comes between is on its own. -/
theorem final_replicate (state : σ × (ι → π)) (process : ι) (steps : Nat) :
    program.machine.final state (List.replicate steps process) =
      ((program.alone process steps (state.1, state.2 process)).1,
        Function.update state.2 process
          (program.alone process steps (state.1, state.2 process)).2) := by
  induction steps generalizing state with
  | zero => simp [alone]
  | succ steps ih =>
    rw [List.replicate_succ, Machine.final_cons, ih, step_self, alone_succ]
    show (_, Function.update (Function.update state.2 process _) process _) = _
    rw [Function.update_idem]
    rfl

/-- What holds at the start and is kept by every step of every process holds after every run. -/
theorem always (holds : σ × (ι → π) → Prop)
    (kept : ∀ state process, holds state → holds (program.machine.step state process).1)
    {start : σ × (ι → π)} (begins : holds start) (processes : List ι) :
    holds (program.machine.final start processes) :=
  program.machine.invariant_always (fun _ => holds) begins
    (fun _ state process held => kept state process held) processes

section Ledger

variable {μ : Type} [AddCommMonoid μ]

/-- While `holds` does, what the store holds and what is put out grows by what the process owes
for the place it moves to. -/
structure Ledger (holds : σ × (ι → π) → Prop) (total : σ → μ) (owed : ι → π → μ) (cost : ο → μ) :
    Prop where
  /-- A step keeps what holds. -/
  kept : ∀ state process, holds state → holds (program.machine.step state process).1
  /-- What a step adds to the store and puts out, its process comes to owe. -/
  settled : ∀ state process, holds state → ∃ amount,
    total (program.step process state.1 (state.2 process)).1.1 +
        ((program.step process state.1 (state.2 process)).2.map cost).sum =
      total state.1 + amount ∧
    owed process (program.step process state.1 (state.2 process)).1.2 =
      owed process (state.2 process) + amount

variable [Fintype ι] {program} {holds : σ × (ι → π) → Prop} {total : σ → μ} {owed : ι → π → μ}
  {cost : ο → μ}

/-- Only the process that moves owes more. -/
theorem sum_owed_update (places : ι → π) (process : ι) (place : π) (amount : μ)
    (more : owed process place = owed process (places process) + amount) :
    ∑ other, owed other (Function.update places process place other) =
      ∑ other, owed other (places other) + amount := by
  have pointwise : (fun other => owed other (Function.update places process place other)) =
      fun other => owed other (places other) + if other = process then amount else 0 := by
    funext other
    by_cases same : other = process
    · subst same
      simp [more]
    · simp [same]
  rw [pointwise, Finset.sum_add_distrib, Finset.sum_ite_eq' Finset.univ process]
  simp

/-- In every run, in any order of steps, the store and the outputs have grown by what the
processes owe for the places they have reached. -/
theorem Ledger.run (ledger : program.Ledger holds total owed cost) {start : σ × (ι → π)}
    (begins : holds start) (processes : List ι) :
    total (program.machine.final start processes).1 +
        ((program.machine.outputs start processes).map cost).sum +
        ∑ process, owed process (start.2 process) =
      total start.1 +
        ∑ process, owed process ((program.machine.final start processes).2 process) := by
  induction processes using List.reverseRecOn with
  | nil => simp [Machine.outputs]
  | append_singleton processes process ih =>
    let state := program.machine.final start processes
    let taken := program.machine.step state process
    let spent := ((program.machine.outputs start processes).map cost).sum
    let begun := ∑ other, owed other (start.2 other)
    have held : holds state := program.always holds ledger.kept begins processes
    obtain ⟨amount, paid, more⟩ := ledger.settled state process held
    have store : total taken.1.1 + (taken.2.map cost).sum = total state.1 + amount := paid
    have grown : ∑ other, owed other (taken.1.2 other) =
      ∑ other, owed other (state.2 other) + amount := sum_owed_update _ process _ amount more
    rw [Machine.final_snoc, Machine.outputs_snoc, List.map_append, List.sum_append]
    show total taken.1.1 + (spent + (taken.2.map cost).sum) + begun =
      total start.1 + ∑ other, owed other (taken.1.2 other)
    calc total taken.1.1 + (spent + (taken.2.map cost).sum) + begun
        = (total taken.1.1 + (taken.2.map cost).sum) + (spent + begun) := by abel
      _ = (total state.1 + spent + begun) + amount := by rw [store]; abel
      _ = total start.1 + ∑ other, owed other (taken.1.2 other) := by
        rw [grown, ← add_assoc, ← ih]

end Ledger

end Shared

end ContainerAnomaly.Lib
