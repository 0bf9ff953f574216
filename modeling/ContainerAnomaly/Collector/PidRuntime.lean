import ContainerAnomaly.Bpf.PidRuntime
import ContainerAnomaly.Lib.DeltaPoll
import ContainerAnomaly.Container.Resolver
import Mathlib.Algebra.BigOperators.Fin

/-!
# The CPU runtime collector

`pkg/collector/pidruntime/collector.go`. A poll sums the runtime of every pid over the CPUs,
subtracts what it saw last, and resolves each pid that has run to a container. `pollOnce_eq`
separates the two halves: which pids are due with which deltas is decided by the kernel map
alone, and the container of each is whatever the resolver answers when its turn comes.
-/

namespace ContainerAnomaly.PidRuntime

open Lib Bpf Container

/-- `Row`. -/
structure Row where
  /-- The process, or a thread of it. -/
  pid : UInt32
  /-- Its container, empty for the host. -/
  containerID : GoString
  /-- The time that it has run since the last poll. -/
  runtimeNS : UInt64
deriving DecidableEq

/-- The state a collector keeps between polls. -/
structure Collector where
  /-- `prevSeen`: total runtime of each pid at the last poll. -/
  prevSeen : GoMap UInt32 UInt64

/-- The state `New` sets up. -/
def Collector.new : Collector := ⟨∅⟩

variable {cpus : Nat}

/-- The sum over the per-CPU slice. -/
def sumPerCpu (perCPU : PerCpu cpus CpuAcct) : UInt64 :=
  (List.ofFn perCPU).foldl (fun sum v => sum + v.runtimeNs) 0

/-- The map `current` read from the entries an iteration returned. -/
def readCurrent (visited : List (UInt32 × PerCpu cpus CpuAcct)) : GoMap UInt32 UInt64 :=
  visited.foldl (fun current entry => current.insert entry.1 (sumPerCpu entry.2)) ∅

/-- One round of the emitting loop. The resolver may change with every call. -/
def emit {ρ : Type} (resolve : ρ → UInt32 → GoString × ρ)
    (state : GoMap UInt32 UInt64 × List Row × ρ) (entry : UInt32 × UInt64) :
    GoMap UInt32 UInt64 × List Row × ρ :=
  let prev := GoMap.getD state.1 entry.1 0
  let prevSeen := state.1.insert entry.1 entry.2
  if entry.2 ≤ prev then (prevSeen, state.2)
  else
    let answer := resolve state.2.2 entry.1
    (prevSeen, state.2.1 ++ [⟨entry.1, answer.1, entry.2 - prev⟩], answer.2)

/-- `pollOnce`: the collector after it, the rows of its snapshot, and the resolver after it. -/
def pollOnce {ρ : Type} (resolve : ρ → UInt32 → GoString × ρ) (order : RangeOrder UInt32 UInt64)
    (table : CpuAcctTable cpus) (collector : Collector) (resolver : ρ) :
    Collector × List Row × ρ :=
  let current := readCurrent (table.visited 65536)
  let kept := collector.prevSeen.retain (· ∈ current)
  let result := (current.range order).foldl (emit resolve) (kept, [], resolver)
  (⟨result.1⟩, result.2)

/-- `pollOnce` on the entries its iteration returned, which may be part of the map only. -/
def pollVisited {ρ : Type} (resolve : ρ → UInt32 → GoString × ρ)
    (order : RangeOrder UInt32 UInt64) (visited : List (UInt32 × PerCpu cpus CpuAcct))
    (collector : Collector) (resolver : ρ) : Collector × List Row × ρ :=
  let current := readCurrent visited
  let kept := collector.prevSeen.retain (· ∈ current)
  let result := (current.range order).foldl (emit resolve) (kept, [], resolver)
  (⟨result.1⟩, result.2)

/-- An iteration that nothing interrupts returns every entry. -/
theorem pollOnce_eq_pollVisited {ρ : Type} (resolve : ρ → UInt32 → GoString × ρ)
    (order : RangeOrder UInt32 UInt64) (table : CpuAcctTable cpus) (collector : Collector)
    (resolver : ρ) :
    pollOnce resolve order table collector resolver =
      pollVisited resolve order table.entries collector resolver := by
  rw [← table.visited_eq table.bounded]
  rfl

/-- The sum over the CPUs. -/
theorem sumPerCpu_eq (perCPU : PerCpu cpus CpuAcct) :
    sumPerCpu perCPU = ∑ cpu, (perCPU cpu).runtimeNs := by
  have running (slots : List CpuAcct) (sum : UInt64) :
      slots.foldl (fun sum v => sum + v.runtimeNs) sum =
        sum + (slots.map CpuAcct.runtimeNs).sum := by
    induction slots generalizing sum with
    | nil => simp
    | cons slot slots ih => rw [List.foldl_cons, ih, List.map_cons, List.sum_cons, add_assoc]
  rw [sumPerCpu, running, zero_add, List.map_ofFn, List.sum_ofFn]
  rfl

/-- Changing one slot changes the sum of the runtimes by the difference. -/
theorem sum_update (slots : PerCpu cpus CpuAcct) (cpu : Fin cpus) (slot : CpuAcct) :
    ∑ other, (Function.update slots cpu slot other).runtimeNs =
      ∑ other, (slots other).runtimeNs + (slot.runtimeNs - (slots cpu).runtimeNs) := by
  have pointwise : (fun other => (Function.update slots cpu slot other).runtimeNs) =
      fun other => (slots other).runtimeNs +
        if other = cpu then slot.runtimeNs - (slots cpu).runtimeNs else 0 := by
    funext other
    by_cases same : other = cpu
    · subst same
      simp
    · simp [same]
  rw [pointwise, Finset.sum_add_distrib, Finset.sum_ite_eq' Finset.univ cpu]
  simp

/-- What is due for a pid: its delta, unless the total has not grown. -/
def dueDelta (pid : UInt32) (prev total : UInt64) : Option (UInt32 × UInt64) :=
  if total ≤ prev then none else some (pid, total - prev)

/-- The totals a poll remembers, and the pids it will resolve with their deltas. -/
def due (order : RangeOrder UInt32 UInt64) (table : CpuAcctTable cpus) (collector : Collector) :
    GoMap UInt32 UInt64 × List (UInt32 × UInt64) :=
  DeltaPoll.poll order sumPerCpu 0 dueDelta table.entries collector.prevSeen

/-- The row of a pid that is due. -/
def dueRow (item : UInt32 × UInt64) (cid : GoString) : Row := ⟨item.1, cid, item.2⟩

/-- A poll resolves the pids that are due among those returned. -/
theorem pollVisited_eq {ρ : Type} (resolve : ρ → UInt32 → GoString × ρ)
    (order : RangeOrder UInt32 UInt64) (visited : List (UInt32 × PerCpu cpus CpuAcct))
    (collector : Collector) (resolver : ρ) :
    pollVisited resolve order visited collector resolver =
      let result := DeltaPoll.poll order sumPerCpu 0 dueDelta visited collector.prevSeen
      (⟨result.1⟩, resolveAll resolve Prod.fst dueRow result.2 resolver) := by
  have rounds (entries : List (UInt32 × UInt64)) (seen : GoMap UInt32 UInt64)
      (pids : List (UInt32 × UInt64)) :
      entries.foldl (emit resolve) (seen, resolveAll resolve Prod.fst dueRow pids resolver) =
        let result := entries.foldl (DeltaPoll.report 0 dueDelta) (seen, pids)
        (result.1, resolveAll resolve Prod.fst dueRow result.2 resolver) := by
    induction entries generalizing seen pids with
    | nil => rfl
    | cons entry entries ih =>
      rw [List.foldl_cons, List.foldl_cons, ← ih]
      congr 1
      simp only [emit, DeltaPoll.report, dueDelta]
      by_cases idle : entry.2 ≤ GoMap.getD seen entry.1 0
      · simp [idle]
      · simp [idle, resolveAll_append, resolveAll, dueRow]
  have loop := rounds ((readCurrent visited).range order)
    (collector.prevSeen.retain (· ∈ readCurrent visited)) []
  have start : resolveAll resolve Prod.fst dueRow [] resolver = ([], resolver) := rfl
  rw [start] at loop
  simp only [pollVisited, loop]
  rfl

/-- A poll resolves the pids that are due. -/
theorem pollOnce_eq {ρ : Type} (resolve : ρ → UInt32 → GoString × ρ)
    (order : RangeOrder UInt32 UInt64) (table : CpuAcctTable cpus) (collector : Collector)
    (resolver : ρ) :
    pollOnce resolve order table collector resolver =
      (⟨(due order table collector).1⟩,
        resolveAll resolve Prod.fst dueRow (due order table collector).2 resolver) := by
  rw [pollOnce_eq_pollVisited, pollVisited_eq]
  rfl

end ContainerAnomaly.PidRuntime
