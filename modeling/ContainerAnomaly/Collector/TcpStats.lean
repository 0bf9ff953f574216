import ContainerAnomaly.Bpf.TcpStats
import ContainerAnomaly.Container.Resolver
import ContainerAnomaly.Lib.DeltaPoll
import Mathlib.Algebra.BigOperators.Fin

/-!
# The TCP collector

`pkg/collector/tcpstats/collector.go`. A poll reads and deletes every entry of the kernel map,
sums each over the CPUs, and resolves each thread group to a container. `pollOnce_eq` separates
reading from resolving.
-/

namespace ContainerAnomaly.TcpStats

open Lib Bpf Container

/-- `Stats`. -/
structure Stats where
  /-- The process. -/
  tgid : UInt32
  /-- Its container, empty for the host. -/
  containerID : GoString
  /-- The bytes sent since the last poll. -/
  bytesTx : UInt64
  /-- The bytes received. -/
  bytesRx : UInt64
  /-- How often bytes were sent. -/
  pktsTx : UInt64
  /-- How often bytes were received. -/
  pktsRx : UInt64
  /-- The segments sent again. -/
  retransmits : UInt64
deriving DecidableEq

variable {cpus : Nat}

/-- The sums over the per-CPU slice, before a container is known. -/
def sumPerCpu (tgid : UInt32) (perCPU : PerCpu cpus Bpf.TcpStats) : Stats :=
  (List.ofFn perCPU).foldl (fun sum v =>
    { sum with
      bytesTx := sum.bytesTx + v.bytesTx
      bytesRx := sum.bytesRx + v.bytesRx
      pktsTx := sum.pktsTx + v.pktsTx
      pktsRx := sum.pktsRx + v.pktsRx
      retransmits := sum.retransmits + v.retransmits }) ⟨tgid, [], 0, 0, 0, 0, 0⟩

/-- The first half of `pollOnce`: read and delete every entry. -/
def readAndClear (table : TcpTable cpus) : TcpTable cpus × GoMap UInt32 Stats :=
  let drained := table.drain 10240
  (drained.1, drained.2.foldl (fun perTgid entry =>
    perTgid.insert entry.1 (sumPerCpu entry.1 entry.2)) ∅)

/-- `pollOnce`: the map after it, the rows of its snapshot, and the resolver after it. -/
def pollOnce {ρ : Type} (resolve : ρ → UInt32 → GoString × ρ) (order : RangeOrder UInt32 Stats)
    (table : TcpTable cpus) (resolver : ρ) : TcpTable cpus × List Stats × ρ :=
  let read := readAndClear table
  (read.1, (read.2.range order).foldl (fun state entry =>
    let answer := resolve state.2 entry.2.tgid
    (state.1 ++ [{ entry.2 with containerID := answer.1 }], answer.2)) ([], resolver))

/-- The counters of a row. -/
def Stats.counters (stats : Stats) : Bpf.TcpStats :=
  ⟨stats.bytesTx, stats.bytesRx, stats.pktsTx, stats.pktsRx, stats.retransmits⟩

/-- The sums of a poll are sums over the CPUs, for the thread group they were read of. -/
theorem sumPerCpu_eq (tgid : UInt32) (perCPU : PerCpu cpus Bpf.TcpStats) :
    (sumPerCpu tgid perCPU).tgid = tgid ∧
      (sumPerCpu tgid perCPU).counters = ∑ cpu, perCPU cpu := by
  have running (slots : List Bpf.TcpStats) (sum : Stats) :
      let result := slots.foldl (fun sum v =>
        { sum with
          bytesTx := sum.bytesTx + v.bytesTx
          bytesRx := sum.bytesRx + v.bytesRx
          pktsTx := sum.pktsTx + v.pktsTx
          pktsRx := sum.pktsRx + v.pktsRx
          retransmits := sum.retransmits + v.retransmits }) sum
      result.tgid = sum.tgid ∧ result.counters = sum.counters + slots.sum := by
    induction slots generalizing sum with
    | nil => simp
    | cons slot slots ih =>
      rw [List.foldl_cons, List.sum_cons, ← add_assoc]
      exact ih _
  obtain ⟨tgids, counters⟩ := running (List.ofFn perCPU) ⟨tgid, [], 0, 0, 0, 0, 0⟩
  refine ⟨tgids, ?_⟩
  have zero : Stats.counters ⟨tgid, [], 0, 0, 0, 0, 0⟩ = 0 := rfl
  rw [zero, zero_add, List.sum_ofFn] at counters
  exact counters

/-- The thread groups a poll has read, in the order it resolves them. -/
def due (order : RangeOrder UInt32 Stats) (table : TcpTable cpus) : List Stats :=
  ((readAndClear table).2.range order).map Prod.snd

/-- The row of a thread group that is due. -/
def dueRow (stats : Stats) (cid : GoString) : Stats := { stats with containerID := cid }

/-- A poll empties the map and resolves what it has read. -/
theorem pollOnce_eq {ρ : Type} (resolve : ρ → UInt32 → GoString × ρ)
    (order : RangeOrder UInt32 Stats) (table : TcpTable cpus) (resolver : ρ) :
    pollOnce resolve order table resolver =
      ((readAndClear table).1,
        resolveAll resolve Stats.tgid dueRow (due order table) resolver) := by
  have rounds (entries : List (UInt32 × Stats)) (items : List Stats) :
      entries.foldl (fun state entry =>
        let answer := resolve state.2 entry.2.tgid
        (state.1 ++ [{ entry.2 with containerID := answer.1 }], answer.2))
          (resolveAll resolve Stats.tgid dueRow items resolver) =
        resolveAll resolve Stats.tgid dueRow (items ++ entries.map Prod.snd) resolver := by
    induction entries generalizing items with
    | nil => simp
    | cons entry entries ih =>
      have split : items ++ (entry :: entries).map Prod.snd =
          (items ++ [entry.2]) ++ entries.map Prod.snd := by simp
      rw [split, ← ih, List.foldl_cons]
      congr 1
      simp [resolveAll_append, resolveAll, dueRow]
  exact Prod.ext rfl (rounds _ [])

/-- A poll leaves no entry in the map. -/
theorem readAndClear_empty (table : TcpTable cpus) : (readAndClear table).1.entries = [] :=
  (table.drain_eq table.bounded).2

/-- What a poll has read: for every entry, its sums over the CPUs. -/
theorem mem_due (order : RangeOrder UInt32 Stats) (table : TcpTable cpus) (stats : Stats) :
    stats ∈ due order table ↔
      ∃ slots, table.lookup stats.tgid = some slots ∧ stats = sumPerCpu stats.tgid slots := by
  have read : (readAndClear table).2 = DeltaPoll.collect id
      (table.entries.map fun entry => (entry.1, sumPerCpu entry.1 entry.2)) := by
    rw [readAndClear, (table.drain_eq table.bounded).1, DeltaPoll.collect, List.foldl_map]
    rfl
  have distinct : ((table.entries.map fun entry =>
      (entry.1, sumPerCpu entry.1 entry.2)).map Prod.fst).Nodup := by
    rw [List.map_map]
    exact table.distinct
  have listed (key : UInt32) : (key, stats) ∈ (readAndClear table).2.range order ↔
      ∃ slots, (key, slots) ∈ table.entries ∧ sumPerCpu key slots = stats := by
    rw [GoMap.mem_range_iff, read, DeltaPoll.lookup_collect id _ distinct]
    simp only [List.mem_map, id, exists_eq_right, Prod.mk.injEq]
    constructor
    · rintro ⟨⟨first, slots⟩, inside, rfl, sums⟩
      exact ⟨slots, inside, sums⟩
    · rintro ⟨slots, inside, sums⟩
      exact ⟨(key, slots), inside, rfl, sums⟩
  simp only [due, List.mem_map, Prod.exists, exists_eq_right, listed]
  constructor
  · rintro ⟨key, slots, inside, rfl⟩
    rw [(sumPerCpu_eq key slots).1]
    exact ⟨slots, (table.lookup_eq_some_iff key slots).mpr inside, rfl⟩
  · rintro ⟨slots, found, sums⟩
    exact ⟨stats.tgid, slots, (table.lookup_eq_some_iff _ slots).mp found, sums.symm⟩

end ContainerAnomaly.TcpStats
