import ContainerAnomaly.Collector.TcpPolling
import ContainerAnomaly.Lib.Potential
import ContainerAnomaly.Lib.Regroup
import Mathlib.Algebra.Order.BigOperators.Group.Finset

/-!
# No byte is reported twice

A poll that reads while the probes go on counting may lose counters, and an iterator that starts
over may return a thread group again. Whatever the steps, the rows of a thread group never report
more of a counter than was counted for it (`rows_le`), and all rows together no more than was
counted (`reported_le_counted`): a counter is in the map, in a reading of the poll in progress, or
in a row, once.
-/

namespace ContainerAnomaly.TcpStats

open Lib Bpf Container

/-- One of the counters. -/
structure Part where
  /-- The number in a counter. -/
  of : Bpf.TcpStats → UInt64
  /-- An empty counter has none. -/
  zero : of 0 = 0
  /-- Counters are added number by number. -/
  add : ∀ left right, of (left + right) = of left + of right

namespace Part

/-- Bytes sent. -/
def bytesTx : Part := ⟨Bpf.TcpStats.bytesTx, rfl, fun _ _ => rfl⟩

/-- Bytes received. -/
def bytesRx : Part := ⟨Bpf.TcpStats.bytesRx, rfl, fun _ _ => rfl⟩

/-- Retransmissions. -/
def retransmits : Part := ⟨Bpf.TcpStats.retransmits, rfl, fun _ _ => rfl⟩

variable {cpus : Nat} (part : Part)

/-- What the CPUs have of it for a thread group, without wrapping. -/
def slots (table : TcpTable cpus) (tgid : UInt32) : Nat :=
  ∑ cpu, (part.of ((table.lookup tgid).getD (fun _ => {}) cpu)).toNat

/-- Adding wraps down only. -/
theorem toNat_add_le (left right : Bpf.TcpStats) :
    (part.of (left + right)).toNat ≤ (part.of left).toNat + (part.of right).toNat := by
  rw [part.add, UInt64.toNat_add]
  exact Nat.mod_le _ _

/-- The total of a thread group is no more than what the CPUs have. -/
theorem toNat_tcpTotal_le (table : TcpTable cpus) (tgid : UInt32) :
    (part.of (tcpTotal table tgid)).toNat ≤ part.slots table tgid := by
  unfold tcpTotal slots
  induction (Finset.univ : Finset (Fin cpus)) using Finset.induction_on with
  | empty => rw [Finset.sum_empty, Finset.sum_empty, part.zero]; rfl
  | insert cpu cpus fresh ih =>
    rw [Finset.sum_insert fresh, Finset.sum_insert fresh]
    exact (part.toNat_add_le _ _).trans (Nat.add_le_add_left ih _)

/-- A thread group without an entry has nothing. -/
theorem slots_eq_zero {table : TcpTable cpus} {tgid : UInt32}
    (missing : table.lookup tgid = none) : part.slots table tgid = 0 := by
  rw [slots, missing]
  refine Finset.sum_eq_zero fun cpu _ => ?_
  show (part.of 0).toNat = 0
  rw [part.zero]
  rfl

/-- Deleting a thread group leaves the others alone. -/
theorem slots_erase (table : TcpTable cpus) (key tgid : UInt32) :
    part.slots (table.erase key) tgid = if tgid = key then 0 else part.slots table tgid := by
  by_cases same : tgid = key
  · rw [if_pos same]
    exact part.slots_eq_zero (by rw [HashTable.lookup_erase, if_pos same])
  · rw [if_neg same, slots, HashTable.lookup_erase, if_neg same]
    rfl

/-- A call of `bump` adds no more than it counts. -/
theorem slots_bump_le (layout : Layout UInt32) (table : TcpTable cpus) (cpu : Fin cpus)
    (running : UInt32) (txB rxB retrans : UInt64) (tgid : UInt32) :
    part.slots (bump layout table cpu running txB rxB retrans) tgid ≤
      part.slots table tgid +
        if running = tgid then (part.of (.fresh txB rxB retrans)).toNat else 0 := by
  rcases bump_cases layout table cpu running txB rxB retrans with ⟨_, stored⟩ | ⟨_, same⟩
  · by_cases own : tgid = running
    · subst own
      rw [if_pos rfl, slots, slots, stored tgid, if_pos rfl]
      dsimp only [Option.getD_some]
      rw [← Finset.add_sum_erase _ _ (Finset.mem_univ cpu),
        ← Finset.add_sum_erase (Finset.univ : Finset (Fin cpus))
          (fun cpu => (part.of ((table.lookup tgid).getD (fun _ => {}) cpu)).toNat)
          (Finset.mem_univ cpu), Function.update_self]
      have others : ∀ other ∈ Finset.univ.erase cpu,
          (part.of (Function.update ((table.lookup tgid).getD fun _ => {}) cpu
            ((table.lookup tgid).getD (fun _ => {}) cpu + .fresh txB rxB retrans) other)).toNat =
          (part.of ((table.lookup tgid).getD (fun _ => {}) other)).toNat := by
        intro other apart
        rw [Function.update_of_ne (Finset.ne_of_mem_erase apart)]
      rw [Finset.sum_congr rfl others]
      have grown := part.toNat_add_le ((table.lookup tgid).getD (fun _ => {}) cpu)
        (.fresh txB rxB retrans)
      omega
    · rw [slots, slots, stored tgid, if_neg own]
      exact Nat.le_add_right _ _
  · rw [same]
    exact Nat.le_add_right _ _

end Part

section Group

variable {cpus : Nat} {ρ : Type} (part : Part) (tgid : UInt32)

/-- What the map and the poll in progress have of a thread group, but for an entry that was read
and is not yet deleted. -/
def Polling.pending (state : Polling cpus ρ) : Nat :=
  (part.of (state.reading tgid)).toNat +
    if state.between tgid then 0 else part.slots state.table tgid

/-- What a step counts for a thread group. -/
def counts : PollStep cpus → Nat
  | .bump _ running txB rxB retrans =>
    if running = tgid then (part.of (.fresh txB rxB retrans)).toNat else 0
  | _ => 0

/-- What a row reports of a thread group. -/
def reports (row : Stats) : Nat := if row.tgid = tgid then (part.of row.counters).toNat else 0

variable (layout : Layout UInt32) (budget : Nat) (resolve : ρ → UInt32 → GoString × ρ)

/-- The rows of a snapshot report the reading of the poll. -/
theorem sum_snapshot (poll : Poll) (order : RangeOrder UInt32 Stats) (resolver : ρ)
    (filed : ∀ key stats, poll.perTgid.lookup key = some stats → stats.tgid = key) :
    ((resolveAll resolve Stats.tgid dueRow ((poll.perTgid.range order).map Prod.snd)
        resolver).1.map (reports part tgid)).sum =
      (part.of (((poll.perTgid.lookup tgid).map Stats.counters).getD 0)).toNat := by
  have resolved : ∀ (items : List Stats) (current : ρ),
      (resolveAll resolve Stats.tgid dueRow items current).1.map (reports part tgid) =
        items.map (reports part tgid) := by
    intro items
    induction items with
    | nil => exact fun _ => rfl
    | cons item items ih => exact fun current => congrArg (List.cons _) (ih _)
  have own : ((poll.perTgid.range order).map Prod.snd).map (reports part tgid) =
      (poll.perTgid.range order).map fun entry =>
        if entry.1 = tgid then (part.of entry.2.counters).toNat else 0 := by
    rw [List.map_map]
    refine List.map_congr_left fun entry inside => ?_
    have stored := (GoMap.mem_range_iff order poll.perTgid entry.1 entry.2).mp inside
    simp only [Function.comp_apply, reports, filed entry.1 entry.2 stored]
  rw [resolved, own, List.sum_map_ite, GoMap.filter_range]
  cases poll.perTgid.lookup tgid with
  | none => simp [part.zero]
  | some stats => simp

/-- Every step pays for the rows it puts out. -/
theorem polling_pays :
    (polling layout budget resolve : Machine (Polling cpus ρ) _ _).Pays Polling.Filed
      (Polling.pending part tgid) (counts part tgid) (reports part tgid) := by
  refine ⟨fun state taken filed => filed.step layout budget resolve taken,
    fun state taken filed => ?_⟩
  change ((state.step layout budget resolve taken).2.map (reports part tgid)).sum +
      Polling.pending part tgid (state.step layout budget resolve taken).1 ≤
    Polling.pending part tgid state + counts part tgid taken
  cases taken with
  | bump cpu running txB rxB retrans =>
    have grown := part.slots_bump_le layout state.table cpu running txB rxB retrans tgid
    have reading : (state.step layout budget resolve
        (.bump cpu running txB rxB retrans)).1.reading tgid = state.reading tgid := rfl
    have between : (state.step layout budget resolve
        (.bump cpu running txB rxB retrans)).1.between tgid = state.between tgid := rfl
    show 0 + Polling.pending part tgid (state.step layout budget resolve
      (.bump cpu running txB rxB retrans)).1 ≤ _
    rw [Polling.pending, Polling.pending, reading, between]
    split
    · omega
    · show 0 + (_ + part.slots (bump layout state.table cpu running txB rxB retrans) tgid) ≤ _
      simp only [counts]
      omega
  | begin =>
    cases running : state.poll with
    | some poll => simp [Polling.step, running, counts]
    | none =>
      simp [Polling.step, running, counts, Polling.pending, Polling.reading, Polling.between,
        Poll.begun]
  | next order =>
    rcases state.next_cases layout budget resolve order with
      ⟨still, _⟩ | ⟨poll, key, perCPU, running, found, moved⟩ | ⟨poll, running, _, deleted, ended⟩
    · simp [still, counts]
    · obtain ⟨deleted, stored⟩ := Polling.found_eq_some budget running found
      rw [moved]
      by_cases own : key = tgid
      · -- What is read is no more than what the entry has, which is left out until it is deleted.
        subst own
        have sums : (sumPerCpu key perCPU).counters = tcpTotal state.table key := by
          rw [(sumPerCpu_eq key perCPU).2, tcpTotal, stored]
          rfl
        have most := part.toNat_tcpTotal_le state.table key
        simp [Polling.pending, Polling.reading, Polling.between, counts, running, deleted, sums]
        omega
      · have other : tgid ≠ key := Ne.symm own
        simp [Polling.pending, Polling.reading, Polling.between, counts, running, deleted, own,
          AList.lookup_insert_ne other]
    · have rows := sum_snapshot part tgid resolve poll order state.resolver (filed poll running)
      rw [ended]
      simp [Polling.pending, Polling.reading, Polling.between, counts, running, deleted, rows,
        part.zero]
  | delete =>
    rcases state.delete_cases layout budget resolve with
      still | ⟨poll, key, running, pending, at_key, moved⟩
    · simp [still, counts]
    · rw [moved]
      by_cases own : key = tgid
      · subst own
        simp [Polling.pending, Polling.reading, Polling.between, counts, running, pending, at_key,
          Part.slots_erase]
      · have other : tgid ≠ key := Ne.symm own
        simp [Polling.pending, Polling.reading, Polling.between, counts, running, pending, at_key,
          Part.slots_erase, own, other]

/-- In every run, the rows of a thread group report no more of a counter than was counted for
it. -/
theorem rows_le (resolver : ρ) (steps : List (PollStep cpus)) :
    (((polling layout budget resolve).outputs (.loaded cpus resolver) steps).map
        (reports part tgid)).sum ≤ (steps.map (counts part tgid)).sum := by
  have filed : (Polling.loaded cpus resolver).Filed := by
    rintro poll same
    cases same
  have idle : Polling.pending part tgid (Polling.loaded cpus resolver) = 0 := by
    have nothing : (Polling.loaded cpus resolver).reading tgid = 0 := rfl
    have empty : part.slots (Polling.loaded cpus resolver).table tgid = 0 :=
      part.slots_eq_zero rfl
    rw [Polling.pending, nothing, part.zero, empty]
    split <;> rfl
  have paid := (polling_pays part tgid layout budget resolve).run (.loaded cpus resolver) filed
    steps
  rw [idle, Nat.zero_add] at paid
  exact (Nat.le_add_right _ _).trans paid

end Group

section All

variable {cpus : Nat} {ρ : Type} (part : Part)

/-- The thread group that a step counts for, and what it counts. -/
def PollStep.call : PollStep cpus → Option (UInt32 × Bpf.TcpStats)
  | .bump _ running txB rxB retrans => some (running, .fresh txB rxB retrans)
  | _ => none

/-- What steps count of a counter for all thread groups. -/
def counted (steps : List (PollStep cpus)) : Nat :=
  ((steps.filterMap PollStep.call).map fun call => (part.of call.2).toNat).sum

/-- What rows report of a counter for all thread groups. -/
def reportedOf (rows : List Stats) : Nat := (rows.map fun row => (part.of row.counters).toNat).sum

/-- What is counted for a thread group is counted by the calls for it. -/
theorem sum_counts (tgid : UInt32) (steps : List (PollStep cpus)) :
    (steps.map (counts part tgid)).sum =
      (((steps.filterMap PollStep.call).filter fun call => call.1 = tgid).map
        fun call => (part.of call.2).toNat).sum := by
  induction steps with
  | nil => rfl
  | cons step steps ih =>
    rw [List.map_cons, List.sum_cons, ih]
    cases step with
    | bump cpu running txB rxB retrans =>
      by_cases own : running = tgid
      · simp [PollStep.call, counts, own]
      · simp [PollStep.call, counts, own]
    | _ => exact Nat.zero_add _

/-- In every run, in whatever order the probes and the steps of the polls come, the rows report no
more of a counter than was counted. -/
theorem reported_le_counted (layout : Layout UInt32) (budget : Nat)
    (resolve : ρ → UInt32 → GoString × ρ) (resolver : ρ) (steps : List (PollStep cpus)) :
    reportedOf part ((polling layout budget resolve).outputs (.loaded cpus resolver) steps) ≤
      counted part steps := by
  let rows := (polling layout budget resolve).outputs (.loaded cpus resolver) steps
  let calls := steps.filterMap PollStep.call
  let tgids := (rows.map Stats.tgid).toFinset ∪ (calls.map Prod.fst).toFinset
  have own : reportedOf part rows = ∑ tgid ∈ tgids, _ :=
    sum_groups Stats.tgid (fun row => (part.of row.counters).toNat) fun row inside =>
      Finset.mem_union_left _ (List.mem_toFinset.mpr (List.mem_map_of_mem inside))
  have made : counted part steps = ∑ tgid ∈ tgids, _ :=
    sum_groups Prod.fst (fun call : UInt32 × Bpf.TcpStats => (part.of call.2).toNat)
      fun call inside =>
        Finset.mem_union_right _ (List.mem_toFinset.mpr (List.mem_map_of_mem inside))
  rw [own, made]
  apply Finset.sum_le_sum
  intro tgid _
  have bounded := rows_le part tgid layout budget resolve resolver steps
  rw [sum_counts] at bounded
  have split : (rows.map (reports part tgid)).sum =
      ((rows.filter fun row => row.tgid = tgid).map fun row =>
        (part.of row.counters).toNat).sum := by
    unfold reports
    rw [List.sum_map_ite, List.map_const', List.sum_replicate, nsmul_zero, add_zero]
  exact split ▸ bounded

end All

end ContainerAnomaly.TcpStats
