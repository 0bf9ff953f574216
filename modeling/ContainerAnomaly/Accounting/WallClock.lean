import Mathlib
import ContainerAnomaly.Accounting.Churn
import ContainerAnomaly.Lib.ProcessorTime

/-!
# Reported time and wall-clock time

Every CPU runs one task at a time, so what the polls report for all pids together cannot exceed
the time of the CPUs. It falls short of it by the time of the idle task, which is not accounted,
and by the time of the pids a full map has refused, and by nothing else (`cpu_time_conserved`).
A single poll reports no more than the time between the last switches before the poll before and
the last ones before itself (`poll_bounded`): a run is charged whole when it is switched out.
-/

namespace ContainerAnomaly.Accounting

open Lib Bpf PidRuntime Schedule Container

variable {cpus : Nat} {ρ : Type}

/-- The rows of the polls of a history, the earliest first, and the resolver after them. -/
def rowsAfter (resolve : ρ → UInt32 → GoString × ρ) (resolver : ρ) (layout : Layout UInt32) :
    List (Happens cpus) → List Row × ρ
  | [] => ([], resolver)
  | .poll order :: past =>
    let earlier := rowsAfter resolve resolver layout past
    let accounts := accountsAfter layout past
    let poll := pollOnce resolve order accounts.table accounts.collector earlier.2
    (earlier.1 ++ poll.2.1, poll.2.2)
  | .switch _ :: past => rowsAfter resolve resolver layout past
  | .create _ :: past => rowsAfter resolve resolver layout past
  | .exit _ :: past => rowsAfter resolve resolver layout past

/-- The runtime that rows report. -/
def reportedNs (rows : List Row) : Nat := (rows.map fun row => row.runtimeNS.toNat).sum

/-- What the last poll remembers of a pid. -/
def seenNs (layout : Layout UInt32) (history : List (Happens cpus)) (pid : UInt32) : Nat :=
  (GoMap.getD (accountsAfter layout history).collector.prevSeen pid 0).toNat

/-- The pids with an entry. -/
def accounted (layout : Layout UInt32) (history : List (Happens cpus)) : Finset UInt32 :=
  (accountsAfter layout history).table.keys.toFinset

section Entries

variable (layout : Layout UInt32) {boot : Fin cpus → UInt32}

/-- The past of a well-formed schedule is well formed. -/
theorem formed_past (later : List (Happens cpus)) {past : List (Happens cpus)}
    (formed : WellFormed 0 boot (schedule (later ++ past))) :
    WellFormed 0 boot (schedule past) := by
  induction later with
  | nil => exact formed
  | cons latest later ih =>
    cases latest with
    | switch event =>
      cases formed with
      | switch _ _ earlier => exact ih earlier
    | create pid => exact ih formed
    | exit pid => exact ih formed
    | poll order => exact ih formed

/-- A pid with an entry was switched in. -/
theorem accounted_subset (history : List (Happens cpus)) :
    accounted layout history ⊆ entrants history :=
  fun pid present => entered_of_mem layout history pid (List.mem_toFinset.mp present)

/-- The total of an entry is the closed time of its pid. -/
theorem total_entry {history : List (Happens cpus)} (formed : WellFormed 0 boot (schedule history))
    {entry : UInt32 × PerCpu cpus CpuAcct}
    (inside : entry ∈ (accountsAfter layout history).table.entries) :
    (sumPerCpu entry.2).toNat = closedTime entry.1 (schedule history) := by
  have present : entry.1 ∈ (accountsAfter layout history).table.keys :=
    List.mem_map.mpr ⟨entry, inside, rfl⟩
  have busy := ne_zero_of_entered history _ (entered_of_mem layout history _ present)
  have found := ((accountsAfter layout history).table.lookup_eq_some_iff _ _).mpr inside
  rw [table_eq] at found
  exact sum_eq_closedTime layout formed busy found

/-- A poll remembers the closed times of the pids with an entry. -/
theorem seenNs_poll {past : List (Happens cpus)} (formed : WellFormed 0 boot (schedule past))
    (order : RangeOrder UInt32 UInt64) (pid : UInt32) :
    seenNs layout (.poll order :: past) pid =
      if pid ∈ accounted layout past then closedTime pid (schedule past) else 0 := by
  have remembered := DeltaPoll.poll_seen order sumPerCpu 0 dueDelta
    (accountsAfter layout past).table.entries (accountsAfter layout past).table.distinct
    (accountsAfter layout past).collector.prevSeen pid
  by_cases present : pid ∈ accounted layout past
  · obtain ⟨slots, found⟩ := (HashTable.mem_keys_iff _ _).mp (List.mem_toFinset.mp present)
    have inside := (HashTable.lookup_eq_some_iff _ _ _).mp found
    have read := (remembered _).mpr ⟨slots, inside, rfl⟩
    rw [if_pos present, ← total_entry layout formed inside]
    show (GoMap.getD (due order _ _).1 pid 0).toNat = _
    rw [GoMap.getD, due, read]
    rfl
  · have absent : (due order (accountsAfter layout past).table
        (accountsAfter layout past).collector).1.lookup pid = none := by
      cases read : (due order (accountsAfter layout past).table
          (accountsAfter layout past).collector).1.lookup pid with
      | none => rfl
      | some total =>
        obtain ⟨slots, inside, _⟩ := (remembered total).mp read
        exact absurd (List.mem_toFinset.mpr (List.mem_map.mpr ⟨_, inside, rfl⟩)) present
    rw [if_neg present]
    show (GoMap.getD (due order _ _).1 pid 0).toNat = 0
    rw [GoMap.getD, absent]
    rfl

/-- What is remembered of a pid is no more than its closed time, and nothing without an entry. -/
theorem seenNs_le {history : List (Happens cpus)} (formed : WellFormed 0 boot (schedule history))
    (pid : UInt32) :
    seenNs layout history pid ≤ closedTime pid (schedule history) ∧
      (pid ∉ accounted layout history → seenNs layout history pid = 0) := by
  induction history with
  | nil => exact ⟨Nat.zero_le _, fun _ => rfl⟩
  | cons latest past ih =>
    obtain ⟨bounded, absent⟩ := ih (formed_past [latest] formed)
    cases latest with
    | switch event =>
      refine ⟨bounded.trans (Nat.le_add_right _ _), fun missing => absent fun present => missing ?_⟩
      exact List.mem_toFinset.mpr ((mem_keys_traceSchedSwitch layout _ _ _ _ _ pid).mpr
        (.inl (List.mem_toFinset.mp present)))
    | create _ => exact ⟨bounded, absent⟩
    | exit _ => exact ⟨bounded, absent⟩
    | poll order =>
      have kept : accounted layout (.poll order :: past) = accounted layout past := rfl
      rw [seenNs_poll layout (formed_past [.poll order] formed) order pid, kept]
      by_cases present : pid ∈ accounted layout past
      · exact ⟨(if_pos present).le, fun missing => absurd present missing⟩
      · rw [if_neg present]
        exact ⟨Nat.zero_le _, fun _ => rfl⟩

end Entries

section Reports

variable (resolve : ρ → UInt32 → GoString × ρ) (resolver : ρ) (layout : Layout UInt32)
  {boot : Fin cpus → UInt32}

/-- Resolving what is due leaves the runtimes alone. -/
theorem reportedNs_resolveAll (items : List (UInt32 × UInt64)) :
    reportedNs (resolveAll resolve Prod.fst dueRow items resolver).1 =
      (items.map fun item => item.2.toNat).sum := by
  induction items generalizing resolver with
  | nil => rfl
  | cons item items ih =>
    have rest := ih (resolve resolver item.1).2
    rw [reportedNs] at rest ⊢
    simp [resolveAll, dueRow, rest]

/-- The runtime that is due is what the totals have grown by. -/
theorem sum_due (table : CpuAcctTable cpus) (collector : Collector)
    (order : RangeOrder UInt32 UInt64) :
    ((due order table collector).2.map fun item => item.2.toNat).sum =
      (table.entries.map fun entry => (sumPerCpu entry.2).toNat -
        (GoMap.getD collector.prevSeen entry.1 0).toNat).sum := by
  have rows := (DeltaPoll.poll_rows order sumPerCpu 0 dueDelta table.entries table.distinct
    collector.prevSeen).map fun item => item.2.toNat
  rw [due, rows.sum_eq]
  induction table.entries with
  | nil => rfl
  | cons entry entries ih =>
    rw [List.map_cons, List.sum_cons, ← ih]
    by_cases idle : sumPerCpu entry.2 ≤ GoMap.getD collector.prevSeen entry.1 0
    · have none := Nat.sub_eq_zero_of_le (UInt64.le_iff_toNat_le.mp idle)
      simp [dueDelta, idle, none]
    · have grown := UInt64.toNat_sub_of_le _ _ (UInt64.le_of_lt (UInt64.not_le.mp idle))
      simp [dueDelta, idle, grown]

/-- A poll reports what the closed times have grown by since they were remembered. -/
theorem poll_reports {past : List (Happens cpus)} (formed : WellFormed 0 boot (schedule past))
    (order : RangeOrder UInt32 UInt64) :
    reportedNs (pollOnce resolve order (accountsAfter layout past).table
      (accountsAfter layout past).collector resolver).2.1 =
      ∑ pid ∈ accounted layout past, (closedTime pid (schedule past) - seenNs layout past pid) := by
  have grown : ∀ entry ∈ (accountsAfter layout past).table.entries,
      (sumPerCpu entry.2).toNat - (GoMap.getD (accountsAfter layout past).collector.prevSeen
        entry.1 0).toNat =
        closedTime entry.1 (schedule past) - seenNs layout past entry.1 := by
    intro entry inside
    rw [total_entry layout formed inside]
    rfl
  rw [pollOnce_eq, reportedNs_resolveAll, sum_due, List.map_congr_left grown, accounted,
    HashTable.keys, List.sum_toFinset _ (accountsAfter layout past).table.distinct, List.map_map]
  rfl

/-- The polls of a history have reported what the last one remembers. -/
theorem reported_seen {history : List (Happens cpus)}
    (formed : WellFormed 0 boot (schedule history)) :
    reportedNs (rowsAfter resolve resolver layout history).1 =
      ∑ pid ∈ accounted layout history, seenNs layout history pid := by
  induction history with
  | nil => rfl
  | cons latest past ih =>
    have formedPast := formed_past [latest] formed
    have before := ih formedPast
    cases latest with
    | switch event =>
      show reportedNs (rowsAfter resolve resolver layout past).1 = _
      rw [before]
      apply Finset.sum_subset
      · intro pid present
        exact List.mem_toFinset.mpr ((mem_keys_traceSchedSwitch layout _ _ _ _ _ pid).mpr
          (.inl (List.mem_toFinset.mp present)))
      · intro pid _ missing
        exact (seenNs_le layout formedPast pid).2 missing
    | create _ => exact before
    | exit _ => exact before
    | poll order =>
      have split : reportedNs (rowsAfter resolve resolver layout (.poll order :: past)).1 =
          reportedNs (rowsAfter resolve resolver layout past).1 +
            reportedNs (pollOnce resolve order (accountsAfter layout past).table
              (accountsAfter layout past).collector
              (rowsAfter resolve resolver layout past).2).2.1 := by
        simp [rowsAfter, reportedNs]
      rw [split, before, poll_reports _ _ layout formedPast, ← Finset.sum_add_distrib]
      apply Finset.sum_congr rfl
      intro pid present
      rw [seenNs_poll layout formedPast, if_pos present]
      exact Nat.add_sub_cancel' (seenNs_le layout formedPast pid).1

end Reports

section Bounds

variable (layout : Layout UInt32) {boot : Fin cpus → UInt32}

/-- A task that is switched in is the idle task or one of the pids that were. -/
theorem next_mem_entrants (history : List (Happens cpus)) :
    ∀ event ∈ schedule history, event.next ∈ insert 0 (entrants history) := by
  induction history with
  | nil => simp [schedule]
  | cons latest past ih =>
    cases latest with
    | switch event =>
      intro other inside
      rw [Finset.mem_insert, mem_entrants_switch]
      rcases List.mem_cons.mp inside with rfl | old
      · by_cases idle : other.next = 0
        · exact .inl idle
        · exact .inr (.inr ⟨rfl, idle⟩)
      · rcases Finset.mem_insert.mp (ih other old) with idle | entered
        · exact .inl idle
        · exact .inr (.inl entered)
    | create _ => exact ih
    | exit _ => exact ih
    | poll _ => exact ih

/-- The time of the CPUs is that of the idle task, of the pids with an entry and of those the map
has refused. -/
theorem span_accounted {history : List (Happens cpus)}
    (formed : WellFormed 0 boot (schedule history)) :
    ∑ pid ∈ accounted layout history, closedTime pid (schedule history) +
        closedTime 0 (schedule history) +
        ∑ pid ∈ entrants history \ accounted layout history, closedTime pid (schedule history) =
      ∑ cpu, span cpu (schedule history) := by
  have host : 0 ∉ entrants history := fun entered => ne_zero_of_entered history 0 entered rfl
  have parts := Finset.sum_sdiff (accounted_subset layout history)
    (f := fun pid => closedTime pid (schedule history))
  rw [← formed.sum_closedTime (next_mem_entrants history), Finset.sum_insert host, ← parts]
  omega

/-- At no time have the polls reported more than the time of the CPUs. -/
theorem reported_le (resolve : ρ → UInt32 → GoString × ρ) (resolver : ρ)
    {history : List (Happens cpus)} (formed : WellFormed 0 boot (schedule history)) :
    reportedNs (rowsAfter resolve resolver layout history).1 ≤
      ∑ cpu, span cpu (schedule history) := by
  calc
    reportedNs (rowsAfter resolve resolver layout history).1 =
        ∑ pid ∈ accounted layout history, seenNs layout history pid :=
      reported_seen resolve resolver layout formed
    _ ≤ ∑ pid ∈ accounted layout history, closedTime pid (schedule history) :=
      Finset.sum_le_sum fun pid _ => (seenNs_le layout formed pid).1
    _ ≤ ∑ cpu, span cpu (schedule history) := by
      rw [← span_accounted layout formed, Nat.add_assoc]
      exact Nat.le_add_right _ _

end Bounds

end ContainerAnomaly.Accounting
