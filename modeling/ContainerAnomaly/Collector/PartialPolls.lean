import ContainerAnomaly.Collector.PidRuntime
import ContainerAnomaly.Collector.Syscalls
import ContainerAnomaly.Lib.DeltaRuns

/-!
# Polls that miss entries

The iterations of `pidruntime` and `syscalls` may stop early, and their errors are not checked. A
key that such a poll has not returned is taken for gone, and its whole total is reported again by
the poll after. The deltas of a key never exceed its total exactly when no poll returns it after one
that has missed it, once it has reported anything (`never_more_iff`).
-/

namespace ContainerAnomaly

open Lib Bpf Container DeltaPoll

variable {cpus : Nat} {ρ : Type}

/-- A `pidruntime` poll that returns part of `cpu_acct_by_pid`. -/
abbrev RuntimeRound (cpus : Nat) := Round UInt32 (PerCpu cpus CpuAcct) UInt64 Unit 65536

/-- A `syscalls` poll that returns part of `syscalls_by_cgid`, with the names of the moment. -/
abbrev SyscallRound (cpus : Nat) :=
  Round UInt32 (PerCpu cpus SyscallCounts) SyscallCounts (GoMap UInt32 GoString) 256

/-- Calls of `pidruntime.pollOnce`. -/
def PidRuntime.polls (resolve : ρ → UInt32 → GoString × ρ) :
    Machine (PidRuntime.Collector × ρ) (RuntimeRound cpus) PidRuntime.Row :=
  ⟨fun state round =>
    let polled := PidRuntime.pollVisited resolve round.order round.visited state.1 state.2
    ((polled.1, polled.2.2), polled.2.1)⟩

/-- Calls of `syscalls.pollOnce`. -/
def Syscalls.polls : Machine Syscalls.Collector (SyscallRound cpus) (UInt32 × Syscalls.Row) :=
  ⟨fun collector round =>
    Syscalls.pollVisited round.order round.visited { collector with idxToCid := round.context }⟩

/-- The runtime of a pid. -/
def runtimeLevel (_ : Unit) (total : UInt64) : Nat := total.toNat

/-- The runtime that a row reports. -/
def runtimeAmount (_ : Unit) (row : PidRuntime.Row) : Nat := row.runtimeNS.toNat

/-- A counter of an index. -/
def syscallLevel (field : Field) (counts : SyscallCounts) : Nat := (counts.get field).toNat

/-- The counter that a row reports. -/
def syscallAmount (field : Field) (row : UInt32 × Syscalls.Row) : Nat :=
  (row.2.counts.get field).toNat

/-- The pids that are due come with what their runtime has risen by. -/
theorem runtime_differences : Differences 0 (fun _ : Unit => PidRuntime.dueDelta) Prod.fst
    runtimeLevel (fun _ item => item.2.toNat) () := by
  refine ⟨fun _ => rfl, fun _ pid before now out made => ?_, fun _ pid before now => ?_,
    fun _ pid before now out made _ => ?_⟩
  · unfold PidRuntime.dueDelta at made
    split at made
    · cases made
    · rw [← Option.some.inj made]
  · simp [PidRuntime.dueDelta, runtimeLevel, UInt64.le_iff_toNat_le]
  · unfold PidRuntime.dueDelta at made
    split at made
    · cases made
    · rename_i risen
      rw [← Option.some.inj made]
      exact UInt64.toNat_sub_of_le _ _ (UInt64.le_of_lt (UInt64.not_le.mp risen))

/-- `safe` is subtraction that stops at zero. -/
theorem Syscalls.toNat_safe (a b : UInt64) : (Syscalls.safe a b).toNat = a.toNat - b.toNat := by
  unfold Syscalls.safe
  by_cases above : b ≤ a
  · rw [if_pos above, UInt64.toNat_sub_of_le _ _ above]
  · have below := UInt64.le_iff_toNat_le.not.mp above
    rw [if_neg above]
    change 0 = _
    omega

/-- The rows of an index carry what its counters have risen by, when its total has. -/
theorem syscall_differences : Differences {} Syscalls.deltaRow Prod.fst syscallLevel syscallAmount
    Field.total := by
  have total (before now : SyscallCounts) : (Syscalls.subtract now before).total = 0 ↔
      syscallLevel .total now ≤ syscallLevel .total before := by
    have rise := Syscalls.toNat_safe now.total before.total
    change Syscalls.safe now.total before.total = 0 ↔ now.total.toNat ≤ before.total.toNat
    rw [← UInt64.toNat_inj, rise]
    exact Nat.sub_eq_zero_iff_le
  refine ⟨fun field => ?_, fun names index before now out made =>
    Syscalls.deltaRow_index names index before now out made, fun names index before now => ?_,
    fun names index before now out made field => ?_⟩
  · simp [syscallLevel]
  · rw [← total]
    simp [Syscalls.deltaRow]
  · unfold Syscalls.deltaRow at made
    dsimp only at made
    split at made
    · cases made
    · rw [← Option.some.inj made, syscallAmount, Syscalls.get_subtract, Syscalls.toNat_safe]
      rfl

/-- Resolving pids keeps what is due. -/
theorem resolveAll_items (resolve : ρ → UInt32 → GoString × ρ) (items : List (UInt32 × UInt64))
    (resolver : ρ) :
    (resolveAll resolve Prod.fst PidRuntime.dueRow items resolver).1.map
      (fun row => (row.pid, row.runtimeNS)) = items := by
  induction items generalizing resolver with
  | nil => rfl
  | cons item items ih =>
    rw [resolveAll, List.map_cons, ih]
    rfl

/-- Apart from the containers, the rows of `pidruntime` are those of difference polls. -/
theorem PidRuntime.outputs_polls (resolve : ρ → UInt32 → GoString × ρ)
    (state : PidRuntime.Collector × ρ) (rounds : List (RuntimeRound cpus)) :
    ((PidRuntime.polls resolve).outputs state rounds).map (fun row => (row.pid, row.runtimeNS)) =
      (DeltaPoll.polls sumPerCpu 0 fun _ : Unit => dueDelta).outputs state.1.prevSeen rounds := by
  induction rounds generalizing state with
  | nil => rfl
  | cons round rounds ih =>
    have polled := pollVisited_eq resolve round.order round.visited state.1 state.2
    rw [Machine.outputs_cons, Machine.outputs_cons, List.map_append, ih]
    dsimp only [PidRuntime.polls, DeltaPoll.polls]
    rw [polled, resolveAll_items]

/-- The rows of `syscalls` are those of difference polls. -/
theorem Syscalls.outputs_polls (collector : Syscalls.Collector)
    (rounds : List (SyscallRound cpus)) :
    Syscalls.polls.outputs collector rounds =
      (DeltaPoll.polls sumPerCpu {} deltaRow).outputs collector.prevSeen rounds := by
  induction rounds generalizing collector with
  | nil => rfl
  | cons round rounds ih =>
    have polled := pollVisited_eq round.order { collector with idxToCid := round.context }
      round.visited
    rw [Machine.outputs_cons, Machine.outputs_cons, ih]
    dsimp only [Syscalls.polls, DeltaPoll.polls]
    rw [polled]

/-- Over maps whose totals only grow, the deltas that either collector reports of a key never exceed
its totals exactly when, at each poll that returns the key after one that has missed it, the key's
runtime, or its `total` counter, was zero at every earlier poll that returned it. -/
theorem never_more_iff (resolve : ρ → UInt32 → GoString × ρ) (resolver : ρ) :
    (∀ rounds : List (RuntimeRound cpus),
      rounds.Pairwise (Round.Grows PidRuntime.sumPerCpu runtimeLevel) → ∀ pid,
        (NeverMore ((PidRuntime.polls resolve).outputs (.new, resolver)) PidRuntime.sumPerCpu
            PidRuntime.Row.pid runtimeLevel runtimeAmount pid rounds ↔
          IdleWhenMissed PidRuntime.sumPerCpu UInt64.toNat pid rounds)) ∧
    ∀ rounds : List (SyscallRound cpus),
      rounds.Pairwise (Round.Grows Syscalls.sumPerCpu syscallLevel) → ∀ index,
        (NeverMore (Syscalls.polls.outputs .new) Syscalls.sumPerCpu Prod.fst syscallLevel
            syscallAmount index rounds ↔
          IdleWhenMissed Syscalls.sumPerCpu (syscallLevel .total) index rounds) := by
  constructor
  · intro rounds grows pid
    have library := neverMore_iff PidRuntime.sumPerCpu runtime_differences rounds pid grows
    have same : NeverMore ((PidRuntime.polls resolve).outputs (.new, resolver))
          PidRuntime.sumPerCpu PidRuntime.Row.pid runtimeLevel runtimeAmount pid rounds ↔
        NeverMore ((DeltaPoll.polls PidRuntime.sumPerCpu 0
          fun _ : Unit => PidRuntime.dueDelta).outputs ∅) PidRuntime.sumPerCpu Prod.fst
          runtimeLevel (fun _ item => item.2.toNat) pid rounds := by
      refine forall₂_congr fun past round => imp_congr_right fun _ => forall_congr' fun field => ?_
      have rows := PidRuntime.outputs_polls resolve (.new, resolver) (past ++ [round])
      have sums : reported PidRuntime.Row.pid runtimeAmount pid field
            ((PidRuntime.polls resolve).outputs (.new, resolver) (past ++ [round])) =
          reported Prod.fst (fun _ item => item.2.toNat) pid field
            (((PidRuntime.polls resolve).outputs (.new, resolver) (past ++ [round])).map
              fun row => (row.pid, row.runtimeNS)) := by
        rw [reported, reported, List.filter_map, List.map_map]
        rfl
      rw [sums, rows]
      rfl
    exact same.trans library
  · intro rounds grows index
    have library := neverMore_iff Syscalls.sumPerCpu syscall_differences rounds index grows
    have same : (Syscalls.polls : Machine _ (SyscallRound cpus) _).outputs .new =
        (DeltaPoll.polls Syscalls.sumPerCpu {} Syscalls.deltaRow).outputs ∅ :=
      funext (Syscalls.outputs_polls .new)
    rw [same]
    exact library

/-- Pid 7 has run for 5 ns on the only CPU, and an iteration returns it or stops before. -/
def runtimeRound (returns : Bool) : RuntimeRound 1 where
  table := ⟨[(7, fun _ => ⟨0, 5⟩)], List.nodup_singleton _, by simp⟩
  visited := if returns then [(7, fun _ => ⟨0, 5⟩)] else []
  order := .stored _ _
  context := ()
  distinct := by cases returns <;> simp
  stored := by cases returns <;> simp

/-- Index 0 has made one `read`, and an iteration returns it or stops before. -/
def syscallRound (returns : Bool) : SyscallRound 1 where
  table := ⟨[(0, fun _ => { total := 1, fileRead := 1 })], List.nodup_singleton _, by simp⟩
  visited := if returns then [(0, fun _ => { total := 1, fileRead := 1 })] else []
  order := .stored _ _
  context := ∅
  distinct := by cases returns <;> simp
  stored := by cases returns <;> simp

/-- A complete poll, one that stops before the first entry, and a complete one: each collector
reports all that was accumulated twice. -/
theorem interrupted_twice :
    let resolve : Unit → UInt32 → GoString × Unit := fun _ _ => ([], ())
    (PidRuntime.polls resolve).outputs (.new, ()) [runtimeRound true, runtimeRound false,
      runtimeRound true] = [⟨7, [], 5⟩, ⟨7, [], 5⟩] ∧
    ¬ NeverMore ((PidRuntime.polls resolve).outputs (.new, ())) PidRuntime.sumPerCpu
      PidRuntime.Row.pid runtimeLevel runtimeAmount 7
      [runtimeRound true, runtimeRound false, runtimeRound true] ∧
    ¬ NeverMore (Syscalls.polls.outputs .new) Syscalls.sumPerCpu Prod.fst syscallLevel
      syscallAmount 0 [syscallRound true, syscallRound false, syscallRound true] := by
  intro resolve
  refine ⟨by decide, fun never => ?_, fun never => ?_⟩
  · have bound := never [runtimeRound true, runtimeRound false] (runtimeRound true)
      (List.prefix_refl _) ()
    exact absurd bound (by decide)
  · have bound := never [syscallRound true, syscallRound false] (syscallRound true)
      (List.prefix_refl _) .total
    exact absurd bound (by decide)

/-- Two complete polls of one pid. -/
theorem never_more_iff_complete :
    NeverMore ((PidRuntime.polls fun (_ : Unit) _ => ([], ())).outputs (.new, ()))
      PidRuntime.sumPerCpu PidRuntime.Row.pid runtimeLevel runtimeAmount 7
      [runtimeRound true, runtimeRound true] := by
  refine ((never_more_iff (fun _ _ => ([], ())) ()).1 _ ?_ 7).mpr ?_
  · refine List.pairwise_pair.mpr fun pid stored found => ⟨stored, found, fun _ => Nat.le_refl _⟩
  · intro past missed returned split unseen
    have member : missed ∈ [runtimeRound true, runtimeRound true] :=
      split.subset (by simp)
    rw [List.mem_pair, or_self] at member
    subst member
    exact absurd (by decide) unseen

end ContainerAnomaly
