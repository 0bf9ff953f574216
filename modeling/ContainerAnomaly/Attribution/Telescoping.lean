import ContainerAnomaly.Attribution.Ledger

/-!
# Deltas when a poll falls inside the program

The program increments `total` first and a bucket afterwards, so a poll can read a histogram
between the two. Here the two increments are steps of their own, and polls fall anywhere. The
rows of an index add up to its counters at the last poll (`Telescopes`) exactly in the runs in
which no poll meets an index whose total stands still while another counter has moved
(`telescopes_iff_settled`): such a poll emits no row but overwrites `prevSeen`.
-/

namespace ContainerAnomaly.Attribution

open Lib Bpf Syscalls Agent Container

variable {cpus : Nat}

/-- The system with the programs in flight: on each CPU, the index whose total has been
incremented and the syscall whose bucket has not. -/
structure TornState (cpus : Nat) where
  /-- The system. -/
  state : State cpus
  /-- The index and the syscall of the program in flight on each CPU. -/
  inFlight : Fin cpus → Option (UInt32 × UInt32)

/-- The start of the agent, with no program in flight. -/
def TornState.initial (cpus : Nat) : TornState cpus := ⟨.initial cpus, fun _ => none⟩

/-- The steps of the system between which a poll may fall. -/
inductive TornInput (cpus : Nat) where
  /-- `trace_sys_enter` up to and including `c->total++`. -/
  | enter (cpu : Fin cpus) (cgid : UInt64) (id : UInt32)
  /-- The arm of the switch and the return. -/
  | leave (cpu : Fin cpus)
  /-- A run of `updateMappings`. -/
  | refresh (found : Refresh)
  /-- A complete `pollOnce`. -/
  | poll (order : RangeOrder UInt32 SyscallCounts)

/-- The input is a poll. -/
def TornInput.isPoll : TornInput cpus → Bool
  | .poll _ => true
  | _ => false

/-- The first part of `trace_sys_enter`: the maps after it, and the index of the histogram the
program still points into. -/
def traceSysTotal (layout : Layout UInt32) (maps : SyscallMaps cpus) (cpu : Fin cpus)
    (cgid : UInt64) : SyscallMaps cpus × Option UInt32 :=
  match maps.cgidMap.lookup cgid with
  | none => (maps, none)
  | some idx =>
    let table := ensureEntry layout maps.syscallsByCgid idx
    match table.lookup idx with
    | none => ({ maps with syscallsByCgid := table }, none)
    | some _ => ({ maps with syscallsByCgid := bumpSlot table idx cpu .total }, some idx)

/-- The second part: the increment of the bucket. -/
def traceSysBucket (maps : SyscallMaps cpus) (cpu : Fin cpus) (idx id : UInt32) :
    SyscallMaps cpus :=
  { maps with syscallsByCgid := bumpSlot maps.syscallsByCgid idx cpu (bucketOf id) }

/-- One step. A CPU runs the program to its end before it starts it again. -/
def TornState.step (kernel : Kernel) (torn : TornState cpus) :
    TornInput cpus → TornState cpus × List (UInt32 × Row)
  | .enter cpu cgid id =>
    match torn.inFlight cpu with
    | some _ => (torn, [])
    | none =>
      let entered := traceSysTotal kernel.histLayout torn.state.maps cpu cgid
      ({ state := { torn.state with maps := entered.1 },
         inFlight := Function.update torn.inFlight cpu (entered.2.map fun idx => (idx, id)) }, [])
  | .leave cpu =>
    match torn.inFlight cpu with
    | none => (torn, [])
    | some (idx, id) =>
      ({ state := { torn.state with maps := traceSysBucket torn.state.maps cpu idx id },
         inFlight := Function.update torn.inFlight cpu none }, [])
  | .refresh found => ({ torn with state := torn.state.refresh kernel found }, [])
  | .poll order =>
    let polled := torn.state.step kernel (.poll order)
    ({ torn with state := polled.1 }, polled.2)

/-- The system with torn programs as a machine. -/
def tornSystem (cpus : Nat) (kernel : Kernel) :
    Machine (TornState cpus) (TornInput cpus) (UInt32 × Row) :=
  ⟨TornState.step kernel⟩

/-- A moment of a torn run. -/
abbrev TornMoment (cpus : Nat) := TornState cpus × TornInput cpus

/-- On an idle CPU, the two parts one after the other are the whole program. -/
theorem enter_leave (kernel : Kernel) (torn : TornState cpus) (cpu : Fin cpus) (cgid : UInt64)
    (id : UInt32) (idle : torn.inFlight cpu = none) :
    (tornSystem cpus kernel).final torn [.enter cpu cgid id, .leave cpu] =
      { torn with state := (torn.state.step kernel (.sysEnter cpu cgid id)).1 } := by
  change ((torn.step kernel (.enter cpu cgid id)).1.step kernel (.leave cpu)).1 = _
  have restored : Function.update torn.inFlight cpu none = torn.inFlight := by
    rw [← idle, Function.update_eq_self]
  simp only [TornState.step, idle, traceSysTotal, State.step, traceSysEnter]
  cases torn.state.maps.cgidMap.lookup cgid with
  | none => simp [restored]
  | some idx =>
    cases found : (ensureEntry kernel.histLayout torn.state.maps.syscallsByCgid idx).lookup idx with
    | none => simp [found, restored]
    | some slots => simp [found, restored, traceSysBucket]

/-- The counters of an index, summed over the CPUs, when the last poll read them. -/
def lastPolled (past : List (TornMoment cpus)) (index : UInt32) : SyscallCounts :=
  (((past.filter fun moment => moment.2.isPoll).getLast?).map
    fun moment => moment.1.state.total index).getD {}

/-- The rows of every index add up to its counters at the last poll. -/
def Telescopes (past : List (TornMoment cpus)) (rows : List (UInt32 × Row)) : Prop :=
  ∀ index field, sumOver field (rowsAt rows index) = ((lastPolled past index).get field).toNat

/-- A poll meets no index whose total stands still while another counter has moved, and no
counter that has wrapped. -/
def Settled (moment : TornMoment cpus) : Prop :=
  moment.2.isPoll → ∀ index,
    if (moment.1.state.total index).total ≤ (moment.1.state.seen index).total then
      moment.1.state.total index = moment.1.state.seen index
    else ∀ field, (moment.1.state.seen index).get field ≤ (moment.1.state.total index).get field

/-- Only a poll changes what was seen, and it sees the counters it reads. -/
theorem TornState.seen_step (kernel : Kernel) (torn : TornState cpus) (input : TornInput cpus)
    (index : UInt32) : (torn.step kernel input).1.state.seen index =
      if input.isPoll then torn.state.total index else torn.state.seen index := by
  cases input with
  | enter cpu cgid id =>
    unfold TornState.step
    dsimp only
    split <;> rfl
  | leave cpu =>
    unfold TornState.step
    dsimp only
    split <;> rfl
  | refresh found => exact torn.state.seen_step kernel (.refresh found) index
  | poll order => exact torn.state.seen_step kernel (.poll order) index

/-- Only a poll emits rows. -/
theorem TornState.rows_step (kernel : Kernel) (torn : TornState cpus) (input : TornInput cpus) :
    (torn.step kernel input).2 = match input with
      | .poll order => (torn.state.step kernel (.poll order)).2
      | _ => [] := by
  cases input with
  | enter cpu cgid id =>
    unfold TornState.step
    dsimp only
    split <;> rfl
  | leave cpu =>
    unfold TornState.step
    dsimp only
    split <;> rfl
  | refresh found => rfl
  | poll order => rfl

/-- The counters at the last poll after one more step. -/
theorem lastPolled_snoc (past : List (TornMoment cpus)) (moment : TornMoment cpus)
    (index : UInt32) : lastPolled (past ++ [moment]) index =
      if moment.2.isPoll then moment.1.state.total index else lastPolled past index := by
  unfold lastPolled
  rw [List.filter_append]
  by_cases poll : moment.2.isPoll
  · simp [poll]
  · simp [poll]

/-- In every run, `prevSeen` holds the counters at the last poll. -/
theorem seen_lastPolled (kernel : Kernel) (inputs : List (TornInput cpus)) (index : UInt32) :
    ((tornSystem cpus kernel).final (.initial cpus) inputs).state.seen index =
      lastPolled ((tornSystem cpus kernel).trace (.initial cpus) inputs) index := by
  apply (tornSystem cpus kernel).invariant_always
    (fun past torn => torn.state.seen index = lastPolled past index)
  · rfl
  · intro past torn input held
    rw [lastPolled_snoc, ← held]
    exact torn.seen_step kernel input index

/-- What a poll adds to the rows of an index makes up for the growth of each counter exactly
when the counters have settled. -/
theorem sumOver_poll_iff (kernel : Kernel) (state : State cpus)
    (order : RangeOrder UInt32 SyscallCounts) (index : UInt32) :
    (∀ field, ((state.seen index).get field).toNat +
        sumOver field (rowsAt (state.step kernel (.poll order)).2 index) =
      ((state.total index).get field).toNat) ↔
    if (state.total index).total ≤ (state.seen index).total then
      state.total index = state.seen index
    else ∀ field, (state.seen index).get field ≤ (state.total index).get field := by
  rw [rowsAt, rows_of_poll kernel state order index]
  have delta_zero : (subtract (state.total index) (state.seen index)).total = 0 ↔
      (state.total index).total ≤ (state.seen index).total := by
    change safe (state.total index).total (state.seen index).total = 0 ↔ _
    unfold safe
    by_cases grown : (state.total index).total ≥ (state.seen index).total
    · rw [if_pos grown, sub_eq_zero]
      constructor
      · intro same
        rw [same]
        exact UInt64.le_refl _
      · intro fell
        exact UInt64.le_antisymm fell grown
    · rw [if_neg grown]
      simp only [true_iff]
      exact (UInt64.le_total _ _).resolve_right grown
  by_cases still : (state.total index).total ≤ (state.seen index).total
  · rw [if_pos still, if_pos (delta_zero.mpr still)]
    constructor
    · intro sums
      apply SyscallCounts.ext_get
      intro field
      have sum := sums field
      simp only [snapshotRows, List.map_nil, sumOver, List.sum_nil, Nat.add_zero] at sum
      exact (UInt64.toNat_inj.mp sum).symm
    · intro same field
      rw [same]
      rfl
  · rw [if_neg still, if_neg (fun zero => still (delta_zero.mp zero))]
    apply forall_congr'
    intro field
    simp only [snapshotRows, List.map_cons, List.map_nil, sumOver, List.sum_cons, List.sum_nil,
      Nat.add_zero, get_subtract, safe, ge_iff_le]
    by_cases grown : (state.seen index).get field ≤ (state.total index).get field
    · have difference := UInt64.toNat_sub_of_le _ _ grown
      have ordered := UInt64.le_iff_toNat_le.mp grown
      simp only [grown, if_true, iff_true]
      omega
    · have fell : ((state.total index).get field).toNat < ((state.seen index).get field).toNat := by
        rw [UInt64.le_iff_toNat_le] at grown
        omega
      simp only [grown, if_false, iff_false]
      change ¬ (_ + 0 = _)
      omega

/-- A step keeps the law exactly when it has settled. -/
theorem Telescopes.step_iff (kernel : Kernel) {past : List (TornMoment cpus)}
    {rows : List (UInt32 × Row)} (law : Telescopes past rows) (torn : TornState cpus)
    (remembered : ∀ index, torn.state.seen index = lastPolled past index)
    (input : TornInput cpus) :
    Telescopes (past ++ [(torn, input)]) (rows ++ (torn.step kernel input).2) ↔
      Settled (torn, input) := by
  have split (index : UInt32) : rowsAt (rows ++ (torn.step kernel input).2) index =
      rowsAt rows index ++ rowsAt (torn.step kernel input).2 index := by
    simp [rowsAt, snapshotRows]
  have silent (quiet : input.isPoll = false) : (torn.step kernel input).2 = [] := by
    rw [torn.rows_step]
    cases input <;> first | rfl | cases quiet
  unfold Telescopes Settled
  cases poll : input.isPoll with
  | false =>
    simp only [Bool.false_eq_true, false_imp_iff, iff_true]
    intro index field
    rw [lastPolled_snoc, if_neg (by simp [poll]), silent poll, List.append_nil]
    exact law index field
  | true =>
    cases input with
    | enter cpu cgid id => cases poll
    | leave cpu => cases poll
    | refresh found => cases poll
    | poll order =>
      simp only [true_imp_iff]
      apply forall_congr'
      intro index
      rw [← sumOver_poll_iff kernel torn.state order index]
      apply forall_congr'
      intro field
      rw [lastPolled_snoc, if_pos poll, split, sumOver_append, law index field, remembered]
      rfl

/-- The law holds after every part of a run exactly when all its polls meet settled counters. -/
theorem telescopes_iff_settled (kernel : Kernel) (inputs : List (TornInput cpus)) :
    (∀ past, past <+: inputs → Telescopes ((tornSystem cpus kernel).trace (.initial cpus) past)
      ((tornSystem cpus kernel).outputs (.initial cpus) past)) ↔
    ∀ moment ∈ (tornSystem cpus kernel).trace (.initial cpus) inputs, Settled moment := by
  have next (past : List (TornInput cpus)) (input : TornInput cpus)
      (law : Telescopes ((tornSystem cpus kernel).trace (.initial cpus) past)
        ((tornSystem cpus kernel).outputs (.initial cpus) past)) :
      Telescopes ((tornSystem cpus kernel).trace (.initial cpus) (past ++ [input]))
        ((tornSystem cpus kernel).outputs (.initial cpus) (past ++ [input])) ↔
      Settled ((tornSystem cpus kernel).final (.initial cpus) past, input) := by
    unfold Machine.outputs
    rw [Machine.trace_snoc, Machine.outputsOf_append, Machine.outputsOf_singleton]
    exact law.step_iff kernel _ (seen_lastPolled kernel past) input
  constructor
  · intro laws moment member
    obtain ⟨past, rest, whole, met⟩ := (Machine.mem_trace_iff _ _ _ _).mp member
    have before := laws past ⟨moment.2 :: rest, whole.symm⟩
    have after := laws (past ++ [moment.2]) ⟨rest, by simp [whole]⟩
    have settled := (next past moment.2 before).mp after
    rw [met] at settled
    exact settled
  · intro settled past
    induction past using List.reverseRecOn with
    | nil =>
      intro _ index field
      show 0 = (SyscallCounts.get {} field).toNat
      rw [SyscallCounts.get_zero]
      rfl
    | append_singleton past input ih =>
      intro inside
      obtain ⟨rest, whole⟩ := inside
      have before := ih ⟨input :: rest, by simp [← whole]⟩
      apply (next past input before).mpr
      apply settled
      apply (Machine.mem_trace_iff _ _ _ _).mpr
      exact ⟨past, rest, by simp [← whole], rfl⟩

/-- Container `a` calls `mount`; one poll falls between the two increments, the next after
them. -/
def tornMount : List (TornInput 1) :=
  [.refresh (.single (lit "a") 7), .enter (Fin.last 0) 7 nrMount, .poll (.stored _ _),
    .leave (Fin.last 0), .poll (.stored _ _)]

/-- The escape attempt is in no row, though the last poll has read it. -/
theorem tornMount_not_telescopes :
    (sumOver .escapeAttempt (rowsAt ((tornSystem 1 .plain).outputs (.initial 1) tornMount) 0) = 0 ∧
    ((lastPolled ((tornSystem 1 .plain).trace (.initial 1) tornMount) 0).get
      .escapeAttempt).toNat = 1) ∧
    ¬ Telescopes ((tornSystem 1 .plain).trace (.initial 1) tornMount)
      ((tornSystem 1 .plain).outputs (.initial 1) tornMount) := by
  have lost : sumOver .escapeAttempt
      (rowsAt ((tornSystem 1 .plain).outputs (.initial 1) tornMount) 0) = 0 ∧
      ((lastPolled ((tornSystem 1 .plain).trace (.initial 1) tornMount) 0).get
        .escapeAttempt).toNat = 1 := by decide
  refine ⟨lost, fun law => ?_⟩
  have sum := law 0 .escapeAttempt
  omega

end ContainerAnomaly.Attribution
