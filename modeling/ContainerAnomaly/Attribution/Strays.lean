import ContainerAnomaly.Attribution.Telescoping

/-!
# The schedules on which deltas telescope

The state condition of the telescoping law, read off the schedule: while no counter is at its
largest value, the counters have settled at every poll exactly when every stretch between two
polls that has a bucket increment of an index also has an increment of its total
(`settled_iff_no_stray`). A stray bucket increment is one whose program was cut by a poll and
whose index saw no further syscall before the next.
-/

namespace ContainerAnomaly.Attribution

open Lib Bpf Syscalls Agent Container

variable {cpus : Nat}

/-- The counter of an index that a step increments. -/
def bumped (index : UInt32) (moment : TornMoment cpus) : Option Field :=
  match moment.2 with
  | .enter cpu cgid _ =>
    if moment.1.inFlight cpu = none ∧ moment.1.state.maps.cgidMap.lookup cgid = some index ∧
        moment.1.state.maps.HasRoom index then some .total
    else none
  | .leave cpu =>
    ((moment.1.inFlight cpu).filter fun program => program.1 = index).map
      fun program => bucketOf program.2
  | .refresh _ => none
  | .poll _ => none

/-- The counters of an index incremented since the last poll. -/
def bumpsSince (past : List (TornMoment cpus)) (index : UInt32) : List Field :=
  (sinceLast (fun moment => moment.2.isPoll) past).filterMap (bumped index)

/-- The increments after one more step. -/
theorem bumpsSince_snoc (past : List (TornMoment cpus)) (moment : TornMoment cpus)
    (index : UInt32) : bumpsSince (past ++ [moment]) index =
      if moment.2.isPoll then [] else bumpsSince past index ++ (bumped index moment).toList := by
  unfold bumpsSince
  rw [sinceLast_snoc]
  by_cases poll : moment.2.isPoll
  · simp [poll]
  · rw [if_neg poll, if_neg poll, List.filterMap_append]
    cases bump : bumped index moment <;> simp [bump]

/-- What the first part of the program can do: nothing for a cgroup that is not mapped or a
histogram that is full, and otherwise increment the total of the index on its own CPU. -/
theorem traceSysTotal_cases (layout : Layout UInt32) (maps : SyscallMaps cpus) (cpu : Fin cpus)
    (cgid : UInt64) :
    ((∀ idx, maps.cgidMap.lookup cgid = some idx → ¬ maps.HasRoom idx) ∧
      traceSysTotal layout maps cpu cgid = (maps, none)) ∨
    ∃ idx, maps.cgidMap.lookup cgid = some idx ∧ maps.HasRoom idx ∧
      (traceSysTotal layout maps cpu cgid).2 = some idx ∧
      ∀ other, (traceSysTotal layout maps cpu cgid).1.syscallsByCgid.lookup other =
        if other = idx then
          some (Function.update (maps.slots idx) cpu ((maps.slots idx cpu).bump .total))
        else maps.syscallsByCgid.lookup other := by
  cases mapped : maps.cgidMap.lookup cgid with
  | none =>
    refine .inl ⟨fun _ found => (by cases found), ?_⟩
    simp only [traceSysTotal, mapped]
  | some idx =>
    by_cases room : maps.HasRoom idx
    · refine .inr ⟨idx, rfl, room, ?_⟩
      have ensured := ensureEntry_lookup layout maps idx room
      have entry := ensured idx
      rw [if_pos rfl] at entry
      simp only [traceSysTotal, mapped, entry]
      refine ⟨trivial, fun other => ?_⟩
      simp only [bumpSlot, HashTable.lookup_modify, ensured]
      by_cases same : other = idx
      · simp [same]
      · simp [same]
    · refine .inl ⟨fun other found => ?_, ?_⟩
      · rw [Option.some.injEq] at found
        exact found ▸ room
      · have missed : maps.syscallsByCgid.lookup idx = none := by
          rw [HashTable.lookup_eq_none_iff]
          exact fun inside => room (.inl inside)
        simp only [traceSysTotal, mapped, ensureEntry_full layout maps idx room, missed]

/-- Every program in flight points into a histogram that exists. -/
def Anchored (torn : TornState cpus) : Prop :=
  ∀ cpu idx id, torn.inFlight cpu = some (idx, id) →
    ∃ slots, torn.state.maps.syscallsByCgid.lookup idx = some slots

/-- What the second part of the program does to the histograms. -/
theorem traceSysBucket_lookup (maps : SyscallMaps cpus) (cpu : Fin cpus) (idx id other : UInt32) :
    (traceSysBucket maps cpu idx id).syscallsByCgid.lookup other =
      if other = idx then (maps.syscallsByCgid.lookup idx).map fun slots =>
        Function.update slots cpu ((slots cpu).bump (bucketOf id))
      else maps.syscallsByCgid.lookup other := by
  simp only [traceSysBucket, bumpSlot, HashTable.lookup_modify]
  by_cases same : other = idx
  · simp [same]
  · simp [same]

/-- Programs stay anchored when histograms stay and a program that starts has one. -/
theorem Anchored.later {torn next : TornState cpus} (anchored : Anchored torn)
    (kept : ∀ idx slots, torn.state.maps.syscallsByCgid.lookup idx = some slots →
      ∃ slots, next.state.maps.syscallsByCgid.lookup idx = some slots)
    (started : ∀ cpu idx id, next.inFlight cpu = some (idx, id) →
      torn.inFlight cpu = some (idx, id) ∨
        ∃ slots, next.state.maps.syscallsByCgid.lookup idx = some slots) : Anchored next := by
  intro cpu idx id flying
  rcases started cpu idx id flying with old | present
  · obtain ⟨slots, found⟩ := anchored cpu idx id old
    exact kept idx slots found
  · exact present

/-- Histograms are never removed. -/
theorem Anchored.step (kernel : Kernel) {torn : TornState cpus} (anchored : Anchored torn)
    (input : TornInput cpus) : Anchored (torn.step kernel input).1 := by
  cases input with
  | poll order => exact anchored
  | refresh found =>
    refine anchored.later (fun idx slots stored => ⟨slots, ?_⟩) fun _ _ _ flying => .inl flying
    show (torn.state.refresh kernel found).maps.syscallsByCgid.lookup idx = some slots
    rw [(torn.state.refresh_cases kernel found).2.1]
    exact stored
  | enter cpu cgid id =>
    cases idle : torn.inFlight cpu with
    | some program =>
      simp only [TornState.step, idle]
      exact anchored
    | none =>
      simp only [TornState.step, idle]
      rcases traceSysTotal_cases kernel.histLayout torn.state.maps cpu cgid with
        ⟨_, same⟩ | ⟨found, _, _, into, stored⟩
      · rw [same]
        refine anchored.later (fun idx slots present => ⟨slots, present⟩)
          fun other idx number flying => .inl ?_
        by_cases own : other = cpu
        · subst own
          simp at flying
        · simpa only [Function.update_of_ne own] using flying
      · refine anchored.later (fun idx slots present => ?_) fun other idx number flying => ?_
        · by_cases here : idx = found
          · exact ⟨_, (stored idx).trans (if_pos here)⟩
          · exact ⟨slots, ((stored idx).trans (if_neg here)).trans present⟩
        · by_cases own : other = cpu
          · subst own
            simp only [into, Function.update_self, Option.map_some, Option.some.injEq,
              Prod.mk.injEq] at flying
            exact .inr ⟨_, (stored idx).trans (if_pos flying.1.symm)⟩
          · exact .inl (by simpa only [Function.update_of_ne own] using flying)
  | leave cpu =>
    cases running : torn.inFlight cpu with
    | none =>
      simp only [TornState.step, running]
      exact anchored
    | some program =>
      obtain ⟨target, id⟩ := program
      simp only [TornState.step, running]
      refine anchored.later (fun idx slots present => ?_) fun other idx number flying => .inl ?_
      · have stored := traceSysBucket_lookup torn.state.maps cpu target id idx
        by_cases here : idx = target
        · subst here
          rw [if_pos rfl, present] at stored
          exact ⟨_, stored⟩
        · exact ⟨slots, (stored.trans (if_neg here)).trans present⟩
      · by_cases own : other = cpu
        · subst own
          simp at flying
        · simpa only [Function.update_of_ne own] using flying

/-- What a step adds to the counters of an index: the one it increments, if any. -/
theorem TornState.total_step (kernel : Kernel) (torn : TornState cpus) (anchored : Anchored torn)
    (input : TornInput cpus) (index : UInt32) (field : Field) :
    ((torn.step kernel input).1.state.total index).get field =
      (torn.state.total index).get field +
        if bumped index (torn, input) = some field then 1 else 0 := by
  cases input with
  | poll order =>
    have total : (torn.step kernel (.poll order)).1.state.total index = torn.state.total index :=
      rfl
    simp [total, bumped]
  | refresh found =>
    have histograms := (torn.state.refresh_cases kernel found).2.1
    have total : (torn.step kernel (.refresh found)).1.state.total index =
        torn.state.total index := by
      show sumPerCpu ((torn.state.refresh kernel found).maps.slots index) = _
      rw [SyscallMaps.slots, histograms]
      rfl
    simp [total, bumped]
  | enter cpu cgid id =>
    cases idle : torn.inFlight cpu with
    | some program => simp [TornState.step, idle, bumped]
    | none =>
      simp only [TornState.step, idle, bumped, true_and]
      rcases traceSysTotal_cases kernel.histLayout torn.state.maps cpu cgid with
        ⟨full, same⟩ | ⟨found, mapped, room, _, stored⟩
      · have silent : ¬ (torn.state.maps.cgidMap.lookup cgid = some index ∧
            torn.state.maps.HasRoom index) := fun both => full index both.1 both.2
        rw [same, if_neg silent]
        simp [State.total]
      · rw [State.total, SyscallMaps.slots, stored]
        by_cases here : index = found
        · subst here
          have counted : torn.state.maps.cgidMap.lookup cgid = some index ∧
              torn.state.maps.HasRoom index := ⟨mapped, room⟩
          rw [if_pos rfl, Option.getD_some, get_sumPerCpu_bump, if_pos counted]
          simp only [State.total, Option.some.injEq, eq_comm]
        · have silent : ¬ (torn.state.maps.cgidMap.lookup cgid = some index ∧
              torn.state.maps.HasRoom index) := by
            rintro ⟨other, _⟩
            rw [mapped, Option.some.injEq] at other
            exact here other.symm
          rw [if_neg here, if_neg silent]
          simp [State.total, SyscallMaps.slots]
  | leave cpu =>
    cases running : torn.inFlight cpu with
    | none => simp [TornState.step, running, bumped]
    | some program =>
      obtain ⟨idx, id⟩ := program
      obtain ⟨slots, found⟩ := anchored cpu idx id running
      simp only [TornState.step, running, bumped]
      rw [State.total, SyscallMaps.slots, traceSysBucket_lookup]
      by_cases here : index = idx
      · subst here
        rw [if_pos rfl, found, Option.map_some, Option.getD_some, get_sumPerCpu_bump,
          Option.filter_some_pos (by simp), Option.map_some]
        simp only [State.total, SyscallMaps.slots, found, Option.getD_some, Option.some.injEq,
          eq_comm]
      · rw [if_neg here, Option.filter_some_neg (by simpa using Ne.symm here)]
        simp [State.total, SyscallMaps.slots]

/-- The counter that a step increments is not at its largest value. -/
def Unwrapped (moment : TornMoment cpus) : Prop :=
  ∀ index field, bumped index moment = some field →
    ((moment.1.state.total index).get field).toNat + 1 < 2 ^ 64

/-- The counters are what the last poll saw and the increments since. -/
structure Grown (past : List (TornMoment cpus)) (torn : TornState cpus) : Prop where
  /-- Programs in flight point into histograms that exist. -/
  anchored : Anchored torn
  /-- The counters have grown by what was counted since the last poll. -/
  grown : ∀ index field, ((torn.state.total index).get field).toNat =
    ((torn.state.seen index).get field).toNat + (bumpsSince past index).count field

/-- Every step without overflow keeps the count. -/
theorem Grown.step (kernel : Kernel) {past : List (TornMoment cpus)} {torn : TornState cpus}
    (held : Grown past torn) (input : TornInput cpus) (unwrapped : Unwrapped (torn, input)) :
    Grown (past ++ [(torn, input)]) (torn.step kernel input).1 := by
  refine ⟨held.anchored.step kernel input, fun index field => ?_⟩
  have added := torn.total_step kernel held.anchored input index field
  rw [torn.seen_step, bumpsSince_snoc, added]
  by_cases poll : input.isPoll
  · have silent : bumped index (torn, input) = none := by
      cases input with
      | poll order => rfl
      | enter cpu cgid id => cases poll
      | leave cpu => cases poll
      | refresh found => cases poll
    rw [silent, if_neg (by simp), if_pos poll, if_pos poll]
    simp
  · rw [if_neg poll, if_neg poll, List.count_append, ← Nat.add_assoc, ← held.grown index field]
    by_cases bump : bumped index (torn, input) = some field
    · have below := unwrapped index field bump
      have one : (1 : UInt64).toNat = 1 := rfl
      rw [if_pos bump, bump, UInt64.toNat_add, one, Nat.mod_eq_of_lt below]
      simp
    · rw [if_neg bump]
      cases other : bumped index (torn, input) with
      | none => simp
      | some target =>
        have apart : target ≠ field := by
          rintro rfl
          exact bump other
        simp [apart]

/-- In every run without overflow the counters are what the last poll saw and the increments
since. -/
theorem grown_run (kernel : Kernel) (inputs : List (TornInput cpus))
    (unwrapped : ∀ moment ∈ (tornSystem cpus kernel).trace (.initial cpus) inputs,
      Unwrapped moment) :
    Grown ((tornSystem cpus kernel).trace (.initial cpus) inputs)
      ((tornSystem cpus kernel).final (.initial cpus) inputs) := by
  refine (tornSystem cpus kernel).invariant Grown (fun torn input => Unwrapped (torn, input))
    ⟨fun cpu idx id flying => ?_, fun index field => ?_⟩
    (fun past torn input held fits => held.step kernel input fits) inputs unwrapped
  · cases flying
  · show ((sumPerCpu fun _ : Fin cpus => {}).get field).toNat = _
    rw [sumPerCpu_zero]
    simp [TornState.initial, State.seen, State.initial, Collector.new, GoMap.getD, bumpsSince,
      sinceLast]

/-- Counters that only grow have settled when none has moved or the total has. -/
theorem settled_iff_total {torn : TornState cpus} {past : List (TornMoment cpus)}
    (held : Grown past torn) (index : UInt32) :
    (if (torn.state.total index).total ≤ (torn.state.seen index).total then
        torn.state.total index = torn.state.seen index
      else ∀ field, (torn.state.seen index).get field ≤ (torn.state.total index).get field) ↔
      (bumpsSince past index = [] ∨ .total ∈ bumpsSince past index) := by
  have total := held.grown index .total
  by_cases moved : .total ∈ bumpsSince past index
  · have counted := List.count_pos_iff.mpr moved
    have above : ¬ (torn.state.total index).total ≤ (torn.state.seen index).total := by
      rw [UInt64.le_iff_toNat_le]
      show ¬ ((torn.state.total index).get .total).toNat ≤
        ((torn.state.seen index).get .total).toNat
      omega
    rw [if_neg above]
    refine ⟨fun _ => .inr moved, fun _ field => ?_⟩
    rw [UInt64.le_iff_toNat_le, held.grown index field]
    exact Nat.le_add_right _ _
  · have uncounted := List.count_eq_zero.mpr moved
    have still : (torn.state.total index).total ≤ (torn.state.seen index).total := by
      rw [UInt64.le_iff_toNat_le]
      show ((torn.state.total index).get .total).toNat ≤
        ((torn.state.seen index).get .total).toNat
      omega
    rw [if_pos still]
    constructor
    · intro same
      refine .inl (List.eq_nil_iff_forall_not_mem.mpr fun field inside => ?_)
      have count := held.grown index field
      have some_count := List.count_pos_iff.mpr inside
      rw [same] at count
      omega
    · intro quiet
      have none_since := quiet.resolve_right moved
      apply SyscallCounts.ext_get
      intro field
      have count := held.grown index field
      rw [none_since, List.count_nil, Nat.add_zero] at count
      exact UInt64.toNat_inj.mp count

/-- Without overflow, the counters have settled at every poll of a run exactly when each poll
finds, for every index, no increment since the last poll or one of the total among them. -/
theorem settled_iff_no_stray (kernel : Kernel) (inputs : List (TornInput cpus))
    (unwrapped : ∀ moment ∈ (tornSystem cpus kernel).trace (.initial cpus) inputs,
      Unwrapped moment) :
    (∀ moment ∈ (tornSystem cpus kernel).trace (.initial cpus) inputs, Settled moment) ↔
    ∀ past order rest, inputs = past ++ .poll order :: rest → ∀ index,
      let bumps := bumpsSince ((tornSystem cpus kernel).trace (.initial cpus) past) index
      bumps = [] ∨ .total ∈ bumps := by
  have at_poll (past rest : List (TornInput cpus)) (order : RangeOrder UInt32 SyscallCounts)
      (whole : inputs = past ++ .poll order :: rest) :
      Settled ((tornSystem cpus kernel).final (.initial cpus) past, .poll order) ↔
      ∀ index, bumpsSince ((tornSystem cpus kernel).trace (.initial cpus) past) index = [] ∨
        .total ∈ bumpsSince ((tornSystem cpus kernel).trace (.initial cpus) past) index := by
    have held := grown_run kernel past fun moment early => by
      apply unwrapped
      rw [whole, Machine.trace_append]
      exact List.mem_append_left _ early
    unfold Settled
    simp only [TornInput.isPoll, true_imp_iff]
    exact forall_congr' fun index => settled_iff_total held index
  constructor
  · intro settled past order rest whole
    apply (at_poll past rest order whole).mp
    apply settled
    exact (Machine.mem_trace_iff _ _ _ _).mpr ⟨past, rest, whole, rfl⟩
  · intro schedule moment member
    obtain ⟨past, rest, whole, met⟩ := (Machine.mem_trace_iff _ _ _ _).mp member
    obtain ⟨torn, input⟩ := moment
    cases input with
    | enter cpu cgid id => exact fun poll => by cases poll
    | leave cpu => exact fun poll => by cases poll
    | refresh found => exact fun poll => by cases poll
    | poll order =>
      obtain rfl : (tornSystem cpus kernel).final (.initial cpus) past = torn := met
      exact (at_poll past rest order whole).mpr (schedule past order rest whole)

end ContainerAnomaly.Attribution
