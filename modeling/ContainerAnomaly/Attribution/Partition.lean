import ContainerAnomaly.Attribution.Ledger
import ContainerAnomaly.Lib.Partition

/-!
# The histogram is a partition

Every syscall is counted in the total and in one bucket, so in every slot the total is the sum of
the buckets, modulo `2 ^ 64`. Sums over the CPUs keep the law, and so do differences from one poll
to the next as long as no sum has wrapped around: `safe` reports zero for a counter that has
fallen, whatever it was increased by (`row_partition`, `wrapped_row`).
-/

namespace ContainerAnomaly.Attribution

open Lib Bpf Syscalls Agent Container

variable {cpus : Nat}

/-- The total is the sum of the buckets. -/
abbrev AddsUp (values : Field → UInt64) : Prop := IsWhole .total buckets values

/-- Counting a syscall keeps the law. -/
theorem partition_count {counts : SyscallCounts} (holds : AddsUp counts.get) (id : UInt32) :
    AddsUp (counts.count id).get := by
  have grown : (counts.count id).get = fun field => counts.get field +
      if field = .total ∨ field = bucketOf id then 1 else 0 := by
    funext field
    rw [SyscallCounts.get_count]
    simp [Field.counts]
  rw [grown]
  exact holds.add (.single 1 (mem_buckets (bucketOf_ne_total id)) (by decide) (by decide))

/-- A fresh histogram is a partition. -/
theorem partition_zero : AddsUp (SyscallCounts.get {}) := by
  have zeros : SyscallCounts.get {} = fun _ => 0 := funext SyscallCounts.get_zero
  rw [zeros]
  exact .zero

/-- The sum over the CPUs keeps the law. -/
theorem partition_sumPerCpu {perCPU : PerCpu cpus SyscallCounts}
    (each : ∀ cpu, AddsUp (perCPU cpu).get) : AddsUp (sumPerCpu perCPU).get := by
  have running (slots : List SyscallCounts) (sum : SyscallCounts) (holds : AddsUp sum.get)
      (slots_hold : ∀ slot ∈ slots, AddsUp slot.get) :
      AddsUp (slots.foldl addSlot sum).get := by
    induction slots generalizing sum with
    | nil => exact holds
    | cons slot slots ih =>
      obtain ⟨first, rest⟩ := List.forall_mem_cons.mp slots_hold
      have added : (addSlot sum slot).get = fun field => sum.get field + slot.get field :=
        funext (get_addSlot sum slot)
      exact ih _ (added ▸ holds.add first) rest
  refine running _ _ partition_zero fun slot inside => ?_
  obtain ⟨cpu, rfl⟩ := (List.mem_ofFn' _ _).mp inside
  exact each cpu

/-- Without a counter that has fallen, a difference keeps the law. -/
theorem partition_subtract {total prev : SyscallCounts} (now : AddsUp total.get)
    (before : AddsUp prev.get) (grown : ∀ field, prev.get field ≤ total.get field) :
    AddsUp (subtract total prev).get := by
  have split : total.get = fun field => prev.get field + (subtract total prev).get field := by
    funext field
    rw [get_subtract, safe, if_pos (grown field), add_comm, UInt64.sub_add_cancel]
  rw [split] at now
  exact before.of_add now

/-- The law in the slots of the program and in what the collector remembers. -/
structure Partitioned (state : State cpus) : Prop where
  /-- The law holds in every slot of the program. -/
  slots : ∀ index cpu, AddsUp (state.maps.slots index cpu).get
  /-- It holds of what the collector has seen. -/
  seen : ∀ index, AddsUp (state.seen index).get

/-- A syscall keeps the law in every slot. -/
theorem partition_traceSysEnter (layout : Layout UInt32) {maps : SyscallMaps cpus}
    (holds : ∀ index cpu, AddsUp (maps.slots index cpu).get) (on : Fin cpus) (cgid : UInt64)
    (id : UInt32) (index : UInt32) (cpu : Fin cpus) :
    AddsUp ((traceSysEnter layout maps on cgid id).slots index cpu).get := by
  rcases traceSysEnter_cases layout maps on cgid id with
    ⟨_, same⟩ | ⟨_, _, _, same⟩ | ⟨idx, _, _, _, stored⟩
  · rw [same]
    exact holds index cpu
  · rw [same]
    exact holds index cpu
  · rw [SyscallMaps.slots, stored]
    by_cases here : index = idx
    · rw [if_pos here, Option.getD_some]
      by_cases own : cpu = on
      · rw [own, Function.update_self]
        exact partition_count (holds idx on) id
      · rw [Function.update_of_ne own]
        exact holds idx cpu
    · rw [if_neg here]
      exact holds index cpu

/-- Every step keeps the law. -/
theorem Partitioned.step (kernel : Kernel) {state : State cpus} (holds : Partitioned state)
    (input : Input cpus) : Partitioned (state.step kernel input).1 where
  slots := by
    cases input with
    | sysEnter on cgid id => exact partition_traceSysEnter kernel.histLayout holds.slots on cgid id
    | poll order => exact holds.slots
    | refresh found =>
      have kept := (state.refresh_cases kernel found).2.1
      intro index cpu
      change AddsUp ((state.refresh kernel found).maps.slots index cpu).get
      rw [SyscallMaps.slots, kept]
      exact holds.slots index cpu
  seen := by
    intro index
    rw [state.seen_step]
    by_cases polled : input.isPoll
    · rw [if_pos polled]
      exact partition_sumPerCpu (holds.slots index)
    · rw [if_neg polled]
      exact holds.seen index

/-- The law holds after every run. -/
theorem partitioned_run (kernel : Kernel) (inputs : List (Input cpus)) :
    Partitioned ((system cpus kernel).final (.initial cpus) inputs) := by
  refine (system cpus kernel).invariant_always (fun _ state => Partitioned state) ?_
    (fun _ state input holds => holds.step kernel input) inputs
  exact ⟨fun _ _ => partition_zero, fun _ => partition_zero⟩

/-- A poll of a run emits a row for an index of which no counter has fallen since its last poll. -/
def EmittedUnwrapped (kernel : Kernel) (inputs : List (Input cpus)) (row : Row) : Prop :=
  ∃ past order rest index, inputs = past ++ .poll order :: rest ∧
    let state := (system cpus kernel).final (.initial cpus) past
    (index, row) ∈ (state.step kernel (.poll order)).2 ∧
      ∀ field, (state.seen index).get field ≤ (state.total index).get field

/-- Such rows are partitions. -/
theorem row_partition (kernel : Kernel) (inputs : List (Input cpus)) {row : Row}
    (emitted : EmittedUnwrapped kernel inputs row) : AddsUp row.counts.get := by
  obtain ⟨past, order, _, index, _, member, grown⟩ := emitted
  have holds := partitioned_run kernel past
  obtain ⟨_, rfl⟩ := (mem_rows_of_poll kernel _ order index row).mp member
  exact partition_subtract (partition_sumPerCpu (holds.slots index)) (holds.seen index) grown

/-- A state in which the syscalls of a cgroup are counted under an index. -/
structure Counting (state : State cpus) (cgid : UInt64) (index : UInt32) : Prop where
  /-- The cgroup has the index. -/
  mapped : state.maps.cgidMap.lookup cgid = some index
  /-- The index has a histogram, or there is room for one. -/
  room : state.maps.HasRoom index

/-- Such a state counts a syscall, and stays one. -/
theorem Counting.step (kernel : Kernel) {state : State cpus} {cgid : UInt64} {index : UInt32}
    (counting : Counting state cgid index) (cpu : Fin cpus) (id : UInt32) :
    let next := (state.step kernel (.sysEnter cpu cgid id)).1
    Counting next cgid index ∧ next.collector = state.collector ∧
      ∀ field, (next.total index).get field =
        (state.total index).get field + if field.counts id then 1 else 0 := by
  intro next
  obtain ⟨mapped, room⟩ := counting
  refine ⟨?_, rfl, fun field => ?_⟩
  · rcases traceSysEnter_cases kernel.histLayout state.maps cpu cgid id with
      ⟨missed, _⟩ | ⟨_, hit, full, _⟩ | ⟨idx, hit, _, kept, stored⟩
    · cases mapped.symm.trans missed
    · obtain rfl := Option.some.inj (mapped.symm.trans hit)
      exact absurd room full
    · obtain rfl := Option.some.inj (mapped.symm.trans hit)
      refine ⟨(congrArg (fun table => table.lookup cgid) kept).trans mapped, .inl ?_⟩
      have found := stored index
      rw [if_pos rfl] at found
      by_contra absent
      cases found.symm.trans ((HashTable.lookup_eq_none_iff _ _).mpr absent)
  · have counted := total_counted kernel state cpu cgid id index field
    rw [countedAs_sysEnter, if_pos ⟨mapped, room⟩] at counted
    rw [counted]
    by_cases kind : field.counts id <;> simp [tally, kind]

/-- It counts as many as there are. -/
theorem Counting.replicate (kernel : Kernel) {state : State cpus} {cgid : UInt64}
    {index : UInt32} (counting : Counting state cgid index) (cpu : Fin cpus) (id : UInt32)
    (count : Nat) :
    let next := (system cpus kernel).final state (List.replicate count (.sysEnter cpu cgid id))
    Counting next cgid index ∧ next.collector = state.collector ∧
      ∀ field, (next.total index).get field =
        (state.total index).get field + if field.counts id then UInt64.ofNat count else 0 := by
  induction count generalizing state with
  | zero => exact ⟨counting, rfl, fun field => by simp⟩
  | succ count ih =>
    obtain ⟨again, same, grown⟩ := counting.step kernel cpu id
    obtain ⟨last, still, rest⟩ := ih again
    refine ⟨last, still.trans same, fun field => ?_⟩
    have total := rest field
    rw [grown field] at total
    rw [List.replicate_succ, Machine.final_cons]
    refine total.trans ?_
    by_cases kind : field.counts id
    · rw [if_pos kind, if_pos kind, if_pos kind, add_assoc, UInt64.ofNat_add, add_comm 1]
      rfl
    · rw [if_neg kind, if_neg kind, if_neg kind, add_zero]

/-- A refresh, reads on a CPU, another syscall, a poll, and one more read. -/
def wrapping (cpu : Fin cpus) (reads : Nat) : List (Input cpus) :=
  .refresh (.single (lit "a") 7) :: (List.replicate reads (.sysEnter cpu 7 nrRead) ++
    [.sysEnter cpu 7 39, .poll (.stored _ _), .sysEnter cpu 7 nrRead])

/-- What the collector remembers then, and what the counters are. -/
theorem after_wrapping (reads : Nat) :
    let state := (system 1 .plain).final (.initial 1) (wrapping 0 reads)
    ∀ field, (state.seen 0).get field =
        (if field.counts nrRead then UInt64.ofNat reads else 0) +
          (if field.counts 39 then 1 else 0) ∧
      (state.total 0).get field =
        (state.seen 0).get field + if field.counts nrRead then 1 else 0 := by
  intro state field
  let mapped := (State.step .plain (.initial 1) (.refresh (.single (lit "a") 7))).1
  let counted := (system 1 .plain).final mapped (List.replicate reads (.sysEnter 0 7 nrRead))
  let other := (State.step .plain counted (.sysEnter 0 7 39)).1
  let polled := (State.step .plain other (.poll (.stored _ _))).1
  have last : state = (State.step .plain polled (.sysEnter 0 7 nrRead)).1 := by
    show (system 1 .plain).final mapped (_ ++ _) = _
    rw [Machine.final_append]
    rfl
  have begins : Counting mapped 7 0 := ⟨by decide, by decide⟩
  have empty : (mapped.total 0).get field = 0 := by
    cases field <;> decide
  obtain ⟨counting, _, first⟩ := begins.replicate .plain 0 nrRead reads
  obtain ⟨⟨mapped_still, room_still⟩, _, second⟩ := counting.step .plain 0 39
  have still : Counting polled 7 0 := ⟨mapped_still, room_still⟩
  obtain ⟨_, _, third⟩ := still.step .plain 0 nrRead
  have seen : polled.seen 0 = other.total 0 := other.seen_step .plain (.poll (.stored _ _)) 0
  have remembered : state.seen 0 = other.total 0 := by
    rw [last, ← seen]
    rfl
  have sums : (other.total 0).get field =
      (if field.counts nrRead then UInt64.ofNat reads else 0) +
        (if field.counts 39 then 1 else 0) := by
    rw [second field, first field, empty, zero_add]
  rw [remembered]
  refine ⟨sums, ?_⟩
  rw [last]
  exact third field

/-- What the next poll emits when the reads have wrapped around. -/
theorem row_after_wrap {state : State 1}
    (known : ∀ field, (state.seen 0).get field =
        (if field.counts nrRead then UInt64.ofNat (2 ^ 64 - 1) else 0) +
          (if field.counts 39 then 1 else 0) ∧
      (state.total 0).get field =
        (state.seen 0).get field + if field.counts nrRead then 1 else 0) :
    ∃ row, (0, row) ∈ (state.step .plain (.poll (.stored _ _))).2 ∧
      ∀ field, row.counts.get field = if field = .total then 1 else 0 := by
  have values : ∀ field, (subtract (state.total 0) (state.seen 0)).get field =
      if field = .total then 1 else 0 := by
    intro field
    obtain ⟨seen, total⟩ := known field
    rw [get_subtract, total, seen]
    cases field <;> decide
  have some_new : (subtract (state.total 0) (state.seen 0)).total ≠ 0 := by
    have one : (subtract (state.total 0) (state.seen 0)).total = 1 := values .total
    rw [one]
    decide
  exact ⟨_, (mem_rows_of_poll .plain state (.stored _ _) 0 _).mpr ⟨some_new, rfl⟩, values⟩

/-- When `2 ^ 64 - 1` reads and another syscall have wrapped the total around, the poll after the
next read emits a row with a total of one and nothing in its buckets. -/
theorem wrapped_row :
    ∃ row ∈ snapshotRows
        ((system 1 .plain).outputs (.initial 1) (wrapping 0 (2 ^ 64 - 1) ++ [.poll (.stored _ _)])),
      row.counts.total = 1 ∧ (∀ bucket ∈ buckets, row.counts.get bucket = 0) ∧
        ¬ AddsUp row.counts.get := by
  obtain ⟨row, emitted, values⟩ := row_after_wrap (after_wrapping (2 ^ 64 - 1))
  have none_left : ∀ bucket ∈ buckets, row.counts.get bucket = 0 := by
    intro bucket inside
    have part : bucket ≠ .total := by
      rintro rfl
      exact absurd inside (by decide)
    rw [values, if_neg part]
  have last : (0, row) ∈ (system 1 .plain).outputs (.initial 1)
      (wrapping 0 (2 ^ 64 - 1) ++ [.poll (.stored _ _)]) := by
    rw [Machine.outputs_snoc]
    exact List.mem_append_right _ emitted
  refine ⟨row, List.mem_map_of_mem last, values .total, none_left, fun holds => ?_⟩
  have sum : (buckets.map row.counts.get).sum = 0 := by
    rw [List.map_congr_left none_left]
    decide
  exact absurd ((values .total).symm.trans (holds.trans sum)) (by decide)

end ContainerAnomaly.Attribution
