import ContainerAnomaly.Attribution.Ledger

/-!
# When every syscall is reported under its container

While the maps and counters have room, the rows read from an index and its ledger always add up
to the syscalls executed under it (`balance_run`). Whether those rows carry the name of the
container is another matter: `UpdateContainers` replaces `idxToCid` with the containers of the
current mapping, and a poll that meets new syscalls of an index without a name reports them
under `""`. `conserved_iff_named` says that nothing else can go wrong.
-/

namespace ContainerAnomaly.Attribution

open Lib Bpf Syscalls Agent Container

variable {cpus : Nat}

/-- Capacities are not exhausted: the syscall of the moment finds room for the histogram of its
index, and no counter of that index is at its largest value. -/
def Capacity (moment : Moment cpus) : Prop :=
  ∀ index call, mappedTo index moment = some call →
    moment.1.maps.HasRoom index ∧
      ∀ field, ((moment.1.total index).get field).toNat + 1 < 2 ^ 64

/-- A poll finds a name for every index whose total has changed since the last poll. -/
def NamesUnreported (moment : Moment cpus) : Prop :=
  moment.2.isPoll → ∀ index, (moment.1.total index).total ≠ (moment.1.seen index).total →
    GoMap.getD moment.1.collector.idxToCid index [] ≠ []

/-- A step that makes no syscall is within capacity. -/
theorem capacity_of_silent {state : State cpus} {input : Input cpus}
    (silent : input.syscall = none) : Capacity (state, input) := by
  intro index call hit
  have made := (mappedTo_eq_some hit).1
  rw [silent] at made
  cases made

/-- A syscall is within capacity when its own index has room. -/
theorem capacity_of_room {state : State cpus} {cpu : Fin cpus} {cgid : UInt64} {id index : UInt32}
    (mapped : state.maps.cgidMap.lookup cgid = some index) (room : state.maps.HasRoom index)
    (small : ∀ field, ((state.total index).get field).toNat + 1 < 2 ^ 64) :
    Capacity (state, .sysEnter cpu cgid id) := by
  intro other call hit
  obtain ⟨made, found⟩ := mappedTo_eq_some hit
  obtain rfl := Option.some.inj made
  have same : some index = some other := by rw [← mapped, ← found]
  obtain rfl := Option.some.inj same
  exact ⟨room, small⟩

/-- With room, what is executed under an index is counted there. -/
theorem countedAs_of_capacity {moment : Moment cpus} (capacity : Capacity moment)
    (index : UInt32) : countedAs index moment = mappedTo index moment := by
  unfold countedAs
  cases hit : mappedTo index moment with
  | none => rfl
  | some call =>
    have room := (capacity index call hit).1
    exact Option.filter_some_pos (by simpa using room)

/-- The counters of an index are the numbers of syscalls executed under it. -/
def Exact (past : List (Moment cpus)) (state : State cpus) : Prop :=
  ∀ index field, ((state.total index).get field).toNat = tally field (executed past index)

/-- A step within capacity keeps the counters exact. -/
theorem Exact.step (kernel : Kernel) {past : List (Moment cpus)} {state : State cpus}
    (exact : Exact past state) (input : Input cpus) (capacity : Capacity (state, input)) :
    Exact (past ++ [(state, input)]) (state.step kernel input).1 := by
  intro index field
  rw [state.total_step, executed_snoc, tally_append, ← exact index field,
    countedAs_of_capacity capacity index]
  cases hit : mappedTo index (state, input) with
  | none => simp
  | some call =>
    have fits := (capacity index call hit).2 field
    have one : tally field (some call).toList ≤ 1 := List.countP_le_length
    have small : tally field (some call).toList < UInt64.size :=
      Nat.lt_of_le_of_lt one (by decide)
    change ((state.total index).get field).toNat + 1 < 2 ^ 64 at fits
    rw [UInt64.toNat_add, UInt64.toNat_ofNat_of_lt' small, Nat.mod_eq_of_lt (by omega)]

/-- The counters are exact in every run within capacity. -/
theorem exact_run (kernel : Kernel) (inputs : List (Input cpus))
    (capacity : ∀ moment ∈ (system cpus kernel).trace (.initial cpus) inputs, Capacity moment) :
    Exact ((system cpus kernel).trace (.initial cpus) inputs)
      ((system cpus kernel).final (.initial cpus) inputs) := by
  apply (system cpus kernel).invariant Exact (fun state input => Capacity (state, input))
  · intro index field
    change ((sumPerCpu fun _ : Fin cpus => {}).get field).toNat = 0
    rw [sumPerCpu_zero, SyscallCounts.get_zero]
    rfl
  · intro past state input exact allowed
    exact exact.step kernel input allowed
  · intro moment member
    exact capacity moment member

/-- The ledger lists syscalls that were executed. -/
theorem tally_pending_le (past : List (Moment cpus)) (index : UInt32) (field : Field) :
    tally field (pending past index) ≤ tally field (executed past index) := by
  have fewer : (pending past index).Sublist (executed past index) := by
    have recent := (sinceLast_suffix (fun moment : Moment cpus => moment.2.isPoll) past).sublist
    have chosen := filterMap_sublist
      (fun (moment : Moment cpus) call (counted : countedAs index moment = some call) =>
        (Option.filter_eq_some_iff.mp counted).1)
      (sinceLast (fun moment : Moment cpus => moment.2.isPoll) past)
    exact chosen.trans (recent.filterMap (mappedTo index))
  exact fewer.countP_le

section Difference

variable {past : List (Moment cpus)} {state : State cpus} (exact : Exact past state)
  (tracked : Tracks past state) (index : UInt32) (field : Field)

include exact in
/-- The ledger fits in a counter. -/
theorem tally_pending_lt : tally field (pending past index) < 2 ^ 64 := by
  have fewer := tally_pending_le past index field
  have fits := UInt64.toNat_lt ((state.total index).get field)
  rw [exact index field] at fits
  omega

include exact tracked in
/-- What the last poll saw is what was executed before it. -/
theorem seen_toNat : ((state.seen index).get field).toNat + tally field (pending past index) =
    tally field (executed past index) := by
  have fewer := tally_pending_le past index field
  have fits := tally_pending_lt exact index field
  have counted := exact index field
  have seen := UInt64.toNat_lt ((state.seen index).get field)
  rw [tracked index field, UInt64.toNat_add, UInt64.toNat_ofNat_of_lt' fits] at counted
  by_cases wraps : ((state.seen index).get field).toNat + tally field (pending past index) <
      2 ^ 64
  · rwa [Nat.mod_eq_of_lt wraps] at counted
  · rw [Nat.mod_eq_sub_mod (by omega), Nat.mod_eq_of_lt (by omega)] at counted
    omega

include exact tracked in
/-- A poll never saw more than there is. -/
theorem seen_le_total : (state.seen index).get field ≤ (state.total index).get field := by
  have before := seen_toNat exact tracked index field
  have now := exact index field
  rw [UInt64.le_iff_toNat_le]
  omega

include exact tracked in
/-- The unreported part of a counter is the number of pending syscalls. -/
theorem unreported : ((state.total index).get field - (state.seen index).get field).toNat =
    tally field (pending past index) := by
  have before := seen_toNat exact tracked index field
  have now := exact index field
  rw [UInt64.toNat_sub_of_le _ _ (seen_le_total exact tracked index field)]
  omega

include exact tracked in
/-- The delta of a poll is the number of pending syscalls. -/
theorem delta_toNat :
    ((subtract (state.total index) (state.seen index)).get field).toNat =
      tally field (pending past index) := by
  rw [get_subtract, safe, if_pos (seen_le_total exact tracked index field)]
  exact unreported exact tracked index field

end Difference

/-- Reported and pending syscalls of an index are the executed ones. -/
def Balanced (past : List (Moment cpus)) (rows : List (UInt32 × Row)) : Prop :=
  ∀ index field, sumOver field (rowsAt rows index) + tally field (pending past index) =
    tally field (executed past index)

/-- What a poll reports for an index is its ledger. -/
theorem sumOver_poll (kernel : Kernel) {past : List (Moment cpus)} {state : State cpus}
    (exact : Exact past state) (tracked : Tracks past state)
    (order : RangeOrder UInt32 SyscallCounts) (index : UInt32) (field : Field) :
    sumOver field (rowsAt (state.step kernel (.poll order)).2 index) =
      tally field (pending past index) := by
  have delta := delta_toNat exact tracked index
  rw [rowsAt, rows_of_poll kernel state order index]
  by_cases unchanged : (subtract (state.total index) (state.seen index)).total = 0
  · have nothing : tally .total (pending past index) = 0 := by
      rw [← delta .total]
      change (subtract (state.total index) (state.seen index)).total.toNat = 0
      rw [unchanged]
      rfl
    have empty : pending past index = [] := by
      apply List.length_eq_zero_iff.mp
      rw [← nothing, tally, List.countP_eq_length.mpr]
      intro call _
      simp [Field.counts]
    rw [if_pos unchanged, empty]
    rfl
  · rw [if_neg unchanged, ← delta field]
    simp [sumOver, snapshotRows]

/-- A step within capacity keeps the balance. -/
theorem Balanced.step (kernel : Kernel) {past : List (Moment cpus)} {state : State cpus}
    {rows : List (UInt32 × Row)} (balanced : Balanced past rows) (exact : Exact past state)
    (tracked : Tracks past state) (input : Input cpus) (capacity : Capacity (state, input)) :
    Balanced (past ++ [(state, input)]) (rows ++ (state.step kernel input).2) := by
  intro index field
  have before := balanced index field
  have split : rowsAt (rows ++ (state.step kernel input).2) index =
      rowsAt rows index ++ rowsAt (state.step kernel input).2 index := by
    simp [rowsAt, snapshotRows]
  have counted := countedAs_of_capacity capacity index
  rw [split, sumOver_append, executed_snoc, tally_append, pending_snoc, ← counted]
  cases input with
  | poll order =>
    have reported := sumOver_poll kernel exact tracked order index field
    rw [reported, countedAs_poll state _ index rfl]
    simp only [Input.isPoll, if_true, Option.toList_none, tally_nil]
    omega
  | sysEnter cpu cgid id =>
    have silent : rowsAt (state.step kernel (.sysEnter cpu cgid id)).2 index = [] := rfl
    rw [silent, if_neg (by simp [Input.isPoll]), tally_append, ← before]
    simp only [sumOver, List.map_nil, List.sum_nil]
    omega
  | refresh found =>
    have silent : rowsAt (state.step kernel (.refresh found)).2 index = [] := rfl
    rw [silent, if_neg (by simp [Input.isPoll]), tally_append, ← before]
    simp only [sumOver, List.map_nil, List.sum_nil]
    omega

/-- In every run within capacity, reported and pending syscalls are the executed ones. -/
theorem balance_run (kernel : Kernel) (inputs : List (Input cpus))
    (capacity : ∀ moment ∈ (system cpus kernel).trace (.initial cpus) inputs, Capacity moment) :
    Balanced ((system cpus kernel).trace (.initial cpus) inputs)
      ((system cpus kernel).outputs (.initial cpus) inputs) := by
  have together := (system cpus kernel).invariant
    (fun past state => Exact past state ∧ Tracks past state ∧
      Balanced past ((system cpus kernel).outputsOf past))
    (fun state input => Capacity (state, input))
    ⟨exact_run kernel [] (by simp), tracks kernel [], fun index field => rfl⟩ ?_ inputs
    (fun moment member => capacity moment member)
  · exact together.2.2
  · intro past state input held allowed
    obtain ⟨exact, tracked, balanced⟩ := held
    refine ⟨exact.step kernel input allowed, tracked.step kernel input, ?_⟩
    rw [Machine.outputsOf_append, Machine.outputsOf_singleton]
    exact balanced.step kernel exact tracked input allowed

/-- Every row carries the id of the container its index belongs to. -/
def Named (rows : List (UInt32 × Row)) (state : State cpus) : Prop :=
  ∀ row ∈ rows, row.2.containerID ≠ [] ∧
    state.indices.idxByCid.lookup row.2.containerID = some row.1

/-- A step that finds its names keeps the rows named. -/
theorem Named.step (kernel : Kernel) {state : State cpus} {rows : List (UInt32 × Row)}
    (named : Named rows state) (consistent : Consistent state) (input : Input cpus)
    (finds : NamesUnreported (state, input)) :
    Named (rows ++ (state.step kernel input).2) (state.step kernel input).1 := by
  intro row member
  rcases List.mem_append.mp member with old | new
  · have owned := named row old
    exact ⟨owned.1, state.step_keeps kernel input _ _ owned.2⟩
  · cases input with
    | sysEnter cpu cgid id => cases new
    | refresh found => cases new
    | poll order =>
      obtain ⟨index, row⟩ := row
      obtain ⟨changed, rfl⟩ := (mem_rows_of_poll kernel state order index row).mp new
      have grown : (state.total index).total ≠ (state.seen index).total := by
        intro same
        apply changed
        change safe (state.total index).total (state.seen index).total = 0
        rw [same, safe, if_pos (UInt64.le_refl _), UInt64.sub_self]
      have name := finds rfl index grown
      refine ⟨name, ?_⟩
      change GoMap.getD state.collector.idxToCid index [] ≠ [] at name
      change state.indices.idxByCid.lookup (GoMap.getD state.collector.idxToCid index []) =
        some index
      cases found : state.collector.idxToCid.lookup index with
      | none => exact absurd (by rw [GoMap.getD, found]; rfl) name
      | some cid =>
        rw [GoMap.getD, found]
        exact consistent.named index cid found

/-- In every run whose polls find their names, every row is named. -/
theorem named_run (kernel : Kernel) (inputs : List (Input cpus))
    (room : ((system cpus kernel).final (.initial cpus) inputs).containersSeen ≤ 2 ^ 32)
    (finds : ∀ moment ∈ (system cpus kernel).trace (.initial cpus) inputs,
      NamesUnreported moment) :
    Named ((system cpus kernel).outputs (.initial cpus) inputs)
      ((system cpus kernel).final (.initial cpus) inputs) := by
  have together := (system cpus kernel).invariant
    (fun past state => state.containersSeen ≤ 2 ^ 32 → Consistent state ∧
      Named ((system cpus kernel).outputsOf past) state)
    (fun state input => NamesUnreported (state, input))
    (fun _ => ⟨Consistent.initial, fun row member => by cases member⟩) ?_ inputs
    (fun moment member => finds moment member)
  · exact (together room).2
  · intro past state input held found room
    have earlier := Nat.le_trans (state.step_containersSeen kernel input) room
    obtain ⟨consistent, named⟩ := held earlier
    refine ⟨consistent.step kernel input room, ?_⟩
    rw [Machine.outputsOf_append, Machine.outputsOf_singleton]
    exact named.step kernel consistent input found

/-- No syscall of a monitored container is lost or moved to the host row: for every container
with an index, the rows emitted under its id and what its histogram holds beyond the last poll
are the syscalls executed while their cgroup was mapped to it; and no row is without an id. -/
structure Conserved (past : List (Moment cpus)) (rows : List Row) (state : State cpus) :
    Prop where
  /-- What the rows report of a container and what its histogram holds beyond the last poll are
  the syscalls executed under its index. -/
  balanced : ∀ cid index, state.indices.idxByCid.lookup cid = some index → ∀ field,
    sumOver field (rows.filter fun row => row.containerID = cid) +
      ((state.total index).get field - (state.seen index).get field).toNat =
        tally field (executed past index)
  /-- No row is without an id. -/
  attributed : ∀ row ∈ rows, row.containerID ≠ []

/-- The rows under the id of a container are those read from its index. -/
theorem rows_of_container {rows : List (UInt32 × Row)} {state : State cpus}
    (named : Named rows state) (numbered : state.indices.Numbered) {cid : GoString}
    {index : UInt32} (owned : state.indices.idxByCid.lookup cid = some index) :
    (snapshotRows rows).filter (fun row => row.containerID = cid) = rowsAt rows index := by
  rw [rowsAt, snapshotRows, snapshotRows, List.filter_map]
  congr 1
  apply List.filter_congr
  intro row member
  have bound := (named row member).2
  apply decide_eq_decide.mpr
  constructor
  · intro same
    change row.2.containerID = cid at same
    rw [same, owned] at bound
    exact (Option.some.inj bound).symm
  · intro same
    exact numbered.injective _ _ index (same ▸ bound) owned

/-- Within capacity, no syscall is lost or moved to the host row in a run exactly when each of
its polls finds a name for every index with new syscalls. -/
theorem conserved_iff_named (kernel : Kernel) (inputs : List (Input cpus))
    (capacity : ∀ moment ∈ (system cpus kernel).trace (.initial cpus) inputs, Capacity moment)
    (room : ((system cpus kernel).final (.initial cpus) inputs).containersSeen ≤ 2 ^ 32) :
    Conserved ((system cpus kernel).trace (.initial cpus) inputs)
        (snapshotRows ((system cpus kernel).outputs (.initial cpus) inputs))
        ((system cpus kernel).final (.initial cpus) inputs) ↔
      ∀ moment ∈ (system cpus kernel).trace (.initial cpus) inputs, NamesUnreported moment := by
  constructor
  · intro conserved moment member poll index grown nameless
    obtain ⟨state, input⟩ := moment
    cases input with
    | sysEnter cpu cgid id => cases poll
    | refresh found => cases poll
    | poll order =>
      obtain ⟨past, rest, whole, met⟩ := (Machine.mem_trace_iff _ _ _ _).mp member
      have within : ∀ moment ∈ (system cpus kernel).trace (.initial cpus) past,
          Capacity moment := by
        intro moment early
        apply capacity moment
        rw [whole, Machine.trace_append]
        exact List.mem_append_left _ early
      have ordered := seen_le_total (exact_run kernel past within) (tracks kernel past) index
        .total
      rw [met] at ordered
      change (state.seen index).total ≤ (state.total index).total at ordered
      have changed : (subtract (state.total index) (state.seen index)).total ≠ 0 := by
        change safe (state.total index).total (state.seen index).total ≠ 0
        rw [safe, if_pos ordered]
        intro zero
        exact grown (sub_eq_zero.mp zero)
      have emitted := (mem_rows_of_poll kernel state order index _).mpr ⟨changed, rfl⟩
      have listed : (⟨GoMap.getD state.collector.idxToCid index [],
          subtract (state.total index) (state.seen index)⟩ : Row) ∈
          snapshotRows ((system cpus kernel).outputs (.initial cpus) inputs) := by
        apply List.mem_map.mpr
        exact ⟨_, List.mem_flatMap.mpr ⟨_, member, emitted⟩, rfl⟩
      exact conserved.attributed _ listed nameless
  · intro finds
    have named := named_run kernel inputs room finds
    have consistent := consistent_run kernel inputs room
    refine ⟨fun cid index owned field => ?_, fun row member => ?_⟩
    · have balanced := balance_run kernel inputs capacity index field
      rw [rows_of_container named consistent.numbered owned,
        unreported (exact_run kernel inputs capacity) (tracks kernel inputs)]
      exact balanced
    · obtain ⟨entry, inside, rfl⟩ := List.mem_map.mp member
      exact (named entry inside).1

/-- Container `a` is found in cgroup 7 and makes a `read`. -/
def arrival : List (Input 1) := [.refresh (.single (lit "a") 7), .sysEnter (Fin.last 0) 7 nrRead]

/-- The arrival is within capacity. -/
theorem arrival_capacity :
    ∀ moment ∈ (system 1 .plain).trace (.initial 1) arrival, Capacity moment := by
  intro moment member
  rcases List.mem_cons.mp member with rfl | later
  · exact capacity_of_silent rfl
  · obtain rfl := List.mem_singleton.mp later
    apply @capacity_of_room _ _ _ _ _ 0
    · decide
    · decide
    · intro field
      cases field <;> decide

/-- A run with more steps that make no syscall stays within capacity. -/
theorem capacity_append {kernel : Kernel} {inputs : List (Input cpus)}
    (capacity : ∀ moment ∈ (system cpus kernel).trace (.initial cpus) inputs, Capacity moment)
    {more : List (Input cpus)} (silent : ∀ input ∈ more, input.syscall = none) :
    ∀ moment ∈ (system cpus kernel).trace (.initial cpus) (inputs ++ more), Capacity moment := by
  intro moment member
  rw [Machine.trace_append] at member
  rcases List.mem_append.mp member with old | new
  · exact capacity moment old
  · have listed := List.mem_map_of_mem (f := Prod.snd) new
    rw [Machine.trace_map_snd] at listed
    exact capacity_of_silent (silent moment.2 listed)

/-- Container `a` has left the mapping, replaced by `b`, when its syscall is polled. -/
def departure : List (Input 1) :=
  arrival ++ [.refresh (.single (lit "b") 8), .poll (.stored _ _)]

/-- The syscall of a container that leaves before the poll is reported under `""`, and none is
reported under its own id. -/
theorem departure_not_conserved :
    (∀ moment ∈ (system 1 .plain).trace (.initial 1) departure, Capacity moment) ∧
    snapshotRows ((system 1 .plain).outputs (.initial 1) departure) =
      [⟨[], { total := 1, fileRead := 1 }⟩] ∧
    ¬ Conserved ((system 1 .plain).trace (.initial 1) departure)
      (snapshotRows ((system 1 .plain).outputs (.initial 1) departure))
      ((system 1 .plain).final (.initial 1) departure) := by
  have rows : snapshotRows ((system 1 .plain).outputs (.initial 1) departure) =
      [⟨[], { total := 1, fileRead := 1 }⟩] := by decide
  refine ⟨capacity_append arrival_capacity (by simp [Input.syscall]), rows, fun conserved => ?_⟩
  have named := conserved.attributed ⟨[], { total := 1, fileRead := 1 }⟩ (by simp [rows])
  exact named rfl

/-- In the arrival, the index with a histogram has its name. -/
theorem arrival_names (order : RangeOrder UInt32 SyscallCounts) :
    NamesUnreported ((system 1 .plain).final (.initial 1) arrival, .poll order) := by
  intro _ index grown
  by_cases first : index = 0
  · subst first
    show GoMap.getD ((system 1 .plain).final (.initial 1) arrival).collector.idxToCid 0 [] ≠ []
    decide
  · have keys : ((system 1 .plain).final (.initial 1) arrival).maps.syscallsByCgid.keys = [0] := by
      decide
    have missing : ((system 1 .plain).final (.initial 1) arrival).maps.syscallsByCgid.lookup
        index = none := by
      rw [HashTable.lookup_eq_none_iff, keys]
      simpa using first
    have zero : ((system 1 .plain).final (.initial 1) arrival).total index = {} := by
      rw [State.total, SyscallMaps.slots, missing]
      exact sumPerCpu_zero
    exact absurd (congrArg SyscallCounts.total zero) grown

/-- The law holds when the poll comes before the container leaves. -/
theorem conserved_iff_named_arrival :
    let run := arrival ++ [.poll (.stored _ _), .refresh (.single (lit "b") 8)]
    Conserved ((system 1 .plain).trace (.initial 1) run)
      (snapshotRows ((system 1 .plain).outputs (.initial 1) run))
      ((system 1 .plain).final (.initial 1) run) := by
  intro run
  have capacity := @capacity_append _ _ _ arrival_capacity
    [.poll (.stored _ _), .refresh (.single (lit "b") 8)] (by simp [Input.syscall])
  apply (conserved_iff_named .plain run capacity (by decide)).mpr
  intro moment member
  rw [Machine.trace_append] at member
  rcases List.mem_append.mp member with early | late
  · obtain ⟨past, rest, whole, met⟩ := (Machine.mem_trace_iff _ _ _ _).mp early
    intro poll
    have inside : moment.2 ∈ arrival := by
      rw [whole]
      simp
    rcases List.mem_cons.mp inside with same | other
    · rw [same] at poll
      cases poll
    · rw [List.mem_singleton.mp other] at poll
      cases poll
  · rcases List.mem_cons.mp late with rfl | refresh
    · exact arrival_names _
    · intro poll
      rw [List.mem_singleton.mp refresh] at poll
      cases poll

end ContainerAnomaly.Attribution
