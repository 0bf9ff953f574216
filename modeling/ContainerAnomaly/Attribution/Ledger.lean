import ContainerAnomaly.Attribution.System

/-!
# The ledger of unreported syscalls

What the component is for: every syscall of a mapped cgroup goes into the ledger of its index,
and a poll reports the ledger and empties it. The counters of the program and the totals the
collector remembers represent that ledger: in every run, each counter summed over the CPUs is
what the last poll saw plus the number of pending syscalls of its kind, modulo `2 ^ 64`
(`tracks`). Results about rows are stated over the ledger and reach the code through `tracks`.
-/

namespace ContainerAnomaly.Attribution

open Lib Bpf Syscalls Agent Container

variable {cpus : Nat}

/-- One executed syscall: the cgroup of its task and its number. -/
structure Syscall where
  /-- The cgroup of the task. -/
  cgid : UInt64
  /-- The number of the call. -/
  id : UInt32
deriving DecidableEq

/-- The syscall an input executes. -/
def Input.syscall : Input cpus → Option Syscall
  | .sysEnter _ cgid id => some ⟨cgid, id⟩
  | _ => none

/-- The input is a poll. -/
def Input.isPoll : Input cpus → Bool
  | .poll _ => true
  | _ => false

/-- The syscall of a moment, when its cgroup is mapped to the index. -/
def mappedTo (index : UInt32) (moment : Moment cpus) : Option Syscall :=
  moment.2.syscall.filter fun call => moment.1.maps.cgidMap.lookup call.cgid = some index

/-- A syscall that is executed under an index was made in a cgroup mapped to it. -/
theorem mappedTo_eq_some {index : UInt32} {moment : Moment cpus} {call : Syscall}
    (hit : mappedTo index moment = some call) :
    moment.2.syscall = some call ∧
      moment.1.maps.cgidMap.lookup call.cgid = some index := by
  unfold mappedTo at hit
  obtain ⟨made, mapped⟩ := Option.filter_eq_some_iff.mp hit
  exact ⟨made, by simpa using mapped⟩

/-- The syscall of a moment, when the program counts it under the index. -/
def countedAs (index : UInt32) (moment : Moment cpus) : Option Syscall :=
  (mappedTo index moment).filter fun _ => moment.1.maps.HasRoom index

/-- The syscalls executed while their cgroup was mapped to the index. -/
def executed (past : List (Moment cpus)) (index : UInt32) : List Syscall :=
  past.filterMap (mappedTo index)

/-- The syscalls counted under the index since the last poll. -/
def pending (past : List (Moment cpus)) (index : UInt32) : List Syscall :=
  (sinceLast (fun moment => moment.2.isPoll) past).filterMap (countedAs index)

/-- How many of the syscalls increment a counter. -/
def tally (field : Field) (calls : List Syscall) : Nat :=
  calls.countP fun call => field.counts call.id

/-- The counters of an index summed over the CPUs. -/
def State.total (state : State cpus) (index : UInt32) : SyscallCounts :=
  sumPerCpu (state.maps.slots index)

/-- The counters of an index the last poll saw. -/
def State.seen (state : State cpus) (index : UInt32) : SyscallCounts :=
  GoMap.getD state.collector.prevSeen index {}

@[simp] theorem tally_nil (field : Field) : tally field [] = 0 := rfl

/-- Tallies of consecutive stretches add up. -/
@[simp] theorem tally_append (field : Field) (first second : List Syscall) :
    tally field (first ++ second) = tally field first + tally field second := by
  simp [tally]

/-- The counters of an index without an entry are zero. -/
theorem sumPerCpu_zero : sumPerCpu (fun _ : Fin cpus => {}) = {} := by
  apply SyscallCounts.ext_get
  intro field
  simp [get_sumPerCpu]

/-- A syscall goes into the ledger of the index its cgroup is mapped to, if that has room. -/
theorem countedAs_sysEnter (state : State cpus) (cpu : Fin cpus) (cgid : UInt64) (id : UInt32)
    (index : UInt32) :
    countedAs index (state, (.sysEnter cpu cgid id : Input cpus)) =
      if state.maps.cgidMap.lookup cgid = some index ∧ state.maps.HasRoom index then
        some ⟨cgid, id⟩ else none := by
  unfold countedAs mappedTo Input.syscall
  by_cases hit : state.maps.cgidMap.lookup cgid = some index
  · by_cases room : state.maps.HasRoom index
    · rw [if_pos ⟨hit, room⟩, Option.filter_some_pos (by simpa using hit),
        Option.filter_some_pos (by simpa using room)]
    · rw [if_neg (fun both => room both.2), Option.filter_some_pos (by simpa using hit),
        Option.filter_some_neg (by simpa using room)]
  · rw [if_neg (fun both => hit both.1), Option.filter_some_neg (by simpa using hit),
      Option.filter_none]

/-- A counted syscall adds one to the counters it belongs to, in its own index only. -/
theorem total_counted (kernel : Kernel) (state : State cpus) (cpu : Fin cpus) (cgid : UInt64)
    (id : UInt32) (index : UInt32) (field : Field) :
    ((state.step kernel (.sysEnter cpu cgid id)).1.total index).get field =
      (state.total index).get field + UInt64.ofNat (tally field
        (countedAs index (state, (.sysEnter cpu cgid id : Input cpus))).toList) := by
  change (sumPerCpu ((traceSysEnter kernel.histLayout state.maps cpu cgid id).slots index)).get
    field = _
  rw [countedAs_sysEnter]
  rcases traceSysEnter_cases kernel.histLayout state.maps cpu cgid id with
    ⟨missed, same⟩ | ⟨idx, hit, full, same⟩ | ⟨idx, hit, room, _, stored⟩
  · simp [same, missed, State.total]
  · have uncounted : ¬ (state.maps.cgidMap.lookup cgid = some index ∧
        state.maps.HasRoom index) := by
      rintro ⟨mapped, room⟩
      rw [hit] at mapped
      exact full (Option.some.inj mapped ▸ room)
    rw [if_neg uncounted, same]
    simp [State.total]
  · rw [SyscallMaps.slots, stored]
    by_cases here : index = idx
    · subst here
      have counted : state.maps.cgidMap.lookup cgid = some index ∧ state.maps.HasRoom index :=
        ⟨hit, room⟩
      rw [if_pos rfl, Option.getD_some, get_sumPerCpu_count, if_pos counted]
      by_cases kind : field.counts id <;> simp [tally, State.total, kind]
    · have uncounted : ¬ (state.maps.cgidMap.lookup cgid = some index ∧
          state.maps.HasRoom index) := by
        rintro ⟨mapped, _⟩
        rw [hit] at mapped
        exact here (Option.some.inj mapped).symm
      rw [if_neg here, if_neg uncounted]
      simp [State.total, SyscallMaps.slots]

/-- What a step adds to the counters of an index: the syscall it counts there, if any. -/
theorem State.total_step (kernel : Kernel) (state : State cpus) (input : Input cpus)
    (index : UInt32) (field : Field) :
    ((state.step kernel input).1.total index).get field = (state.total index).get field +
      UInt64.ofNat (tally field (countedAs index (state, input)).toList) := by
  cases input with
  | sysEnter cpu cgid id => exact total_counted kernel state cpu cgid id index field
  | refresh found =>
    have histograms := (state.refresh_cases kernel found).2.1
    have total : (state.step kernel (.refresh found)).1.total index = state.total index := by
      change sumPerCpu ((state.refresh kernel found).maps.slots index) = _
      rw [SyscallMaps.slots, histograms]
      rfl
    rw [total]
    simp [countedAs, mappedTo, Input.syscall]
  | poll order =>
    have total : (state.step kernel (.poll order)).1.total index = state.total index := rfl
    rw [total]
    simp [countedAs, mappedTo, Input.syscall]

/-- A poll sees the counters it reads; no other step changes what was seen. -/
theorem State.seen_step (kernel : Kernel) (state : State cpus) (input : Input cpus)
    (index : UInt32) : (state.step kernel input).1.seen index =
      if input.isPoll then state.total index else state.seen index := by
  cases input with
  | sysEnter cpu cgid id => rfl
  | refresh found =>
    have seen := (state.refresh_cases kernel found).2.2.1
    change GoMap.getD (state.refresh kernel found).collector.prevSeen index {} = _
    rw [seen]
    rfl
  | poll order =>
    change GoMap.getD (pollOnce order state.maps state.collector).1.prevSeen index {} = _
    rw [if_pos (by rfl), GoMap.getD, pollOnce_prevSeen, State.total, SyscallMaps.slots]
    cases state.maps.syscallsByCgid.lookup index with
    | none => exact sumPerCpu_zero.symm
    | some slots => rfl

/-- The executed syscalls after one more step. -/
theorem executed_snoc (past : List (Moment cpus)) (moment : Moment cpus) (index : UInt32) :
    executed (past ++ [moment]) index =
      executed past index ++ (mappedTo index moment).toList := by
  rw [executed, List.filterMap_append]
  cases hit : mappedTo index moment <;> simp [executed, hit]

/-- The ledger after one more step. -/
theorem pending_snoc (past : List (Moment cpus)) (moment : Moment cpus) (index : UInt32) :
    pending (past ++ [moment]) index =
      if moment.2.isPoll then [] else pending past index ++ (countedAs index moment).toList := by
  unfold pending
  rw [sinceLast_snoc]
  split
  · rfl
  · rw [List.filterMap_append]
    cases counted : countedAs index moment <;> simp [counted]

/-- A poll executes no syscall. -/
theorem countedAs_poll (state : State cpus) (input : Input cpus) (index : UInt32)
    (poll : input.isPoll) : countedAs index (state, input) = none := by
  cases input with
  | poll order => rfl
  | sysEnter cpu cgid id => cases poll
  | refresh found => cases poll

/-- The counters represent the ledger. -/
def Tracks (past : List (Moment cpus)) (state : State cpus) : Prop :=
  ∀ index field, (state.total index).get field =
    (state.seen index).get field + UInt64.ofNat (tally field (pending past index))

/-- Every step keeps the representation. -/
theorem Tracks.step (kernel : Kernel) {past : List (Moment cpus)} {state : State cpus}
    (tracked : Tracks past state) (input : Input cpus) :
    Tracks (past ++ [(state, input)]) (state.step kernel input).1 := by
  intro index field
  rw [state.total_step, state.seen_step, pending_snoc]
  by_cases poll : input.isPoll
  · simp [poll, countedAs_poll state input index poll]
  · simp only [poll, Bool.false_eq_true, if_false]
    rw [tracked index field, tally_append, UInt64.ofNat_add, add_assoc]

/-- In every run the counters represent the ledger. -/
theorem tracks (kernel : Kernel) (inputs : List (Input cpus)) :
    Tracks ((system cpus kernel).trace (.initial cpus) inputs)
      ((system cpus kernel).final (.initial cpus) inputs) := by
  apply (system cpus kernel).invariant_always Tracks
  · intro index field
    change (sumPerCpu fun _ : Fin cpus => {}).get field = _
    rw [sumPerCpu_zero]
    simp [State.seen, State.initial, Collector.new, GoMap.getD, pending, sinceLast]
  · intro past state input tracked
    exact tracked.step kernel input

/-- A counter summed over rows. -/
def sumOver (field : Field) (rows : List Row) : Nat :=
  (rows.map fun row => (row.counts.get field).toNat).sum

/-- Sums over consecutive rows add up. -/
@[simp] theorem sumOver_append (field : Field) (first second : List Row) :
    sumOver field (first ++ second) = sumOver field first + sumOver field second := by
  simp [sumOver]

/-- The rows that were read from an index. -/
def rowsAt (rows : List (UInt32 × Row)) (index : UInt32) : List Row :=
  snapshotRows (rows.filter fun row => row.1 = index)

/-- What a poll emits for an index: nothing when its total has not grown, and otherwise one row
with the saturating differences, under the name the collector has for the index. -/
theorem rows_of_poll (kernel : Kernel) (state : State cpus)
    (order : RangeOrder UInt32 SyscallCounts) (index : UInt32) :
    let delta := subtract (state.total index) (state.seen index)
    (state.step kernel (.poll order)).2.filter (fun row => row.1 = index) =
      if delta.total = 0 then []
      else [(index, ⟨GoMap.getD state.collector.idxToCid index [], delta⟩)] := by
  change (pollOnce order state.maps state.collector).2.filter _ = _
  rw [pollOnce_rows, State.total, SyscallMaps.slots]
  cases found : state.maps.syscallsByCgid.lookup index with
  | none =>
    have nothing : (subtract (sumPerCpu fun _ : Fin cpus => {}) (state.seen index)).total = 0 := by
      change safe (sumPerCpu fun _ : Fin cpus => {}).total (state.seen index).total = 0
      rw [sumPerCpu_zero, safe]
      split
      · rename_i least
        rw [UInt64.le_zero_iff.mp least]
        rfl
      · rfl
    simp only [Option.getD_none, if_pos nothing]
    rfl
  | some slots =>
    simp only [Option.bind_some, Option.getD_some]
    by_cases unchanged : (subtract (sumPerCpu slots) (state.seen index)).total = 0
    · rw [if_pos unchanged, deltaRow]
      exact congrArg Option.toList (if_pos unchanged)
    · rw [if_neg unchanged, deltaRow]
      exact congrArg Option.toList (if_neg unchanged)

/-- The rows a poll emits, one by one. -/
theorem mem_rows_of_poll (kernel : Kernel) (state : State cpus)
    (order : RangeOrder UInt32 SyscallCounts) (index : UInt32) (row : Row) :
    (index, row) ∈ (state.step kernel (.poll order)).2 ↔
      (subtract (state.total index) (state.seen index)).total ≠ 0 ∧
        row = ⟨GoMap.getD state.collector.idxToCid index [],
          subtract (state.total index) (state.seen index)⟩ := by
  have own : (index, row) ∈ (state.step kernel (.poll order)).2 ↔
      (index, row) ∈ (state.step kernel (.poll order)).2.filter (fun row => row.1 = index) := by
    simp
  rw [own, rows_of_poll kernel state order index]
  by_cases unchanged : (subtract (state.total index) (state.seen index)).total = 0
  · simp [unchanged]
  · simp [unchanged]

end ContainerAnomaly.Attribution
