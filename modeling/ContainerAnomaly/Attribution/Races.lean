import ContainerAnomaly.Collector.Syscalls
import ContainerAnomaly.Lib.Interleaving

/-!
# `trace_sys_enter` on several CPUs

An execution of the program is a sequence of map operations, and executions on other CPUs may come
between any two of them. The insert of a zeroed histogram only happens when there is none, and a
second lookup finds whichever was made first, so every execution of a mapped cgroup reaches one
increment of the total and one of its bucket (`no_syscall_lost`).
-/

namespace ContainerAnomaly.Attribution

open Lib Bpf Syscalls

variable {cpus : Nat}

/-- `syscalls_by_cgid`. -/
abbrev Histograms (cpus : Nat) := HashTable UInt32 (PerCpu cpus SyscallCounts) 256

/-- An execution of `trace_sys_enter`. -/
structure Execution (cpus : Nat) where
  /-- Where it runs. -/
  cpu : Fin cpus
  /-- The cgroup of the task. -/
  cgid : UInt64
  /-- The number of the call. -/
  id : UInt32

/-- Where an execution stands between its map operations, with the index it has read. -/
inductive EnterPlace where
  /-- Before the lookup in `cgid_map`. -/
  | cgroup
  /-- Before the first lookup of the histogram. -/
  | lookup (idx : UInt32)
  /-- Before the insert of a zeroed one. -/
  | insert (idx : UInt32)
  /-- Before the second lookup. -/
  | again (idx : UInt32)
  /-- Before `c->total++`. -/
  | total (idx : UInt32)
  /-- Before the increment of the bucket. -/
  | bucket (idx : UInt32)
  | done
deriving DecidableEq

section Steps

variable {ι : Type} (layout : Layout UInt32) (cgidMap : HashTable UInt64 UInt32 1024)
  (executions : ι → Execution cpus)

/-- The next operation of an execution. -/
def enterStep (process : ι) (table : Histograms cpus) :
    EnterPlace → (Histograms cpus × EnterPlace) × List Empty
  | .cgroup =>
    match cgidMap.lookup (executions process).cgid with
    | none => ((table, .done), [])
    | some idx => ((table, .lookup idx), [])
  | .lookup idx =>
    match table.lookup idx with
    | some _ => ((table, .total idx), [])
    | none => ((table, .insert idx), [])
  | .insert idx => (((table.insertNew layout idx fun _ => {}).getD table, .again idx), [])
  | .again idx =>
    match table.lookup idx with
    | some _ => ((table, .total idx), [])
    | none => ((table, .done), [])
  | .total idx => ((bumpSlot table idx (executions process).cpu .total, .bucket idx), [])
  | .bucket idx =>
    ((bumpSlot table idx (executions process).cpu (bucketOf (executions process).id), .done), [])
  | .done => ((table, .done), [])

/-- Executions on a shared map. -/
def enters : Shared ι (Histograms cpus) EnterPlace Empty := ⟨enterStep layout cgidMap executions⟩

/-- Six steps of an execution that nothing comes between are `trace_sys_enter`. -/
theorem enter_alone [DecidableEq ι] (process : ι) (table : Histograms cpus)
    (places : ι → EnterPlace) (begins : places process = .cgroup) :
    (enters layout cgidMap executions).machine.final (table, places) (List.replicate 6 process) =
      ((traceSysEnter layout ⟨cgidMap, table⟩ (executions process).cpu (executions process).cgid
        (executions process).id).syscallsByCgid, Function.update places process .done) := by
  have run : (enters layout cgidMap executions).alone process 6 (table, .cgroup) =
      ((traceSysEnter layout ⟨cgidMap, table⟩ (executions process).cpu (executions process).cgid
        (executions process).id).syscallsByCgid, .done) := by
    simp only [Shared.alone_succ, Shared.alone_zero, enters, traceSysEnter]
    cases mapped : cgidMap.lookup (executions process).cgid with
    | none => simp [enterStep, mapped]
    | some idx =>
      cases found : table.lookup idx with
      | some slots => simp [enterStep, mapped, ensureEntry, found]
      | none =>
        cases ensured : ((table.insertNew layout idx fun _ => {}).getD table).lookup idx with
        | none => simp [enterStep, mapped, ensureEntry, found, ensured]
        | some slots => simp [enterStep, mapped, ensureEntry, found, ensured]
  simp only [Shared.final_replicate, begins, run]

end Steps

/-- The index an execution holds. -/
def EnterPlace.index : EnterPlace → Option UInt32
  | .lookup idx | .insert idx | .again idx | .total idx | .bucket idx => some idx
  | .cgroup | .done => none

/-- The index whose histogram an execution relies on. -/
def EnterPlace.relies : EnterPlace → Option UInt32
  | .again idx | .total idx | .bucket idx => some idx
  | _ => none

/-- The counter of an index, summed over the CPUs. -/
def counted (table : Histograms cpus) (idx : UInt32) (field : Field) : UInt64 :=
  ∑ cpu, ((table.lookup idx).getD (fun _ => {}) cpu).get field

/-- An insert changes no counter. -/
theorem slots_insert (layout : Layout UInt32) (table : Histograms cpus) (idx other : UInt32) :
    (((table.insertNew layout idx fun _ => {}).getD table).lookup other).getD (fun _ => {}) =
      (table.lookup other).getD (fun _ => {}) := by
  cases made : table.insertNew layout idx fun _ => {} with
  | none => rfl
  | some next =>
    have fresh := ((HashTable.insertNew_isSome_iff layout table idx fun _ => {}).mp
      (Option.isSome_iff_exists.mpr ⟨next, made⟩)).1
    rw [Option.getD_some, HashTable.lookup_insertNew made]
    by_cases same : other = idx
    · subst same
      rw [if_pos rfl, (table.lookup_eq_none_iff other).mpr fresh]
      rfl
    · rw [if_neg same]

/-- An increment adds one to its counter. -/
theorem counted_bumpSlot (table : Histograms cpus) (idx : UInt32) (cpu : Fin cpus)
    (target : Field) (present : idx ∈ table.keys) (other : UInt32) (field : Field) :
    counted (bumpSlot table idx cpu target) other field =
      counted table other field + if other = idx ∧ field = target then 1 else 0 := by
  obtain ⟨slots, found⟩ := (table.mem_keys_iff idx).mp present
  rw [counted, counted, bumpSlot, HashTable.lookup_modify]
  by_cases same : other = idx
  · subst same
    have sum := get_sumPerCpu_bump slots cpu target field
    rw [get_sumPerCpu, get_sumPerCpu] at sum
    rw [if_pos rfl, found]
    simp only [Option.map_some, Option.getD_some, true_and]
    exact sum
  · rw [if_neg same, if_neg fun both => same both.1, add_zero]

/-- An insert keeps the histograms that are there, and makes none but its own. -/
theorem mem_keys_insert (layout : Layout UInt32) (table : Histograms cpus) (idx key : UInt32) :
    (key ∈ table.keys → key ∈ ((table.insertNew layout idx fun _ => {}).getD table).keys) ∧
    (key ∈ ((table.insertNew layout idx fun _ => {}).getD table).keys →
      key ∈ table.keys ∨ key = idx) := by
  cases made : table.insertNew layout idx fun _ => {} with
  | none => exact ⟨id, .inl⟩
  | some next =>
    rw [Option.getD_some, HashTable.mem_keys_insertNew made]
    exact ⟨.inr, Or.symm⟩

/-- When there is room, there is a histogram after an insert. -/
theorem mem_keys_inserted (layout : Layout UInt32) (table : Histograms cpus) (idx : UInt32)
    (room : idx ∉ table.keys → table.entries.length < 256) :
    idx ∈ ((table.insertNew layout idx fun _ => {}).getD table).keys := by
  by_cases present : idx ∈ table.keys
  · exact (mem_keys_insert layout table idx idx).1 present
  · obtain ⟨next, made⟩ := Option.isSome_iff_exists.mp
      ((HashTable.insertNew_isSome_iff layout table idx fun _ => {}).mpr ⟨present, room present⟩)
    rw [made, Option.getD_some, HashTable.mem_keys_insertNew made]
    exact .inl rfl

/-- What holds while executions are under way: histograms belong to indices that fit, an execution
holds the index of its cgroup, and what it relies on is there. -/
structure Entering {ι : Type} (claimed : Finset UInt32) (cgidMap : HashTable UInt64 UInt32 1024)
    (executions : ι → Execution cpus) (state : Histograms cpus × (ι → EnterPlace)) : Prop where
  /-- The histograms are those of indices that fit. -/
  held : ∀ key ∈ state.1.keys, key ∈ claimed
  /-- The index that an execution holds is that of its cgroup. -/
  mapped : ∀ process idx, (state.2 process).index = some idx →
    cgidMap.lookup (executions process).cgid = some idx
  /-- The histogram that an execution relies on is there. -/
  relied : ∀ process idx, (state.2 process).relies = some idx → idx ∈ state.1.keys

section Race

variable {ι : Type} [DecidableEq ι] {layout : Layout UInt32}
  {cgidMap : HashTable UInt64 UInt32 1024} {executions : ι → Execution cpus}
  {claimed : Finset UInt32}

/-- A table that keeps its histograms, and a place whose index and reliance are right, keep the
executions going. -/
theorem Entering.advance {state : Histograms cpus × (ι → EnterPlace)}
    (entering : Entering claimed cgidMap executions state) (process : ι) {table : Histograms cpus}
    {place : EnterPlace} (kept : ∀ key ∈ state.1.keys, key ∈ table.keys)
    (gained : ∀ key ∈ table.keys, key ∈ claimed)
    (holds : ∀ idx, place.index = some idx →
      cgidMap.lookup (executions process).cgid = some idx)
    (relies : ∀ idx, place.relies = some idx → idx ∈ table.keys) :
    Entering claimed cgidMap executions (table, Function.update state.2 process place) where
  held := gained
  mapped := (Function.forall_update_iff state.2 fun other place => ∀ idx,
      place.index = some idx → cgidMap.lookup (executions other).cgid = some idx).mpr
    ⟨holds, fun other _ => entering.mapped other⟩
  relied := (Function.forall_update_iff state.2 fun _ place => ∀ idx,
      place.relies = some idx → idx ∈ table.keys).mpr
    ⟨relies, fun other _ idx found => kept idx (entering.relied other idx found)⟩

/-- What an execution has counted at a place, once it is past the increments. -/
def countedBy (cgidMap : HashTable UInt64 UInt32 1024) (executions : ι → Execution cpus)
    (idx : UInt32) (field : Field) (process : ι) : EnterPlace → UInt64
  | .bucket held => if held = idx ∧ field = .total then 1 else 0
  | .done =>
    if cgidMap.lookup (executions process).cgid = some idx ∧
      field.counts (executions process).id = true then 1 else 0
  | .cgroup | .lookup _ | .insert _ | .again _ | .total _ => 0

/-- Every step keeps the executions going. -/
theorem Entering.step (fits : claimed.card ≤ 256)
    (mine : ∀ process idx, cgidMap.lookup (executions process).cgid = some idx → idx ∈ claimed)
    {state : Histograms cpus × (ι → EnterPlace)}
    (entering : Entering claimed cgidMap executions state) (process : ι) :
    Entering claimed cgidMap executions
      ((enters layout cgidMap executions).machine.step state process).1 := by
  show Entering claimed cgidMap executions
    ((enterStep layout cgidMap executions process state.1 (state.2 process)).1.1,
      Function.update state.2 process
        (enterStep layout cgidMap executions process state.1 (state.2 process)).1.2)
  have holds := entering.mapped process
  have relies := entering.relied process
  cases stands : state.2 process with
  | cgroup =>
    simp only [enterStep]
    cases found : cgidMap.lookup (executions process).cgid with
    | none =>
      exact entering.advance process (fun _ => id) entering.held (fun idx same => by cases same)
        (fun idx same => by cases same)
    | some idx =>
      exact entering.advance process (fun _ => id) entering.held
        (fun other same => found.trans same) (fun other same => by cases same)
  | lookup idx =>
    have own := holds idx (congrArg EnterPlace.index stands)
    simp only [enterStep]
    cases found : state.1.lookup idx with
    | none =>
      exact entering.advance process (fun _ => id) entering.held (fun other same => own.trans same)
        (fun other same => by cases same)
    | some slots =>
      have present := (state.1.mem_keys_iff idx).mpr ⟨slots, found⟩
      exact entering.advance process (fun _ => id) entering.held (fun other same => own.trans same)
        (fun other same => Option.some.inj same ▸ present)
  | insert idx =>
    have own := holds idx (congrArg EnterPlace.index stands)
    have room := state.1.room_of_claimed claimed fits entering.held (mine process idx own)
    have inserted := mem_keys_inserted layout state.1 idx room
    refine entering.advance process (fun key => (mem_keys_insert layout state.1 idx key).1)
      (fun key member => ?_) (fun other same => own.trans same)
      (fun other same => Option.some.inj same ▸ inserted)
    rcases (mem_keys_insert layout state.1 idx key).2 member with old | rfl
    · exact entering.held key old
    · exact mine process key own
  | again idx =>
    have own := holds idx (congrArg EnterPlace.index stands)
    have present := relies idx (congrArg EnterPlace.relies stands)
    obtain ⟨slots, found⟩ := (state.1.mem_keys_iff idx).mp present
    simp only [enterStep, found]
    exact entering.advance process (fun _ => id) entering.held (fun other same => own.trans same)
      (fun other same => Option.some.inj same ▸ present)
  | total idx =>
    have own := holds idx (congrArg EnterPlace.index stands)
    have present := relies idx (congrArg EnterPlace.relies stands)
    have same_keys : (bumpSlot state.1 idx (executions process).cpu .total).keys = state.1.keys :=
      HashTable.keys_modify _ _ _
    refine entering.advance process (fun key => (same_keys ▸ ·)) (fun key member => ?_)
      (fun other same => own.trans same) (fun other same => ?_)
    · exact entering.held key (same_keys ▸ member)
    · obtain rfl : idx = other := Option.some.inj same
      exact same_keys.symm ▸ present
  | bucket idx =>
    have same_keys : (bumpSlot state.1 idx (executions process).cpu
        (bucketOf (executions process).id)).keys = state.1.keys := HashTable.keys_modify _ _ _
    refine entering.advance process (fun key => (same_keys ▸ ·)) (fun key member => ?_)
      (fun other same => by cases same) (fun other same => by cases same)
    exact entering.held key (same_keys ▸ member)
  | done =>
    exact entering.advance process (fun _ => id) entering.held (fun idx same => by cases same)
      (fun idx same => by cases same)

/-- Every step of an execution counts what the execution has counted by moving on. -/
theorem enters_ledger (fits : claimed.card ≤ 256)
    (mine : ∀ process idx, cgidMap.lookup (executions process).cgid = some idx → idx ∈ claimed)
    (idx : UInt32) (field : Field) :
    (enters layout cgidMap executions).Ledger (Entering claimed cgidMap executions)
      (fun table => counted table idx field) (countedBy cgidMap executions idx field)
      (fun _ => 0) := by
  refine ⟨fun state process entering => entering.step fits mine process, ?_⟩
  intro state process entering
  show ∃ amount, counted (enterStep layout cgidMap executions process state.1
      (state.2 process)).1.1 idx field +
      ((enterStep layout cgidMap executions process state.1 (state.2 process)).2.map
        fun _ => (0 : UInt64)).sum = counted state.1 idx field + amount ∧
    countedBy cgidMap executions idx field process
      (enterStep layout cgidMap executions process state.1 (state.2 process)).1.2 =
      countedBy cgidMap executions idx field process (state.2 process) + amount
  have settle {table table' place place' : UInt64} (amount : UInt64)
      (grown : table' = table + amount) (owes : place' = place + amount) :
      ∃ amount, table' + ([].map fun _ : Empty => (0 : UInt64)).sum = table + amount ∧
        place' = place + amount :=
    ⟨amount, (add_zero table').trans grown, owes⟩
  have holds := entering.mapped process
  have relies := entering.relied process
  cases stands : state.2 process with
  | cgroup =>
    simp only [enterStep]
    cases found : cgidMap.lookup (executions process).cgid with
    | none => exact settle 0 (add_zero _).symm (by simp [countedBy, found])
    | some held => exact settle 0 (add_zero _).symm (add_zero _).symm
  | lookup held =>
    simp only [enterStep]
    cases found : state.1.lookup held with
    | none => exact settle 0 (add_zero _).symm (add_zero _).symm
    | some slots => exact settle 0 (add_zero _).symm (add_zero _).symm
  | insert held =>
    have unchanged : counted ((state.1.insertNew layout held fun _ => {}).getD state.1) idx field =
        counted state.1 idx field := by
      rw [counted, counted, slots_insert]
    exact settle 0 (unchanged.trans (add_zero _).symm) (add_zero _).symm
  | again held =>
    have present := relies held (congrArg EnterPlace.relies stands)
    obtain ⟨slots, found⟩ := (state.1.mem_keys_iff held).mp present
    simp only [enterStep, found]
    exact settle 0 (add_zero _).symm (add_zero _).symm
  | total held =>
    have present := relies held (congrArg EnterPlace.relies stands)
    refine settle _ (counted_bumpSlot state.1 held _ _ present idx field) ?_
    simp only [enterStep, countedBy, zero_add, eq_comm]
  | bucket held =>
    have own := holds held (congrArg EnterPlace.index stands)
    have present := relies held (congrArg EnterPlace.relies stands)
    have apart := bucketOf_ne_total (executions process).id
    refine settle _ (counted_bumpSlot state.1 held _ _ present idx field) ?_
    simp only [enterStep, countedBy, own, Option.some.injEq]
    by_cases same : held = idx
    · subst same
      by_cases total : field = .total
      · subst total
        have counts : Field.total.counts (executions process).id = true := rfl
        rw [if_pos ⟨rfl, counts⟩, if_pos ⟨rfl, rfl⟩, if_neg fun both => apart both.2.symm, add_zero]
      · have counts : field.counts (executions process).id = true ↔
            field = bucketOf (executions process).id := by
          rw [Field.counts, decide_eq_true_eq, or_iff_right total]
        simp only [counts, total, true_and, if_false, zero_add]
    · rw [if_neg fun both => same both.1, if_neg fun both => same both.1,
        if_neg fun both => same both.1.symm, add_zero]
  | done =>
    simp only [enterStep]
    exact settle 0 (add_zero _).symm (add_zero _).symm

end Race

/-- Adding up ones counts. -/
theorem sum_ones {ι : Type} (test : ι → Prop) [DecidablePred test] (items : Finset ι) :
    ∑ item ∈ items, (if test item then (1 : UInt64) else 0) =
      UInt64.ofNat (items.filter test).card := by
  classical
  induction items using Finset.induction_on with
  | empty => rfl
  | insert item items absent ih =>
    rw [Finset.sum_insert absent, ih, Finset.filter_insert]
    by_cases passes : test item
    · have outside : item ∉ items.filter test := fun inside =>
        absent (Finset.mem_filter.mp inside).1
      rw [if_pos passes, if_pos passes, Finset.card_insert_of_notMem outside, UInt64.ofNat_add,
        add_comm]
      rfl
    · rw [if_neg passes, if_neg passes, zero_add]

/-- The executions that belong to an index and a counter. -/
def belonging {running : Nat} (cgidMap : HashTable UInt64 UInt32 1024)
    (executions : Fin running → Execution cpus) (idx : UInt32) (field : Field) :
    Finset (Fin running) :=
  Finset.univ.filter fun process => cgidMap.lookup (executions process).cgid = some idx ∧
    field.counts (executions process).id = true

/-- In every interleaving of executions that all end, with room for the indices of their cgroups,
each counter of each index grows by the number of executions that belong to it, and no insert
changes a counter on any CPU. -/
theorem no_syscall_lost {running : Nat} (layout : Layout UInt32)
    (cgidMap : HashTable UInt64 UInt32 1024) (executions : Fin running → Execution cpus)
    (table : Histograms cpus)
    (fits : (table.keys.toFinset ∪ Finset.univ.biUnion fun process =>
      (cgidMap.lookup (executions process).cgid).toFinset).card ≤ 256)
    (processes : List (Fin running))
    (finished : ∀ process, ((enters layout cgidMap executions).machine.final
      (table, fun _ => .cgroup) processes).2 process = .done) :
    (∀ idx field,
      counted ((enters layout cgidMap executions).machine.final
        (table, fun _ => .cgroup) processes).1 idx field =
      counted table idx field +
        UInt64.ofNat (belonging cgidMap executions idx field).card) ∧
    ∀ before process after, processes = before ++ process :: after →
      let state := (enters layout cgidMap executions).machine.final
        (table, fun _ => .cgroup) before
      ∀ idx, state.2 process = .insert idx → ∀ other,
        ((((enters layout cgidMap executions).machine.step state process).1.1.lookup other).getD
          fun _ => {}) = (state.1.lookup other).getD fun _ => {} := by
  let claimed := table.keys.toFinset ∪ Finset.univ.biUnion fun process =>
    (cgidMap.lookup (executions process).cgid).toFinset
  have mine : ∀ process idx, cgidMap.lookup (executions process).cgid = some idx →
      idx ∈ claimed := fun process idx found => Finset.mem_union_right _
    (Finset.mem_biUnion.mpr ⟨process, Finset.mem_univ process, by simp [found]⟩)
  have begins : Entering claimed cgidMap executions (table, fun _ => .cgroup) :=
    ⟨fun key member => Finset.mem_union_left _ (List.mem_toFinset.mpr member),
      fun process idx found => (by cases found), fun process idx found => (by cases found)⟩
  constructor
  · intro idx field
    have ledger : (enters layout cgidMap executions).Ledger _ _ _ _ :=
      enters_ledger fits mine idx field
    have settled := ledger.run begins processes
    have nothing : ∑ process, countedBy cgidMap executions idx field process .cgroup = 0 :=
      Finset.sum_eq_zero fun process _ => rfl
    have everything : ∑ process, countedBy cgidMap executions idx field process
        (((enters layout cgidMap executions).machine.final
          (table, fun _ => .cgroup) processes).2 process) =
        UInt64.ofNat (belonging cgidMap executions idx field).card := by
      have ended : ∀ process, countedBy cgidMap executions idx field process
          (((enters layout cgidMap executions).machine.final
            (table, fun _ => .cgroup) processes).2 process) =
          if cgidMap.lookup (executions process).cgid = some idx ∧
            field.counts (executions process).id = true then 1 else 0 := by
        intro process
        rw [finished process]
        rfl
      simp only [ended]
      exact sum_ones _ Finset.univ
    rw [nothing, everything, List.map_const', List.sum_replicate, nsmul_zero, add_zero,
      add_zero] at settled
    exact settled
  · intro before process after _ state idx stands other
    show (((enterStep layout cgidMap executions process state.1 (state.2 process)).1.1.lookup
      other).getD fun _ => {}) = _
    rw [stands]
    exact slots_insert layout state.1 idx other

/-- One mapped cgroup. -/
def oneCgroup : HashTable UInt64 UInt32 1024 := ⟨[(77, 3)], by decide, by decide⟩

/-- A write and a read in one cgroup, on different CPUs. -/
def writeAndRead (home away : Fin cpus) (process : Fin 2) : Execution cpus :=
  if process.val = 0 then ⟨home, 77, 1⟩ else ⟨away, 77, 0⟩

/-- Both executions look before either inserts, and the second insert comes after the first has
counted. It changes no counter, and both calls are counted, each in its bucket. -/
theorem no_syscall_lost_two :
    let calls := (enters (fun _ _ => 0) oneCgroup (writeAndRead (0 : Fin 2) 1)).machine
    let last :=
      (calls.final (.empty _ _ _, fun _ => .cgroup) [0, 1, 0, 1, 0, 0, 0, 0, 1, 1, 1, 1]).1
    let late := calls.final (.empty _ _ _, fun _ => .cgroup) [0, 1, 0, 1, 0, 0, 0, 0]
    (counted last 3 .total = 2 ∧ counted last 3 .fileWrite = 1 ∧ counted last 3 .fileRead = 1) ∧
      late.2 1 = .insert 3 ∧ ((late.1.lookup 3).map fun slots => (slots 0).fileWrite) = some 1 ∧
      (((calls.step late 1).1.1.lookup 3).getD fun _ => {}) =
        (late.1.lookup 3).getD fun _ => {} := by
  intro calls last late
  obtain ⟨grown, kept⟩ := no_syscall_lost (fun _ _ => 0) oneCgroup (writeAndRead (0 : Fin 2) 1)
    (.empty _ _ _) (by decide) [0, 1, 0, 1, 0, 0, 0, 0, 1, 1, 1, 1] (by decide)
  refine ⟨⟨?_, ?_, ?_⟩, by decide, by decide,
    kept [0, 1, 0, 1, 0, 0, 0, 0] 1 [1, 1, 1] rfl 3 (by decide) 3⟩
  · exact (grown 3 .total).trans (by decide)
  · exact (grown 3 .fileWrite).trans (by decide)
  · exact (grown 3 .fileRead).trans (by decide)

end ContainerAnomaly.Attribution
