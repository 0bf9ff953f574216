import ContainerAnomaly.Attribution.Ledger

/-!
# No syscall is credited to another container

`Provenance` follows every index back to a refresh: whatever the kernel maps to an index, and
every syscall executed under it, comes from a cgroup that some refresh located for the one
container the index belongs to. Stale kernel entries, refreshes that fail at any `Put`, restarts
under a new cgroup and returning containers keep it, because none of them rebinds an index.
-/

namespace ContainerAnomaly.Attribution

open Lib Bpf Syscalls Agent Container

variable {cpus : Nat}

/-- The refresh located the cgroup of the container. -/
def Refresh.Locates (found : Refresh) (cid : GoString) (cgid : UInt64) : Prop :=
  ∃ info, found.containers.lookup cid = some info ∧
    (found.pathForContainer cid info.pid).bind found.getCgroupID = some cgid

/-- Some refresh of the past located the cgroup of the container. -/
def LocatedIn (past : List (Moment cpus)) (cid : GoString) (cgid : UInt64) : Prop :=
  ∃ moment ∈ past, ∃ found, moment.2 = .refresh found ∧ found.Locates cid cgid

/-- What was located stays located. -/
theorem LocatedIn.mono {past : List (Moment cpus)} {cid : GoString} {cgid : UInt64}
    (located : LocatedIn past cid cgid) (moment : Moment cpus) :
    LocatedIn (past ++ [moment]) cid cgid := by
  obtain ⟨earlier, member, found⟩ := located
  exact ⟨earlier, List.mem_append_left _ member, found⟩

/-- Every mapping of a refresh was located by it. -/
theorem Refresh.collect_located (found : Refresh) (indices : Indices) (m : ContainerMapping)
    (member : m ∈ (found.collect indices).2) :
    found.Locates m.cid m.cgroupID ∧
      (found.collect indices).1.idxByCid.lookup m.cid = some m.index := by
  obtain ⟨⟨info, listed, located⟩, indexed⟩ := collectMappings_sound _ _ _ _ m member
  exact ⟨⟨info, (GoMap.mem_range_iff _ _ _ _).mp listed, located⟩, indexed⟩

/-- The cgroup of an index was located for the container that owns the index. -/
def OwnedIn (past : List (Moment cpus)) (state : State cpus) (index : UInt32) (cgid : UInt64) :
    Prop :=
  ∃ cid, state.indices.idxByCid.lookup cid = some index ∧ LocatedIn past cid cgid

/-- Where entries and executed syscalls come from. -/
structure Provenance (past : List (Moment cpus)) (state : State cpus) : Prop where
  /-- The kernel's entries. -/
  mapped : ∀ cgid index, state.maps.cgidMap.lookup cgid = some index →
    OwnedIn past state index cgid
  /-- The syscalls executed while mapped. -/
  ran : ∀ index, ∀ call ∈ executed past index, OwnedIn past state index call.cgid

/-- Ownership survives every step. -/
theorem OwnedIn.step (kernel : Kernel) {past : List (Moment cpus)} {state : State cpus}
    {index : UInt32} {cgid : UInt64} (owned : OwnedIn past state index cgid)
    (input : Input cpus) :
    OwnedIn (past ++ [(state, input)]) (state.step kernel input).1 index cgid := by
  obtain ⟨cid, bound, located⟩ := owned
  exact ⟨cid, state.step_keeps kernel input cid index bound, located.mono _⟩

/-- Every step keeps the provenance. -/
theorem Provenance.step (kernel : Kernel) {past : List (Moment cpus)} {state : State cpus}
    (provenance : Provenance past state) (input : Input cpus) :
    Provenance (past ++ [(state, input)]) (state.step kernel input).1 := by
  constructor
  · intro cgid index found
    have kept : state.maps.cgidMap.lookup cgid = some index →
        OwnedIn (past ++ [(state, input)]) (state.step kernel input).1 index cgid :=
      fun old => (provenance.mapped cgid index old).step kernel input
    cases input with
    | sysEnter cpu g id =>
      change (traceSysEnter kernel.histLayout state.maps cpu g id).cgidMap.lookup cgid =
        some index at found
      rw [cgidMap_traceSysEnter] at found
      exact kept found
    | poll order => exact kept found
    | refresh r =>
      obtain ⟨agent, _, _, entries, _⟩ := state.refresh_cases kernel r
      change (state.refresh kernel r).maps.cgidMap.lookup cgid = some index at found
      rw [HashTable.lookup_eq_some_iff] at found
      rcases entries _ found with old | ⟨m, member, same⟩
      · exact kept ((HashTable.lookup_eq_some_iff _ _ _).mpr old)
      · obtain ⟨rfl, rfl⟩ := Prod.mk.inj same
        obtain ⟨located, indexed⟩ := r.collect_located state.indices m member
        refine ⟨m.cid, ?_, (state, .refresh r), by simp, r, rfl, located⟩
        change (state.refresh kernel r).indices.idxByCid.lookup m.cid = some m.index
        rw [agent]
        exact indexed
  · intro index call member
    rw [executed, List.filterMap_append, List.mem_append] at member
    rcases member with old | new
    · exact (provenance.ran index call old).step kernel input
    · obtain ⟨moment, here, hit⟩ := List.mem_filterMap.mp new
      obtain rfl := List.mem_singleton.mp here
      exact (provenance.mapped _ _ (mappedTo_eq_some hit).2).step kernel input

/-- Provenance holds in every run. -/
theorem provenance_run (kernel : Kernel) (inputs : List (Input cpus)) :
    Provenance ((system cpus kernel).trace (.initial cpus) inputs)
      ((system cpus kernel).final (.initial cpus) inputs) := by
  refine (system cpus kernel).invariant_always Provenance ?_
    (fun past state input held => held.step kernel input) inputs
  show Provenance [] (State.initial cpus)
  constructor
  · intro cgid index found
    cases found
  · intro index call member
    cases member

/-- What is counted was executed. -/
theorem executed_of_pending {past : List (Moment cpus)} {index : UInt32} {call : Syscall}
    (member : call ∈ pending past index) : call ∈ executed past index := by
  obtain ⟨moment, recent, counted⟩ := List.mem_filterMap.mp member
  refine List.mem_filterMap.mpr ⟨moment, (sinceLast_suffix _ past).subset recent, ?_⟩
  exact (Option.filter_eq_some_iff.mp counted).1

/-- The syscalls made since the last poll. -/
def syscallsSincePoll (inputs : List (Input cpus)) : List Syscall :=
  (sinceLast Input.isPoll inputs).filterMap Input.syscall

/-- The ledger of an index lists syscalls made since the last poll. -/
theorem pending_sublist (kernel : Kernel) (inputs : List (Input cpus)) (index : UInt32) :
    (pending ((system cpus kernel).trace (.initial cpus) inputs) index).Sublist
      (syscallsSincePoll inputs) := by
  have made : ∀ (moment : Moment cpus) call, countedAs index moment = some call →
      moment.2.syscall = some call := fun moment call counted =>
    (mappedTo_eq_some (Option.filter_eq_some_iff.mp counted).1).1
  have recent := sinceLast_map Input.isPoll Prod.snd
    ((system cpus kernel).trace (.initial cpus) inputs)
  rw [Machine.trace_map_snd] at recent
  have chosen := filterMap_sublist made (sinceLast (fun moment => moment.2.isPoll)
    ((system cpus kernel).trace (.initial cpus) inputs))
  rw [syscallsSincePoll, ← recent, List.filterMap_map]
  exact chosen

/-- A counter of a row is zero or the number of pending syscalls of its kind. -/
theorem delta_get (kernel : Kernel) (inputs : List (Input cpus)) (index : UInt32)
    (field : Field) :
    let state := (system cpus kernel).final (.initial cpus) inputs
    (subtract (state.total index) (state.seen index)).get field = 0 ∨
      (subtract (state.total index) (state.seen index)).get field = UInt64.ofNat (tally field
        (pending ((system cpus kernel).trace (.initial cpus) inputs) index)) := by
  intro state
  rw [get_subtract, safe, tracks kernel inputs index field]
  split
  · right
    grind
  · exact .inl rfl

/-- Every row a poll emits under the id of a container counts only syscalls made since the last
poll in cgroups that belonged to that container: each of its counters is zero or exactly the
number of those syscalls of its kind, modulo `2 ^ 64`. The run may interleave syscalls in any
cgroups, refreshes that fail or succeed, and polls; a cgroup id has one owner, and the index
counter does not wrap. -/
theorem rows_count_own_syscalls (kernel : Kernel) (owner : UInt64 → GoString)
    (inputs : List (Input cpus)) (order : RangeOrder UInt32 SyscallCounts)
    (unique : ∀ found, Input.refresh found ∈ inputs → ∀ cid cgid, found.Locates cid cgid →
      owner cgid = cid)
    (room : ((system cpus kernel).final (.initial cpus) inputs).containersSeen ≤ 2 ^ 32) :
    ∀ row ∈ snapshotRows
        (((system cpus kernel).final (.initial cpus) inputs).step kernel (.poll order)).2,
      row.containerID ≠ [] →
      ∃ calls : List Syscall, calls.Sublist (syscallsSincePoll inputs) ∧
        (∀ call ∈ calls, owner call.cgid = row.containerID) ∧
        ∀ field, row.counts.get field = 0 ∨
          row.counts.get field = UInt64.ofNat (tally field calls) := by
  intro row member named
  obtain ⟨⟨index, _⟩, emitted, rfl⟩ := List.mem_map.mp member
  obtain ⟨_, rfl⟩ := (mem_rows_of_poll kernel _ order index _).mp emitted
  set state := (system cpus kernel).final (.initial cpus) inputs
  refine ⟨_, pending_sublist kernel inputs index, fun call counted => ?_,
    delta_get kernel inputs index⟩
  have consistent := consistent_run kernel inputs room
  cases name : state.collector.idxToCid.lookup index with
  | none => exact absurd (by rw [GoMap.getD, name]; rfl) named
  | some cid =>
    have bound := consistent.named index cid name
    obtain ⟨other, owns, moment, past, found, refreshed, located⟩ :=
      (provenance_run kernel inputs).ran index call (executed_of_pending counted)
    have same := consistent.numbered.injective other cid index owns bound
    have listed : Input.refresh found ∈ inputs := by
      rw [← refreshed, ← (system cpus kernel).trace_map_snd (.initial cpus) inputs]
      exact List.mem_map_of_mem past
    show owner call.cgid = GoMap.getD state.collector.idxToCid index []
    rw [unique found listed other call.cgid located, same, GoMap.getD, name]
    rfl

/-- Two containers, each in a cgroup of its own. -/
def ownerOfTwo (cgid : UInt64) : GoString := if cgid = 7 then lit "a" else lit "b"

/-- A refresh that finds both. -/
def twoFound : Refresh where
  containers := ((∅ : GoMap GoString Info).insert (lit "a") ⟨lit "a", lit "a", [], [], 1⟩).insert
    (lit "b") ⟨lit "b", lit "b", [], [], 2⟩
  order := RangeOrder.stored GoString Info
  pathForContainer := fun cid _ => some cid
  getCgroupID := fun text => some (if text = lit "a" then 7 else 8)
  refuses := fun _ => false

/-- It finds each in its own cgroup. -/
theorem twoFound_owner (cid : GoString) (cgid : UInt64) (located : twoFound.Locates cid cgid) :
    ownerOfTwo cgid = cid := by
  obtain ⟨info, listed, found⟩ := located
  have named : cid = lit "a" ∨ cid = lit "b" := by
    by_contra other
    obtain ⟨left, right⟩ := not_or.mp other
    rw [twoFound, AList.lookup_insert_ne right, AList.lookup_insert_ne left] at listed
    cases listed
  obtain rfl : (if cid = lit "a" then 7 else 8) = cgid := Option.some.inj found
  obtain rfl | rfl := named <;> rfl

/-- Both make calls on two CPUs, and the poll emits a row for each, with its own calls only. -/
theorem rows_count_own_syscalls_two :
    let inputs : List (Input 2) :=
      [.refresh twoFound, .sysEnter 0 7 0, .sysEnter 1 8 1, .sysEnter 0 8 0]
    let rows := snapshotRows
      (((system 2 .plain).final (.initial 2) inputs).step .plain (.poll (.stored _ _))).2
    rows.map (fun row => (row.containerID, row.counts.get .total)) = [(lit "a", 1), (lit "b", 2)] ∧
    ∀ row ∈ rows, row.containerID ≠ [] →
      ∃ calls : List Syscall, calls.Sublist (syscallsSincePoll inputs) ∧
        (∀ call ∈ calls, ownerOfTwo call.cgid = row.containerID) ∧
        ∀ field, row.counts.get field = 0 ∨
          row.counts.get field = UInt64.ofNat (tally field calls) := by
  intro inputs rows
  refine ⟨by decide, rows_count_own_syscalls .plain ownerOfTwo inputs _ ?_ (by decide)⟩
  intro found member cid cgid located
  simp only [inputs, List.mem_cons, reduceCtorEq, or_false, List.not_mem_nil,
    Input.refresh.injEq] at member
  subst member
  exact twoFound_owner cid cgid located

end ContainerAnomaly.Attribution
