import ContainerAnomaly.Attribution.System
import ContainerAnomaly.Collector.Updates

/-!
# Updates that fail half-way

The collector and the kernel program alone, with `UpdateContainers` called on any list of mappings
and failing at any `Put`. A call that fails keeps what it has written, and a call that succeeds may
leave entries its walk did not reach; either puts indices into `cgid_map` that the collector has no
name for. Neither happens in a run exactly when its calls are harmless (`atomic_iff_harmless`).
-/

namespace ContainerAnomaly.Attribution

open Lib Bpf Syscalls

/-- The kernel maps and what the collector keeps. -/
structure Tables (cpus : Nat) where
  /-- The maps of the program. -/
  maps : SyscallMaps cpus
  /-- The collector that fills them. -/
  collector : Collector

/-- The tables when the collector has been made. -/
def Tables.initial (cpus : Nat) : Tables cpus := ⟨.loaded cpus, .new⟩

/-- What is called. -/
inductive Call (cpus : Nat) where
  /-- A complete `trace_sys_enter`. -/
  | sysEnter (cpu : Fin cpus) (cgid : UInt64) (id : UInt32)
  /-- `UpdateContainers` on a list, with the positions at which a `Put` fails by itself. -/
  | update (mappings : List ContainerMapping) (refuses : Nat → Bool)
  /-- A complete `pollOnce`. -/
  | poll (order : RangeOrder UInt32 SyscallCounts)

variable {cpus : Nat}

/-- One call of `UpdateContainers`. -/
def Tables.update (kernel : Kernel) (tables : Tables cpus) (mappings : List ContainerMapping)
    (refuses : Nat → Bool) : HashTable UInt64 UInt32 1024 × Collector × Option PutError :=
  updateContainers kernel.cgidLayout kernel.walkBudget refuses tables.maps.cgidMap
    tables.collector mappings

/-- One call. -/
def Tables.step (kernel : Kernel) (tables : Tables cpus) :
    Call cpus → Tables cpus × List (UInt32 × Row)
  | .sysEnter cpu cgid id =>
    ({ tables with maps := traceSysEnter kernel.histLayout tables.maps cpu cgid id }, [])
  | .update mappings refuses =>
    let (cgidMap, collector, _) := tables.update kernel mappings refuses
    ({ maps := { tables.maps with cgidMap }, collector }, [])
  | .poll order =>
    let (collector, rows) := pollOnce order tables.maps tables.collector
    ({ tables with collector }, rows)

/-- The calls as a machine. -/
def calls (cpus : Nat) (kernel : Kernel) : Machine (Tables cpus) (Call cpus) (UInt32 × Row) :=
  ⟨Tables.step kernel⟩

/-- Every index that a cgroup is mapped to has a name. -/
def Tables.Named (tables : Tables cpus) : Prop :=
  ∀ cgid index, tables.maps.cgidMap.lookup cgid = some index →
    ∃ cid, tables.collector.idxToCid.lookup index = some cid

/-- A call leaves `cgid_map` and `idxToCid` as they were. -/
def Tables.Unchanged (kernel : Kernel) (tables : Tables cpus) (mappings : List ContainerMapping)
    (refuses : Nat → Bool) : Prop :=
  (∀ cgid, (tables.update kernel mappings refuses).1.lookup cgid =
    tables.maps.cgidMap.lookup cgid) ∧
  (tables.update kernel mappings refuses).2.1.idxToCid = tables.collector.idxToCid

/-- Updates are atomic on failure in a run, and what they leave is reported under its name. -/
structure Atomic (kernel : Kernel) (inputs : List (Call cpus)) : Prop where
  /-- A call that returns an error changes nothing. -/
  unchanged : ∀ tables mappings refuses,
    (tables, .update mappings refuses) ∈ (calls cpus kernel).trace (.initial cpus) inputs →
    (tables.update kernel mappings refuses).2.2 ≠ none → tables.Unchanged kernel mappings refuses
  /-- In every state reached, every index in the range of `cgid_map` is in `idxToCid`. -/
  named : ∀ past, past <+: inputs → ((calls cpus kernel).final (.initial cpus) past).Named
  /-- A poll reports a mapped index under its name. -/
  reported : ∀ tables order,
    (tables, .poll order) ∈ (calls cpus kernel).trace (.initial cpus) inputs →
    ∀ row ∈ (tables.step kernel (.poll order)).2,
      (∃ cgid, tables.maps.cgidMap.lookup cgid = some row.1) →
      tables.collector.idxToCid.lookup row.1 = some row.2.containerID

/-- Writing the mappings changes no answer of the map: each cgroup is in it with the index it is
written with last. -/
def Redundant (table : HashTable UInt64 UInt32 1024) (mappings : List ContainerMapping) : Prop :=
  ∀ m ∈ mappings, table.lookup m.cgroupID = lastIndex mappings m.cgroupID

/-- A call does no harm: an `UpdateContainers` that writes all its mappings walks far enough to
reach the last entry of an unlisted index, and one that does not has written nothing new before
the `Put` that fails. -/
def Harmless (kernel : Kernel) (moment : Tables cpus × Call cpus) : Prop :=
  match moment.2 with
  | .update mappings refuses =>
    let done := putsDone kernel.cgidLayout refuses 0 mappings moment.1.maps.cgidMap
    if done = mappings.length then
      HashTable.purgeSteps (unlisted mappings) 0
        (written kernel.cgidLayout refuses moment.1.maps.cgidMap mappings).entries ≤
          kernel.walkBudget
    else Redundant moment.1.maps.cgidMap (mappings.take done)
  | _ => True

section Failed

variable (kernel : Kernel) (tables : Tables cpus) (mappings : List ContainerMapping)
  (refuses : Nat → Bool)

/-- A call that fails changes nothing exactly when what it has written is redundant. -/
theorem unchanged_iff (failed : (tables.update kernel mappings refuses).2.2 ≠ none) :
    tables.Unchanged kernel mappings refuses ↔
      Redundant tables.maps.cgidMap
        (mappings.take (putsDone kernel.cgidLayout refuses 0 mappings tables.maps.cgidMap)) := by
  obtain ⟨table, kept⟩ := updateContainers_failed kernel.cgidLayout kernel.walkBudget refuses
    tables.maps.cgidMap tables.collector mappings failed
  have overlay (cgid : UInt64) : (tables.update kernel mappings refuses).1.lookup cgid =
      (lastIndex (mappings.take (putsDone kernel.cgidLayout refuses 0 mappings
        tables.maps.cgidMap)) cgid).or (tables.maps.cgidMap.lookup cgid) := by
    rw [Tables.update, table, written, putMappings_lookup]
  constructor
  · intro unchanged m member
    have after := unchanged.1 m.cgroupID
    rw [overlay] at after
    cases last : lastIndex (mappings.take (putsDone kernel.cgidLayout refuses 0 mappings
        tables.maps.cgidMap)) m.cgroupID with
    | none => exact absurd rfl ((lastIndex_eq_none_iff _ _).mp last m member)
    | some index =>
      rw [last, Option.some_or] at after
      exact after.symm
  · intro redundant
    refine ⟨fun cgid => ?_, by rw [Tables.update, kept]⟩
    rw [overlay]
    cases last : lastIndex (mappings.take (putsDone kernel.cgidLayout refuses 0 mappings
        tables.maps.cgidMap)) cgid with
    | none => rfl
    | some index =>
      obtain ⟨m, member, rfl, rfl⟩ := mem_of_lastIndex last
      rw [redundant m member, last, Option.some_or]

end Failed

/-- A harmless call leaves every mapped index with a name. -/
theorem Tables.Named.step (kernel : Kernel) {tables : Tables cpus} {call : Call cpus}
    (named : tables.Named) (harmless : Harmless kernel (tables, call)) :
    (tables.step kernel call).1.Named := by
  cases call with
  | sysEnter cpu cgid id =>
    intro group index mapped
    change (traceSysEnter kernel.histLayout tables.maps cpu cgid id).cgidMap.lookup group =
      some index at mapped
    rw [cgidMap_traceSysEnter] at mapped
    exact named group index mapped
  | poll order => exact named
  | update mappings refuses =>
    intro group index mapped
    change (tables.update kernel mappings refuses).1.lookup group = some index at mapped
    change ∃ cid, (tables.update kernel mappings refuses).2.1.idxToCid.lookup index = some cid
    have outcome := updateContainers_error_iff kernel.cgidLayout kernel.walkBudget refuses
      tables.maps.cgidMap tables.collector mappings
    dsimp only [Harmless] at harmless
    by_cases done : putsDone kernel.cgidLayout refuses 0 mappings tables.maps.cgidMap =
        mappings.length
    · rw [if_pos done] at harmless
      have listed := (updateContainers_listed_iff _ _ _ _ _ _ (outcome.mpr done)).mpr harmless
        group index mapped
      have present := ((updateContainers_done _ _ _ _ _ _ (outcome.mpr done)).2 index).mpr listed
      exact Option.isSome_iff_exists.mp (AList.lookup_isSome.mpr present)
    · rw [if_neg done] at harmless
      have failed := mt outcome.mp done
      obtain ⟨same, kept⟩ := (unchanged_iff kernel tables mappings refuses failed).mpr harmless
      rw [same] at mapped
      rw [kept]
      exact named group index mapped

/-- From every prior state a call that fails changes nothing exactly when what it has written is
redundant; and in every run, updates are atomic on failure and every mapped index has a name
exactly when every call is harmless. -/
theorem atomic_iff_harmless (kernel : Kernel) :
    (∀ (tables : Tables cpus) mappings refuses,
      (tables.update kernel mappings refuses).2.2 ≠ none →
        (tables.Unchanged kernel mappings refuses ↔ Redundant tables.maps.cgidMap
          (mappings.take
            (putsDone kernel.cgidLayout refuses 0 mappings tables.maps.cgidMap)))) ∧
    ∀ inputs : List (Call cpus), Atomic kernel inputs ↔
      ∀ moment ∈ (calls cpus kernel).trace (.initial cpus) inputs, Harmless kernel moment := by
  refine ⟨unchanged_iff kernel, fun inputs => ?_⟩
  constructor
  · intro atomic moment member
    obtain ⟨tables, call⟩ := moment
    cases call with
    | sysEnter cpu cgid id => trivial
    | poll order => trivial
    | update mappings refuses =>
      have outcome := updateContainers_error_iff kernel.cgidLayout kernel.walkBudget refuses
        tables.maps.cgidMap tables.collector mappings
      dsimp only [Harmless]
      by_cases done : putsDone kernel.cgidLayout refuses 0 mappings tables.maps.cgidMap =
          mappings.length
      · rw [if_pos done]
        obtain ⟨past, rest, whole, met⟩ := (Machine.mem_trace_iff _ _ _ _).mp member
        have after := atomic.named (past ++ [.update mappings refuses]) ⟨rest, by simp [whole]⟩
        rw [Machine.final_snoc, met] at after
        apply (updateContainers_listed_iff _ _ _ _ _ _ (outcome.mpr done)).mp
        intro cgid index mapped
        obtain ⟨cid, found⟩ := after cgid index mapped
        exact ((updateContainers_done _ _ _ _ _ _ (outcome.mpr done)).2 index).mp
          (AList.lookup_isSome.mp (Option.isSome_iff_exists.mpr ⟨cid, found⟩))
      · rw [if_neg done]
        have failed := mt outcome.mp done
        exact (unchanged_iff kernel tables mappings refuses failed).mp
          (atomic.unchanged tables mappings refuses member failed)
  · intro harmless
    have named : ∀ past, past <+: inputs →
        ((calls cpus kernel).final (.initial cpus) past).Named := by
      rintro past ⟨rest, rfl⟩
      refine (calls cpus kernel).invariant (fun _ tables => tables.Named)
        (fun tables call => Harmless kernel (tables, call)) (fun _ _ found => by cases found)
        (fun _ tables call held allowed => held.step kernel allowed) past fun moment member => ?_
      apply harmless moment
      rw [Machine.trace_append]
      exact List.mem_append_left _ member
    refine ⟨fun tables mappings refuses member failed => ?_, named,
      fun tables order member row emitted mapped => ?_⟩
    · have allowed := harmless _ member
      have partly := mt (updateContainers_error_iff kernel.cgidLayout kernel.walkBudget refuses
        tables.maps.cgidMap tables.collector mappings).mpr failed
      dsimp only [Harmless] at allowed
      rw [if_neg partly] at allowed
      exact (unchanged_iff kernel tables mappings refuses failed).mpr allowed
    · obtain ⟨past, rest, whole, met⟩ := (Machine.mem_trace_iff _ _ _ _).mp member
      have here := named past ⟨.poll order :: rest, whole.symm⟩
      rw [met] at here
      obtain ⟨cgid, stored⟩ := mapped
      obtain ⟨cid, found⟩ := here cgid row.1 stored
      have label := pollOnce_containerID order tables.maps tables.collector row emitted
      dsimp only at found
      rw [label, GoMap.getD, found]
      rfl

/-- Two mappings, of which the second is not written. -/
def halfUpdate : Call 1 := .update [⟨7, 0, lit "a"⟩, ⟨8, 1, lit "b"⟩] fun position => position = 1

/-- After an update that fails at its second `Put` a syscall of the first container is reported
under no name. -/
theorem halfUpdate_not_atomic :
    ((calls 1 .plain).outputs (.initial 1)
        [halfUpdate, .sysEnter (Fin.last 0) 7 nrRead, .poll (RangeOrder.stored _ _)]).map
        (fun row => (row.1, row.2.containerID, row.2.counts.total)) = [(0, [], 1)] ∧
      ¬ Atomic .plain
        [halfUpdate, .sysEnter (Fin.last 0) 7 nrRead, .poll (RangeOrder.stored _ _)] := by
  refine ⟨by decide, fun atomic => ?_⟩
  obtain ⟨cid, found⟩ := atomic.named [halfUpdate] ⟨_, rfl⟩ 7 0 (by decide)
  exact absurd found (by decide +revert)

/-- Whatever the agent does to the two tables in a run, it does by such calls. -/
theorem system_calls (kernel : Kernel) (inputs : List (Input cpus)) :
    ∃ made, (calls cpus kernel).final (.initial cpus) made =
      ⟨((system cpus kernel).final (.initial cpus) inputs).maps,
        ((system cpus kernel).final (.initial cpus) inputs).collector⟩ := by
  induction inputs using List.reverseRecOn with
  | nil => exact ⟨[], rfl⟩
  | append_singleton inputs input ih =>
    obtain ⟨made, reached⟩ := ih
    rw [Machine.final_snoc]
    generalize (system cpus kernel).final (.initial cpus) inputs = state at reached
    cases input with
    | sysEnter cpu cgid id =>
      refine ⟨made ++ [.sysEnter cpu cgid id], ?_⟩
      rw [Machine.final_snoc, reached]
      rfl
    | poll order =>
      refine ⟨made ++ [.poll order], ?_⟩
      rw [Machine.final_snoc, reached]
      rfl
    | refresh found =>
      change ∃ made, _ = (⟨(state.refresh kernel found).maps,
        (state.refresh kernel found).collector⟩ : Tables cpus)
      unfold State.refresh
      generalize found.collect state.indices = collected
      obtain ⟨indices, mappings⟩ := collected
      by_cases nothing : mappings = []
      · refine ⟨made, ?_⟩
        rw [reached]
        simp only [if_pos nothing]
      · refine ⟨made ++ [.update mappings found.refuses], ?_⟩
        rw [Machine.final_snoc, reached]
        simp only [if_neg nothing]
        rfl

end ContainerAnomaly.Attribution
