import ContainerAnomaly.Attribution.Agreement
import ContainerAnomaly.Container.Refresh

/-!
# Refresh cycles with failures

One round of the agent's refresh goroutine: `Resolver.Refresh`, then `updateMappings`. A running
container that cannot be inspected, or whose cgroup is not found, is not among the mappings, so
`UpdateContainers` takes it for gone. Every monitored container that still runs keeps its entries
exactly when all of these answer, or when no mapping of the cycle counts because a `Put` fails
(`keeps_iff_answer`).
-/

namespace ContainerAnomaly.Attribution

open Lib Bpf Syscalls Agent Container

variable {cpus : Nat}

/-- What a cycle meets: the answers of docker and of the file system, the order in which the
containers are ranged over, and the positions at which a `Put` fails by itself. -/
structure Cycle where
  /-- What the daemon answers. -/
  docker : Docker
  /-- The order in which `updateMappings` ranges over the containers. -/
  order : RangeOrder GoString Info
  /-- `PathForContainer`. -/
  pathForContainer : GoString → Int → Option GoString
  /-- `GetCgroupID`. -/
  getCgroupID : GoString → Option UInt64
  /-- The `Put` at a position fails by itself. -/
  refuses : Nat → Bool

/-- What `updateMappings` finds after the resolver was refreshed. -/
def Cycle.found (cycle : Cycle) (resolver : Resolver) : Refresh :=
  ⟨resolver.containers, cycle.order, cycle.pathForContainer, cycle.getCgroupID, cycle.refuses⟩

/-- One round of the refresh goroutine; without a list of containers it does nothing. -/
def State.cycle (kernel : Kernel) (state : State cpus) (resolver : Resolver) (cycle : Cycle) :
    State cpus × Resolver :=
  match resolver.refresh cycle.docker with
  | none => (state, resolver)
  | some next => (state.refresh kernel (cycle.found next), next)

/-- Docker lists the container, running or stopped. -/
def Cycle.Lists (cycle : Cycle) (cid : GoString) : Prop :=
  ∃ summaries, cycle.docker.listContainers = some summaries ∧ ∃ s ∈ summaries, s.id = cid

/-- Docker lists the container as running. -/
def Cycle.Runs (cycle : Cycle) (cid : GoString) : Prop :=
  ∃ summaries, cycle.docker.listContainers = some summaries ∧
    ∃ s ∈ summaries, s.id = cid ∧ s.running

/-- The cgroup id found for a listed container, when `InspectContainer`, `PathForContainer` and
`GetCgroupID` all succeed. -/
def Cycle.answer (cycle : Cycle) (cid : GoString) : Option UInt64 :=
  (cycle.docker.inspectContainer cid).bind fun detail =>
    (cycle.pathForContainer cid detail.pid).bind cycle.getCgroupID

/-- The container is monitored under a cgroup: `cgid_map` maps it to an index that `idxToCid`
names by the container. -/
def Monitored (state : State cpus) (cid : GoString) (cgid : UInt64) (index : UInt32) : Prop :=
  state.maps.cgidMap.lookup cgid = some index ∧
    state.collector.idxToCid.lookup index = some cid

/-- The running containers have kept their cgroups, and no container is found in the cgroup of
another. -/
structure Cycle.Unmoved (cycle : Cycle) (cgroupOf : GoString → UInt64) : Prop where
  /-- A running container that is found is found in its cgroup. -/
  found : ∀ cid cgid, cycle.Runs cid → cycle.answer cid = some cgid → cgid = cgroupOf cid
  /-- No other container is found in the cgroup of a running one. -/
  own : ∀ cid other, cycle.Runs cid → cycle.Lists other →
    cycle.answer other = some (cgroupOf cid) → other = cid
  /-- No two containers are found in one cgroup. -/
  apart : ∀ left right cgid, cycle.Lists left → cycle.Lists right →
    cycle.answer left = some cgid → cycle.answer right = some cgid → left = right

/-- Every container that is listed as running and was monitored is monitored after the cycle. -/
def Keeps (kernel : Kernel) (state : State cpus) (resolver : Resolver) (cycle : Cycle)
    (cgroupOf : GoString → UInt64) : Prop :=
  ∀ cid index, cycle.Runs cid → Monitored state cid (cgroupOf cid) index →
    Monitored (state.cycle kernel resolver cycle).1 cid (cgroupOf cid) index

/-- The mappings of a cycle, in the order they are written. -/
def Cycle.mappings (cycle : Cycle) (state : State cpus) (resolver : Resolver) :
    List ContainerMapping :=
  ((resolver.refresh cycle.docker).map fun next =>
    ((cycle.found next).collect state.indices).2).getD []

/-- Every `Put` of the cycle succeeds: none fails by itself, and the map has room for the cgroups
that are new. -/
def Cycle.Fits (cycle : Cycle) (state : State cpus) (resolver : Resolver) : Prop :=
  (∀ position < (cycle.mappings state resolver).length, cycle.refuses position = false) ∧
    state.maps.cgidMap.entries.length +
      (newcomers state.maps.cgidMap (cycle.mappings state resolver)).length ≤ 1024

/-- A container that runs is listed. -/
theorem Cycle.Runs.lists {cycle : Cycle} {cid : GoString} (runs : cycle.Runs cid) :
    cycle.Lists cid := by
  obtain ⟨summaries, listed, s, inside, same, _⟩ := runs
  exact ⟨summaries, listed, s, inside, same⟩

section Mappings

variable {cycle : Cycle} {resolver next : Resolver} {state : State cpus}

/-- A refreshed resolver locates the listed containers that answer. -/
theorem locate_found_iff (refreshed : resolver.refresh cycle.docker = some next) (cid : GoString)
    (cgid : UInt64) :
    (cycle.found next).locate cid = some cgid ↔
      cycle.Lists cid ∧ cycle.answer cid = some cgid := by
  obtain ⟨summaries, listed, rfl⟩ := Option.map_eq_some_iff.mp refreshed
  have known := lookup_containersOf cycle.docker summaries cid
  have locate : (cycle.found ⟨containersOf cycle.docker summaries,
      resolver.upidCache.retain fun upid => (resolver.upidCache.lookup upid).all
        (stays (containersOf cycle.docker summaries))⟩).locate cid =
      (((containersOf cycle.docker summaries).lookup cid).map Info.pid).bind fun pid =>
        (cycle.pathForContainer cid pid).bind cycle.getCgroupID := by
    rw [Option.bind_map]
    rfl
  have lists : cycle.Lists cid ↔ ∃ s ∈ summaries, s.id = cid := by
    simp [Cycle.Lists, listed]
  rw [locate, known, lists, Cycle.answer]
  by_cases inside : ∃ s ∈ summaries, s.id = cid
  · rw [if_pos inside, Option.bind_map]
    exact (and_iff_right inside).symm
  · rw [if_neg inside]
    simp [inside]

/-- The mappings of a cycle whose containers were listed. -/
theorem mappings_eq (refreshed : resolver.refresh cycle.docker = some next) :
    cycle.mappings state resolver = ((cycle.found next).collect state.indices).2 := by
  rw [Cycle.mappings, refreshed]
  rfl

variable (state) in
/-- The mappings of a cycle are the listed containers that answer, with their cgroups. -/
theorem mem_mappings_iff (refreshed : resolver.refresh cycle.docker = some next) (cid : GoString)
    (cgid : UInt64) :
    (∃ m ∈ cycle.mappings state resolver, m.cid = cid ∧ m.cgroupID = cgid) ↔
      cycle.Lists cid ∧ cycle.answer cid = some cgid := by
  rw [mappings_eq refreshed, Refresh.mem_collect_iff, locate_found_iff refreshed]

/-- A mapping is that of a listed container that answers. -/
theorem mapping_answers (refreshed : resolver.refresh cycle.docker = some next)
    {m : ContainerMapping} (member : m ∈ cycle.mappings state resolver) :
    cycle.Lists m.cid ∧ cycle.answer m.cid = some m.cgroupID :=
  (mem_mappings_iff state refreshed m.cid m.cgroupID).mp ⟨m, member, rfl, rfl⟩

/-- No cgroup is in two mappings of a cycle. -/
theorem Cycle.Unmoved.distinct {cgroupOf : GoString → UInt64} (unmoved : cycle.Unmoved cgroupOf)
    (refreshed : resolver.refresh cycle.docker = some next) :
    ((cycle.mappings state resolver).map ContainerMapping.cgroupID).Nodup := by
  rw [mappings_eq refreshed]
  refine (cycle.found next).collect_distinct state.indices fun left right cgid first second => ?_
  obtain ⟨listsLeft, answerLeft⟩ := (locate_found_iff refreshed left cgid).mp first
  obtain ⟨listsRight, answerRight⟩ := (locate_found_iff refreshed right cgid).mp second
  exact unmoved.apart left right cgid listsLeft listsRight answerLeft answerRight

/-- What a cycle does to the tables, when a container answers: one call of `UpdateContainers`. -/
theorem cycle_tables (kernel : Kernel) (refreshed : resolver.refresh cycle.docker = some next)
    (answered : cycle.mappings state resolver ≠ []) :
    let result := updateContainers kernel.cgidLayout kernel.walkBudget cycle.refuses
      state.maps.cgidMap state.collector (cycle.mappings state resolver)
    (state.cycle kernel resolver cycle).1.maps.cgidMap = result.1 ∧
      (state.cycle kernel resolver cycle).1.collector = result.2.1 := by
  have reached : (state.cycle kernel resolver cycle).1 =
      state.refresh kernel (cycle.found next) := by
    rw [State.cycle, refreshed]
  rw [reached, State.refresh]
  rw [mappings_eq refreshed] at answered ⊢
  simp only [if_neg answered]
  exact ⟨rfl, rfl⟩

/-- The mappings carry the indices that the agent has after the cycle. -/
theorem cycle_indices (kernel : Kernel) (refreshed : resolver.refresh cycle.docker = some next)
    {m : ContainerMapping} (member : m ∈ cycle.mappings state resolver) :
    (state.cycle kernel resolver cycle).1.indices.idxByCid.lookup m.cid = some m.index := by
  have reached : (state.cycle kernel resolver cycle).1 =
      state.refresh kernel (cycle.found next) := by
    rw [State.cycle, refreshed]
  rw [mappings_eq refreshed] at member
  rw [reached, (state.refresh_cases kernel (cycle.found next)).1]
  exact (collectMappings_sound _ _ _ _ m member).2

/-- A cycle is a refresh of the system, or nothing. -/
theorem cycle_consistent (kernel : Kernel) (consistent : Consistent state)
    (refreshed : resolver.refresh cycle.docker = some next)
    (unwrapped : (state.cycle kernel resolver cycle).1.containersSeen ≤ 2 ^ 32) :
    Consistent (state.cycle kernel resolver cycle).1 ∧
      ∀ cid index, state.indices.idxByCid.lookup cid = some index →
        (state.cycle kernel resolver cycle).1.indices.idxByCid.lookup cid = some index := by
  have reached : (state.cycle kernel resolver cycle).1 =
      (state.step kernel (.refresh (cycle.found next))).1 := by
    rw [State.cycle, refreshed]
    rfl
  rw [reached] at unwrapped ⊢
  exact ⟨Consistent.step kernel _ consistent unwrapped, state.step_keeps kernel _⟩

variable (state) in
/-- Every mapping of a cycle is written exactly when the cycle fits. -/
theorem cycle_succeeds_iff (kernel : Kernel) {cgroupOf : GoString → UInt64}
    (unmoved : cycle.Unmoved cgroupOf) (refreshed : resolver.refresh cycle.docker = some next) :
    (updateContainers kernel.cgidLayout kernel.walkBudget cycle.refuses state.maps.cgidMap
      state.collector (cycle.mappings state resolver)).2.2 = none ↔ cycle.Fits state resolver := by
  rw [updateContainers_error_iff, putsDone_eq_length_iff _ _ _ _ _ (unmoved.distinct refreshed),
    Cycle.Fits]
  simp only [Nat.zero_add]

variable (state) in
/-- When a listed container answers, the cycle has a mapping. -/
theorem mappings_ne_nil (refreshed : resolver.refresh cycle.docker = some next)
    (answered : ∃ cid, cycle.Lists cid ∧ (cycle.answer cid).isSome) :
    cycle.mappings state resolver ≠ [] := by
  obtain ⟨cid, lists, answer⟩ := answered
  obtain ⟨cgid, found⟩ := Option.isSome_iff_exists.mp answer
  obtain ⟨m, member, _⟩ := (mem_mappings_iff state refreshed cid cgid).mpr ⟨lists, found⟩
  exact List.ne_nil_of_mem member

/-- A mapping for the cgroup of a monitored container that runs is its own, and carries the index
it had. -/
theorem Cycle.Unmoved.index {cgroupOf : GoString → UInt64} (unmoved : cycle.Unmoved cgroupOf)
    (kernel : Kernel) (consistent : Consistent state)
    (refreshed : resolver.refresh cycle.docker = some next)
    (unwrapped : (state.cycle kernel resolver cycle).1.containersSeen ≤ 2 ^ 32) {cid : GoString}
    {index : UInt32} (runs : cycle.Runs cid)
    (monitored : Monitored state cid (cgroupOf cid) index) {m : ContainerMapping}
    (member : m ∈ cycle.mappings state resolver) (same : m.cgroupID = cgroupOf cid) :
    m.index = index := by
  obtain ⟨_, keeps⟩ := cycle_consistent kernel consistent refreshed unwrapped
  have owned := keeps cid index (consistent.named index cid monitored.2)
  obtain ⟨lists, answer⟩ := mapping_answers refreshed member
  have here := unmoved.own cid m.cid runs lists (same ▸ answer)
  have indexed := cycle_indices kernel refreshed member
  rw [here, owned] at indexed
  exact (Option.some.inj indexed).symm

/-- After a cycle that fits, only containers that answer are named. -/
theorem answers_of_named (kernel : Kernel) {cgroupOf : GoString → UInt64}
    (unmoved : cycle.Unmoved cgroupOf) (refreshed : resolver.refresh cycle.docker = some next)
    (answered : cycle.mappings state resolver ≠ []) (fits : cycle.Fits state resolver)
    {cid : GoString} {index : UInt32}
    (named : (state.cycle kernel resolver cycle).1.collector.idxToCid.lookup index = some cid) :
    (cycle.answer cid).isSome := by
  rw [(cycle_tables kernel refreshed answered).2] at named
  obtain ⟨_, _, ⟨⟨_, error⟩, _⟩ | ⟨_, names⟩⟩ := updateContainers_cases kernel.cgidLayout
    kernel.walkBudget cycle.refuses state.maps.cgidMap state.collector
    (cycle.mappings state resolver)
  · rw [(cycle_succeeds_iff state kernel unmoved refreshed).mpr fits] at error
    cases error
  · obtain ⟨m, member, _, rfl⟩ := names index cid named
    exact Option.isSome_iff_exists.mpr ⟨_, (mapping_answers refreshed member).2⟩

/-- A cycle that fits keeps a monitored container that runs and answers. -/
theorem monitored_of_fits (kernel : Kernel) (consistent : Consistent state)
    {cgroupOf : GoString → UInt64} (unmoved : cycle.Unmoved cgroupOf)
    (refreshed : resolver.refresh cycle.docker = some next)
    (answered : cycle.mappings state resolver ≠ [])
    (unwrapped : (state.cycle kernel resolver cycle).1.containersSeen ≤ 2 ^ 32)
    (fits : cycle.Fits state resolver) {cid : GoString} {index : UInt32}
    (runs : cycle.Runs cid) (monitored : Monitored state cid (cgroupOf cid) index)
    (answers : (cycle.answer cid).isSome) :
    Monitored (state.cycle kernel resolver cycle).1 cid (cgroupOf cid) index := by
  obtain ⟨table, collector⟩ := cycle_tables kernel refreshed answered
  obtain ⟨agreed, keeps⟩ := cycle_consistent kernel consistent refreshed unwrapped
  have done := (cycle_succeeds_iff state kernel unmoved refreshed).mpr fits
  obtain ⟨cgid, found⟩ := Option.isSome_iff_exists.mp answers
  obtain ⟨m, member, _, cgroup⟩ := (mem_mappings_iff state refreshed cid cgid).mpr
    ⟨runs.lists, found⟩
  rw [unmoved.found cid cgid runs found] at cgroup
  have same := unmoved.index kernel consistent refreshed unwrapped runs monitored member cgroup
  have mapped := updateContainers_mapped kernel.cgidLayout kernel.walkBudget cycle.refuses
    state.maps.cgidMap state.collector _ done (unmoved.distinct refreshed) m member
  have present := ((updateContainers_done kernel.cgidLayout kernel.walkBudget cycle.refuses
    state.maps.cgidMap state.collector _ done).2 index).mpr
    ((unlisted_eq_false_iff _ _).mpr ⟨m, member, same⟩)
  obtain ⟨other, names⟩ := Option.isSome_iff_exists.mp (AList.lookup_isSome.mpr present)
  rw [cgroup, same] at mapped
  rw [← collector] at names
  -- The name of the index is that of some mapping, and no two containers share an index.
  have owned := keeps cid index (consistent.named index cid monitored.2)
  have own := agreed.numbered.injective other cid index (agreed.named index other names) owned
  rw [Monitored, table, names, own]
  exact ⟨mapped, rfl⟩

/-- A cycle that does not fit keeps every monitored container that runs. -/
theorem monitored_of_refused (kernel : Kernel) (consistent : Consistent state)
    {cgroupOf : GoString → UInt64} (unmoved : cycle.Unmoved cgroupOf)
    (refreshed : resolver.refresh cycle.docker = some next)
    (answered : cycle.mappings state resolver ≠ [])
    (unwrapped : (state.cycle kernel resolver cycle).1.containersSeen ≤ 2 ^ 32)
    (refused : ¬ cycle.Fits state resolver) {cid : GoString} {index : UInt32}
    (runs : cycle.Runs cid) (monitored : Monitored state cid (cgroupOf cid) index) :
    Monitored (state.cycle kernel resolver cycle).1 cid (cgroupOf cid) index := by
  obtain ⟨table, collector⟩ := cycle_tables kernel refreshed answered
  have succeeds := cycle_succeeds_iff state kernel unmoved refreshed
  obtain ⟨left, kept⟩ := updateContainers_failed kernel.cgidLayout kernel.walkBudget
    cycle.refuses state.maps.cgidMap state.collector _ (mt succeeds.mp refused)
  rw [Monitored, table, collector, left, kept, written, putMappings_lookup]
  refine ⟨?_, monitored.2⟩
  cases last : lastIndex _ (cgroupOf cid) with
  | none => exact monitored.1
  | some other =>
    obtain ⟨m, member, cgroup, rfl⟩ := mem_of_lastIndex last
    rw [unmoved.index kernel consistent refreshed unwrapped runs monitored
      (List.mem_of_mem_take member) cgroup, Option.some_or]

end Mappings

/-- In every state of a run, a cycle in which some listed container answers keeps every container
monitored that was and still runs, exactly when all of these answer, or a `Put` fails. The index
counter does not wrap, and no running container has moved to another cgroup. -/
theorem keeps_iff_answer (kernel : Kernel) (inputs : List (Input cpus)) (resolver : Resolver)
    (cycle : Cycle) (cgroupOf : GoString → UInt64) (unmoved : cycle.Unmoved cgroupOf)
    (answered : ∃ cid, cycle.Lists cid ∧ (cycle.answer cid).isSome)
    (unwrapped : (((system cpus kernel).final (.initial cpus) inputs).cycle kernel resolver
      cycle).1.containersSeen ≤ 2 ^ 32) :
    Keeps kernel ((system cpus kernel).final (.initial cpus) inputs) resolver cycle cgroupOf ↔
      (cycle.Fits ((system cpus kernel).final (.initial cpus) inputs) resolver →
        ∀ cid index, cycle.Runs cid →
          Monitored ((system cpus kernel).final (.initial cpus) inputs) cid (cgroupOf cid) index →
          (cycle.answer cid).isSome) := by
  have ⟨_, ⟨summaries, listed, _⟩, _⟩ := answered
  obtain ⟨next, refreshed⟩ : ∃ next, resolver.refresh cycle.docker = some next := by
    simp [Resolver.refresh, listed]
  have room : ((system cpus kernel).final (.initial cpus) inputs).containersSeen ≤ 2 ^ 32 := by
    have grown := State.step_containersSeen kernel
      ((system cpus kernel).final (.initial cpus) inputs) (.refresh (cycle.found next))
    rw [State.cycle, refreshed] at unwrapped
    exact Nat.le_trans grown unwrapped
  have consistent := consistent_run kernel inputs room
  generalize (system cpus kernel).final (.initial cpus) inputs = state at *
  have nonempty := mappings_ne_nil state refreshed answered
  constructor
  · intro kept fits cid index runs monitored
    exact answers_of_named kernel unmoved refreshed nonempty fits
      (kept cid index runs monitored).2
  · intro condition cid index runs monitored
    by_cases fits : cycle.Fits state resolver
    · exact monitored_of_fits kernel consistent unmoved refreshed nonempty unwrapped fits runs
        monitored (condition fits cid index runs monitored)
    · exact monitored_of_refused kernel consistent unmoved refreshed nonempty unwrapped fits runs
        monitored

/-- A container id of one digit, 64 times. -/
def cidOf (digit : UInt8) : GoString := List.replicate 64 digit

/-- Container `aa..a` in cgroup 7, `bb..b` in cgroup 8, and every other in cgroup 9. -/
def cgroupOfThree (cid : GoString) : UInt64 :=
  if cid = cidOf 97 then 7 else if cid = cidOf 98 then 8 else 9

/-- The daemon lists `aa..a` and `bb..b` as running, and `cc..c` as running or stopped. -/
def threeListed (running : Bool) : List ContainerSummary :=
  [⟨cidOf 97, [], [], true⟩, ⟨cidOf 98, [], [], true⟩, ⟨cidOf 99, [], [], running⟩]

/-- A cycle that lists the three, of which some can be inspected. A stopped one has pid 0 and no
cgroup. -/
def threeContainers (running : Bool) (inspects : GoString → Bool) : Cycle where
  docker := {
    listContainers := some (threeListed running)
    inspectContainer := fun cid =>
      if inspects cid then some ⟨if cid = cidOf 99 ∧ ¬ running then 0 else 1⟩ else none }
  order := RangeOrder.stored _ _
  pathForContainer := fun cid pid => if pid = 0 then none else some cid
  getCgroupID := fun path => some (cgroupOfThree path)
  refuses := fun _ => false

/-- The containers known when all of them run and can be inspected. -/
def allKnown : GoMap GoString Info :=
  containersOf (threeContainers true fun _ => true).docker (threeListed true)

/-- The run in which all of them are found. -/
def allFound : List (Input 1) :=
  [.refresh ((threeContainers true fun _ => true).found ⟨allKnown, ∅⟩)]

/-- The containers have cgroups of their own. -/
theorem threeContainers_unmoved (running : Bool) (inspects : GoString → Bool) :
    (threeContainers running inspects).Unmoved cgroupOfThree := by
  have listed : ∀ cid, (threeContainers running inspects).Lists cid →
      cid = cidOf 97 ∨ cid = cidOf 98 ∨ cid = cidOf 99 := by
    rintro cid ⟨summaries, answer, s, inside, rfl⟩
    obtain rfl := Option.some.inj answer
    simp only [threeListed, List.mem_cons, List.not_mem_nil, or_false] at inside
    rcases inside with rfl | rfl | rfl <;> simp
  have injective : ∀ left right, (threeContainers running inspects).Lists left →
      (threeContainers running inspects).Lists right →
      cgroupOfThree left = cgroupOfThree right → left = right := by
    intro left right first second same
    rcases listed left first with rfl | rfl | rfl <;>
      rcases listed right second with rfl | rfl | rfl <;>
      first | rfl | exact absurd same (by decide)
  have found : ∀ cid cgid, (threeContainers running inspects).answer cid = some cgid →
      cgid = cgroupOfThree cid := by
    intro cid cgid answer
    obtain ⟨detail, _, path⟩ := Option.bind_eq_some_iff.mp answer
    obtain ⟨place, placed, id⟩ := Option.bind_eq_some_iff.mp path
    simp only [threeContainers] at placed id
    split at placed
    · cases placed
    · obtain rfl := Option.some.inj placed
      exact (Option.some.inj id).symm
  constructor
  · exact fun cid cgid _ answer => found cid cgid answer
  · intro cid other runs lists answer
    exact injective other cid lists runs.lists (found other _ answer).symm
  · intro left right cgid first second one two
    exact injective left right first second ((found left _ one).symm.trans (found right _ two))

/-- A failing `InspectContainer` of `bb..b` takes it out of monitoring, though docker lists it as
running, in its cgroup, and the others answer. -/
theorem outage_unmonitored :
    ((threeContainers true fun cid => cid ≠ cidOf 98).answer (cidOf 97)).isSome ∧
    Monitored ((system 1 .plain).final (.initial 1) allFound) (cidOf 98) 8 1 ∧
    ¬ Keeps .plain ((system 1 .plain).final (.initial 1) allFound) ⟨allKnown, ∅⟩
      (threeContainers true fun cid => cid ≠ cidOf 98) cgroupOfThree := by
  have monitored : Monitored ((system 1 .plain).final (.initial 1) allFound) (cidOf 98) 8 1 := by
    constructor <;> decide
  refine ⟨by decide, monitored, fun keeps => ?_⟩
  have after := keeps (cidOf 98) 1
    ⟨_, rfl, ⟨cidOf 98, [], [], true⟩, List.mem_cons_of_mem _ List.mem_cons_self, rfl, rfl⟩
    monitored
  exact absurd after.1 (by decide)

/-- When `cc..c` stops and the other two answer, these stay monitored, and it does not. -/
theorem keeps_iff_answer_stopped :
    Keeps .plain ((system 1 .plain).final (.initial 1) allFound) ⟨allKnown, ∅⟩
        (threeContainers false fun _ => true) cgroupOfThree ∧
      Monitored ((system 1 .plain).final (.initial 1) allFound) (cidOf 99) 9 0 ∧
      ¬ Monitored (((system 1 .plain).final (.initial 1) allFound).cycle .plain ⟨allKnown, ∅⟩
        (threeContainers false fun _ => true)).1 (cidOf 99) 9 0 := by
  refine ⟨?_, by constructor <;> decide, fun left => absurd left.1 (by decide)⟩
  refine (keeps_iff_answer .plain allFound ⟨allKnown, ∅⟩ (threeContainers false fun _ => true)
    cgroupOfThree (threeContainers_unmoved _ _)
    ⟨cidOf 97, ⟨_, rfl, _, List.mem_cons_self, rfl⟩, rfl⟩ (by decide)).mpr ?_
  rintro _ cid index ⟨summaries, answer, s, inside, rfl, running⟩ _
  obtain rfl := Option.some.inj answer
  simp only [threeListed, List.mem_cons, List.not_mem_nil, or_false] at inside
  rcases inside with rfl | rfl | rfl
  · rfl
  · rfl
  · cases running

end ContainerAnomaly.Attribution
