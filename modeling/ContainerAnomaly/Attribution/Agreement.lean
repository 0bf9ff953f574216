import ContainerAnomaly.Attribution.System
import ContainerAnomaly.Collector.Updates
import ContainerAnomaly.Container.ScopePath

/-!
# The two attribution paths

CPU, TCP and exit rows get their container from the path in `/proc/<pid>/cgroup`, syscall rows
from the id of the cgroup the process is in. Both are stated for a process anywhere below the
systemd scope of a docker container: the first path finds the container from every directory
there, the second only knows the scope itself (`agree_iff_in_scope`).
-/

namespace ContainerAnomaly.Attribution

open Lib GoString Bpf Syscalls Agent Container Cgroup

variable {cpus : Nat}

/-- A cgroup v2 hierarchy, its mount point, and what the agent can ask of them. -/
structure Host where
  /-- The directories. -/
  hierarchy : Hierarchy
  /-- The names on the path of the mount point. -/
  mount : List GoString
  /-- The files below the mount point. -/
  cgroupFs : CgroupFs
  /-- The files of processes. -/
  procFs : ProcFs
  /-- `GetCgroupID`, `none` for an error. -/
  getCgroupID : GoString → Option UInt64
  /-- The hierarchy is not mounted at the root. -/
  mounted : mount ≠ []
  /-- The mount point is a path. -/
  valid : ∀ name ∈ mount, ValidName name
  /-- `os.Stat` succeeds on every directory. -/
  stats : ∀ dir cgid, hierarchy.id dir = some cgid → cgroupFs.stat (path (mount ++ dir)) = true
  /-- `GetCgroupID` returns the id of the directory it is given. -/
  identifies : ∀ dir cgid, hierarchy.id dir = some cgid →
    getCgroupID (path (mount ++ dir)) = some cgid

/-- A live process in a directory with an id: the kernel shows its line and its start time. -/
structure Host.Runs (host : Host) (pid : UInt32) (dir : List GoString) (cgid : UInt64) : Prop where
  /-- The directory exists. -/
  inside : host.hierarchy.id dir = some cgid
  /-- The process is shown in it. -/
  shown : host.procFs.cgroup pid = some (procLine dir ++ [newline])
  /-- The process can be told from others of its pid. -/
  started : ∃ start, readStartTimeTicks host.procFs pid = .ok start

/-- A refresh that asks the host for the directories of containers and their ids. -/
structure Host.Answers (host : Host) (found : Refresh) : Prop where
  /-- The paths are those of `PathForContainer`. -/
  paths : found.pathForContainer = pathForContainer host.cgroupFs (path host.mount)
  /-- The ids are those of `GetCgroupID`. -/
  ids : found.getCgroupID = host.getCgroupID

/-- The cgroup id that `updateMappings` finds for a container, when docker lists it. -/
def Refresh.locate (found : Refresh) (cid : GoString) : Option UInt64 :=
  (found.containers.lookup cid).bind fun info =>
    (found.pathForContainer cid info.pid).bind found.getCgroupID

/-- `cgid_map` holds the cgroup ids that a refresh would find for the listed containers, with
their indices, and nothing else. -/
def UpToDate (found : Refresh) (state : State cpus) : Prop :=
  ∀ cgid index, state.maps.cgidMap.lookup cgid = some index ↔
    ∃ cid, found.locate cid = some cgid ∧ state.indices.idxByCid.lookup cid = some index

/-- `trace_sys_enter` attributes the syscalls of a cgroup to an index: its first lookup finds it.
`attributes_iff_counted` says what is counted then. -/
def Attributes (maps : SyscallMaps cpus) (cgid : UInt64) (index : UInt32) : Prop :=
  maps.cgidMap.lookup cgid = some index

instance (maps : SyscallMaps cpus) (cgid : UInt64) (index : UInt32) :
    Decidable (Attributes maps cgid index) :=
  inferInstanceAs (Decidable (_ = _))

/-- Counting a syscall changes the histogram. -/
theorem count_ne (counts : SyscallCounts) (id : UInt32) : counts.count id ≠ counts := by
  intro same
  have total := counts.get_count id .total
  rw [same] at total
  have counted : Field.counts .total id = true := by simp [Field.counts]
  rw [counted, if_pos rfl] at total
  have apart : counts.get .total + 1 ≠ counts.get .total := by
    intro equal
    simp at equal
  exact apart total.symm

/-- With room or without, nothing is counted under an index that a syscall is not attributed
to. -/
theorem slots_of_not_attributes (layout : Layout UInt32) (maps : SyscallMaps cpus)
    (cpu : Fin cpus) (cgid : UInt64) (id index : UInt32)
    (elsewhere : ¬ Attributes maps cgid index) :
    (traceSysEnter layout maps cpu cgid id).slots index = maps.slots index := by
  unfold Attributes at elsewhere
  rcases traceSysEnter_cases layout maps cpu cgid id with
    ⟨_, same⟩ | ⟨_, _, _, same⟩ | ⟨idx, mapped, _, _, counted⟩
  · rw [same]
  · rw [same]
  · have apart : index ≠ idx := by
      rintro rfl
      exact elsewhere mapped
    rw [SyscallMaps.slots, counted index, if_neg apart, SyscallMaps.slots]

/-- While an index has room, the syscalls attributed to it are exactly those counted under it. -/
theorem attributes_iff_counted (layout : Layout UInt32) (maps : SyscallMaps cpus)
    (cpu : Fin cpus) (cgid : UInt64) (id index : UInt32) (room : maps.HasRoom index) :
    Attributes maps cgid index ↔
      (traceSysEnter layout maps cpu cgid id).slots index =
        Function.update (maps.slots index) cpu ((maps.slots index cpu).count id) := by
  constructor
  · intro attributed
    rcases traceSysEnter_cases layout maps cpu cgid id with
      ⟨missed, _⟩ | ⟨idx, mapped, full, _⟩ | ⟨idx, mapped, _, _, counted⟩
    · rw [Attributes, missed] at attributed
      cases attributed
    · rw [Attributes, mapped, Option.some.injEq] at attributed
      exact absurd (attributed ▸ room) full
    · rw [Attributes, mapped, Option.some.injEq] at attributed
      subst attributed
      rw [SyscallMaps.slots, counted idx, if_pos rfl, Option.getD_some]
  · intro counted
    by_contra elsewhere
    rw [slots_of_not_attributes layout maps cpu cgid id index elsewhere] at counted
    have own := congrFun counted cpu
    rw [Function.update_self] at own
    exact count_ne _ id own.symm

section Refresh

variable (found : Refresh)

/-- The mappings of a refresh are the containers that are located, with their cgroup ids. -/
theorem Refresh.mem_collect_iff (indices : Indices) (cid : GoString) (cgid : UInt64) :
    (∃ m ∈ (found.collect indices).2, m.cid = cid ∧ m.cgroupID = cgid) ↔
      found.locate cid = some cgid := by
  have located := collectMappings_located found.pathForContainer found.getCgroupID indices
    (found.containers.range found.order)
  have member : (∃ m ∈ (found.collect indices).2, m.cid = cid ∧ m.cgroupID = cgid) ↔
      (cid, cgid) ∈ (found.collect indices).2.map fun m => (m.cid, m.cgroupID) := by
    simp
  rw [member, Refresh.collect, located, List.mem_filterMap, Refresh.locate,
    Option.bind_eq_some_iff]
  constructor
  · rintro ⟨⟨other, info⟩, inside, answer⟩
    obtain ⟨read, answered, same⟩ := Option.map_eq_some_iff.mp answer
    obtain ⟨rfl, rfl⟩ := Prod.mk.inj same
    exact ⟨info, (GoMap.mem_range_iff found.order _ _ info).mp inside, answered⟩
  · rintro ⟨info, inside, answered⟩
    have ranged := (GoMap.mem_range_iff found.order _ cid info).mpr inside
    exact ⟨(cid, info), ranged, Option.map_eq_some_iff.mpr ⟨cgid, answered, rfl⟩⟩

/-- No two listed containers share a directory. -/
def Refresh.Apart : Prop :=
  ∀ left right cgid, found.locate left = some cgid → found.locate right = some cgid →
    left = right

/-- Containers in directories of their own have mappings of different cgroups. -/
theorem Refresh.collect_distinct (indices : Indices) (apart : found.Apart) :
    ((found.collect indices).2.map ContainerMapping.cgroupID).Nodup := by
  have located := found.mem_collect_iff indices
  have listed := collectMappings_cids found.pathForContainer found.getCgroupID indices
    (found.containers.range found.order)
  have cids : ((found.collect indices).2.map ContainerMapping.cid).Nodup :=
    listed.nodup (GoMap.range_keys_nodup found.order found.containers)
  refine List.Nodup.map_on (fun left inLeft right inRight same => ?_) (cids.of_map _)
  have first := (located left.cid left.cgroupID).mp ⟨left, inLeft, rfl, rfl⟩
  have second := (located right.cid right.cgroupID).mp ⟨right, inRight, rfl, rfl⟩
  rw [← same] at second
  exact List.inj_on_of_nodup_map cids inLeft inRight (apart _ _ _ first second)

/-- A refresh that locates a container and writes its mappings leaves the map up to date, when
no two containers share a directory, no listed container has moved, and the walk that deletes
old entries is not cut short. -/
theorem Refresh.upToDate (kernel : Kernel) (state : State cpus) (consistent : Consistent state)
    (unwrapped : (state.refresh kernel found).containersSeen ≤ 2 ^ 32)
    (present : ∃ cid cgid, found.locate cid = some cgid) (apart : found.Apart)
    (settled : ∀ old index cid now, state.maps.cgidMap.lookup old = some index →
      state.indices.idxByCid.lookup cid = some index → found.locate cid = some now → now = old)
    (accepts : ∀ position, found.refuses position = false)
    (fits : state.maps.cgidMap.entries.length + (found.collect state.indices).2.length ≤ 1024)
    (covers : (state.maps.cgidMap.entries.length + (found.collect state.indices).2.length + 1) *
      (state.maps.cgidMap.entries.length + (found.collect state.indices).2.length + 1) ≤
      kernel.walkBudget) :
    UpToDate found (state.refresh kernel found) := by
  have located := found.mem_collect_iff state.indices
  have distinct := found.collect_distinct state.indices apart
  have keeps := state.step_keeps kernel (.refresh found)
  have agreed : Consistent (state.refresh kernel found) :=
    Consistent.step kernel (.refresh found) consistent unwrapped
  have indexed : ∀ m ∈ (found.collect state.indices).2,
      (state.refresh kernel found).indices.idxByCid.lookup m.cid = some m.index := by
    intro m member
    rw [(state.refresh_cases kernel found).1]
    exact (collectMappings_sound _ _ _ _ m member).2
  have nonempty : (found.collect state.indices).2 ≠ [] := by
    obtain ⟨cid, cgid, answer⟩ := present
    obtain ⟨m, member, _⟩ := (located cid cgid).mpr answer
    exact List.ne_nil_of_mem member
  have succeeded := updateContainers_succeeds kernel.cgidLayout kernel.walkBudget found.refuses
    state.maps.cgidMap state.collector (found.collect state.indices).2 accepts fits
  have written := updateContainers_entries kernel.cgidLayout kernel.walkBudget found.refuses
    state.maps.cgidMap state.collector (found.collect state.indices).2 succeeded distinct covers
  have table : (state.refresh kernel found).maps.cgidMap =
      (updateContainers kernel.cgidLayout kernel.walkBudget found.refuses state.maps.cgidMap
        state.collector (found.collect state.indices).2).1 := by
    rw [State.refresh]
    exact congrArg (fun next : State cpus => next.maps.cgidMap) (if_neg nonempty)
  intro cgid index
  rw [table, HashTable.lookup_eq_some_iff, written (cgid, index)]
  constructor
  · rintro (⟨m, member, same⟩ | ⟨old, _, m, member, rfl⟩)
    · obtain ⟨rfl, rfl⟩ := Prod.mk.inj same
      exact ⟨m.cid, (located _ _).mp ⟨m, member, rfl, rfl⟩, indexed m member⟩
    · -- The old entry is of the container the mapping is for, and that container has not moved.
      have stored := (HashTable.lookup_eq_some_iff _ cgid m.index).mpr old
      obtain ⟨cid, owned⟩ := consistent.mapped cgid m.index stored
      have here : m.cid = cid :=
        agreed.numbered.injective _ _ m.index (indexed m member) (keeps cid m.index owned)
      subst here
      have answer := (located m.cid m.cgroupID).mp ⟨m, member, rfl, rfl⟩
      rw [settled cgid m.index m.cid _ stored owned answer] at answer
      exact ⟨m.cid, answer, indexed m member⟩
  · rintro ⟨cid, answer, owned⟩
    obtain ⟨m, member, rfl, rfl⟩ := (located cid cgid).mpr answer
    have same := (indexed m member).symm.trans owned
    rw [Option.some.injEq] at same
    exact .inl ⟨m, member, by rw [same]⟩

end Refresh

section Scope

variable (host : Host) (found : Refresh) (cid : ContainerID)

/-- A listed container is located at its systemd scope when that exists. -/
theorem Host.locate_scope (answers : host.Answers found) {info : Info} {cgid : UInt64}
    (listed : found.containers.lookup cid.text = some info)
    (exist : host.hierarchy.id (scopeDir cid.text) = some cgid) :
    found.locate cid.text = some cgid := by
  have names := host.hierarchy.valid _ cgid exist
  have valid : ∀ name ∈ host.mount ++ scopeDir cid.text, ValidName name := by
    intro name inside
    rcases List.mem_append.mp inside with above | below
    · exact host.valid name above
    · exact names name below
  have scope := pathForContainer_scope host.cgroupFs host.mount cid.text info.pid host.mounted
    valid (host.stats _ cgid exist)
  rw [Refresh.locate, listed, Option.bind_some, answers.paths, answers.ids, scope,
    Option.bind_some]
  exact host.identifies _ cgid exist

/-- With an up-to-date map, the syscalls of a process below the scope are attributed to the
container's index exactly when the process is in the scope itself. -/
theorem attributes_iff_in_scope {state : State cpus} (numbered : state.indices.Numbered)
    (answers : host.Answers found) (upToDate : UpToDate found state) {info : Info}
    (listed : found.containers.lookup cid.text = some info) {index : UInt32}
    (owned : state.indices.idxByCid.lookup cid.text = some index) {below : List GoString}
    {cgid : UInt64} (inside : host.hierarchy.id (scopeDir cid.text ++ below) = some cgid) :
    Attributes state.maps cgid index ↔ below = [] := by
  obtain ⟨scopeID, exist⟩ := host.hierarchy.above _ below cgid inside
  have located := host.locate_scope found cid answers listed exist
  constructor
  · intro attributed
    obtain ⟨other, elsewhere, indexed⟩ := (upToDate cgid index).mp attributed
    have same : other = cid.text := numbered.injective _ _ index indexed owned
    rw [same, located, Option.some.injEq] at elsewhere
    rw [elsewhere] at exist
    have one := host.hierarchy.distinct _ _ cgid exist inside
    simpa using one
  · intro here
    subst here
    rw [List.append_nil, exist, Option.some.injEq] at inside
    subst inside
    exact (upToDate scopeID index).mpr ⟨cid.text, located, owned⟩

/-- The resolver, without the process in its cache, finds the container of every process below
the scope whose line fits the scanner's buffer. -/
theorem resolve_iff_fits (resolver : Resolver) {pid : UInt32} {below : List GoString}
    {cgid : UInt64} (live : host.Runs pid (scopeDir cid.text ++ below) cgid)
    (uncached : ∀ start, resolver.upidCache.lookup ⟨pid, start⟩ = none) :
    (resolver.resolve host.procFs pid).1 = cid.text ↔
      (procLine (scopeDir cid.text ++ below)).length < maxScanTokenSize := by
  have plain := newline_not_mem_procLine _ (host.hierarchy.valid _ cgid live.inside)
  have parsed := cid.parse_scope host.procFs pid below plain live.shown
  obtain ⟨start, started⟩ := live.started
  rcases resolver.resolve_cases host.procFs pid with
    ⟨⟨error, failed⟩, _⟩ | ⟨before, _, _, cached, _⟩ | ⟨_, _, _, answer⟩
  · rw [started] at failed
    cases failed
  · rw [uncached before] at cached
    cases cached
  · rw [answer, parsed]
    by_cases fits : (procLine (scopeDir cid.text ++ below)).length < maxScanTokenSize
    · simp [fits]
    · simp [fits, Ne.symm cid.text_ne_nil]

/-- The line of a process in the scope itself fits. -/
theorem length_procLine_scope : (procLine (scopeDir cid.text ++ [])).length = 94 := by
  rw [cid.procLine_scope []]
  simp [joined, lit, cid.length]

/-- After any run that leaves the map up to date, the resolver and the kernel agree on a process
below the scope of a container exactly when it is in the scope itself, or so deep that the
scanner gives up its line. -/
theorem agree_iff_in_scope (kernel : Kernel) (inputs : List (Input cpus))
    (unwrapped : ((system cpus kernel).final (.initial cpus) inputs).containersSeen ≤ 2 ^ 32)
    (answers : host.Answers found)
    (upToDate : UpToDate found ((system cpus kernel).final (.initial cpus) inputs)) (info : Info)
    (listed : found.containers.lookup cid.text = some info) (index : UInt32)
    (owned : ((system cpus kernel).final (.initial cpus) inputs).indices.idxByCid.lookup cid.text =
      some index)
    (pid : UInt32) (below : List GoString) (cgid : UInt64)
    (live : host.Runs pid (scopeDir cid.text ++ below) cgid) (resolver : Resolver)
    (uncached : ∀ start, resolver.upidCache.lookup ⟨pid, start⟩ = none) :
    ((resolver.resolve host.procFs pid).1 = cid.text ↔
      Attributes ((system cpus kernel).final (.initial cpus) inputs).maps cgid index) ↔
      below = [] ∨ maxScanTokenSize ≤ (procLine (scopeDir cid.text ++ below)).length := by
  have consistent := consistent_run kernel inputs unwrapped
  have byPath := resolve_iff_fits host cid resolver live uncached
  have byId := attributes_iff_in_scope host found cid consistent.numbered answers upToDate listed
    owned live.inside
  rw [byPath, byId]
  constructor
  · intro agree
    by_cases fits : (procLine (scopeDir cid.text ++ below)).length < maxScanTokenSize
    · exact .inl (agree.mp fits)
    · exact .inr (Nat.not_lt.mp fits)
  · rintro (rfl | long)
    · have short := length_procLine_scope cid
      exact ⟨fun _ => rfl, fun _ => by rw [short]; decide⟩
    · have deep : below ≠ [] := by
        rintro rfl
        rw [length_procLine_scope cid] at long
        exact absurd long (by decide)
      exact ⟨fun fits => absurd fits (Nat.not_lt.mpr long), fun here => absurd here deep⟩

end Scope

/-- The hierarchy whose directories are those on one path, numbered by their depth. -/
def chain (names : List GoString) (valid : ∀ name ∈ names, ValidName name)
    (short : names.length < 2 ^ 32) : Hierarchy where
  id dir := if dir <+: names then some (UInt64.ofNat (dir.length + 1)) else none
  distinct := by
    intro left right cgid first second
    rw [Option.ite_none_right_eq_some, Option.some.injEq] at first second
    have size := congrArg UInt64.toNat (first.2.trans second.2.symm)
    have left_le := first.1.length_le
    have right_le := second.1.length_le
    simp only [UInt64.toNat_ofNat'] at size
    have same : left.length = right.length := by omega
    rw [List.prefix_iff_eq_take.mp first.1, List.prefix_iff_eq_take.mp second.1, same]
  parent := by
    intro dir name cgid exist
    rw [Option.ite_none_right_eq_some] at exist
    have above : dir <+: names := (List.prefix_append dir [name]).trans exist.1
    exact ⟨_, if_pos above⟩
  valid := by
    intro dir cgid exist name inside
    rw [Option.ite_none_right_eq_some] at exist
    exact valid name (exist.1.subset inside)

/-- The mount point of cgroup v2. -/
def cgroupMount : List GoString := [lit "sys", lit "fs", lit "cgroup"]

/-- Its names are valid. -/
theorem cgroupMount_valid : ∀ name ∈ cgroupMount, ValidName name := by
  simp only [cgroupMount, List.mem_cons, List.not_mem_nil, or_false]
  rintro name (rfl | rfl | rfl) <;> constructor <;> decide

/-- A host with such a hierarchy, on which every process runs in the last directory. -/
def Host.chain (names : List GoString) (valid : ∀ name ∈ names, ValidName name)
    (short : names.length < 2 ^ 32) : Host where
  hierarchy := Attribution.chain names valid short
  mount := cgroupMount
  cgroupFs :=
    ⟨fun text => names.inits.any fun dir => path (cgroupMount ++ dir) = text, fun _ => none⟩
  procFs :=
    ⟨fun _ => some (lit "7 (sh) S 1 7 7 0 -1 0 0 0 0 0 0 0 0 0 20 0 1 0 4242 0 0"),
      fun _ => some (procLine names ++ [newline])⟩
  getCgroupID text :=
    (names.inits.find? fun dir => path (cgroupMount ++ dir) = text).map
      fun dir => UInt64.ofNat (dir.length + 1)
  mounted := by simp [cgroupMount]
  valid := cgroupMount_valid
  stats := by
    intro dir cgid exist
    have prefixed := (Option.ite_none_right_eq_some.mp exist).1
    rw [List.any_eq_true]
    exact ⟨dir, (List.mem_inits _ _).mpr prefixed, by simp⟩
  identifies := by
    intro dir cgid exist
    obtain ⟨prefixed, numbered⟩ := Option.ite_none_right_eq_some.mp exist
    have inside : dir ∈ names.inits := (List.mem_inits _ _).mpr prefixed
    cases found : names.inits.find? fun other =>
        path (cgroupMount ++ other) = path (cgroupMount ++ dir) with
    | none =>
      have missed := List.find?_eq_none.mp found dir inside
      simp at missed
    | some other =>
      have same := List.find?_some found
      have among := (List.mem_inits _ _).mp (List.mem_of_find?_eq_some found)
      have equal : cgroupMount ++ other = cgroupMount ++ dir := by
        refine path_injective (by simp [cgroupMount]) (by simp [cgroupMount])
          (fun name inside => ?_) (fun name inside => ?_) (by simpa using same)
        · exact (List.mem_append.mp inside).elim (cgroupMount_valid name)
            fun below => valid name (among.subset below)
        · exact (List.mem_append.mp inside).elim (cgroupMount_valid name)
            fun below => valid name (prefixed.subset below)
      rw [List.append_cancel_left equal, Option.map_some]
      exact numbered

/-- A container whose id is all the same digit. -/
def ContainerID.same : ContainerID := ⟨List.replicate 64 97, by decide, by decide⟩

/-- The names below the mount point from the scope of that container to a directory in it. -/
theorem scopeDir_valid (below : List GoString) (valid : ∀ name ∈ below, ValidName name) :
    ∀ name ∈ scopeDir ContainerID.same.text ++ below, ValidName name := by
  intro name inside
  rcases List.mem_append.mp inside with above | inside
  · simp only [scopeDir, List.mem_cons, List.not_mem_nil, or_false] at above
    rcases above with rfl | rfl <;> constructor <;> decide
  · exact valid name inside

/-- A refresh of a host on which docker lists that container only. -/
def Host.refreshSame (host : Host) : Refresh :=
  { Refresh.single ContainerID.same.text 0 with
    pathForContainer := pathForContainer host.cgroupFs (path host.mount)
    getCgroupID := host.getCgroupID }

/-- The one container is listed. -/
theorem Host.refreshSame_listed (host : Host) :
    host.refreshSame.containers.lookup ContainerID.same.text =
      some ⟨ContainerID.same.text, ContainerID.same.text.take 12, [], [], 1⟩ :=
  AList.lookup_insert _

section Same

variable (host : Host) {scopeID : UInt64}

/-- The first refresh maps the scope of the container to the first index. -/
theorem Host.refreshSame_collect
    (exist : host.hierarchy.id (scopeDir ContainerID.same.text) = some scopeID) :
    host.refreshSame.collect Indices.initial =
      (⟨1, (∅ : GoMap GoString UInt32).insert ContainerID.same.text 0⟩,
        [⟨scopeID, 0, ContainerID.same.text⟩]) := by
  have located := host.locate_scope host.refreshSame ContainerID.same ⟨rfl, rfl⟩
    host.refreshSame_listed exist
  rw [Refresh.locate, host.refreshSame_listed, Option.bind_some] at located
  have ranged : host.refreshSame.containers.range host.refreshSame.order =
      [(ContainerID.same.text,
        ⟨ContainerID.same.text, ContainerID.same.text.take 12, [], [], 1⟩)] := rfl
  rw [Refresh.collect, ranged]
  simp only [collectMappings, located]
  rfl

/-- After it the map is up to date. -/
theorem Host.refreshSame_upToDate
    (exist : host.hierarchy.id (scopeDir ContainerID.same.text) = some scopeID) :
    UpToDate host.refreshSame
      ((system 1 .plain).final (.initial 1) [.refresh host.refreshSame]) := by
  have collected := host.refreshSame_collect exist
  have located := host.locate_scope host.refreshSame ContainerID.same ⟨rfl, rfl⟩
    host.refreshSame_listed exist
  have only : ∀ other cgid, host.refreshSame.locate other = some cgid →
      other = ContainerID.same.text := by
    intro other cgid answer
    obtain ⟨info, listed, _⟩ := Option.bind_eq_some_iff.mp answer
    exact @Refresh.single_lookup _ _ 0 _ listed
  have seen : ((State.initial 1).refresh .plain host.refreshSame).containersSeen = 1 := by
    rw [State.containersSeen, (State.refresh_cases _ _ _).1, State.initial, collected]
    rfl
  have mapped : (host.refreshSame.collect (State.initial 1).indices).2.length = 1 := by
    rw [State.initial, collected]
    rfl
  have empty : (State.initial 1).maps.cgidMap.entries.length = 0 := rfl
  refine host.refreshSame.upToDate .plain (.initial 1) .initial (by rw [seen]; decide)
    ⟨_, _, located⟩ (fun left right cgid first second => ?_) (fun _ _ _ _ stored => ?_)
    (fun _ => rfl) (by rw [mapped, empty]; decide) (by rw [mapped, empty]; decide)
  · rw [only left cgid first, only right cgid second]
  · cases stored

/-- The container has the first index then. -/
theorem Host.refreshSame_owned
    (exist : host.hierarchy.id (scopeDir ContainerID.same.text) = some scopeID) :
    ((system 1 .plain).final (.initial 1)
      [.refresh host.refreshSame]).indices.idxByCid.lookup ContainerID.same.text = some 0 := by
  show ((State.initial 1).refresh .plain host.refreshSame).indices.idxByCid.lookup _ = some 0
  rw [(State.refresh_cases _ _ _).1, State.initial, host.refreshSame_collect exist]
  exact AList.lookup_insert _

/-- One container is known then. -/
theorem Host.refreshSame_unwrapped
    (exist : host.hierarchy.id (scopeDir ContainerID.same.text) = some scopeID) :
    ((system 1 .plain).final (.initial 1) [.refresh host.refreshSame]).containersSeen ≤
      2 ^ 32 := by
  show ((State.initial 1).refresh .plain host.refreshSame).containersSeen ≤ 2 ^ 32
  rw [State.containersSeen, (State.refresh_cases _ _ _).1, State.initial,
    host.refreshSame_collect exist]
  exact Nat.one_le_two_pow

end Same

/-- A host whose processes run in the scope of the container. -/
def scopeHost : Host :=
  .chain (scopeDir ContainerID.same.text) (by simpa using scopeDir_valid [] (by simp))
    (by decide)

/-- A host whose processes run in a directory the container has made, as `systemd` does. -/
def nestedHost : Host :=
  .chain (scopeDir ContainerID.same.text ++ [lit "init.scope"])
    (scopeDir_valid _ (by
      simp only [List.mem_cons, List.not_mem_nil, or_false, forall_eq]
      constructor <;> decide))
    (by decide)

/-- A resolver that has resolved nothing yet. -/
def Resolver.fresh : Resolver := ⟨∅, ∅⟩

/-- A process in the scope itself. -/
theorem scopeHost_runs : scopeHost.Runs 7 (scopeDir ContainerID.same.text ++ []) 3 where
  inside := rfl
  shown := rfl
  started := ⟨4242, by decide +kernel⟩

/-- A process below the scope. -/
theorem nestedHost_runs :
    nestedHost.Runs 7 (scopeDir ContainerID.same.text ++ [lit "init.scope"]) 4 where
  inside := rfl
  shown := rfl
  started := ⟨4242, by decide +kernel⟩

/-- The two paths agree on a process in the scope. -/
theorem agree_in_scope :
    (Resolver.fresh.resolve scopeHost.procFs 7).1 = ContainerID.same.text ↔
      Attributes ((system 1 .plain).final (.initial 1) [.refresh scopeHost.refreshSame]).maps
        3 0 := by
  have exist : scopeHost.hierarchy.id (scopeDir ContainerID.same.text) = some 3 := by
    simpa using scopeHost_runs.inside
  have condition := agree_iff_in_scope scopeHost scopeHost.refreshSame ContainerID.same
    .plain [.refresh scopeHost.refreshSame] (scopeHost.refreshSame_unwrapped exist) ⟨rfl, rfl⟩
    (scopeHost.refreshSame_upToDate exist) _ scopeHost.refreshSame_listed 0
    (scopeHost.refreshSame_owned exist) 7 [] 3 scopeHost_runs Resolver.fresh fun _ => rfl
  exact condition.mpr (.inl rfl)

/-- They disagree on a process in a directory the container has made: the resolver knows its
container, the kernel takes it for a process of the host. -/
theorem nested_disagree :
    nestedHost.Runs 7 (scopeDir ContainerID.same.text ++ [lit "init.scope"]) 4 ∧
    UpToDate nestedHost.refreshSame
      ((system 1 .plain).final (.initial 1) [.refresh nestedHost.refreshSame]) ∧
    ((system 1 .plain).final (.initial 1)
      [.refresh nestedHost.refreshSame]).indices.idxByCid.lookup ContainerID.same.text =
      some 0 ∧
    (Resolver.fresh.resolve nestedHost.procFs 7).1 = ContainerID.same.text ∧
    ¬ Attributes ((system 1 .plain).final (.initial 1) [.refresh nestedHost.refreshSame]).maps
      4 0 := by
  have exist : nestedHost.hierarchy.id (scopeDir ContainerID.same.text) = some 3 := rfl
  have consistent := consistent_run .plain [.refresh nestedHost.refreshSame]
    (nestedHost.refreshSame_unwrapped exist)
  have upToDate := nestedHost.refreshSame_upToDate exist
  have owned := nestedHost.refreshSame_owned exist
  have byId := attributes_iff_in_scope nestedHost nestedHost.refreshSame ContainerID.same
    consistent.numbered ⟨rfl, rfl⟩ upToDate nestedHost.refreshSame_listed owned
    nestedHost_runs.inside
  have byPath := resolve_iff_fits nestedHost ContainerID.same Resolver.fresh nestedHost_runs
    fun _ => rfl
  refine ⟨nestedHost_runs, upToDate, owned, byPath.mpr (by decide), fun attributed => ?_⟩
  exact absurd (byId.mp attributed) (by decide)

end ContainerAnomaly.Attribution
