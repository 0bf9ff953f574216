import ContainerAnomaly.Agent.Mappings
import ContainerAnomaly.Lib.Machine

/-!
# The syscall attribution system

The kernel program, the collector and the agent as one machine: a syscall runs the program to
completion, a refresh runs `updateMappings` and the `UpdateContainers` it calls, a poll runs
`pollOnce` and puts out its rows, each beside the index it was read from. Syscalls, refreshes
and polls come in any order. `Consistent` is the invariant that ties the three tables together:
an index has one container for ever, and both the kernel's and the collector's table agree with
the agent's.
-/

namespace ContainerAnomaly.Attribution

open Lib Bpf Syscalls Agent Container

/-- Where the kernel puts new keys, and the number of keys after which user space gives up a
walk of `cgid_map`. -/
structure Kernel where
  /-- Where `cgid_map` puts a new key. -/
  cgidLayout : Layout UInt64
  /-- Where `syscalls_by_cgid` puts a new key. -/
  histLayout : Layout UInt32
  /-- The number of keys after which a walk of `cgid_map` is given up. -/
  walkBudget : Nat

/-- Everything the three parties remember. -/
structure State (cpus : Nat) where
  /-- The maps of the program. -/
  maps : SyscallMaps cpus
  /-- The collector of the agent. -/
  collector : Collector
  /-- The indices that `main` gives to containers. -/
  indices : Indices

/-- The state when the agent has started. -/
def State.initial (cpus : Nat) : State cpus := ⟨.loaded cpus, .new, .initial⟩

/-- What a refresh finds: the containers of the resolver and the order they are ranged over,
the answers of the file system, and the positions at which `Put` fails. -/
structure Refresh where
  /-- The containers of the resolver. -/
  containers : GoMap GoString Info
  /-- The order in which these are ranged over. -/
  order : RangeOrder GoString Info
  /-- `PathForContainer`, `none` for an error. -/
  pathForContainer : GoString → Int → Option GoString
  /-- `GetCgroupID`, `none` for an error. -/
  getCgroupID : GoString → Option UInt64
  /-- The positions at which `Put` fails. -/
  refuses : Nat → Bool

/-- The steps of the system. -/
inductive Input (cpus : Nat) where
  /-- A complete `trace_sys_enter` on a CPU, for a task of a cgroup and a syscall number. -/
  | sysEnter (cpu : Fin cpus) (cgid : UInt64) (id : UInt32)
  /-- A run of `updateMappings`. -/
  | refresh (found : Refresh)
  /-- A complete `pollOnce`, with the order in which it ranges over `current`. -/
  | poll (order : RangeOrder UInt32 SyscallCounts)

variable {cpus : Nat}

/-- The mappings a refresh computes, and the agent's indices after it. -/
def Refresh.collect (found : Refresh) (indices : Indices) : Indices × List ContainerMapping :=
  collectMappings found.pathForContainer found.getCgroupID indices
    (found.containers.range found.order)

/-- `updateMappings`: the collector is called when there is a mapping, its error only logged. -/
def State.refresh (kernel : Kernel) (state : State cpus) (found : Refresh) : State cpus :=
  let (indices, mappings) := found.collect state.indices
  if mappings = [] then { state with indices }
  else
    let (cgidMap, collector, _) := updateContainers kernel.cgidLayout kernel.walkBudget
      found.refuses state.maps.cgidMap state.collector mappings
    { maps := { state.maps with cgidMap }, collector, indices }

/-- One step of the system. -/
def State.step (kernel : Kernel) (state : State cpus) :
    Input cpus → State cpus × List (UInt32 × Row)
  | .sysEnter cpu cgid id =>
    ({ state with maps := traceSysEnter kernel.histLayout state.maps cpu cgid id }, [])
  | .refresh found => (state.refresh kernel found, [])
  | .poll order =>
    let (collector, rows) := pollOnce order state.maps state.collector
    ({ state with collector }, rows)

/-- The system as a machine. -/
def system (cpus : Nat) (kernel : Kernel) : Machine (State cpus) (Input cpus) (UInt32 × Row) :=
  ⟨State.step kernel⟩

/-- A moment of a run: a state and the step taken in it. -/
abbrev Moment (cpus : Nat) := State cpus × Input cpus

/-- What one refresh can do: the agent keeps every index, the kernel's new entries and the
collector's new names are those of located containers, and the histograms stay. -/
theorem State.refresh_cases (kernel : Kernel) (state : State cpus) (found : Refresh) :
    let next := state.refresh kernel found
    next.indices = (found.collect state.indices).1 ∧
    next.maps.syscallsByCgid = state.maps.syscallsByCgid ∧
    next.collector.prevSeen = state.collector.prevSeen ∧
    (∀ entry ∈ next.maps.cgidMap.entries, entry ∈ state.maps.cgidMap.entries ∨
      ∃ m ∈ (found.collect state.indices).2, entry = (m.cgroupID, m.index)) ∧
    (next.collector.idxToCid = state.collector.idxToCid ∨
      ∀ index cid, next.collector.idxToCid.lookup index = some cid →
        ∃ m ∈ (found.collect state.indices).2, m.index = index ∧ m.cid = cid) := by
  unfold refresh
  generalize found.collect state.indices = collected
  obtain ⟨indices, mappings⟩ := collected
  by_cases none_found : mappings = []
  · subst none_found
    refine ⟨rfl, rfl, rfl, fun entry inside => .inl inside, .inl rfl⟩
  · have cases := updateContainers_cases kernel.cgidLayout kernel.walkBudget found.refuses
      state.maps.cgidMap state.collector mappings
    simp only [if_neg none_found]
    obtain ⟨entries, seen, named⟩ := cases
    refine ⟨trivial, trivial, seen, entries, ?_⟩
    rcases named with ⟨_, kept⟩ | ⟨_, replaced⟩
    · exact .inl kept
    · exact .inr replaced

/-- The kernel's and the collector's tables only hold what the agent has decided. -/
structure Consistent (state : State cpus) : Prop where
  /-- Indices are distinct and below the counter. -/
  numbered : state.indices.Numbered
  /-- Every index the kernel maps to belongs to a container. -/
  mapped : ∀ cgid index, state.maps.cgidMap.lookup cgid = some index →
    ∃ cid, state.indices.idxByCid.lookup cid = some index
  /-- The collector names an index by the container it belongs to. -/
  named : ∀ index cid, state.collector.idxToCid.lookup index = some cid →
    state.indices.idxByCid.lookup cid = some index

/-- The number of containers that have an index. -/
def State.containersSeen (state : State cpus) : Nat := state.indices.idxByCid.keys.length

/-- A step keeps every index that was handed out. -/
theorem State.step_keeps (kernel : Kernel) (state : State cpus) (input : Input cpus)
    (cid : GoString) (index : UInt32) (owned : state.indices.idxByCid.lookup cid = some index) :
    (state.step kernel input).1.indices.idxByCid.lookup cid = some index := by
  cases input with
  | sysEnter cpu cgid id => exact owned
  | poll order => exact owned
  | refresh found =>
    change (state.refresh kernel found).indices.idxByCid.lookup cid = some index
    rw [(state.refresh_cases kernel found).1]
    exact collectMappings_keeps _ _ _ _ cid index owned

/-- A step never forgets a container. -/
theorem State.step_containersSeen (kernel : Kernel) (state : State cpus) (input : Input cpus) :
    state.containersSeen ≤ (state.step kernel input).1.containersSeen := by
  cases input with
  | sysEnter cpu cgid id => exact Nat.le_refl _
  | poll order => exact Nat.le_refl _
  | refresh found =>
    change _ ≤ (state.refresh kernel found).indices.idxByCid.keys.length
    rw [(state.refresh_cases kernel found).1]
    exact collectMappings_size _ _ _ _

/-- A syscall leaves `cgid_map` alone. -/
theorem cgidMap_traceSysEnter (layout : Layout UInt32) (maps : SyscallMaps cpus) (cpu : Fin cpus)
    (cgid : UInt64) (id : UInt32) :
    (traceSysEnter layout maps cpu cgid id).cgidMap = maps.cgidMap := by
  rcases traceSysEnter_cases layout maps cpu cgid id with
    ⟨_, same⟩ | ⟨_, _, _, same⟩ | ⟨_, _, _, kept, _⟩
  · rw [same]
  · rw [same]
  · exact kept

/-- The tables agree in the initial state. -/
theorem Consistent.initial : Consistent (State.initial cpus) where
  numbered := Indices.initial_numbered
  mapped := fun _ _ found => by cases found
  named := fun _ _ found => by cases found

/-- Every step keeps the tables in agreement, while the index counter does not wrap. -/
theorem Consistent.step (kernel : Kernel) {state : State cpus} (input : Input cpus)
    (consistent : Consistent state)
    (room : (state.step kernel input).1.containersSeen ≤ 2 ^ 32) :
    Consistent (state.step kernel input).1 := by
  cases input with
  | sysEnter cpu cgid id =>
    refine ⟨consistent.numbered, fun g index found => ?_, consistent.named⟩
    change (traceSysEnter kernel.histLayout state.maps cpu cgid id).cgidMap.lookup g =
      some index at found
    rw [cgidMap_traceSysEnter] at found
    exact consistent.mapped g index found
  | poll order => exact ⟨consistent.numbered, consistent.mapped, consistent.named⟩
  | refresh found =>
    have keeps := state.step_keeps kernel (.refresh found)
    obtain ⟨agent, _, _, entries, names⟩ := state.refresh_cases kernel found
    change (state.refresh kernel found).indices.idxByCid.keys.length ≤ 2 ^ 32 at room
    change ∀ cid index, _ → (state.refresh kernel found).indices.idxByCid.lookup cid =
      some index at keeps
    change Consistent (state.refresh kernel found)
    have sound : ∀ m ∈ (found.collect state.indices).2,
        (state.refresh kernel found).indices.idxByCid.lookup m.cid = some m.index := by
      intro m member
      rw [agent]
      exact (collectMappings_sound _ _ _ _ m member).2
    refine ⟨?_, fun cgid index stored => ?_, fun index cid named => ?_⟩
    · rw [agent] at room ⊢
      exact collectMappings_numbered _ _ _ _ consistent.numbered room
    · rw [HashTable.lookup_eq_some_iff] at stored
      rcases entries _ stored with old | ⟨m, member, same⟩
      · obtain ⟨cid, owned⟩ := consistent.mapped cgid index
          ((HashTable.lookup_eq_some_iff _ _ _).mpr old)
        exact ⟨cid, keeps cid index owned⟩
      · obtain ⟨rfl, rfl⟩ := Prod.mk.inj same
        exact ⟨m.cid, sound m member⟩
    · rcases names with kept | replaced
      · rw [kept] at named
        exact keeps cid index (consistent.named index cid named)
      · obtain ⟨m, member, rfl, rfl⟩ := replaced index cid named
        exact sound m member

/-- The tables agree after every run in which the index counter does not wrap. -/
theorem consistent_run (kernel : Kernel) (inputs : List (Input cpus))
    (room : ((system cpus kernel).final (.initial cpus) inputs).containersSeen ≤ 2 ^ 32) :
    Consistent ((system cpus kernel).final (.initial cpus) inputs) := by
  refine (system cpus kernel).invariant_always
    (fun _ state => state.containersSeen ≤ 2 ^ 32 → Consistent state)
    (fun _ => Consistent.initial) (fun _ state input held room => ?_) inputs room
  refine Consistent.step kernel input (held ?_) room
  exact Nat.le_trans (state.step_containersSeen kernel input) room

/-! ## One container at a time

A host on which each refresh finds a single container, for runs on fixed inputs. -/

/-- A kernel that puts new keys first, walked for as many keys as `cgid_map` may hold. -/
def Kernel.plain : Kernel := ⟨fun _ _ => 0, fun _ _ => 0, 1024⟩

/-- A refresh that finds one container in one cgroup, and at which every `Put` succeeds. -/
def Refresh.single (cid : GoString) (cgid : UInt64) : Refresh where
  containers := (∅ : GoMap GoString Info).insert cid ⟨cid, cid.take 12, [], [], 1⟩
  order := RangeOrder.stored GoString Info
  pathForContainer := fun cid _ => some cid
  getCgroupID := fun _ => some cgid
  refuses := fun _ => false

/-- Such a refresh knows no other container. -/
theorem Refresh.single_lookup {cid other : GoString} {cgid : UInt64} {info : Info}
    (listed : (Refresh.single cid cgid).containers.lookup other = some info) : other = cid := by
  by_cases same : other = cid
  · exact same
  · rw [Refresh.single, AList.lookup_insert_ne same] at listed
    cases listed

end ContainerAnomaly.Attribution
