import ContainerAnomaly.Collector.Syscalls
import ContainerAnomaly.Container.Resolver

/-!
# The agent's container mappings

`updateMappings` of `cmd/agent/main.go`. Each container id gets an index from a counter the
first time its cgroup is found, and keeps it for the life of the agent. The two calls that reach
the file system (`PathForContainer`, `GetCgroupID`) are parameters here.
-/

namespace ContainerAnomaly.Agent

open Lib Container Syscalls

/-- The variables `updateMappings` closes over. -/
structure Indices where
  /-- `nextIdx`. -/
  nextIdx : UInt32
  /-- `idxByCid`. -/
  idxByCid : GoMap GoString UInt32

/-- The variables before the first call. -/
def Indices.initial : Indices := ⟨0, ∅⟩

/-- The index of a container, a new one the first time. -/
def Indices.assign (indices : Indices) (cid : GoString) : Indices × UInt32 :=
  match indices.idxByCid.lookup cid with
  | some idx => (indices, idx)
  | none =>
    (⟨indices.nextIdx + 1, indices.idxByCid.insert cid indices.nextIdx⟩, indices.nextIdx)

/-- The loop of `updateMappings` over the containers, in the order they are ranged over: a
container whose path or cgroup id is not found is skipped. -/
def collectMappings (pathForContainer : GoString → Int → Option GoString)
    (getCgroupID : GoString → Option UInt64) :
    Indices → List (GoString × Info) → Indices × List ContainerMapping
  | indices, [] => (indices, [])
  | indices, (cid, info) :: containers =>
    match (pathForContainer cid info.pid).bind getCgroupID with
    | none => collectMappings pathForContainer getCgroupID indices containers
    | some cgid =>
      let (indices, idx) := indices.assign cid
      let (indices, mappings) :=
        collectMappings pathForContainer getCgroupID indices containers
      (indices, ⟨cgid, idx, cid⟩ :: mappings)

/-! ## Every container keeps its own index

`Numbered` is the invariant of the counter: while fewer than `2 ^ 32` containers have been seen,
the indices handed out are the numbers below the counter, each once. -/

/-- The indices handed out are distinct and below the number of containers seen. -/
structure Indices.Numbered (indices : Indices) : Prop where
  /-- The counter is the number of containers seen. -/
  counter : indices.nextIdx = UInt32.ofNat indices.idxByCid.keys.length
  /-- Every index is below the counter. -/
  below : ∀ cid idx, indices.idxByCid.lookup cid = some idx →
    idx.toNat < indices.idxByCid.keys.length
  /-- No index has two containers. -/
  injective : ∀ left right idx, indices.idxByCid.lookup left = some idx →
    indices.idxByCid.lookup right = some idx → left = right

/-- Nothing is numbered before the first call. -/
theorem Indices.initial_numbered : Indices.initial.Numbered where
  counter := rfl
  below := fun _ _ found => by cases found
  injective := fun _ _ _ found => by cases found

/-- A container that has an index keeps it when another is assigned. -/
theorem Indices.assign_keeps (indices : Indices) (cid other : GoString) (idx : UInt32)
    (found : indices.idxByCid.lookup other = some idx) :
    (indices.assign cid).1.idxByCid.lookup other = some idx := by
  unfold assign
  cases known : indices.idxByCid.lookup cid with
  | some _ => exact found
  | none =>
    have apart : other ≠ cid := by
      rintro rfl
      rw [known] at found
      cases found
    simp [AList.lookup_insert_ne apart, found]

/-- The index assigned to a container is the one it has afterwards. -/
theorem Indices.assign_lookup (indices : Indices) (cid : GoString) :
    (indices.assign cid).1.idxByCid.lookup cid = some (indices.assign cid).2 := by
  unfold assign
  cases known : indices.idxByCid.lookup cid with
  | some _ => simpa using known
  | none => simp

/-- A new container is counted; a known one changes nothing. -/
theorem Indices.assign_size (indices : Indices) (cid : GoString) :
    indices.idxByCid.keys.length ≤ (indices.assign cid).1.idxByCid.keys.length := by
  unfold assign
  cases known : indices.idxByCid.lookup cid with
  | some _ => exact Nat.le_refl _
  | none =>
    have size := GoMap.length_keys_insert indices.idxByCid known indices.nextIdx
    dsimp only
    omega

/-- Assigning an index keeps the numbering while the counter does not wrap. -/
theorem Indices.assign_numbered (indices : Indices) (cid : GoString)
    (numbered : indices.Numbered)
    (room : (indices.assign cid).1.idxByCid.keys.length ≤ 2 ^ 32) :
    (indices.assign cid).1.Numbered := by
  unfold assign at room ⊢
  cases known : indices.idxByCid.lookup cid with
  | some _ => exact numbered
  | none =>
    simp only [known] at room ⊢
    have size := GoMap.length_keys_insert indices.idxByCid known indices.nextIdx
    rw [size] at room
    have next : indices.nextIdx.toNat = indices.idxByCid.keys.length := by
      rw [numbered.counter, UInt32.toNat_ofNat']
      exact Nat.mod_eq_of_lt (by omega)
    have stored : ∀ other idx,
        (indices.idxByCid.insert cid indices.nextIdx).lookup other = some idx →
        other = cid ∧ idx = indices.nextIdx ∨
          other ≠ cid ∧ indices.idxByCid.lookup other = some idx := by
      intro other idx found
      by_cases same : other = cid
      · subst same
        rw [AList.lookup_insert] at found
        exact .inl ⟨rfl, (Option.some.inj found).symm⟩
      · rw [AList.lookup_insert_ne same] at found
        exact .inr ⟨same, found⟩
    refine ⟨?_, fun other idx found => ?_, fun left right idx first second => ?_⟩
    · rw [size, UInt32.ofNat_add, ← numbered.counter]
      rfl
    · rw [size]
      rcases stored other idx found with ⟨_, rfl⟩ | ⟨_, old⟩
      · omega
      · have := numbered.below other idx old
        omega
    · rcases stored left idx first with ⟨rfl, rfl⟩ | ⟨_, oldLeft⟩ <;>
        rcases stored right _ second with ⟨rfl, same⟩ | ⟨_, oldRight⟩
      · rfl
      · have := numbered.below right _ oldRight
        omega
      · have := numbered.below left _ oldLeft
        rw [same] at this
        omega
      · exact numbered.injective left right idx oldLeft oldRight

section Collect

variable (pathForContainer : GoString → Int → Option GoString)
  (getCgroupID : GoString → Option UInt64)

/-- A refresh keeps every index that was handed out. -/
theorem collectMappings_keeps (indices : Indices) (containers : List (GoString × Info))
    (cid : GoString) (idx : UInt32) (found : indices.idxByCid.lookup cid = some idx) :
    (collectMappings pathForContainer getCgroupID indices containers).1.idxByCid.lookup cid =
      some idx := by
  induction containers generalizing indices with
  | nil => exact found
  | cons container containers ih =>
    obtain ⟨other, info⟩ := container
    unfold collectMappings
    cases (pathForContainer other info.pid).bind getCgroupID with
    | none => exact ih indices found
    | some cgid => exact ih _ (indices.assign_keeps other cid idx found)

/-- A refresh never forgets a container. -/
theorem collectMappings_size (indices : Indices) (containers : List (GoString × Info)) :
    indices.idxByCid.keys.length ≤
      (collectMappings pathForContainer getCgroupID indices
        containers).1.idxByCid.keys.length := by
  induction containers generalizing indices with
  | nil => exact Nat.le_refl _
  | cons container containers ih =>
    obtain ⟨other, info⟩ := container
    unfold collectMappings
    cases (pathForContainer other info.pid).bind getCgroupID with
    | none => exact ih indices
    | some cgid => exact Nat.le_trans (indices.assign_size other) (ih _)

/-- A refresh keeps the numbering while the counter does not wrap. -/
theorem collectMappings_numbered (indices : Indices) (containers : List (GoString × Info))
    (numbered : indices.Numbered)
    (room : (collectMappings pathForContainer getCgroupID indices
      containers).1.idxByCid.keys.length ≤ 2 ^ 32) :
    (collectMappings pathForContainer getCgroupID indices containers).1.Numbered := by
  induction containers generalizing indices with
  | nil => exact numbered
  | cons container containers ih =>
    obtain ⟨other, info⟩ := container
    unfold collectMappings at room ⊢
    cases found : (pathForContainer other info.pid).bind getCgroupID with
    | none =>
      simp only [found] at room ⊢
      exact ih indices numbered room
    | some cgid =>
      simp only [found] at room ⊢
      refine ih _ (indices.assign_numbered other numbered ?_) room
      exact Nat.le_trans (collectMappings_size pathForContainer getCgroupID _ containers) room

/-- Every mapping is a listed container with the cgroup id found for it and its own index. -/
theorem collectMappings_sound (indices : Indices) (containers : List (GoString × Info))
    (m : ContainerMapping)
    (member : m ∈ (collectMappings pathForContainer getCgroupID indices containers).2) :
    (∃ info, (m.cid, info) ∈ containers ∧
      (pathForContainer m.cid info.pid).bind getCgroupID = some m.cgroupID) ∧
    (collectMappings pathForContainer getCgroupID indices containers).1.idxByCid.lookup m.cid =
      some m.index := by
  induction containers generalizing indices with
  | nil => cases member
  | cons container containers ih =>
    obtain ⟨other, info⟩ := container
    unfold collectMappings at member ⊢
    cases found : (pathForContainer other info.pid).bind getCgroupID with
    | none =>
      simp only [found] at member ⊢
      obtain ⟨⟨listed, inside, located⟩, indexed⟩ := ih indices member
      exact ⟨⟨listed, List.mem_cons_of_mem _ inside, located⟩, indexed⟩
    | some cgid =>
      simp only [found, List.mem_cons] at member ⊢
      rcases member with rfl | member
      · refine ⟨⟨info, .inl rfl, found⟩, ?_⟩
        exact collectMappings_keeps pathForContainer getCgroupID _ containers other _
          (indices.assign_lookup other)
      · obtain ⟨⟨listed, inside, located⟩, indexed⟩ := ih _ member
        exact ⟨⟨listed, .inr inside, located⟩, indexed⟩

/-- The containers of the mappings and their cgroup ids are those that are found, in the order of
the list. -/
theorem collectMappings_located (indices : Indices) (containers : List (GoString × Info)) :
    (collectMappings pathForContainer getCgroupID indices containers).2.map
        (fun m => (m.cid, m.cgroupID)) =
      containers.filterMap fun container =>
        ((pathForContainer container.1 container.2.pid).bind getCgroupID).map
          fun cgid => (container.1, cgid) := by
  induction containers generalizing indices with
  | nil => rfl
  | cons container containers ih =>
    obtain ⟨cid, info⟩ := container
    unfold collectMappings
    cases found : (pathForContainer cid info.pid).bind getCgroupID with
    | none =>
      simp only [List.filterMap_cons, found, Option.map_none]
      exact ih indices
    | some cgid =>
      simp only [List.filterMap_cons, found, Option.map_some, List.map_cons]
      rw [ih]

/-- The containers of the mappings are containers of the list, in its order. -/
theorem collectMappings_cids (indices : Indices) (containers : List (GoString × Info)) :
    ((collectMappings pathForContainer getCgroupID indices containers).2.map
      ContainerMapping.cid).Sublist (containers.map Prod.fst) := by
  induction containers generalizing indices with
  | nil => exact List.Sublist.refl _
  | cons container containers ih =>
    obtain ⟨cid, info⟩ := container
    unfold collectMappings
    cases (pathForContainer cid info.pid).bind getCgroupID with
    | none => exact (ih indices).cons cid
    | some cgid => exact (ih _).cons_cons cid

end Collect

end ContainerAnomaly.Agent
