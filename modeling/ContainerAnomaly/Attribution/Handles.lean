import ContainerAnomaly.Attribution.Agreement
import ContainerAnomaly.Cgroup.Handle

/-!
# Ids from file handles

The ids that the agent writes to `cgid_map` come from the file handles of directories, the ids that
the program looks up from the kernel. They are the same on a kernel that gives out the handles of
kernfs, and the syscalls below the scope of a container are counted there for the container when
they are made in the scope itself, and for no other directory (`counted_by_handle`).
-/

namespace ContainerAnomaly.Attribution

open Lib GoString Bpf Syscalls Agent Container Cgroup

variable {cpus : Nat}

/-- A cgroup v2 hierarchy, its mount point, and a kernel that answers for them. -/
structure Kernfs where
  /-- The directories. -/
  hierarchy : Hierarchy
  /-- The names on the path of the mount point. -/
  mount : List GoString
  /-- The files below the mount point. -/
  cgroupFs : CgroupFs
  /-- The files of processes. -/
  procFs : ProcFs
  /-- `name_to_handle_at`. -/
  nameToHandleAt : NameToHandleAt
  /-- The hierarchy is not mounted at the root. -/
  mounted : mount ≠ []
  /-- The mount point is a path. -/
  valid : ∀ name ∈ mount, ValidName name
  /-- `os.Stat` succeeds on every directory. -/
  stats : ∀ dir cgid, hierarchy.id dir = some cgid → cgroupFs.stat (path (mount ++ dir)) = true
  /-- Paths are C strings. -/
  plain : ∀ dir cgid, hierarchy.id dir = some cgid → 0 ∉ path (mount ++ dir)
  /-- A handle has the type of kernfs, and the id of the directory in its eight bytes. -/
  handles : ∀ dir cgid room, hierarchy.id dir = some cgid → 8 ≤ room.handleBytes →
    ∃ fh, nameToHandleAt (path (mount ++ dir)) room = .ok fh ∧ fh.handleType = 254 ∧
      fh.handleBytes = 8 ∧ fh.fHandle.take 8 = Wire.word64.encode cgid

/-- There, `GetCgroupID` returns the id of the directory it is given. -/
theorem Kernfs.identifies (kernfs : Kernfs) {dir : List GoString} {cgid : UInt64}
    (exist : kernfs.hierarchy.id dir = some cgid) :
    getCgroupID kernfs.nameToHandleAt (path (kernfs.mount ++ dir)) = .ok cgid := by
  obtain ⟨fh, answer, _, eight, starts⟩ := kernfs.handles dir cgid .room exist (by decide)
  refine (getCgroupID_iff _ _ _).mpr ⟨kernfs.plain dir cgid exist, fh, answer, ?_, starts⟩
  rw [eight]
  decide

/-- What the agent can ask of it: a path without an id is skipped, whatever the error is. -/
def Kernfs.host (kernfs : Kernfs) : Host where
  hierarchy := kernfs.hierarchy
  mount := kernfs.mount
  cgroupFs := kernfs.cgroupFs
  procFs := kernfs.procFs
  getCgroupID path := (getCgroupID kernfs.nameToHandleAt path).toOption
  mounted := kernfs.mounted
  valid := kernfs.valid
  stats := kernfs.stats
  identifies dir cgid exist := by rw [kernfs.identifies exist, Except.toOption]

/-- After any run that leaves the map up to date with what `PathForContainer` and `GetCgroupID`
return there, a syscall of a process below the scope of a container is counted under the container's
index exactly when the process is in the scope itself. -/
theorem counted_by_handle (kernfs : Kernfs) (kernel : Kernel) (inputs : List (Input cpus))
    (unwrapped : ((system cpus kernel).final (.initial cpus) inputs).containersSeen ≤ 2 ^ 32)
    (found : Refresh) (answers : kernfs.host.Answers found)
    (upToDate : UpToDate found ((system cpus kernel).final (.initial cpus) inputs))
    (cid : ContainerID) (info : Info) (listed : found.containers.lookup cid.text = some info)
    (index : UInt32)
    (owned : ((system cpus kernel).final (.initial cpus) inputs).indices.idxByCid.lookup cid.text =
      some index)
    (room : ((system cpus kernel).final (.initial cpus) inputs).maps.HasRoom index)
    (below : List GoString) (cgid : UInt64)
    (inside : kernfs.hierarchy.id (scopeDir cid.text ++ below) = some cgid) (cpu : Fin cpus)
    (id : UInt32) :
    let maps := ((system cpus kernel).final (.initial cpus) inputs).maps
    (traceSysEnter kernel.histLayout maps cpu cgid id).slots index =
        Function.update (maps.slots index) cpu ((maps.slots index cpu).count id) ↔
      below = [] := by
  intro maps
  have consistent := consistent_run kernel inputs unwrapped
  have attributes := attributes_iff_in_scope kernfs.host found cid consistent.numbered answers
    upToDate listed owned inside
  exact (attributes_iff_counted kernel.histLayout maps cpu cgid id index room).symm.trans attributes

/-- The handle that kernfs makes of an id. -/
def kernfsHandle (cgid : UInt64) : FileHandle where
  handleBytes := 8
  handleType := 254
  fHandle := Wire.word64.encode cgid ++ List.replicate 120 0
  length := by
    rw [List.length_append, Wire.word64.length_encode, List.length_replicate]
    rfl

/-- A host on which the ids are given out in handles. -/
def Host.kernfs (host : Host)
    (plain : ∀ dir cgid, host.hierarchy.id dir = some cgid → 0 ∉ path (host.mount ++ dir)) :
    Kernfs where
  hierarchy := host.hierarchy
  mount := host.mount
  cgroupFs := host.cgroupFs
  procFs := host.procFs
  nameToHandleAt text room :=
    match host.getCgroupID text with
    | some cgid => if room.handleBytes < 8 then .error 75 else .ok (kernfsHandle cgid)
    | none => .error 2
  mounted := host.mounted
  valid := host.valid
  stats := host.stats
  plain := plain
  handles := by
    intro dir cgid room exist enough
    refine ⟨kernfsHandle cgid, ?_, rfl, rfl, ?_⟩
    · rw [host.identifies dir cgid exist]
      exact if_neg (UInt32.not_lt.mpr enough)
    · exact List.take_left' (Wire.word64.length_encode cgid)

/-- A host with a directory that a container has made in its scope, with handles. -/
def nestedKernfs : Kernfs :=
  nestedHost.kernfs fun dir cgid exist => by
    have plain : ∀ dir ∈ (scopeDir ContainerID.same.text ++ [lit "init.scope"]).inits,
        0 ∉ path (cgroupMount ++ dir) := by decide
    exact plain dir ((List.mem_inits _ _).mpr (Option.ite_none_right_eq_some.mp exist).1)

/-- A call of a process in the scope is counted under the container's index, one of a process in
the other directory is not. -/
theorem counted_by_handle_nested :
    let maps := ((system 1 .plain).final (.initial 1) [.refresh nestedKernfs.host.refreshSame]).maps
    (traceSysEnter Kernel.plain.histLayout maps 0 3 0).slots 0 =
        Function.update (maps.slots 0) 0 ((maps.slots 0 0).count 0) ∧
      (traceSysEnter Kernel.plain.histLayout maps 0 4 0).slots 0 ≠
        Function.update (maps.slots 0) 0 ((maps.slots 0 0).count 0) := by
  have exist : nestedHost.hierarchy.id (scopeDir ContainerID.same.text) = some 3 := rfl
  have inside : nestedHost.hierarchy.id (scopeDir ContainerID.same.text ++ []) = some 3 := by
    rw [List.append_nil]
    exact exist
  have counted := counted_by_handle nestedKernfs .plain [.refresh nestedKernfs.host.refreshSame]
    (nestedKernfs.host.refreshSame_unwrapped exist) nestedKernfs.host.refreshSame ⟨rfl, rfl⟩
    (nestedKernfs.host.refreshSame_upToDate exist) ContainerID.same _
    nestedKernfs.host.refreshSame_listed 0 (nestedKernfs.host.refreshSame_owned exist) (by decide)
  constructor
  · exact (counted [] 3 inside 0 0).mpr rfl
  · intro below
    exact absurd ((counted _ 4 nestedHost_runs.inside 0 0).mp below) (List.cons_ne_nil _ _)

end ContainerAnomaly.Attribution
