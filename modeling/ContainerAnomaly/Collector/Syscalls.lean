import ContainerAnomaly.Bpf.SyscallTrace
import ContainerAnomaly.Lib.DeltaPoll
import ContainerAnomaly.Lib.GoString
import Mathlib.Algebra.BigOperators.Fin

/-!
# The syscall collector

`pkg/collector/syscalls/collector.go`. `updateContainers` rewrites the kernel's cgroup map from
the agent's list of mappings and then replaces its own table of container ids; `pollOnce` reads
every histogram, subtracts what it saw last, and emits a row for each index with new syscalls.
The specification of a poll is `pollOnce_rows` and `pollOnce_prevSeen`.
-/

namespace ContainerAnomaly.Syscalls

open Lib Bpf

/-- `Counts`, the delta histogram of one container. -/
structure Counts where
  /-- All calls. -/
  total : UInt64 := 0
  /-- `open`, `openat` and `openat2`. -/
  fileOpen : UInt64 := 0
  /-- `close`. -/
  fileClose : UInt64 := 0
  /-- `read` and `pread64`. -/
  fileRead : UInt64 := 0
  /-- `write` and `pwrite64`. -/
  fileWrite : UInt64 := 0
  /-- `unlink` and `unlinkat`. -/
  fileUnlink : UInt64 := 0
  /-- `rename`, `renameat` and `renameat2`. -/
  fileRename : UInt64 := 0
  /-- The calls that change the mode or the owner of a file. -/
  filePerm : UInt64 := 0
  /-- `socket`. -/
  netSocket : UInt64 := 0
  /-- `connect`. -/
  netConnect : UInt64 := 0
  /-- `bind`. -/
  netBind : UInt64 := 0
  /-- `listen`. -/
  netListen : UInt64 := 0
  /-- `accept` and `accept4`. -/
  netAccept : UInt64 := 0
  /-- `sendto` and `sendmsg`. -/
  netSend : UInt64 := 0
  /-- `recvfrom` and `recvmsg`. -/
  netRecv : UInt64 := 0
  /-- `execve` and `execveat`. -/
  procExec : UInt64 := 0
  /-- `fork`, `vfork`, `clone` and `clone3`. -/
  procFork : UInt64 := 0
  /-- `kill`. -/
  procKill : UInt64 := 0
  /-- `ptrace`, `capset` and the calls that set the user or the group. -/
  privEscalate : UInt64 := 0
  /-- The calls of `NR_mount`, `NR_umount2`, `NR_unshare`, `NR_setns` and `NR_bpf`. -/
  escapeAttempt : UInt64 := 0
  /-- `mmap`, `mprotect` and `brk`. -/
  memLayout : UInt64 := 0
  /-- All other calls. -/
  other : UInt64 := 0
deriving DecidableEq

/-- The value of one counter of a delta histogram. -/
def Counts.get (counts : Counts) : Field → UInt64
  | .total => counts.total
  | .fileOpen => counts.fileOpen
  | .fileClose => counts.fileClose
  | .fileRead => counts.fileRead
  | .fileWrite => counts.fileWrite
  | .fileUnlink => counts.fileUnlink
  | .fileRename => counts.fileRename
  | .filePerm => counts.filePerm
  | .netSocket => counts.netSocket
  | .netConnect => counts.netConnect
  | .netBind => counts.netBind
  | .netListen => counts.netListen
  | .netAccept => counts.netAccept
  | .netSend => counts.netSend
  | .netRecv => counts.netRecv
  | .procExec => counts.procExec
  | .procFork => counts.procFork
  | .procKill => counts.procKill
  | .privEscalate => counts.privEscalate
  | .escapeAttempt => counts.escapeAttempt
  | .memLayout => counts.memLayout
  | .other => counts.other

/-- `Row`. -/
structure Row where
  /-- The container, empty for the host. -/
  containerID : GoString
  /-- Its calls since the last poll. -/
  counts : Counts
deriving DecidableEq

/-- `ContainerMapping`. -/
structure ContainerMapping where
  /-- The cgroup of the container. -/
  cgroupID : UInt64
  /-- Its index. -/
  index : UInt32
  /-- Its id. -/
  cid : GoString
deriving DecidableEq

/-- The state a collector keeps between calls. -/
structure Collector where
  /-- `idxToCid`: container index to container id. -/
  idxToCid : GoMap UInt32 GoString
  /-- `prevSeen`: totals of each index at the last poll. -/
  prevSeen : GoMap UInt32 SyscallCounts

/-- The state `New` sets up. -/
def Collector.new : Collector := ⟨∅, ∅⟩

/-- The error of a `Put` that failed, with the cgroup id its text names. -/
structure PutError where
  /-- The cgroup that has not been mapped. -/
  cgroupID : UInt64
deriving DecidableEq

/-- The loop that writes the mappings: the kernel map and `newIdx` after it, and the error it
returned on. A `Put` fails when the map is full, or for a reason of its own (`refuses`, by
position in the list). -/
def putMappings (layout : Layout UInt64) (refuses : Nat → Bool) :
    Nat → List ContainerMapping → HashTable UInt64 UInt32 1024 → GoMap UInt32 GoString →
      HashTable UInt64 UInt32 1024 × GoMap UInt32 GoString × Option PutError
  | _, [], table, newIdx => (table, newIdx, none)
  | position, m :: mappings, table, newIdx =>
    if refuses position then (table, newIdx, some ⟨m.cgroupID⟩)
    else
      match table.put layout m.cgroupID m.index with
      | none => (table, newIdx, some ⟨m.cgroupID⟩)
      | some table =>
        putMappings layout refuses (position + 1) mappings table (newIdx.insert m.index m.cid)

/-- `UpdateContainers`: on an error the entries written so far stay and `idxToCid` is kept;
otherwise entries of an index that is not in the list are deleted while walking the map, and
`idxToCid` is replaced. The walk gives up after `budget` keys. -/
def updateContainers (layout : Layout UInt64) (budget : Nat) (refuses : Nat → Bool)
    (table : HashTable UInt64 UInt32 1024) (collector : Collector)
    (mappings : List ContainerMapping) :
    HashTable UInt64 UInt32 1024 × Collector × Option PutError :=
  match putMappings layout refuses 0 mappings table ∅ with
  | (table, _, some error) => (table, collector, some error)
  | (table, newIdx, none) =>
    (table.purge (fun index => index ∉ newIdx) budget, { collector with idxToCid := newIdx },
      none)

/-- The additions of one CPU's slot to the running sum. -/
def addSlot (sum v : SyscallCounts) : SyscallCounts where
  total := sum.total + v.total
  fileOpen := sum.fileOpen + v.fileOpen
  fileClose := sum.fileClose + v.fileClose
  fileRead := sum.fileRead + v.fileRead
  fileWrite := sum.fileWrite + v.fileWrite
  fileUnlink := sum.fileUnlink + v.fileUnlink
  fileRename := sum.fileRename + v.fileRename
  filePerm := sum.filePerm + v.filePerm
  netSocket := sum.netSocket + v.netSocket
  netConnect := sum.netConnect + v.netConnect
  netBind := sum.netBind + v.netBind
  netListen := sum.netListen + v.netListen
  netAccept := sum.netAccept + v.netAccept
  netSend := sum.netSend + v.netSend
  netRecv := sum.netRecv + v.netRecv
  procExec := sum.procExec + v.procExec
  procFork := sum.procFork + v.procFork
  procKill := sum.procKill + v.procKill
  privEscalate := sum.privEscalate + v.privEscalate
  escapeAttempt := sum.escapeAttempt + v.escapeAttempt
  memLayout := sum.memLayout + v.memLayout
  other := sum.other + v.other

/-- The sum over the per-CPU slice. -/
def sumPerCpu {cpus : Nat} (perCPU : PerCpu cpus SyscallCounts) : SyscallCounts :=
  (List.ofFn perCPU).foldl addSlot {}

/-- `safe`. -/
def safe (a b : UInt64) : UInt64 := if a ≥ b then a - b else 0

/-- `subtract`. -/
def subtract (total prev : SyscallCounts) : Counts where
  total := safe total.total prev.total
  fileOpen := safe total.fileOpen prev.fileOpen
  fileClose := safe total.fileClose prev.fileClose
  fileRead := safe total.fileRead prev.fileRead
  fileWrite := safe total.fileWrite prev.fileWrite
  fileUnlink := safe total.fileUnlink prev.fileUnlink
  fileRename := safe total.fileRename prev.fileRename
  filePerm := safe total.filePerm prev.filePerm
  netSocket := safe total.netSocket prev.netSocket
  netConnect := safe total.netConnect prev.netConnect
  netBind := safe total.netBind prev.netBind
  netListen := safe total.netListen prev.netListen
  netAccept := safe total.netAccept prev.netAccept
  netSend := safe total.netSend prev.netSend
  netRecv := safe total.netRecv prev.netRecv
  procExec := safe total.procExec prev.procExec
  procFork := safe total.procFork prev.procFork
  procKill := safe total.procKill prev.procKill
  privEscalate := safe total.privEscalate prev.privEscalate
  escapeAttempt := safe total.escapeAttempt prev.escapeAttempt
  memLayout := safe total.memLayout prev.memLayout
  other := safe total.other prev.other

/-- The map `current` read from the entries an iteration returned. -/
def readCurrent {cpus : Nat} (visited : List (UInt32 × PerCpu cpus SyscallCounts)) :
    GoMap UInt32 SyscallCounts :=
  visited.foldl (fun current entry => current.insert entry.1 (sumPerCpu entry.2)) ∅

/-- One round of the emitting loop. The index is kept beside the row it produced. -/
def emit (idxToCid : GoMap UInt32 GoString)
    (state : GoMap UInt32 SyscallCounts × List (UInt32 × Row)) (entry : UInt32 × SyscallCounts) :
    GoMap UInt32 SyscallCounts × List (UInt32 × Row) :=
  let prev := GoMap.getD state.1 entry.1 {}
  let prevSeen := state.1.insert entry.1 entry.2
  let delta := subtract entry.2 prev
  if delta.total = 0 then (prevSeen, state.2)
  else (prevSeen, state.2 ++ [(entry.1, ⟨GoMap.getD idxToCid entry.1 [], delta⟩)])

/-- `pollOnce` on the entries its iteration returned: evict the indices that were not returned,
then emit a delta for each that was. -/
def pollVisited {cpus : Nat} (order : RangeOrder UInt32 SyscallCounts)
    (visited : List (UInt32 × PerCpu cpus SyscallCounts)) (collector : Collector) :
    Collector × List (UInt32 × Row) :=
  let current := readCurrent visited
  let kept := collector.prevSeen.retain (· ∈ current)
  let (prevSeen, rows) := (current.range order).foldl (emit collector.idxToCid) (kept, [])
  ({ collector with prevSeen }, rows)

/-- `pollOnce`: the iteration is not interrupted and deletes nothing. -/
def pollOnce {cpus : Nat} (order : RangeOrder UInt32 SyscallCounts) (maps : SyscallMaps cpus)
    (collector : Collector) : Collector × List (UInt32 × Row) :=
  pollVisited order (maps.syscallsByCgid.visited 256) collector

/-- The rows of the snapshot. -/
def snapshotRows (rows : List (UInt32 × Row)) : List Row := rows.map Prod.snd

/-- Adding a slot adds every counter. -/
@[simp] theorem get_addSlot (sum v : SyscallCounts) (field : Field) :
    (addSlot sum v).get field = sum.get field + v.get field := by
  cases field <;> rfl

/-- Subtraction is `safe` on every counter. -/
@[simp] theorem get_subtract (total prev : SyscallCounts) (field : Field) :
    (subtract total prev).get field = safe (total.get field) (prev.get field) := by
  cases field <;> rfl

/-- Each counter of the sum is the sum of that counter over the CPUs. -/
theorem get_sumPerCpu {cpus : Nat} (perCPU : PerCpu cpus SyscallCounts) (field : Field) :
    (sumPerCpu perCPU).get field = ∑ cpu, (perCPU cpu).get field := by
  have running (slots : List SyscallCounts) (sum : SyscallCounts) :
      (slots.foldl addSlot sum).get field =
        sum.get field + (slots.map fun slot => slot.get field).sum := by
    induction slots generalizing sum with
    | nil => simp
    | cons slot slots ih =>
      rw [List.foldl_cons, ih, get_addSlot, List.map_cons, List.sum_cons, add_assoc]
  rw [sumPerCpu, running, SyscallCounts.get_zero, zero_add, List.map_ofFn, List.sum_ofFn]
  rfl

/-- Changing the slot of one CPU changes the sums by the difference. -/
theorem get_sumPerCpu_update {cpus : Nat} (perCPU : PerCpu cpus SyscallCounts) (cpu : Fin cpus)
    (slot : SyscallCounts) (field : Field) :
    (sumPerCpu (Function.update perCPU cpu slot)).get field =
      (sumPerCpu perCPU).get field + (slot.get field - (perCPU cpu).get field) := by
  rw [get_sumPerCpu, get_sumPerCpu]
  have pointwise : (fun other => (Function.update perCPU cpu slot other).get field) =
      fun other => (perCPU other).get field +
        if other = cpu then slot.get field - (perCPU cpu).get field else 0 := by
    funext other
    by_cases same : other = cpu
    · subst same
      simp
    · simp [same]
  rw [pointwise, Finset.sum_add_distrib, Finset.sum_ite_eq' Finset.univ cpu]
  simp

/-- Counting a syscall on one CPU adds one to the sums of its counters. -/
theorem get_sumPerCpu_count {cpus : Nat} (perCPU : PerCpu cpus SyscallCounts) (cpu : Fin cpus)
    (id : UInt32) (field : Field) :
    (sumPerCpu (Function.update perCPU cpu ((perCPU cpu).count id))).get field =
      (sumPerCpu perCPU).get field + if field.counts id then 1 else 0 := by
  rw [get_sumPerCpu_update, SyscallCounts.get_count, add_sub_cancel_left]

/-- One increment on one CPU adds one to the sum of its counter. -/
theorem get_sumPerCpu_bump {cpus : Nat} (perCPU : PerCpu cpus SyscallCounts) (cpu : Fin cpus)
    (target field : Field) :
    (sumPerCpu (Function.update perCPU cpu ((perCPU cpu).bump target))).get field =
      (sumPerCpu perCPU).get field + if field = target then 1 else 0 := by
  rw [get_sumPerCpu_update, SyscallCounts.get_bump, add_sub_cancel_left]

/-- The row a poll emits for an index, from the counters before and now. -/
def deltaRow (idxToCid : GoMap UInt32 GoString) (index : UInt32) (prev now : SyscallCounts) :
    Option (UInt32 × Row) :=
  let delta := subtract now prev
  if delta.total = 0 then none else some (index, ⟨GoMap.getD idxToCid index [], delta⟩)

/-- A delta row carries the index it was made for. -/
theorem deltaRow_index (idxToCid : GoMap UInt32 GoString) (index : UInt32)
    (prev now : SyscallCounts) (row : UInt32 × Row)
    (made : deltaRow idxToCid index prev now = some row) : row.1 = index := by
  simp only [deltaRow] at made
  split at made
  · cases made
  · obtain rfl := Option.some.inj made
    rfl

section Complete

variable {cpus : Nat} (order : RangeOrder UInt32 SyscallCounts) (maps : SyscallMaps cpus)
  (collector : Collector)

/-- The loop of a poll is the reporting loop of a difference poll. -/
theorem pollVisited_eq (visited : List (UInt32 × PerCpu cpus SyscallCounts)) :
    pollVisited order visited collector =
      let result := DeltaPoll.poll order sumPerCpu {} (deltaRow collector.idxToCid) visited
        collector.prevSeen
      ({ collector with prevSeen := result.1 }, result.2) := by
  have rounds : emit collector.idxToCid = DeltaPoll.report {} (deltaRow collector.idxToCid) := by
    funext state entry
    simp only [emit, DeltaPoll.report, deltaRow]
    split <;> simp
  rw [pollVisited, rounds]
  rfl

/-- The iteration of an uninterrupted poll returns every entry. -/
theorem visited_all : maps.syscallsByCgid.visited 256 = maps.syscallsByCgid.entries :=
  maps.syscallsByCgid.visited_eq maps.syscallsByCgid.bounded

/-- What an uninterrupted poll emits for one index: its delta row, or nothing. -/
theorem pollOnce_rows (index : UInt32) :
    (pollOnce order maps collector).2.filter (fun row => row.1 = index) =
      ((maps.syscallsByCgid.lookup index).bind fun slots =>
        deltaRow collector.idxToCid index (GoMap.getD collector.prevSeen index {})
          (sumPerCpu slots)).toList := by
  rw [pollOnce, visited_all, pollVisited_eq]
  have rows := DeltaPoll.poll_rows_of_key order sumPerCpu {} (deltaRow collector.idxToCid)
    maps.syscallsByCgid.entries maps.syscallsByCgid.distinct collector.prevSeen Prod.fst
    (deltaRow_index collector.idxToCid) index
  rw [HashTable.lookup, Option.bind_map]
  exact rows

/-- Every row of an uninterrupted poll is named by the table of container ids. -/
theorem pollOnce_containerID (row : UInt32 × Row)
    (emitted : row ∈ (pollOnce order maps collector).2) :
    row.2.containerID = GoMap.getD collector.idxToCid row.1 [] := by
  have own : row ∈ (pollOnce order maps collector).2.filter fun other => other.1 = row.1 :=
    List.mem_filter.mpr ⟨emitted, by simp⟩
  rw [pollOnce_rows, Option.mem_toList, Option.bind_eq_some_iff] at own
  obtain ⟨slots, _, made⟩ := own
  simp only [deltaRow] at made
  split at made
  · cases made
  · rw [← Option.some.inj made]

/-- An uninterrupted poll remembers the sums of every entry. -/
theorem pollOnce_prevSeen (index : UInt32) :
    (pollOnce order maps collector).1.prevSeen.lookup index =
      (maps.syscallsByCgid.lookup index).map sumPerCpu := by
  apply Option.ext
  intro sum
  have remembered := DeltaPoll.poll_seen order sumPerCpu {} (deltaRow collector.idxToCid)
    maps.syscallsByCgid.entries maps.syscallsByCgid.distinct collector.prevSeen index sum
  rw [pollOnce, visited_all, pollVisited_eq, Option.map_eq_some_iff]
  simp only [HashTable.lookup_eq_some_iff]
  exact remembered

end Complete

/-- The writing loop leaves entries that were there or that it was told to write. -/
theorem putMappings_entries (layout : Layout UInt64) (refuses : Nat → Bool) (position : Nat)
    (mappings : List ContainerMapping) (table : HashTable UInt64 UInt32 1024)
    (newIdx : GoMap UInt32 GoString) (entry : UInt64 × UInt32)
    (inside : entry ∈ (putMappings layout refuses position mappings table newIdx).1.entries) :
    entry ∈ table.entries ∨ ∃ m ∈ mappings, entry = (m.cgroupID, m.index) := by
  induction mappings generalizing position table newIdx with
  | nil => exact .inl inside
  | cons m mappings ih =>
    unfold putMappings at inside
    split at inside
    · exact .inl inside
    · cases stored : table.put layout m.cgroupID m.index with
      | none =>
        simp only [stored] at inside
        exact .inl inside
      | some next =>
        simp only [stored] at inside
        rcases ih _ _ _ inside with here | ⟨other, member, same⟩
        · rcases (HashTable.mem_put stored entry).mp here with same | kept
          · exact .inr ⟨m, List.mem_cons_self, same⟩
          · exact .inl kept.1
        · exact .inr ⟨other, List.mem_cons_of_mem m member, same⟩

/-- When every `Put` succeeded, `newIdx` names the mappings and nothing else is added. -/
theorem putMappings_newIdx (layout : Layout UInt64) (refuses : Nat → Bool) (position : Nat)
    (mappings : List ContainerMapping) (table : HashTable UInt64 UInt32 1024)
    (newIdx : GoMap UInt32 GoString)
    (succeeded : (putMappings layout refuses position mappings table newIdx).2.2 = none)
    (index : UInt32) :
    let result := (putMappings layout refuses position mappings table newIdx).2.1
    (∀ cid, result.lookup index = some cid → newIdx.lookup index = some cid ∨
      ∃ m ∈ mappings, m.index = index ∧ m.cid = cid) ∧
    (index ∈ result ↔ index ∈ newIdx ∨ ∃ m ∈ mappings, m.index = index) := by
  induction mappings generalizing position table newIdx with
  | nil => exact ⟨fun _ found => .inl found, by simp [putMappings]⟩
  | cons m mappings ih =>
    unfold putMappings at succeeded ⊢
    split at succeeded
    · cases succeeded
    · rename_i accepted
      rw [if_neg accepted]
      cases stored : table.put layout m.cgroupID m.index with
      | none =>
        simp only [stored] at succeeded
        cases succeeded
      | some next =>
        simp only [stored] at succeeded ⊢
        obtain ⟨named, present⟩ := ih _ _ _ succeeded
        refine ⟨fun cid found => ?_, ?_⟩
        · rcases named cid found with here | ⟨other, member, same⟩
          · by_cases target : index = m.index
            · subst target
              rw [AList.lookup_insert] at here
              exact .inr ⟨m, List.mem_cons_self, rfl, Option.some.inj here⟩
            · rw [AList.lookup_insert_ne target] at here
              exact .inl here
          · exact .inr ⟨other, List.mem_cons_of_mem m member, same⟩
        · rw [present, AList.mem_insert, List.exists_mem_cons_iff, or_assoc,
            or_left_comm, @eq_comm _ index]

/-- The writing loop adds at most one entry for each mapping. -/
theorem putMappings_length (layout : Layout UInt64) (refuses : Nat → Bool) (position : Nat)
    (mappings : List ContainerMapping) (table : HashTable UInt64 UInt32 1024)
    (newIdx : GoMap UInt32 GoString) :
    (putMappings layout refuses position mappings table newIdx).1.entries.length ≤
      table.entries.length + mappings.length := by
  induction mappings generalizing position table newIdx with
  | nil => exact Nat.le_refl _
  | cons m mappings ih =>
    unfold putMappings
    by_cases refused : refuses position
    · rw [if_pos refused]
      exact Nat.le_add_right _ _
    · rw [if_neg refused]
      cases stored : table.put layout m.cgroupID m.index with
      | none => exact Nat.le_add_right _ _
      | some next =>
        have grown := HashTable.length_put_le stored
        have rest := ih (position + 1) next (newIdx.insert m.index m.cid)
        rw [List.length_cons]
        dsimp only
        omega

/-- The writing loop succeeds when no `Put` fails by itself and the map has room. -/
theorem putMappings_succeeds (layout : Layout UInt64) {refuses : Nat → Bool}
    (accepts : ∀ position, refuses position = false) (position : Nat)
    (mappings : List ContainerMapping) (table : HashTable UInt64 UInt32 1024)
    (newIdx : GoMap UInt32 GoString)
    (room : table.entries.length + mappings.length ≤ 1024) :
    (putMappings layout refuses position mappings table newIdx).2.2 = none := by
  induction mappings generalizing position table newIdx with
  | nil => rfl
  | cons m mappings ih =>
    rw [List.length_cons] at room
    have fits := (HashTable.put_isSome_iff layout table m.cgroupID m.index).mpr
      (.inr (by omega))
    obtain ⟨next, stored⟩ := Option.isSome_iff_exists.mp fits
    have grown := HashTable.length_put_le stored
    unfold putMappings
    rw [if_neg (by simp [accepts]), stored]
    exact ih (position + 1) next (newIdx.insert m.index m.cid) (by omega)

section Update

variable (layout : Layout UInt64) (budget : Nat) (refuses : Nat → Bool)
  (table : HashTable UInt64 UInt32 1024) (collector : Collector)
  (mappings : List ContainerMapping)

/-- What a call of `UpdateContainers` can do: on an error the table of container ids stays, on
success it names exactly the mappings; entries of the kernel map come from the mappings or were
there; nothing that was seen by a poll is touched. -/
theorem updateContainers_cases :
    let result := updateContainers layout budget refuses table collector mappings
    (∀ entry ∈ result.1.entries,
      entry ∈ table.entries ∨ ∃ m ∈ mappings, entry = (m.cgroupID, m.index)) ∧
    result.2.1.prevSeen = collector.prevSeen ∧
    ((∃ error, result.2.2 = some error) ∧ result.2.1.idxToCid = collector.idxToCid ∨
      result.2.2 = none ∧ ∀ index cid, result.2.1.idxToCid.lookup index = some cid →
        ∃ m ∈ mappings, m.index = index ∧ m.cid = cid) := by
  have written := putMappings_entries layout refuses 0 mappings table ∅
  have named := putMappings_newIdx layout refuses 0 mappings table ∅
  unfold updateContainers
  generalize putMappings layout refuses 0 mappings table ∅ = result at written named
  obtain ⟨next, newIdx, outcome⟩ := result
  cases outcome with
  | some error => exact ⟨written, rfl, .inl ⟨⟨error, rfl⟩, rfl⟩⟩
  | none =>
    refine ⟨fun entry inside => written entry (HashTable.mem_of_mem_purge inside), rfl,
      .inr ⟨rfl, fun index cid found => ?_⟩⟩
    exact ((named rfl index).1 cid found).resolve_left (by simp)

/-- A call succeeds when no `Put` fails by itself and the map has room. -/
theorem updateContainers_succeeds (accepts : ∀ position, refuses position = false)
    (room : table.entries.length + mappings.length ≤ 1024) :
    (updateContainers layout budget refuses table collector mappings).2.2 = none := by
  have succeeded := putMappings_succeeds layout accepts 0 mappings table ∅ room
  unfold updateContainers
  generalize putMappings layout refuses 0 mappings table ∅ = result at succeeded
  obtain ⟨next, newIdx, outcome⟩ := result
  cases outcome with
  | some error => cases succeeded
  | none => rfl

end Update

end ContainerAnomaly.Syscalls
