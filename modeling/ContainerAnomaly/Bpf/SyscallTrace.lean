import ContainerAnomaly.Lib.HashTable
import Mathlib.Data.UInt

/-!
# The syscall histogram program

`bpf/syscall_trace.bpf.c`. The program runs at every syscall entry: it maps the cgroup of the
task to a container index, finds or creates the histogram of that index, and increments the
total and one bucket in the slot of its own CPU. `traceSysEnter_cases` says once what an
execution can do; nothing later unfolds the program.
-/

namespace ContainerAnomaly.Bpf

open Lib

/-- One value for each CPU, the value type of a `BPF_MAP_TYPE_PERCPU_HASH`. -/
abbrev PerCpu (cpus : Nat) (ν : Type) := Fin cpus → ν

def nrRead : UInt32 := 0
def nrWrite : UInt32 := 1
def nrOpen : UInt32 := 2
def nrClose : UInt32 := 3
def nrPread64 : UInt32 := 17
def nrPwrite64 : UInt32 := 18
def nrSocket : UInt32 := 41
def nrConnect : UInt32 := 42
def nrAccept : UInt32 := 43
def nrSendto : UInt32 := 44
def nrRecvfrom : UInt32 := 45
def nrSendmsg : UInt32 := 46
def nrRecvmsg : UInt32 := 47
def nrBind : UInt32 := 49
def nrListen : UInt32 := 50
def nrAccept4 : UInt32 := 288
def nrClone : UInt32 := 56
def nrFork : UInt32 := 57
def nrVfork : UInt32 := 58
def nrExecve : UInt32 := 59
def nrKill : UInt32 := 62
def nrPtrace : UInt32 := 101
def nrSetuid : UInt32 := 105
def nrSetgid : UInt32 := 106
def nrSetreuid : UInt32 := 113
def nrSetregid : UInt32 := 114
def nrCapset : UInt32 := 126
def nrUnlink : UInt32 := 87
def nrRename : UInt32 := 82
def nrChmod : UInt32 := 90
def nrFchmod : UInt32 := 91
def nrChown : UInt32 := 92
def nrFchown : UInt32 := 93
def nrLchown : UInt32 := 94
def nrMount : UInt32 := 165
def nrUmount2 : UInt32 := 166
def nrUnshare : UInt32 := 310
def nrSetns : UInt32 := 308
def nrOpenat : UInt32 := 257
def nrBpf : UInt32 := 321
def nrExecveat : UInt32 := 322
def nrUnlinkat : UInt32 := 263
def nrRenameat : UInt32 := 264
def nrRenameat2 : UInt32 := 316
def nrFchmodat : UInt32 := 268
def nrFchownat : UInt32 := 260
def nrClone3 : UInt32 := 435
def nrOpenat2 : UInt32 := 437
def nrMmap : UInt32 := 9
def nrMprotect : UInt32 := 10
def nrBrk : UInt32 := 12

/-- `struct syscall_counts`. -/
structure SyscallCounts where
  /-- All calls. -/
  total : UInt64 := 0
  /-- `open`, `openat` and `openat2`. -/
  fileOpen : UInt64 := 0
  /-- `close`. -/
  fileClose : UInt64 := 0
  /-- `read` and `pread64`. -/
  fileRead : UInt64 := 0
  /-- `write` and `pwrite64`. -/
  fileWrite : UInt64 := 0
  /-- `unlink` and `unlinkat`. -/
  fileUnlink : UInt64 := 0
  /-- `rename`, `renameat` and `renameat2`. -/
  fileRename : UInt64 := 0
  /-- The calls that change the mode or the owner of a file. -/
  filePerm : UInt64 := 0
  /-- `socket`. -/
  netSocket : UInt64 := 0
  /-- `connect`. -/
  netConnect : UInt64 := 0
  /-- `bind`. -/
  netBind : UInt64 := 0
  /-- `listen`. -/
  netListen : UInt64 := 0
  /-- `accept` and `accept4`. -/
  netAccept : UInt64 := 0
  /-- `sendto` and `sendmsg`. -/
  netSend : UInt64 := 0
  /-- `recvfrom` and `recvmsg`. -/
  netRecv : UInt64 := 0
  /-- `execve` and `execveat`. -/
  procExec : UInt64 := 0
  /-- `fork`, `vfork`, `clone` and `clone3`. -/
  procFork : UInt64 := 0
  /-- `kill`. -/
  procKill : UInt64 := 0
  /-- `ptrace`, `capset` and the calls that set the user or the group. -/
  privEscalate : UInt64 := 0
  /-- The calls of `NR_mount`, `NR_umount2`, `NR_unshare`, `NR_setns` and `NR_bpf`. -/
  escapeAttempt : UInt64 := 0
  /-- `mmap`, `mprotect` and `brk`. -/
  memLayout : UInt64 := 0
  /-- All other calls. -/
  other : UInt64 := 0
deriving DecidableEq

/-- The counters of a histogram, by name. -/
inductive Field where
  | total | fileOpen | fileClose | fileRead | fileWrite | fileUnlink
  | fileRename | filePerm | netSocket | netConnect | netBind | netListen
  | netAccept | netSend | netRecv | procExec | procFork | procKill
  | privEscalate | escapeAttempt | memLayout | other
deriving DecidableEq

/-- The counters of which every syscall increments one. -/
def buckets : List Field :=
  [.fileOpen, .fileClose, .fileRead, .fileWrite, .fileUnlink, .fileRename, .filePerm, .netSocket,
    .netConnect, .netBind, .netListen, .netAccept, .netSend, .netRecv, .procExec, .procFork,
    .procKill, .privEscalate, .escapeAttempt, .memLayout, .other]

/-- Every counter but the total is a bucket. -/
theorem mem_buckets {field : Field} (part : field ≠ .total) : field ∈ buckets := by
  cases field with
  | total => exact absurd rfl part
  | _ => decide

namespace SyscallCounts

/-- The value of one counter. -/
def get (counts : SyscallCounts) : Field → UInt64
  | .total => counts.total
  | .fileOpen => counts.fileOpen
  | .fileClose => counts.fileClose
  | .fileRead => counts.fileRead
  | .fileWrite => counts.fileWrite
  | .fileUnlink => counts.fileUnlink
  | .fileRename => counts.fileRename
  | .filePerm => counts.filePerm
  | .netSocket => counts.netSocket
  | .netConnect => counts.netConnect
  | .netBind => counts.netBind
  | .netListen => counts.netListen
  | .netAccept => counts.netAccept
  | .netSend => counts.netSend
  | .netRecv => counts.netRecv
  | .procExec => counts.procExec
  | .procFork => counts.procFork
  | .procKill => counts.procKill
  | .privEscalate => counts.privEscalate
  | .escapeAttempt => counts.escapeAttempt
  | .memLayout => counts.memLayout
  | .other => counts.other

/-- `c->field++` on one counter. -/
def bump (counts : SyscallCounts) : Field → SyscallCounts
  | .total => { counts with total := counts.total + 1 }
  | .fileOpen => { counts with fileOpen := counts.fileOpen + 1 }
  | .fileClose => { counts with fileClose := counts.fileClose + 1 }
  | .fileRead => { counts with fileRead := counts.fileRead + 1 }
  | .fileWrite => { counts with fileWrite := counts.fileWrite + 1 }
  | .fileUnlink => { counts with fileUnlink := counts.fileUnlink + 1 }
  | .fileRename => { counts with fileRename := counts.fileRename + 1 }
  | .filePerm => { counts with filePerm := counts.filePerm + 1 }
  | .netSocket => { counts with netSocket := counts.netSocket + 1 }
  | .netConnect => { counts with netConnect := counts.netConnect + 1 }
  | .netBind => { counts with netBind := counts.netBind + 1 }
  | .netListen => { counts with netListen := counts.netListen + 1 }
  | .netAccept => { counts with netAccept := counts.netAccept + 1 }
  | .netSend => { counts with netSend := counts.netSend + 1 }
  | .netRecv => { counts with netRecv := counts.netRecv + 1 }
  | .procExec => { counts with procExec := counts.procExec + 1 }
  | .procFork => { counts with procFork := counts.procFork + 1 }
  | .procKill => { counts with procKill := counts.procKill + 1 }
  | .privEscalate => { counts with privEscalate := counts.privEscalate + 1 }
  | .escapeAttempt => { counts with escapeAttempt := counts.escapeAttempt + 1 }
  | .memLayout => { counts with memLayout := counts.memLayout + 1 }
  | .other => { counts with other := counts.other + 1 }

/-- Histograms are equal when every counter is. -/
theorem ext_get {left right : SyscallCounts} (same : ∀ field, left.get field = right.get field) :
    left = right := by
  cases left
  cases right
  congr 1
  · exact same .total
  · exact same .fileOpen
  · exact same .fileClose
  · exact same .fileRead
  · exact same .fileWrite
  · exact same .fileUnlink
  · exact same .fileRename
  · exact same .filePerm
  · exact same .netSocket
  · exact same .netConnect
  · exact same .netBind
  · exact same .netListen
  · exact same .netAccept
  · exact same .netSend
  · exact same .netRecv
  · exact same .procExec
  · exact same .procFork
  · exact same .procKill
  · exact same .privEscalate
  · exact same .escapeAttempt
  · exact same .memLayout
  · exact same .other

/-- A fresh histogram is all zero. -/
@[simp] theorem get_zero (field : Field) : (get {} field) = 0 := by
  cases field <;> rfl

/-- An increment is seen in its own counter only. -/
theorem get_bump (counts : SyscallCounts) (target field : Field) :
    (counts.bump target).get field = counts.get field + if field = target then 1 else 0 := by
  cases target <;> cases field <;> simp [get, bump]

end SyscallCounts

/-- The case labels of `switch (id)`, arm by arm; every other syscall takes the default arm. -/
def switchArms : List (Field × List UInt32) := [
  (.fileOpen, [nrOpen, nrOpenat, nrOpenat2]),
  (.fileClose, [nrClose]),
  (.fileRead, [nrRead, nrPread64]),
  (.fileWrite, [nrWrite, nrPwrite64]),
  (.fileUnlink, [nrUnlink, nrUnlinkat]),
  (.fileRename, [nrRename, nrRenameat, nrRenameat2]),
  (.filePerm, [nrChmod, nrFchmod, nrFchmodat, nrChown, nrFchown, nrLchown, nrFchownat]),
  (.netSocket, [nrSocket]),
  (.netConnect, [nrConnect]),
  (.netBind, [nrBind]),
  (.netListen, [nrListen]),
  (.netAccept, [nrAccept, nrAccept4]),
  (.netSend, [nrSendto, nrSendmsg]),
  (.netRecv, [nrRecvfrom, nrRecvmsg]),
  (.procExec, [nrExecve, nrExecveat]),
  (.procFork, [nrFork, nrVfork, nrClone, nrClone3]),
  (.procKill, [nrKill]),
  (.privEscalate, [nrPtrace, nrSetuid, nrSetgid, nrSetreuid, nrSetregid, nrCapset]),
  (.escapeAttempt, [nrMount, nrUmount2, nrUnshare, nrSetns, nrBpf]),
  (.memLayout, [nrMmap, nrMprotect, nrBrk])]

/-- The bucket that counts a syscall. -/
def bucketOf (id : UInt32) : Field :=
  ((switchArms.find? fun arm => id ∈ arm.2).map Prod.fst).getD .other

/-- Whether a counter is incremented for a syscall: the total always, a bucket by its arm. -/
def Field.counts (field : Field) (id : UInt32) : Bool := field = .total ∨ field = bucketOf id

/-- No arm of the switch increments the total. -/
theorem bucketOf_ne_total (id : UInt32) : bucketOf id ≠ .total := by
  have arms : ∀ arm ∈ switchArms, arm.1 ≠ .total := by decide
  unfold bucketOf
  cases found : switchArms.find? fun arm => id ∈ arm.2 with
  | none => simp
  | some arm => exact arms arm (List.mem_of_find?_eq_some found)

/-- `c->total++` and then the arm of the switch. -/
def SyscallCounts.count (counts : SyscallCounts) (id : UInt32) : SyscallCounts :=
  (counts.bump .total).bump (bucketOf id)

/-- Counting a syscall adds one to the counters it belongs to. -/
theorem SyscallCounts.get_count (counts : SyscallCounts) (id : UInt32) (field : Field) :
    (counts.count id).get field = counts.get field + if field.counts id then 1 else 0 := by
  have apart := bucketOf_ne_total id
  rw [count, get_bump, get_bump]
  by_cases total : field = .total
  · subst total
    simp [Field.counts, apart.symm]
  · simp [Field.counts, total]

/-- The two maps of the program; the BTF anchor map holds nothing the program reads. -/
structure SyscallMaps (cpus : Nat) where
  /-- `cgid_map`: cgroup v2 id to container index. -/
  cgidMap : HashTable UInt64 UInt32 1024
  /-- `syscalls_by_cgid`: histogram of each container index. -/
  syscallsByCgid : HashTable UInt32 (PerCpu cpus SyscallCounts) 256

variable {cpus : Nat}

/-- The maps as loaded. -/
def SyscallMaps.loaded (cpus : Nat) : SyscallMaps cpus := ⟨.empty _ _ _, .empty _ _ _⟩

/-- The histogram of an index on every CPU, zero when it has no entry. -/
def SyscallMaps.slots (maps : SyscallMaps cpus) (idx : UInt32) : PerCpu cpus SyscallCounts :=
  (maps.syscallsByCgid.lookup idx).getD fun _ => {}

/-- Look the index up, and create a zeroed entry with `BPF_NOEXIST` when it is missing; the
result of the insert is not checked. -/
def ensureEntry (layout : Layout UInt32)
    (table : HashTable UInt32 (PerCpu cpus SyscallCounts) 256) (idx : UInt32) :
    HashTable UInt32 (PerCpu cpus SyscallCounts) 256 :=
  match table.lookup idx with
  | some _ => table
  | none => (table.insertNew layout idx fun _ => {}).getD table

/-- An increment through the pointer into the slot of the calling CPU. -/
def bumpSlot (table : HashTable UInt32 (PerCpu cpus SyscallCounts) 256) (idx : UInt32)
    (cpu : Fin cpus) (field : Field) : HashTable UInt32 (PerCpu cpus SyscallCounts) 256 :=
  table.modify idx fun slots => Function.update slots cpu ((slots cpu).bump field)

/-- `trace_sys_enter`, run to completion on one CPU for a syscall of a cgroup. -/
def traceSysEnter (layout : Layout UInt32) (maps : SyscallMaps cpus) (cpu : Fin cpus)
    (cgid : UInt64) (id : UInt32) : SyscallMaps cpus :=
  match maps.cgidMap.lookup cgid with
  | none => maps
  | some idx =>
    let table := ensureEntry layout maps.syscallsByCgid idx
    match table.lookup idx with
    | none => { maps with syscallsByCgid := table }
    | some _ =>
      { maps with
        syscallsByCgid := bumpSlot (bumpSlot table idx cpu .total) idx cpu (bucketOf id) }

/-- The index has an entry, or there is room to create it. -/
def SyscallMaps.HasRoom (maps : SyscallMaps cpus) (idx : UInt32) : Prop :=
  idx ∈ maps.syscallsByCgid.keys ∨ maps.syscallsByCgid.entries.length < 256

instance (maps : SyscallMaps cpus) (idx : UInt32) : Decidable (maps.HasRoom idx) :=
  inferInstanceAs (Decidable (_ ∨ _))

/-- Without room an ensured table is the table itself. -/
theorem ensureEntry_full (layout : Layout UInt32) (maps : SyscallMaps cpus) (idx : UInt32)
    (full : ¬ maps.HasRoom idx) :
    ensureEntry layout maps.syscallsByCgid idx = maps.syscallsByCgid := by
  unfold SyscallMaps.HasRoom at full
  rw [not_or] at full
  have missed := (maps.syscallsByCgid.lookup_eq_none_iff idx).mpr full.1
  have refused : maps.syscallsByCgid.insertNew layout idx (fun _ => {}) = none := by
    rw [← Option.not_isSome_iff_eq_none, HashTable.insertNew_isSome_iff]
    exact fun room => full.2 room.2
  simp only [ensureEntry, missed, refused, Option.getD_none]

/-- With room, ensuring adds at most a zeroed entry for the index. -/
theorem ensureEntry_lookup (layout : Layout UInt32) (maps : SyscallMaps cpus) (idx : UInt32)
    (room : maps.HasRoom idx) (other : UInt32) :
    (ensureEntry layout maps.syscallsByCgid idx).lookup other =
      if other = idx then some (maps.slots idx) else maps.syscallsByCgid.lookup other := by
  unfold ensureEntry SyscallMaps.slots
  cases found : maps.syscallsByCgid.lookup idx with
  | some slots =>
    by_cases same : other = idx
    · subst same
      simp [found]
    · simp [same]
  | none =>
    have absent := (maps.syscallsByCgid.lookup_eq_none_iff idx).mp found
    have admitted := (HashTable.insertNew_isSome_iff layout maps.syscallsByCgid idx
      (fun _ => {})).mpr ⟨absent, room.resolve_left absent⟩
    obtain ⟨next, stored⟩ := Option.isSome_iff_exists.mp admitted
    simp only [stored, Option.getD_some, Option.getD_none, HashTable.lookup_insertNew stored]

/-- What one execution of the program can do: nothing for a cgroup that is not mapped, nothing
when the histogram is full, and otherwise count the syscall once in its own index and CPU. -/
theorem traceSysEnter_cases (layout : Layout UInt32) (maps : SyscallMaps cpus) (cpu : Fin cpus)
    (cgid : UInt64) (id : UInt32) :
    (maps.cgidMap.lookup cgid = none ∧ traceSysEnter layout maps cpu cgid id = maps) ∨
    (∃ idx, maps.cgidMap.lookup cgid = some idx ∧ ¬ maps.HasRoom idx ∧
      traceSysEnter layout maps cpu cgid id = maps) ∨
    (∃ idx, maps.cgidMap.lookup cgid = some idx ∧ maps.HasRoom idx ∧
      (traceSysEnter layout maps cpu cgid id).cgidMap = maps.cgidMap ∧
      ∀ other, (traceSysEnter layout maps cpu cgid id).syscallsByCgid.lookup other =
        if other = idx then
          some (Function.update (maps.slots idx) cpu ((maps.slots idx cpu).count id))
        else maps.syscallsByCgid.lookup other) := by
  cases mapped : maps.cgidMap.lookup cgid with
  | none =>
    refine .inl ⟨rfl, ?_⟩
    simp only [traceSysEnter, mapped]
  | some idx =>
    by_cases room : maps.HasRoom idx
    · refine .inr (.inr ⟨idx, rfl, room, ?_⟩)
      have ensured := ensureEntry_lookup layout maps idx room
      have entry := ensured idx
      rw [if_pos rfl] at entry
      simp only [traceSysEnter, mapped, entry]
      refine ⟨trivial, fun other => ?_⟩
      simp only [bumpSlot, HashTable.lookup_modify, ensured]
      by_cases same : other = idx
      · simp [same, SyscallCounts.count]
      · simp [same]
    · refine .inr (.inl ⟨idx, rfl, room, ?_⟩)
      have missed : maps.syscallsByCgid.lookup idx = none := by
        rw [HashTable.lookup_eq_none_iff]
        exact fun inside => room (.inl inside)
      simp only [traceSysEnter, mapped, ensureEntry_full layout maps idx room, missed]

end ContainerAnomaly.Bpf
