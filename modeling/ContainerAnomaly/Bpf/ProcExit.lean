import ContainerAnomaly.Lib.GoString
import ContainerAnomaly.Lib.Wire

/-!
# The process-exit program

`bpf/proc_exit.bpf.c`. The program runs in every task that exits and submits an event for the
leader of a thread group alone. The event is filled in a scratch area that still holds the one
before, and every field is overwritten (`handleProcExit_eq`). Its bytes are those of the C
structure, which has no padding (`ProcExitEvent.wire`).
-/

namespace ContainerAnomaly.Bpf

open Lib

/-- `char comm[16]`. -/
abbrev Comm := { bytes : GoString // bytes.length = 16 }

/-- `struct proc_exit_event`. -/
structure ProcExitEvent where
  /-- When the program ran. -/
  tsNs : UInt64
  /-- When the process was started. -/
  startTimeNs : UInt64
  /-- The process. -/
  tgid : UInt32
  /-- The wait status. -/
  exitCode : UInt32
  /-- The name of the leader. -/
  comm : Comm
deriving DecidableEq

/-- The layout of `char comm[16]`. -/
def commWire : Wire Comm where
  size := 16
  encode comm := comm.1
  decode bytes := ⟨bytes.take 16 ++ List.replicate (16 - bytes.length) 0, by
    rw [List.length_append, List.length_take, List.length_replicate]
    omega⟩
  length_encode comm := comm.2
  decode_encode comm := by
    apply Subtype.ext
    simp [comm.2, List.take_of_length_le]
  encode_decode bytes length := by simp [length, List.take_of_length_le]

/-- The layout of `struct proc_exit_event`. -/
def ProcExitEvent.wire : Wire ProcExitEvent :=
  (Wire.word64.pair (Wire.word64.pair (Wire.word32.pair (Wire.word32.pair commWire)))).iso
    (fun fields => ⟨fields.1, fields.2.1, fields.2.2.1, fields.2.2.2.1, fields.2.2.2.2⟩)
    (fun e => (e.tsNs, e.startTimeNs, e.tgid, e.exitCode, e.comm))
    (fun _ => rfl) (fun _ => rfl)

example : ProcExitEvent.wire.size = 40 := rfl

/-- The name of a task, which the kernel keeps short. -/
structure TaskName where
  /-- The name without what fills the field. -/
  text : GoString
  /-- A byte is left for the end. -/
  short : text.length < 16
  /-- It has no end in it. -/
  no_nul : 0 ∉ text

/-- What the program reads of the task it runs in. -/
structure Task where
  /-- The process. -/
  tgid : UInt32
  /-- The thread. -/
  tid : UInt32
  /-- When the thread was started. -/
  startBoottime : UInt64
  /-- The wait status. -/
  exitCode : UInt32
  /-- The name. -/
  comm : TaskName

/-- `bpf_get_current_pid_tgid`. -/
def Task.pidTgid (task : Task) : UInt64 := task.tgid.toUInt64 <<< 32 ||| task.tid.toUInt64

/-- `bpf_get_current_comm`: the name, with zeros after it. -/
def Task.currentComm (task : Task) : Comm :=
  ⟨task.comm.text ++ List.replicate (16 - task.comm.text.length) 0, by
    have short := task.comm.short
    rw [List.length_append, List.length_replicate]
    omega⟩

/-- `handle_proc_exit`: the scratch area after it, and the event that is submitted, if any. -/
def handleProcExit (heap : ProcExitEvent) (task : Task) (now : UInt64) :
    ProcExitEvent × Option ProcExitEvent :=
  let id := task.pidTgid
  let tgid := (id >>> 32).toUInt32
  let tid := id.toUInt32
  if tgid ≠ tid then (heap, none)
  else
    let e := { heap with tsNs := now, tgid := tgid }
    let e := { e with startTimeNs := task.startBoottime, exitCode := task.exitCode }
    let e := { e with comm := task.currentComm }
    (e, some e)

/-- Both halves of the id are found again. -/
theorem Task.pidTgid_halves (task : Task) :
    (task.pidTgid >>> 32).toUInt32 = task.tgid ∧ task.pidTgid.toUInt32 = task.tid := by
  have low := task.tid.toNat_lt
  have high := task.tgid.toNat_lt
  have value : task.pidTgid.toNat = 2 ^ 32 * task.tgid.toNat + task.tid.toNat := by
    rw [pidTgid, UInt64.toNat_or, UInt64.toNat_shiftLeft, UInt32.toNat_toUInt64,
      UInt32.toNat_toUInt64, Nat.shiftLeft_eq]
    have shift : (32 : UInt64).toNat % 64 = 32 := rfl
    have fits : task.tgid.toNat * 2 ^ 32 < 2 ^ 64 := by omega
    rw [shift, Nat.mod_eq_of_lt fits, Nat.mul_comm, Nat.two_pow_add_eq_or_of_lt low]
  constructor
  · apply UInt32.toNat_inj.mp
    rw [UInt64.toNat_toUInt32, UInt64.toNat_shiftRight, value]
    have shift : (32 : UInt64).toNat % 64 = 32 := rfl
    rw [shift, Nat.shiftRight_eq_div_pow]
    omega
  · apply UInt32.toNat_inj.mp
    rw [UInt64.toNat_toUInt32, value]
    omega

/-- The event of a task. -/
def Task.event (task : Task) (now : UInt64) : ProcExitEvent where
  tsNs := now
  startTimeNs := task.startBoottime
  tgid := task.tgid
  exitCode := task.exitCode
  comm := task.currentComm

/-- A leader is reported as it is, whatever the scratch area held; other threads are not. -/
theorem handleProcExit_eq (heap : ProcExitEvent) (task : Task) (now : UInt64) :
    handleProcExit heap task now =
      if task.tgid = task.tid then (task.event now, some (task.event now)) else (heap, none) := by
  obtain ⟨tgid, tid⟩ := task.pidTgid_halves
  unfold handleProcExit
  simp only [tgid, tid, ne_eq, ite_not]
  rfl

end ContainerAnomaly.Bpf
