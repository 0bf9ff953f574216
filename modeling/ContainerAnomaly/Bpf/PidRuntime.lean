import ContainerAnomaly.Lib.HashTable
import ContainerAnomaly.Bpf.SyscallTrace

/-!
# The CPU accounting program

`bpf/pid_runtime.bpf.c`. At every context switch the outgoing pid is charged for the time since
it was switched in on this CPU, and the incoming pid is stamped. The key is shared by the CPUs
and the values are not: an entry created on one CPU has a zeroed slot on every other.
-/

namespace ContainerAnomaly.Bpf

open Lib

/-- `struct cpu_acct`. -/
structure CpuAcct where
  /-- When the pid was switched in on this CPU, zero when it does not run there. -/
  lastStartNs : UInt64 := 0
  /-- The time that it has run there. -/
  runtimeNs : UInt64 := 0
deriving DecidableEq

/-- `cpu_acct_by_pid`. -/
abbrev CpuAcctTable (cpus : Nat) := HashTable UInt32 (PerCpu cpus CpuAcct) 65536

variable {cpus : Nat}

/-- The writes to the slot of an outgoing pid. -/
def CpuAcct.charge (slot : CpuAcct) (now : UInt64) : CpuAcct where
  lastStartNs := 0
  runtimeNs :=
    if now ≥ slot.lastStartNs then slot.runtimeNs + (now - slot.lastStartNs) else slot.runtimeNs

/-- The branch `if (prev_pid != 0)`. -/
def chargePrev (table : CpuAcctTable cpus) (cpu : Fin cpus) (now : UInt64) (prevPid : UInt32) :
    CpuAcctTable cpus :=
  if prevPid ≠ 0 then
    match table.lookup prevPid with
    | none => table
    | some _ =>
      table.modify prevPid fun slots => Function.update slots cpu ((slots cpu).charge now)
  else table

/-- The branch `if (next_pid != 0)`; the result of the insert is not checked. -/
def stampNext (layout : Layout UInt32) (table : CpuAcctTable cpus) (cpu : Fin cpus)
    (now : UInt64) (nextPid : UInt32) : CpuAcctTable cpus :=
  if nextPid ≠ 0 then
    match table.lookup nextPid with
    | some _ =>
      table.modify nextPid fun slots =>
        Function.update slots cpu { slots cpu with lastStartNs := now }
    | none =>
      (table.insertNew layout nextPid (Function.update (fun _ => {}) cpu ⟨now, 0⟩)).getD table
  else table

/-- `trace_sched_switch`. -/
def traceSchedSwitch (layout : Layout UInt32) (table : CpuAcctTable cpus) (cpu : Fin cpus)
    (now : UInt64) (prevPid nextPid : UInt32) : CpuAcctTable cpus :=
  stampNext layout (chargePrev table cpu now prevPid) cpu now nextPid

/-- Charging touches the slot of the outgoing pid on this CPU. -/
theorem lookup_chargePrev (table : CpuAcctTable cpus) (cpu : Fin cpus) (now : UInt64)
    (prevPid pid : UInt32) : (chargePrev table cpu now prevPid).lookup pid =
      if pid = prevPid ∧ prevPid ≠ 0 then
        (table.lookup pid).map fun slots => Function.update slots cpu ((slots cpu).charge now)
      else table.lookup pid := by
  unfold chargePrev
  by_cases idle : prevPid = 0
  · simp [idle]
  · rw [if_pos idle]
    cases found : table.lookup prevPid with
    | none =>
      by_cases same : pid = prevPid
      · subst same
        simp [found]
      · simp [same]
    | some slots =>
      by_cases same : pid = prevPid
      · subst same
        simp [HashTable.lookup_modify, idle]
      · simp [HashTable.lookup_modify, same]

/-- Charging creates no entry. -/
theorem keys_chargePrev (table : CpuAcctTable cpus) (cpu : Fin cpus) (now : UInt64)
    (prevPid : UInt32) : (chargePrev table cpu now prevPid).keys = table.keys := by
  unfold chargePrev
  by_cases idle : prevPid = 0
  · simp [idle]
  · rw [if_pos idle]
    cases table.lookup prevPid <;> simp

/-- Charging keeps the number of entries. -/
theorem length_chargePrev (table : CpuAcctTable cpus) (cpu : Fin cpus) (now : UInt64)
    (prevPid : UInt32) :
    (chargePrev table cpu now prevPid).entries.length = table.entries.length := by
  have lengths := congrArg List.length (keys_chargePrev table cpu now prevPid)
  rwa [HashTable.keys, HashTable.keys, List.length_map, List.length_map] at lengths

/-- What stamping can do: nothing for the idle task, stamp an entry, create one, or nothing when
the map is full. -/
theorem stampNext_cases (layout : Layout UInt32) (table : CpuAcctTable cpus) (cpu : Fin cpus)
    (now : UInt64) (nextPid : UInt32) :
    (nextPid = 0 ∧ stampNext layout table cpu now nextPid = table) ∨
    (nextPid ≠ 0 ∧ nextPid ∈ table.keys ∧
      (stampNext layout table cpu now nextPid).keys = table.keys ∧
      ∀ pid, (stampNext layout table cpu now nextPid).lookup pid =
        if pid = nextPid then
          (table.lookup pid).map fun slots =>
            Function.update slots cpu { slots cpu with lastStartNs := now }
        else table.lookup pid) ∨
    (nextPid ≠ 0 ∧ nextPid ∉ table.keys ∧ table.entries.length < 65536 ∧
      (stampNext layout table cpu now nextPid).entries.length = table.entries.length + 1 ∧
      ∀ pid, (stampNext layout table cpu now nextPid).lookup pid =
        if pid = nextPid then some (Function.update (fun _ => {}) cpu ⟨now, 0⟩)
        else table.lookup pid) ∨
    (nextPid ≠ 0 ∧ nextPid ∉ table.keys ∧ ¬ table.entries.length < 65536 ∧
      stampNext layout table cpu now nextPid = table) := by
  unfold stampNext
  by_cases idle : nextPid = 0
  · exact .inl ⟨idle, by simp [idle]⟩
  · right
    rw [if_pos idle]
    cases found : table.lookup nextPid with
    | some slots =>
      left
      have present := (table.mem_keys_iff nextPid).mpr ⟨slots, found⟩
      refine ⟨idle, present, HashTable.keys_modify _ _ _, fun pid => ?_⟩
      rw [HashTable.lookup_modify]
    | none =>
      right
      have absent := (table.lookup_eq_none_iff nextPid).mp found
      by_cases room : table.entries.length < 65536
      · left
        have admitted := (HashTable.insertNew_isSome_iff layout table nextPid
          (Function.update (fun _ => {}) cpu ⟨now, 0⟩)).mpr ⟨absent, room⟩
        obtain ⟨next, stored⟩ := Option.isSome_iff_exists.mp admitted
        simp only [stored, Option.getD_some]
        refine ⟨idle, absent, room, HashTable.length_insertNew stored, fun pid => ?_⟩
        exact HashTable.lookup_insertNew stored pid
      · right
        have refused : table.insertNew layout nextPid
            (Function.update (fun _ => {}) cpu ⟨now, 0⟩) = none := by
          rw [← Option.not_isSome_iff_eq_none, HashTable.insertNew_isSome_iff]
          exact fun both => room both.2
        refine ⟨idle, absent, room, ?_⟩
        simp only [refused, Option.getD_none]

/-- A switch creates an entry for the incoming pid when there is room, and no other. -/
theorem mem_keys_traceSchedSwitch (layout : Layout UInt32) (table : CpuAcctTable cpus)
    (cpu : Fin cpus) (now : UInt64) (prevPid nextPid pid : UInt32) :
    pid ∈ (traceSchedSwitch layout table cpu now prevPid nextPid).keys ↔
      pid ∈ table.keys ∨ pid = nextPid ∧ nextPid ≠ 0 ∧ table.entries.length < 65536 := by
  have keys := keys_chargePrev table cpu now prevPid
  have size := length_chargePrev table cpu now prevPid
  unfold traceSchedSwitch
  rcases stampNext_cases layout (chargePrev table cpu now prevPid) cpu now nextPid with
    ⟨idle, same⟩ | ⟨_, present, sameKeys, _⟩ | ⟨busy, _, room, _, stored⟩ | ⟨_, _, full, same⟩
  · rw [same, keys]
    simp [idle]
  · rw [sameKeys]
    rw [keys] at present ⊢
    refine ⟨.inl, ?_⟩
    rintro (old | ⟨rfl, _⟩)
    · exact old
    · exact present
  · rw [HashTable.mem_keys_iff, ← keys, HashTable.mem_keys_iff]
    simp only [stored]
    rw [size] at room
    by_cases next : pid = nextPid <;> simp [next, busy, room]
  · rw [same, keys]
    rw [size] at full
    simp [full]

/-- A switch adds an entry for an incoming pid that has none, when there is room. -/
theorem length_traceSchedSwitch (layout : Layout UInt32) (table : CpuAcctTable cpus)
    (cpu : Fin cpus) (now : UInt64) (prevPid nextPid : UInt32) :
    (traceSchedSwitch layout table cpu now prevPid nextPid).entries.length =
      table.entries.length +
        if nextPid ≠ 0 ∧ nextPid ∉ table.keys ∧ table.entries.length < 65536 then 1 else 0 := by
  have keys := keys_chargePrev table cpu now prevPid
  have size := length_chargePrev table cpu now prevPid
  unfold traceSchedSwitch
  rcases stampNext_cases layout (chargePrev table cpu now prevPid) cpu now nextPid with
    ⟨idle, same⟩ | ⟨_, present, sameKeys, _⟩ | ⟨busy, absent, room, grown, _⟩ | ⟨_, _, full, same⟩
  · rw [same, size]
    simp [idle]
  · have lengths := congrArg List.length sameKeys
    rw [HashTable.keys, HashTable.keys, List.length_map, List.length_map] at lengths
    rw [keys] at present
    rw [lengths, size]
    simp [present]
  · rw [keys] at absent
    rw [size] at room
    rw [grown, size]
    simp [busy, absent, room]
  · rw [size] at full
    rw [same, size]
    simp [full]

end ContainerAnomaly.Bpf
