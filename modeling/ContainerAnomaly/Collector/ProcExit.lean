import ContainerAnomaly.Bpf.ProcExit

/-!
# The process-exit collector

`pkg/collector/procexit/collector.go`. Each record of the perf buffer is cast to the structure of
the program, whatever stands after it, resolved, and sent on unless it is of the host. The exit
code is that of `wait`: a signal in the low seven bits, or a status above the low byte
(`ending_code`).
-/

namespace ContainerAnomaly.ProcExit

open Lib Bpf

/-- `Event`. -/
structure Event where
  /-- When the program ran. -/
  ts : UInt64
  /-- When the process was started. -/
  startTime : UInt64
  /-- The process. -/
  tgid : UInt32
  /-- The wait status. -/
  exitCode : UInt32
  /-- The name of the leader. -/
  comm : GoString
  /-- The container that the resolver finds. -/
  containerID : GoString
deriving DecidableEq

/-- `Signal`. -/
def Event.signal (e : Event) : Nat := (e.exitCode &&& 0x7f).toNat

/-- `Status`. -/
def Event.status (e : Event) : Nat := (e.exitCode >>> 8).toNat &&& 0xff

/-- `trimNull`. -/
def trimNull (b : GoString) : GoString := b.takeWhile (· ≠ 0)

/-- The event of a sample, with its container. -/
def eventOf (raw : ProcExitEvent) (containerID : GoString) : Event where
  ts := raw.tsNs
  startTime := raw.startTimeNs
  tgid := raw.tgid
  exitCode := raw.exitCode
  comm := trimNull raw.comm.1
  containerID := containerID

/-- What `Read` returns. -/
inductive ReadResult where
  | closed
  | failed
  | record (lostSamples : Nat) (rawSample : GoString)

/-- What a round of `run` comes to. -/
inductive Round where
  | done
  | skip
  | send (ev : Event)
deriving DecidableEq

/-- A round of `run`, up to the select. -/
def runOnce (resolvePID : UInt32 → GoString) : ReadResult → Round
  | .closed => .done
  | .failed => .skip
  | .record lostSamples rawSample =>
    if lostSamples > 0 then .skip
    else
      match ProcExitEvent.wire.cast rawSample with
      | none => .skip
      | some raw =>
        let ev := eventOf raw (resolvePID raw.tgid)
        if ev.containerID = [] then .skip else .send ev

/-- How a process ends. -/
inductive Ending where
  | exited (status : UInt8)
  /-- By a signal, with a core dump or without one. -/
  | killed (signal : UInt8) (valid : 1 ≤ signal.toNat ∧ signal.toNat ≤ 64) (core : Bool)

/-- The signal that ended a process, zero for none. -/
def Ending.signal : Ending → Nat
  | .exited _ => 0
  | .killed signal _ _ => signal.toNat

/-- The status a process has exited with, zero when it was killed. -/
def Ending.status : Ending → Nat
  | .exited status => status.toNat
  | .killed _ _ _ => 0

/-- The name of a task is read back. -/
theorem trimNull_currentComm (task : Task) : trimNull task.currentComm.1 = task.comm.text := by
  have all : ∀ c ∈ task.comm.text, decide (c ≠ 0) = true := by
    intro c inside
    have differs : c ≠ 0 := by
      rintro rfl
      exact task.comm.no_nul inside
    simpa using differs
  have short := task.comm.short
  obtain ⟨zeros, more⟩ : ∃ zeros, 16 - task.comm.text.length = zeros + 1 :=
    ⟨15 - task.comm.text.length, by omega⟩
  rw [trimNull, Task.currentComm]
  dsimp only
  rw [more, List.replicate_succ, List.takeWhile_append_of_pos all]
  simp

/-- A round sends what is cast from a record that tells of no loss, when it has a container. -/
theorem runOnce_send_iff (resolvePID : UInt32 → GoString) (lostSamples : Nat) (rawSample : GoString)
    (ev : Event) :
    runOnce resolvePID (.record lostSamples rawSample) = .send ev ↔
      lostSamples = 0 ∧ ∃ raw rest, rawSample = ProcExitEvent.wire.encode raw ++ rest ∧
        resolvePID raw.tgid ≠ [] ∧ ev = eventOf raw (resolvePID raw.tgid) := by
  simp only [runOnce, gt_iff_lt, eventOf]
  by_cases lost : 0 < lostSamples
  · have some_lost : lostSamples ≠ 0 := by omega
    simp [lost, some_lost]
  · have none_lost : lostSamples = 0 := by omega
    simp only [none_lost, Nat.lt_irrefl, if_false, true_and]
    cases found : ProcExitEvent.wire.cast rawSample with
    | none =>
      constructor
      · intro skipped
        cases skipped
      · rintro ⟨raw, rest, whole, _⟩
        rw [whole, Wire.cast_encode] at found
        cases found
    | some raw =>
      obtain ⟨rest, whole⟩ := (ProcExitEvent.wire.cast_eq_some_iff rawSample raw).mp found
      have only : ∀ other more, rawSample = ProcExitEvent.wire.encode other ++ more →
          other = raw := by
        intro other more split
        have again := (ProcExitEvent.wire.cast_eq_some_iff rawSample other).mpr ⟨more, split⟩
        exact Option.some.inj (again.symm.trans found)
      constructor
      · intro sent
        by_cases host : resolvePID raw.tgid = []
        · simp [host] at sent
        · simp only [host, if_false, Round.send.injEq] at sent
          exact ⟨raw, rest, whole, host, sent.symm⟩
      · rintro ⟨other, more, split, contained, rfl⟩
        obtain rfl := only other more split
        simp [contained]

/-- The event that a task of a container is told of with. -/
def told (task : Task) (now : UInt64) (containerID : GoString) : Event where
  ts := now
  startTime := task.startBoottime
  tgid := task.tgid
  exitCode := task.exitCode
  comm := task.comm.text
  containerID := containerID

end ContainerAnomaly.ProcExit
