import ContainerAnomaly.Collector.ProcExit
import ContainerAnomaly.Lib.LossyRing
import ContainerAnomaly.Lib.Regroup
import Mathlib.Algebra.BigOperators.Fin
import Mathlib.Algebra.Order.BigOperators.Group.Finset
import Mathlib.Data.List.Count

/-!
# The exits of processes

Threads start and exit while `handle_proc_exit` runs in each that exits, in the perf buffer of its
CPU, and the goroutine of the collector reads the buffers in any order. No process is reported
twice and none is made up; a process that is not reported is still in a buffer, or was dropped by
one, or belongs to no container, or was being sent when the collector was stopped
(`exits_accounted`).
-/

namespace ContainerAnomaly.Accounting

open Lib Bpf ProcExit

/-- A thread of the kernel, the leader of its group when its own id is that of the group. -/
structure Thread where
  /-- The id of its group. -/
  tgid : UInt32
  /-- When it was started. -/
  startBoottime : UInt64
  /-- It has exited. -/
  exited : Bool

/-- Where the goroutine of the collector is. -/
inductive Drain where
  | reading
  | sending (ev : ProcExit.Event)
  | stopped
deriving DecidableEq

/-- The threads, the scratch areas and perf buffers of the program, and the collector. -/
structure ExitPath (cpus : Nat) where
  /-- The threads, by their ids. -/
  threads : UInt32 → Option Thread
  /-- When the latest thread under an id started. -/
  started : UInt32 → UInt64
  /-- The slot of each CPU in which the program makes its record. -/
  heap : Fin cpus → ProcExitEvent
  /-- The perf buffer of each CPU. -/
  rings : Fin cpus → LossyRing ProcExitEvent
  /-- Where the goroutine of the collector is. -/
  drain : Drain

/-- What happens to threads and to the collector. -/
inductive ExitStep (cpus : Nat) where
  /-- A process starts under a free id. -/
  | fork (tid : UInt32) (start : UInt64)
  /-- A thread of a process starts under a free id. -/
  | clone (tgid tid : UInt32) (start : UInt64)
  /-- A thread exits on a CPU, whose buffer may have no room. -/
  | exit (cpu : Fin cpus) (tid : UInt32) (exitCode : UInt32) (comm : TaskName) (now : UInt64)
    (room : Bool)
  /-- The id of a thread that has exited becomes free. -/
  | reap (tid : UInt32)
  /-- A thread whose leader has exited takes its place, with its id and start, by `exec`. -/
  | exec (tid : UInt32)
  /-- `Read` returns a record of a CPU, a sample with some bytes of the buffer after it. -/
  | read (cpu : Fin cpus) (padding : GoString) (resolvePID : UInt32 → GoString)
  /-- `Read` fails. -/
  | readFails
  /-- The send of the select goes through. -/
  | send
  /-- `Stop`. -/
  | stop

variable {cpus : Nat}

/-- The path before any thread, with something in the scratch areas. -/
def ExitPath.boot (heap : Fin cpus → ProcExitEvent) : ExitPath cpus :=
  ⟨fun _ => none, fun _ => 0, heap, fun _ => .empty, .reading⟩

/-- What `Read` returns for a record of a buffer. -/
def received (padding : GoString) : RingRecord ProcExitEvent → ReadResult
  | .sample e => .record 0 (ProcExitEvent.wire.encode e ++ padding)
  | .lost count => .record count []

/-- Where a round leaves the collector. -/
def drainAfter : Round → Drain
  | .done => .stopped
  | .skip => .reading
  | .send ev => .sending ev

/-- A thread starts, when its id is free and the clock has moved on since the last one under it. -/
def ExitPath.start (path : ExitPath cpus) (tid : UInt32) (thread : Thread) : ExitPath cpus :=
  if path.threads tid = none ∧ path.started tid < thread.startBoottime then
    { path with
      threads := Function.update path.threads tid (some thread)
      started := Function.update path.started tid thread.startBoottime }
  else path

/-- The leader whose place a thread takes by `exec`. The kernel makes every other thread of the
group exit first. -/
def ExitPath.replaced (path : ExitPath cpus) (tid : UInt32) : Option Thread :=
  (path.threads tid).bind fun thread =>
    (path.threads thread.tgid).bind fun leader =>
      if thread.exited = false ∧ thread.tgid ≠ tid ∧ leader.exited ∧ leader.tgid = thread.tgid then
        some leader
      else none

/-- A thread takes the place of its leader. -/
def ExitPath.exec (path : ExitPath cpus) (tid : UInt32) (leader : Thread) : ExitPath cpus :=
  { path with
    threads := Function.update (Function.update path.threads tid none) leader.tgid
      (some { leader with exited := false }) }

/-- The task of a thread that exits. -/
def exitingTask (thread : Thread) (tid exitCode : UInt32) (comm : TaskName) : Task :=
  ⟨thread.tgid, tid, thread.startBoottime, exitCode, comm⟩

/-- A thread exits: the program runs in it. -/
def ExitPath.exit (path : ExitPath cpus) (cpu : Fin cpus) (tid : UInt32) (thread : Thread)
    (task : Task) (now : UInt64) (room : Bool) : ExitPath cpus :=
  let result := handleProcExit (path.heap cpu) task now
  { path with
    threads := Function.update path.threads tid (some { thread with exited := true })
    heap := Function.update path.heap cpu result.1
    rings :=
      match result.2 with
      | none => path.rings
      | some e => Function.update path.rings cpu ((path.rings cpu).put room e) }

/-- One step, with the events that are sent. -/
def ExitPath.step (path : ExitPath cpus) : ExitStep cpus → ExitPath cpus × List ProcExit.Event
  | .fork tid start => (path.start tid ⟨tid, start, false⟩, [])
  | .clone tgid tid start =>
    match path.threads tgid with
    | some leader =>
      if leader.tgid = tgid ∧ tid ≠ tgid then (path.start tid ⟨tgid, start, false⟩, [])
      else (path, [])
    | none => (path, [])
  | .exit cpu tid exitCode comm now room =>
    match path.threads tid with
    | some thread =>
      if thread.exited then (path, [])
      else (path.exit cpu tid thread (exitingTask thread tid exitCode comm) now room, [])
    | none => (path, [])
  | .reap tid =>
    match path.threads tid with
    | some thread =>
      if thread.exited then
        ({ path with threads := Function.update path.threads tid none }, [])
      else (path, [])
    | none => (path, [])
  | .exec tid =>
    match path.replaced tid with
    | some leader => (path.exec tid leader, [])
    | none => (path, [])
  | .read cpu padding resolvePID =>
    match path.drain with
    | .reading =>
      let taken := (path.rings cpu).read
      ({ path with
        rings := Function.update path.rings cpu taken.1
        drain :=
          match taken.2 with
          | [] => .reading
          | record :: _ => drainAfter (runOnce resolvePID (received padding record)) }, [])
    | _ => (path, [])
  | .readFails => (path, [])
  | .send =>
    match path.drain with
    | .sending ev => ({ path with drain := .reading }, [ev])
    | _ => (path, [])
  | .stop => ({ path with drain := .stopped }, [])

/-- The path as a machine. -/
def exitPath (cpus : Nat) : Machine (ExitPath cpus) (ExitStep cpus) ProcExit.Event :=
  ⟨ExitPath.step⟩

/-- A moment of a run. -/
abbrev ExitMoment (cpus : Nat) := ExitPath cpus × ExitStep cpus

/-- The event of a leader that exits, with the CPU it exits on and whether its buffer has room. -/
def leaderExit (moment : ExitMoment cpus) : Option (Fin cpus × Bool × ProcExitEvent) :=
  match moment.2 with
  | .exit cpu tid exitCode comm now room =>
    match moment.1.threads tid with
    | some thread =>
      if thread.exited = false ∧ thread.tgid = tid then
        some (cpu, room, (exitingTask thread tid exitCode comm).event now)
      else none
    | none => none
  | _ => none

/-- The sample that is read, with its CPU and the container it is resolved to. -/
def handed (moment : ExitMoment cpus) : Option (Fin cpus × ProcExitEvent × GoString) :=
  match moment.2 with
  | .read cpu _ resolvePID =>
    match moment.1.drain, (moment.1.rings cpu).records with
    | .reading, .sample e :: _ => some (cpu, e, resolvePID e.tgid)
    | _, _ => none
  | _ => none

/-- The event that the collector makes of it, unless it is of the host. -/
def reported (moment : ExitMoment cpus) : Option ProcExit.Event :=
  (handed moment).bind fun item =>
    if item.2.2 = [] then none else some (eventOf item.2.1 item.2.2)

/-- What happens to the buffer of a CPU. -/
def ringSteps (cpu : Fin cpus) (moment : ExitMoment cpus) : List (RingStep ProcExitEvent) :=
  match moment.2 with
  | .exit _ _ _ _ _ _ =>
    match leaderExit moment with
    | some (on, room, e) => if on = cpu then [.put room e] else []
    | none => []
  | .read on _ _ => if on = cpu ∧ moment.1.drain = .reading then [.read] else []
  | _ => []

/-- The leader that exits on a CPU, whose buffer has room for it or has none. -/
def leaderOn (cpu : Fin cpus) (room : Bool) (moment : ExitMoment cpus) : Option ProcExitEvent :=
  (leaderExit moment).bind fun item =>
    if item.1 = cpu ∧ item.2.1 = room then some item.2.2 else none

/-- The sample that is read of a CPU. -/
def handedOn (cpu : Fin cpus) (moment : ExitMoment cpus) : Option ProcExitEvent :=
  (handed moment).bind fun item => if item.1 = cpu then some item.2.1 else none

/-- How many samples the notice that is read of a CPU tells the loss of. -/
def noticedOn (cpu : Fin cpus) (moment : ExitMoment cpus) : Nat :=
  match moment.2 with
  | .read on _ _ =>
    match moment.1.drain, (moment.1.rings on).records with
    | .reading, .lost count :: _ => if on = cpu then count else 0
    | _, _ => 0
  | _ => 0

/-- A thread that exits goes into the buffer of its CPU when it is a leader. -/
theorem rings_exit (path : ExitPath cpus) (cpu : Fin cpus) (tid : UInt32) (thread : Thread)
    (exitCode : UInt32) (comm : TaskName) (now : UInt64) (room : Bool) (other : Fin cpus) :
    (path.exit cpu tid thread (exitingTask thread tid exitCode comm) now room).rings other =
      if thread.tgid = tid ∧ cpu = other then
        (path.rings other).put room ((exitingTask thread tid exitCode comm).event now)
      else path.rings other := by
  unfold ExitPath.exit
  rw [handleProcExit_eq]
  by_cases leader : thread.tgid = tid
  · have own : (exitingTask thread tid exitCode comm).tgid =
        (exitingTask thread tid exitCode comm).tid := leader
    simp only [if_pos own]
    by_cases here : cpu = other
    · subst here
      simp [leader]
    · simp [leader, here, Function.update_of_ne (Ne.symm here)]
  · have own : ¬ (exitingTask thread tid exitCode comm).tgid =
        (exitingTask thread tid exitCode comm).tid := leader
    simp [if_neg own, leader]

/-- Every step takes each buffer through its own steps. -/
theorem exitPath_drives (cpu : Fin cpus) :
    (exitPath cpus).Drives LossyRing.machine (fun path => path.rings cpu) (ringSteps cpu) := by
  intro path input
  show (path.step input).1.rings cpu = _
  cases input with
  | fork tid start =>
    show (path.start tid _).rings cpu = _
    unfold ExitPath.start
    split <;> rfl
  | clone tgid tid start =>
    unfold ExitPath.step
    dsimp only
    split
    · split
      · unfold ExitPath.start
        split <;> rfl
      · rfl
    · rfl
  | exit on tid exitCode comm now room =>
    cases found : path.threads tid with
    | none => simp [ExitPath.step, ringSteps, leaderExit, found]
    | some thread =>
      by_cases gone : thread.exited
      · simp [ExitPath.step, ringSteps, leaderExit, found, gone]
      · have alive : thread.exited = false := by simpa using gone
        simp only [ExitPath.step, ringSteps, leaderExit, found, alive, Bool.false_eq_true,
          if_false, true_and, rings_exit]
        by_cases leader : thread.tgid = tid
        · by_cases here : on = cpu
          · simp [leader, here, LossyRing.machine, Machine.final]
          · simp [leader, here]
        · simp [leader]
  | read on padding resolvePID =>
    cases at_drain : path.drain with
    | reading =>
      by_cases here : on = cpu
      · subst here
        simp [ExitPath.step, ringSteps, at_drain, LossyRing.machine, Machine.final]
      · simp [ExitPath.step, ringSteps, at_drain, here, Function.update_of_ne (Ne.symm here)]
    | sending ev => simp [ExitPath.step, ringSteps, at_drain]
    | stopped => simp [ExitPath.step, ringSteps, at_drain]
  | reap tid =>
    unfold ExitPath.step
    dsimp only
    split
    · split <;> rfl
    · rfl
  | exec tid =>
    unfold ExitPath.step
    dsimp only
    split <;> rfl
  | send =>
    unfold ExitPath.step
    dsimp only
    split <;> rfl
  | readFails => rfl
  | stop => rfl

/-- What a moment puts into a buffer is the leader that exits there. -/
theorem put_leader (cpu : Fin cpus) (moment : ExitMoment cpus) :
    LossyRing.taken (ringSteps cpu moment) = (leaderOn cpu true moment).toList ∧
      LossyRing.dropped (ringSteps cpu moment) = (leaderOn cpu false moment).toList.length := by
  obtain ⟨path, input⟩ := moment
  cases input with
  | exit on tid exitCode comm now room =>
    cases found : leaderExit (path, .exit on tid exitCode comm now room) with
    | none => simp [ringSteps, leaderOn, LossyRing.taken, LossyRing.dropped, found]
    | some item =>
      obtain ⟨place, had, e⟩ := item
      by_cases here : place = cpu
      · cases had <;>
          simp [ringSteps, leaderOn, LossyRing.taken, LossyRing.dropped, found, here]
      · simp [ringSteps, leaderOn, LossyRing.taken, LossyRing.dropped, found, here]
  | read on padding resolvePID =>
    have nobody : ∀ room, leaderOn cpu room (path, .read on padding resolvePID) = none :=
      fun _ => rfl
    rw [nobody, nobody]
    by_cases reads : on = cpu ∧ path.drain = .reading
    · simp only [ringSteps, if_pos reads]
      exact ⟨rfl, rfl⟩
    · simp only [ringSteps, if_neg reads]
      exact ⟨rfl, rfl⟩
  | _ => exact ⟨rfl, rfl⟩

/-- What a moment takes from a buffer is the sample or the notice that is read there. -/
theorem take_handed (cpu : Fin cpus) (moment : ExitMoment cpus) :
    let taken := LossyRing.machine.outputs (moment.1.rings cpu) (ringSteps cpu moment)
    LossyRing.samples taken = (handedOn cpu moment).toList ∧
      LossyRing.told taken = noticedOn cpu moment := by
  obtain ⟨path, input⟩ := moment
  cases input with
  | exit on tid exitCode comm now room =>
    have silent : LossyRing.machine.outputs (path.rings cpu)
        (ringSteps cpu (path, .exit on tid exitCode comm now room)) = [] := by
      cases found : leaderExit (path, .exit on tid exitCode comm now room) with
      | none => simp [ringSteps, found, Machine.outputs]
      | some item =>
        by_cases here : item.1 = cpu
        · simp [ringSteps, found, here, Machine.outputs, Machine.trace, LossyRing.machine,
            Machine.outputsOf]
        · simp [ringSteps, found, here, Machine.outputs]
    simp [silent, handedOn, handed, noticedOn, LossyRing.samples, LossyRing.told]
  | read on padding resolvePID =>
    by_cases reads : on = cpu ∧ path.drain = .reading
    · obtain ⟨rfl, at_drain⟩ := reads
      have single : LossyRing.machine.outputs (path.rings on)
          (ringSteps on (path, .read on padding resolvePID)) = (path.rings on).read.2 := by
        simp [ringSteps, at_drain, Machine.outputs, Machine.trace, Machine.outputsOf,
          LossyRing.machine]
      dsimp only
      rw [single, LossyRing.read]
      cases waiting : (path.rings on).records with
      | nil =>
        simp [at_drain, handedOn, handed, noticedOn, waiting, LossyRing.samples, LossyRing.told]
      | cons record records =>
        cases record <;>
          simp [at_drain, handedOn, handed, noticedOn, waiting, LossyRing.samples,
            LossyRing.told]
    · have nothing : ringSteps cpu (path, .read on padding resolvePID) = [] := if_neg reads
      have not_handed : handedOn cpu (path, .read on padding resolvePID) = none := by
        unfold handedOn handed
        dsimp only
        split
        · rename_i at_drain _
          have elsewhere : on ≠ cpu := fun here => reads ⟨here, at_drain⟩
          simp [elsewhere]
        · rfl
      have not_noticed : noticedOn cpu (path, .read on padding resolvePID) = 0 := by
        unfold noticedOn
        dsimp only
        split
        · rename_i at_drain _
          have elsewhere : on ≠ cpu := fun here => reads ⟨here, at_drain⟩
          simp [elsewhere]
        · rfl
      rw [nothing, not_handed, not_noticed]
      exact ⟨rfl, rfl⟩
  | _ => exact ⟨rfl, rfl⟩

/-- What comes into a buffer in a past is its leaders. -/
theorem puts_leaders (cpu : Fin cpus) (past : List (ExitMoment cpus)) :
    LossyRing.taken (past.flatMap (ringSteps cpu)) = past.filterMap (leaderOn cpu true) ∧
      LossyRing.dropped (past.flatMap (ringSteps cpu)) =
        (past.filterMap (leaderOn cpu false)).length := by
  simp only [List.filterMap_eq_flatMap_toList]
  induction past with
  | nil => exact ⟨rfl, rfl⟩
  | cons moment past ih =>
    obtain ⟨taken, dropped⟩ := put_leader cpu moment
    simp only [List.flatMap_cons, List.length_append, ← taken, ← dropped, ← ih.1, ← ih.2]
    exact ⟨List.filterMap_append, by simp [LossyRing.dropped]⟩

/-- What is taken from a buffer in a past is what is read. -/
theorem takes_handed (cpu : Fin cpus) (past : List (ExitMoment cpus)) :
    let taken := past.flatMap fun moment =>
      LossyRing.machine.outputs (moment.1.rings cpu) (ringSteps cpu moment)
    LossyRing.samples taken = past.filterMap (handedOn cpu) ∧
      LossyRing.told taken = (past.map (noticedOn cpu)).sum := by
  simp only [List.filterMap_eq_flatMap_toList]
  induction past with
  | nil => exact ⟨rfl, rfl⟩
  | cons moment past ih =>
    obtain ⟨samples, notices⟩ := take_handed cpu moment
    simp only [List.flatMap_cons, List.map_cons, List.sum_cons, LossyRing.samples_append,
      LossyRing.told_append, samples, notices, ih.1, ih.2, and_self]

/-- In every run, the leaders that exit on a CPU have been read, or wait, in their order, or were
dropped, and the dropped ones are told of or counted. -/
theorem buffers_account (heap : Fin cpus → ProcExitEvent) (steps : List (ExitStep cpus))
    (cpu : Fin cpus) :
    let past := (exitPath cpus).trace (.boot heap) steps
    let ring := ((exitPath cpus).final (.boot heap) steps).rings cpu
    past.filterMap (leaderOn cpu true) =
        past.filterMap (handedOn cpu) ++ LossyRing.samples ring.records ∧
      (past.filterMap (leaderOn cpu false)).length =
        (past.map (noticedOn cpu)).sum + (LossyRing.told ring.records + ring.missed) := by
  intro past ring
  have drives := @exitPath_drives cpus cpu
  obtain ⟨order, count⟩ := LossyRing.run .empty (past.flatMap (ringSteps cpu))
  have reached : LossyRing.machine.final .empty (past.flatMap (ringSteps cpu)) = ring :=
    (drives.final (.boot heap) steps).symm
  have outputs := drives.outputs (.boot heap) steps
  change LossyRing.machine.outputs .empty (past.flatMap (ringSteps cpu)) = _ at outputs
  obtain ⟨samples, notices⟩ := takes_handed cpu past
  obtain ⟨taken, dropped⟩ := puts_leaders cpu past
  rw [reached, outputs, samples, taken] at order
  rw [reached, outputs, notices, dropped] at count
  have none_before : LossyRing.told (LossyRing.empty (α := ProcExitEvent)).records +
      (LossyRing.empty (α := ProcExitEvent)).missed = 0 := rfl
  refine ⟨?_, by omega⟩
  exact (List.nil_append _).symm.trans order.symm

/-- A sample that is read is sent on unless it is of the host, and a notice is skipped. -/
theorem runOnce_received (resolvePID : UInt32 → GoString) (padding : GoString)
    (record : RingRecord ProcExitEvent) :
    runOnce resolvePID (received padding record) = match record with
      | .sample e =>
        if resolvePID e.tgid = [] then .skip else .send (eventOf e (resolvePID e.tgid))
      | .lost _ => .skip := by
  cases record with
  | sample e =>
    simp only [received, runOnce, Wire.cast_encode, Nat.lt_irrefl, gt_iff_lt, if_false]
    rfl
  | lost count =>
    have too_short : ProcExitEvent.wire.cast [] = none := rfl
    simp [received, runOnce, too_short]

/-- The event that is being sent. -/
def Drain.pending : Drain → List ProcExit.Event
  | .sending ev => [ev]
  | _ => []

/-- A stopped collector reads nothing and sends nothing. -/
theorem step_stopped {path : ExitPath cpus} (stopped : path.drain = .stopped)
    (input : ExitStep cpus) :
    (path.step input).1.drain = .stopped ∧ (path.step input).2 = [] ∧
      reported (path, input) = none := by
  cases input with
  | fork tid start =>
    refine ⟨?_, rfl, rfl⟩
    show (path.start tid _).drain = _
    unfold ExitPath.start
    split <;> exact stopped
  | clone tgid tid start =>
    unfold ExitPath.step
    dsimp only
    split
    · split
      · refine ⟨?_, rfl, rfl⟩
        unfold ExitPath.start
        split <;> exact stopped
      · exact ⟨stopped, rfl, rfl⟩
    · exact ⟨stopped, rfl, rfl⟩
  | exit cpu tid exitCode comm now room =>
    unfold ExitPath.step
    dsimp only
    split
    · split <;> exact ⟨stopped, rfl, rfl⟩
    · exact ⟨stopped, rfl, rfl⟩
  | reap tid =>
    unfold ExitPath.step
    dsimp only
    split
    · split <;> exact ⟨stopped, rfl, rfl⟩
    · exact ⟨stopped, rfl, rfl⟩
  | exec tid =>
    unfold ExitPath.step
    dsimp only
    split <;> exact ⟨stopped, rfl, rfl⟩
  | read cpu padding resolvePID => simp [ExitPath.step, reported, handed, stopped]
  | readFails => exact ⟨stopped, rfl, rfl⟩
  | send => simp [ExitPath.step, reported, handed, stopped]
  | stop => exact ⟨rfl, rfl, rfl⟩

/-- A step of a collector that is not stopped sends the event it has, or keeps it, or makes one of
the sample it reads. -/
theorem step_sent (path : ExitPath cpus) (input : ExitStep cpus) (runs : input ≠ .stop) :
    (path.step input).2 ++ (path.step input).1.drain.pending =
      path.drain.pending ++ (reported (path, input)).toList := by
  cases input with
  | fork tid start =>
    show [] ++ (path.start tid _).drain.pending = path.drain.pending ++ []
    unfold ExitPath.start
    split <;> simp
  | clone tgid tid start =>
    have none_read : reported (path, .clone tgid tid start) = none := rfl
    rw [none_read]
    unfold ExitPath.step ExitPath.start
    dsimp only
    split
    · split
      · split <;> simp
      · simp
    · simp
  | exit cpu tid exitCode comm now room =>
    have none_read : reported (path, .exit cpu tid exitCode comm now room) = none := rfl
    rw [none_read]
    unfold ExitPath.step ExitPath.exit
    dsimp only
    split
    · split <;> simp
    · simp
  | reap tid =>
    have none_read : reported (path, .reap tid) = none := rfl
    rw [none_read]
    unfold ExitPath.step
    dsimp only
    split
    · split <;> simp
    · simp
  | exec tid =>
    have none_read : reported (path, .exec tid) = none := rfl
    rw [none_read]
    unfold ExitPath.step ExitPath.exec
    dsimp only
    split <;> simp
  | read cpu padding resolvePID =>
    cases at_drain : path.drain with
    | reading =>
      cases waiting : (path.rings cpu).records with
      | nil =>
        simp [ExitPath.step, reported, handed, at_drain, waiting, LossyRing.read, Drain.pending]
      | cons record records =>
        have next := runOnce_received resolvePID padding record
        cases record with
        | sample e =>
          by_cases host : resolvePID e.tgid = []
          · simp [ExitPath.step, reported, handed, at_drain, waiting, LossyRing.read, next, host,
              drainAfter, Drain.pending]
          · simp [ExitPath.step, reported, handed, at_drain, waiting, LossyRing.read, next, host,
              drainAfter, Drain.pending]
        | lost count =>
          simp [ExitPath.step, reported, handed, at_drain, waiting, LossyRing.read, next,
            drainAfter, Drain.pending]
    | sending ev => simp [ExitPath.step, reported, handed, at_drain, Drain.pending]
    | stopped => simp [ExitPath.step, reported, handed, at_drain, Drain.pending]
  | readFails => exact (List.append_nil _).symm
  | send =>
    cases at_drain : path.drain <;>
      simp [ExitPath.step, reported, handed, at_drain, Drain.pending]
  | stop => exact absurd rfl runs

/-- In every run, the events sent are those made of the samples read, in order, up to one that is
being sent or that `Stop` has cut off. -/
theorem events_sent (heap : Fin cpus → ProcExitEvent) (steps : List (ExitStep cpus)) :
    ∃ unsent, unsent.length ≤ 1 ∧
      (((exitPath cpus).final (.boot heap) steps).drain ≠ .stopped →
        unsent = ((exitPath cpus).final (.boot heap) steps).drain.pending) ∧
      (exitPath cpus).outputs (.boot heap) steps ++ unsent =
        ((exitPath cpus).trace (.boot heap) steps).filterMap reported := by
  induction steps using List.reverseRecOn with
  | nil => exact ⟨[], by simp, fun _ => rfl, rfl⟩
  | append_singleton steps input ih =>
    obtain ⟨unsent, single, current, whole⟩ := ih
    let path := (exitPath cpus).final (.boot heap) steps
    have more : ((exitPath cpus).trace (.boot heap) (steps ++ [input])).filterMap reported =
        ((exitPath cpus).trace (.boot heap) steps).filterMap reported ++
          (reported (path, input)).toList := by
      rw [Machine.trace_snoc, List.filterMap_append]
      rfl
    rw [Machine.outputs_snoc, Machine.final_snoc, more, ← whole]
    by_cases stopped : path.drain = .stopped
    · obtain ⟨still, silent, nothing⟩ := step_stopped stopped input
      refine ⟨unsent, single, fun runs => absurd still runs, ?_⟩
      have silent' : ((exitPath cpus).step path input).2 = [] := silent
      rw [silent', nothing]
      simp
    · obtain rfl := current stopped
      by_cases stops : input = .stop
      · subst stops
        refine ⟨path.drain.pending, single, fun runs => absurd rfl runs, ?_⟩
        have silent : ((exitPath cpus).step path .stop).2 = [] := rfl
        have nothing : reported (path, .stop) = none := rfl
        rw [silent, nothing]
        simp [path]
      · have order := step_sent path input stops
        refine ⟨(path.step input).1.drain.pending, ?_, fun _ => rfl, ?_⟩
        · cases (path.step input).1.drain <;> simp [Drain.pending]
        · rw [List.append_assoc, List.append_assoc]
          exact congrArg _ order

/-- What tells a process from others that had its id. -/
def upidOf (e : ProcExitEvent) : UInt32 × UInt64 := (e.tgid, e.startTimeNs)

/-- The leader that exits at a moment. -/
def leaderOf (moment : ExitMoment cpus) : Option ProcExitEvent :=
  (leaderExit moment).map fun item => item.2.2

/-- The process whose leader a thread replaces at a moment. -/
def takenOver (moment : ExitMoment cpus) : Option (UInt32 × UInt64) :=
  match moment.2 with
  | .exec tid =>
    (moment.1.replaced tid).map fun leader => (leader.tgid, leader.startBoottime)
  | _ => none

/-- One while the thread of a process runs that has its id, zero before and after. -/
def ExitPath.alive (path : ExitPath cpus) (upid : UInt32 × UInt64) : Nat :=
  match path.threads upid.1 with
  | some thread => if thread.exited = false ∧ thread.startBoottime = upid.2 then 1 else 0
  | none => 0

/-- One when a process has started, zero when the clock of its id has not come to it. -/
def ExitPath.begun (path : ExitPath cpus) (upid : UInt32 × UInt64) : Nat :=
  if upid.2 ≤ path.started upid.1 then 1 else 0

/-- A thread that starts makes one process alive at most, which has not been before. -/
theorem alive_start (path : ExitPath cpus) (tid : UInt32) (thread : Thread)
    (upid : UInt32 × UInt64) :
    (path.start tid thread).alive upid + path.begun upid ≤
      path.alive upid + (path.start tid thread).begun upid := by
  by_cases can : path.threads tid = none ∧ path.started tid < thread.startBoottime
  · rw [ExitPath.start, if_pos can]
    obtain ⟨free, later⟩ := can
    by_cases here : upid.1 = tid
    · have dead : path.alive upid = 0 := by simp [ExitPath.alive, here, free]
      rw [dead]
      simp only [ExitPath.alive, ExitPath.begun, here, Function.update_self]
      simp only [UInt64.le_iff_toNat_le, UInt64.lt_iff_toNat_lt, ← UInt64.toNat_inj] at later ⊢
      split <;> split <;> split <;> omega
    · simp [ExitPath.alive, ExitPath.begun, Function.update_of_ne here]
  · rw [ExitPath.start, if_neg can]

/-- A process runs once at most. -/
theorem alive_le (path : ExitPath cpus) (upid : UInt32 × UInt64) : path.alive upid ≤ 1 := by
  unfold ExitPath.alive
  split
  · split <;> omega
  · omega

/-- A thread that takes the place of its leader makes that process alive and no other. -/
theorem alive_exec (path : ExitPath cpus) (tid : UInt32) (leader : Thread)
    (upid : UInt32 × UInt64) :
    (path.exec tid leader).alive upid ≤
      [(leader.tgid, leader.startBoottime)].count upid + path.alive upid := by
  by_cases own : (leader.tgid, leader.startBoottime) = upid
  · have single := alive_le (path.exec tid leader) upid
    rw [own, List.count_singleton_self]
    omega
  · by_cases here : upid.1 = leader.tgid
    · have dated : leader.startBoottime ≠ upid.2 := fun same => own (Prod.ext here.symm same)
      have ended : (path.exec tid leader).alive upid = 0 := by
        simp [ExitPath.alive, ExitPath.exec, here, dated]
      omega
    · by_cases itself : upid.1 = tid
      · have ended : (path.exec tid leader).alive upid = 0 := by
          simp only [ExitPath.alive, ExitPath.exec, Function.update_of_ne here]
          simp [itself]
        omega
      · have still : (path.exec tid leader).alive upid = path.alive upid := by
          simp [ExitPath.alive, ExitPath.exec, Function.update_of_ne here,
            Function.update_of_ne itself]
        omega

/-- A leader that exits ends its process, and another thread reports none. -/
theorem alive_exit (path : ExitPath cpus) (cpu : Fin cpus) (tid : UInt32) {thread : Thread}
    (exitCode : UInt32) (comm : TaskName) (now : UInt64) (room : Bool)
    (found : path.threads tid = some thread) (running : thread.exited = false)
    (upid : UInt32 × UInt64) :
    ((leaderOf (path, .exit cpu tid exitCode comm now room)).toList.map upidOf).count upid +
        (path.exit cpu tid thread (exitingTask thread tid exitCode comm) now room).alive upid ≤
      path.alive upid := by
  have leader : leaderOf (path, .exit cpu tid exitCode comm now room) =
      if thread.tgid = tid then some ((exitingTask thread tid exitCode comm).event now)
      else none := by
    by_cases leads : thread.tgid = tid
    · simp [leaderOf, leaderExit, found, running, leads]
    · simp [leaderOf, leaderExit, found, leads]
  by_cases here : upid.1 = tid
  · have ended : (path.exit cpu tid thread (exitingTask thread tid exitCode comm) now
        room).alive upid = 0 := by
      simp [ExitPath.alive, ExitPath.exit, here]
    have before : path.alive upid = if thread.startBoottime = upid.2 then 1 else 0 := by
      simp [ExitPath.alive, here, found, running]
    rw [leader, ended, before]
    by_cases leads : thread.tgid = tid
    · by_cases dated : thread.startBoottime = upid.2
      · simpa [leads, dated] using
          List.count_le_length (a := upid) (l := [upidOf ((exitingTask thread tid exitCode
            comm).event now)])
      · have differs : upidOf ((exitingTask thread tid exitCode comm).event now) ≠ upid := by
          rintro rfl
          exact dated rfl
        simp [leads, dated, differs]
    · simp [leads]
  · have still : (path.exit cpu tid thread (exitingTask thread tid exitCode comm) now
        room).alive upid = path.alive upid := by
      simp [ExitPath.alive, ExitPath.exit, Function.update_of_ne here]
    rw [leader, still]
    by_cases leads : thread.tgid = tid
    · have differs : upidOf ((exitingTask thread tid exitCode comm).event now) ≠ upid := by
        rintro rfl
        exact here leads
      simp [leads, differs]
    · simp [leads]

/-- Every step that reports a process ends it, and every step that makes one alive begins it or
takes it over. -/
theorem step_lives (path : ExitPath cpus) (input : ExitStep cpus) (upid : UInt32 × UInt64) :
    ((leaderOf (path, input)).toList.map upidOf).count upid +
        ((path.step input).1.alive upid + path.begun upid) ≤
      (takenOver (path, input)).toList.count upid +
        (path.alive upid + (path.step input).1.begun upid) := by
  cases input with
  | fork tid start =>
    have started := alive_start path tid ⟨tid, start, false⟩ upid
    have silent : leaderOf (path, .fork tid start) = none := rfl
    have other : takenOver (path, .fork tid start) = none := rfl
    rw [silent, other]
    simpa [ExitPath.step] using started
  | clone tgid tid start =>
    have started := alive_start path tid ⟨tgid, start, false⟩ upid
    have silent : leaderOf (path, .clone tgid tid start) = none := rfl
    have other : takenOver (path, .clone tgid tid start) = none := rfl
    rw [silent, other]
    unfold ExitPath.step
    dsimp only
    split
    · split
      · simpa using started
      · simp
    · simp
  | exit cpu tid exitCode comm now room =>
    have other : takenOver (path, .exit cpu tid exitCode comm now room) = none := rfl
    rw [other]
    cases found : path.threads tid with
    | none => simp [ExitPath.step, leaderOf, leaderExit, found]
    | some thread =>
      by_cases gone : thread.exited
      · simp [ExitPath.step, leaderOf, leaderExit, found, gone]
      · have running : thread.exited = false := by simpa using gone
        have ends := alive_exit path cpu tid exitCode comm now room found running upid
        have same : (path.exit cpu tid thread (exitingTask thread tid exitCode comm) now
            room).begun upid = path.begun upid := rfl
        simp only [ExitPath.step, found, running, Bool.false_eq_true, if_false, same,
          Option.toList_none, List.count_nil]
        omega
  | reap tid =>
    have silent : leaderOf (path, .reap tid) = none := rfl
    have other : takenOver (path, .reap tid) = none := rfl
    rw [silent, other]
    unfold ExitPath.step
    dsimp only
    split
    · rename_i thread found
      split
      · rename_i gone
        by_cases here : upid.1 = tid
        · simp [ExitPath.alive, ExitPath.begun, here]
        · simp [ExitPath.alive, ExitPath.begun, Function.update_of_ne here]
      · simp
    · simp
  | exec tid =>
    have silent : leaderOf (path, .exec tid) = none := rfl
    rw [silent]
    cases found : path.replaced tid with
    | none => simp [ExitPath.step, takenOver, found]
    | some leader =>
      have same : (path.exec tid leader).begun upid = path.begun upid := rfl
      have replaces := alive_exec path tid leader upid
      simp only [ExitPath.step, takenOver, found, same, Option.map_some, Option.toList_some,
        Option.toList_none, List.map_nil, List.count_nil]
      omega
  | read cpu padding resolvePID =>
    have silent : leaderOf (path, .read cpu padding resolvePID) = none := rfl
    have other : takenOver (path, .read cpu padding resolvePID) = none := rfl
    rw [silent, other]
    unfold ExitPath.step
    dsimp only
    split <;> simp [ExitPath.alive, ExitPath.begun]
  | readFails => exact le_refl _
  | send =>
    have silent : leaderOf (path, .send) = none := rfl
    have other : takenOver (path, .send) = none := rfl
    rw [silent, other]
    unfold ExitPath.step
    dsimp only
    split <;> simp [ExitPath.alive, ExitPath.begun]
  | stop => exact le_refl _

/-- In every run, a process is reported once at most, and once more for every thread that takes the
place of its leader. -/
theorem leaders_once (heap : Fin cpus → ProcExitEvent) (steps : List (ExitStep cpus))
    (upid : UInt32 × UInt64) :
    let past := (exitPath cpus).trace (.boot heap) steps
    let path := (exitPath cpus).final (.boot heap) steps
    ((past.filterMap leaderOf).map upidOf).count upid + path.alive upid ≤
      (past.filterMap takenOver).count upid + path.begun upid := by
  refine (exitPath cpus).invariant_always (fun past path =>
    ((past.filterMap leaderOf).map upidOf).count upid + path.alive upid ≤
      (past.filterMap takenOver).count upid + path.begun upid) ?_ ?_ steps
  · exact Nat.zero_le _
  · intro past path input held
    have one := step_lives path input upid
    have leaders : (past ++ [(path, input)]).filterMap leaderOf =
        past.filterMap leaderOf ++ (leaderOf (path, input)).toList := by
      rw [List.filterMap_append]
      rfl
    have taken : (past ++ [(path, input)]).filterMap takenOver =
        past.filterMap takenOver ++ (takenOver (path, input)).toList := by
      rw [List.filterMap_append]
      rfl
    show _ + (path.step input).1.alive upid ≤ _ + (path.step input).1.begun upid
    rw [leaders, taken, List.map_append, List.count_append, List.count_append]
    omega

/-- The sample that is read at a moment. -/
def sampleOf (moment : ExitMoment cpus) : Option ProcExitEvent :=
  (handed moment).map fun item => item.2.1

/-- In every run, no more samples are read than leaders have exited, of each kind. -/
theorem samples_subperm (heap : Fin cpus → ProcExitEvent) (steps : List (ExitStep cpus)) :
    let past := (exitPath cpus).trace (.boot heap) steps
    (past.filterMap sampleOf).Subperm (past.filterMap leaderOf) := by
  intro past
  refine List.subperm_ext_iff.mpr fun e _ => ?_
  have read := count_groups (fun moment : ExitMoment cpus =>
    (handed moment).map fun item => (item.1, item.2.1)) past e
  have exited := count_groups (fun moment : ExitMoment cpus =>
    (leaderExit moment).map fun item => (item.1, item.2.2)) past e
  simp only [Option.map_map, Option.bind_map] at read exited
  calc (past.filterMap sampleOf).count e
      = ∑ cpu, (past.filterMap (handedOn cpu)).count e := read
    _ ≤ ∑ cpu, (past.filterMap (leaderOn cpu true)).count e := by
        refine Finset.sum_le_sum fun cpu _ => ?_
        rw [(buffers_account heap steps cpu).1, List.count_append]
        exact Nat.le_add_right _ _
    _ ≤ (past.filterMap leaderOf).count e := by
        refine le_trans (Finset.sum_le_sum fun cpu _ => ?_) exited.ge
        refine (filterMap_sublist (fun moment value chosen => ?_) past).count_le e
        unfold leaderOn at chosen
        cases found : leaderExit moment with
        | none => simp [found] at chosen
        | some item =>
          rw [found] at chosen
          by_cases here : item.1 = cpu
          · by_cases had : item.2.1 = true
            · simpa [here, had] using chosen
            · simp [had] at chosen
          · simp [here] at chosen

/-- The process an event is about. -/
def eventUpid (ev : ProcExit.Event) : UInt32 × UInt64 := (ev.tgid, ev.startTime)

/-- The events made of samples are about the processes of the samples. -/
theorem reported_sublist (past : List (ExitMoment cpus)) :
    ((past.filterMap reported).map eventUpid).Sublist
      ((past.filterMap sampleOf).map upidOf) := by
  rw [List.map_filterMap, List.map_filterMap]
  refine filterMap_sublist (fun moment upid chosen => ?_) past
  unfold reported at chosen
  unfold sampleOf
  cases found : handed moment with
  | none => simp [found] at chosen
  | some item =>
    rw [found] at chosen
    by_cases host : item.2.2 = []
    · simp [host] at chosen
    · simpa [host, eventUpid, eventOf, upidOf] using chosen

/-- The exit of a leader that an event tells of. -/
def Tells (ev : ProcExit.Event) (moment : ExitMoment cpus) : Prop :=
  ∃ cpu tid thread exitCode comm now,
    moment.2 = .exit cpu tid exitCode comm now true ∧
      moment.1.threads tid = some thread ∧ thread.exited = false ∧ thread.tgid = tid ∧
      ev = ⟨now, thread.startBoottime, tid, exitCode, comm.text, ev.containerID⟩

/-- The account that a run gives of the exits. -/
structure Accounted (past : List (ExitMoment cpus)) (path : ExitPath cpus)
    (events : List ProcExit.Event) : Prop where
  /-- The leaders that found room in the buffer of their CPU were read, or wait, in order. -/
  ordered : ∀ cpu, past.filterMap (leaderOn cpu true) =
    past.filterMap (handedOn cpu) ++ LossyRing.samples (path.rings cpu).records
  /-- The leaders that found none were told of, or will be. -/
  counted : ∀ cpu, (past.filterMap (leaderOn cpu false)).length =
    (past.map (noticedOn cpu)).sum +
      (LossyRing.told (path.rings cpu).records + (path.rings cpu).missed)
  /-- The events sent are those read that are not of the host, up to the one in hand. -/
  sent : ∃ unsent, unsent.length ≤ 1 ∧
    (path.drain ≠ .stopped → unsent = path.drain.pending) ∧
    events ++ unsent = past.filterMap reported
  /-- A process is sent once at most, and once more for every thread that takes it over. -/
  once : ∀ upid, (events.map eventUpid).count upid ≤ (past.filterMap takenOver).count upid + 1
  /-- Each event tells of the exit of a leader, with a container. -/
  faithful : ∀ ev ∈ events, ev.containerID ≠ [] ∧ ∃ moment ∈ past, Tells ev moment

/-- An event that is made of a sample tells of the exit that put the sample. -/
theorem reported_tells (heap : Fin cpus → ProcExitEvent) (steps : List (ExitStep cpus))
    {ev : ProcExit.Event}
    (made : ev ∈ ((exitPath cpus).trace (.boot heap) steps).filterMap reported) :
    ev.containerID ≠ [] ∧ ∃ moment ∈ (exitPath cpus).trace (.boot heap) steps,
      Tells ev moment := by
  obtain ⟨reading, member, found⟩ := List.mem_filterMap.mp made
  obtain ⟨⟨cpu, e, containerID⟩, read, kept⟩ := Option.bind_eq_some_iff.mp found
  by_cases host : containerID = []
  · simp [host] at kept
  · simp only [host, if_false, Option.some.injEq] at kept
    subst kept
    refine ⟨host, ?_⟩
    have handed_on : e ∈ ((exitPath cpus).trace (.boot heap) steps).filterMap (handedOn cpu) :=
      List.mem_filterMap.mpr ⟨reading, member, by simp [handedOn, read]⟩
    have put : e ∈ ((exitPath cpus).trace (.boot heap) steps).filterMap (leaderOn cpu true) := by
      rw [(buffers_account heap steps cpu).1]
      exact List.mem_append_left _ handed_on
    obtain ⟨⟨path, input⟩, exited, leads⟩ := List.mem_filterMap.mp put
    refine ⟨(path, input), exited, ?_⟩
    obtain ⟨⟨on, had, same⟩, leader, kept⟩ := Option.bind_eq_some_iff.mp leads
    by_cases room : on = cpu ∧ had = true
    · obtain ⟨rfl, rfl⟩ := room
      simp only [and_self, if_true, Option.some.injEq] at kept
      subst kept
      cases input with
      | exit cpu tid exitCode comm now room =>
        cases at_tid : path.threads tid with
        | none => simp [leaderExit, at_tid] at leader
        | some thread =>
          by_cases first : thread.exited = false ∧ thread.tgid = tid
          · simp only [leaderExit, at_tid, first, and_self, if_true, Option.some.injEq,
              Prod.mk.injEq] at leader
            obtain ⟨rfl, rfl, rfl⟩ := leader
            refine ⟨cpu, tid, thread, exitCode, comm, now, rfl, at_tid, first.1, first.2, ?_⟩
            have name := trimNull_currentComm (exitingTask thread tid exitCode comm)
            rw [eventOf, Task.event]
            dsimp only
            rw [name, ← first.2]
            rfl
          · simp [leaderExit, at_tid, first] at leader
      | _ => simp [leaderExit] at leader
    · simp [room] at kept

/-- In every run, the exits of processes are accounted for. -/
theorem exits_accounted (heap : Fin cpus → ProcExitEvent) (steps : List (ExitStep cpus)) :
    Accounted ((exitPath cpus).trace (.boot heap) steps)
      ((exitPath cpus).final (.boot heap) steps)
      ((exitPath cpus).outputs (.boot heap) steps) := by
  obtain ⟨unsent, single, current, whole⟩ := events_sent heap steps
  refine ⟨fun cpu => (buffers_account heap steps cpu).1,
    fun cpu => (buffers_account heap steps cpu).2, ⟨unsent, single, current, whole⟩,
    fun upid => ?_, fun ev sent => ?_⟩
  · have leaders := leaders_once heap steps upid
    have begun : ((exitPath cpus).final (.boot heap) steps).begun upid ≤ 1 := by
      unfold ExitPath.begun
      split <;> omega
    obtain ⟨kept, same, among⟩ := samples_subperm heap steps
    have permuted := (same.map upidOf).count_eq upid
    have read := (among.map upidOf).count_le upid
    have made := (reported_sublist ((exitPath cpus).trace (.boot heap) steps)).count_le upid
    rw [← whole, List.map_append, List.count_append] at made
    omega
  · refine reported_tells heap steps ?_
    rw [← whole]
    exact List.mem_append_left _ sent

end ContainerAnomaly.Accounting
