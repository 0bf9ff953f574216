import ContainerAnomaly.Collector.PidRuntime
import ContainerAnomaly.Collector.TcpStats
import ContainerAnomaly.Lib.Machine

/-!
# Processes, accounts and the two pollers

The kernel accounts CPU time and TCP traffic under bare pids; the collectors resolve a pid to a
container when they report it. Here processes come and go under the same pids while both
programs count and both collectors poll. A poll is not one step: it reads its map, and then
resolves the pids that are due one at a time, against the `/proc` of the moment and a cache that
both collectors share.
-/

namespace ContainerAnomaly.Accounting

open Lib Bpf Container

/-- A process: the container it belongs to, its start time, and what its two files in `/proc`
say. -/
structure Process where
  /-- Its container, empty on the host. -/
  container : GoString
  /-- Its start tick. -/
  startTime : UInt64
  /-- `/proc/<pid>/stat`. -/
  stat : GoString
  /-- `/proc/<pid>/cgroup`. -/
  cgroup : GoString
  /-- The stat file gives the start time. -/
  started : startTimeOfStat stat = .ok startTime
  /-- The cgroup file names the container. -/
  named : ((GoString.scanLines cgroup).findSome? findCID).getD [] = container

/-- Which files of `/proc` can be read at a moment. -/
structure Readable where
  /-- `/proc/<pid>/stat` can. -/
  stat : Bool
  /-- `/proc/<pid>/cgroup` can. -/
  cgroup : Bool

variable {cpus : Nat}

/-- Processes, kernel maps, collectors with the rest of a poll in progress, and the resolver. -/
structure World (cpus : Nat) where
  /-- The process that holds a pid. -/
  process : UInt32 → Option Process
  /-- The container of the process that was last switched in under a pid on a CPU. No code reads
  it: it says whose time a switch charges. -/
  ran : UInt32 → Fin cpus → GoString
  /-- `cpu_acct_by_pid`. -/
  acct : CpuAcctTable cpus
  /-- `tcp_stats_by_tgid`. -/
  tcp : TcpTable cpus
  /-- What `pidruntime` has seen. -/
  runtime : PidRuntime.Collector
  /-- The pids and deltas of a `pidruntime` poll in progress. -/
  runtimeDue : List (UInt32 × UInt64)
  /-- The rows of a `tcpstats` poll in progress. -/
  tcpDue : List TcpStats.Stats
  /-- The resolver both collectors call. -/
  resolver : Resolver

/-- The container of the process that holds a pid, empty when there is none. -/
def ownerIn (process : UInt32 → Option Process) (pid : UInt32) : GoString :=
  ((process pid).map Process.container).getD []

/-- The world when the programs are attached: some processes, which may be running, and empty
maps. -/
def World.boot (cpus : Nat) (process : UInt32 → Option Process) : World cpus :=
  ⟨process, fun pid _ => ownerIn process pid, .empty _ _ _, .empty _ _ _, .new, [], [], ⟨∅, ∅⟩⟩

/-- The steps of the world. -/
inductive Event (cpus : Nat) where
  /-- A process starts under a free pid. -/
  | create (pid : UInt32) (process : Process)
  /-- The process of a pid is gone. -/
  | exit (pid : UInt32)
  /-- `trace_sched_switch`. -/
  | switch (cpu : Fin cpus) (now : UInt64) (prev next : UInt32)
  /-- A TCP probe fires while a thread group runs on a CPU. -/
  | tcp (cpu : Fin cpus) (tgid : UInt32) (probe : TcpProbe)
  /-- `pidruntime` starts a poll, when none is in progress. -/
  | readRuntime (order : RangeOrder UInt32 UInt64)
  /-- `pidruntime` resolves the next pid and appends its row. -/
  | resolveRuntime (reads : Readable)
  /-- `tcpstats` starts a poll, when none is in progress. -/
  | readTcp (order : RangeOrder UInt32 TcpStats.Stats)
  /-- `tcpstats` resolves the next thread group and appends its row. -/
  | resolveTcp (reads : Readable)
  /-- A refresh of the resolver drops cached answers. -/
  | evict (drops : UPID → Bool)

/-- A row of either snapshot. -/
inductive Report where
  | runtime (row : PidRuntime.Row)
  | tcp (row : TcpStats.Stats)
deriving DecidableEq

/-- `/proc` as a collector finds it. -/
def World.procFs (world : World cpus) (reads : Readable) : ProcFs where
  stat := fun pid => if reads.stat then (world.process pid).map Process.stat else none
  cgroup := fun pid => if reads.cgroup then (world.process pid).map Process.cgroup else none

/-- The container of the process that holds a pid at the moment. -/
def World.owner (world : World cpus) (pid : UInt32) : GoString := ownerIn world.process pid

/-- The process that holds a pid is switched in on a CPU. -/
def World.enters (world : World cpus) (cpu : Fin cpus) (pid : UInt32) :
    UInt32 → Fin cpus → GoString :=
  Function.update world.ran pid (Function.update (world.ran pid) cpu (world.owner pid))

/-- Drop cached answers. -/
def evictCache (drops : UPID → Bool) (resolver : Resolver) : Resolver :=
  { resolver with upidCache := resolver.upidCache.retain fun upid => !drops upid }

/-- One step of the world. -/
def World.step (layout : Layout UInt32) (world : World cpus) :
    Event cpus → World cpus × List Report
  | .create pid process =>
    match world.process pid with
    | some _ => (world, [])
    | none => ({ world with process := Function.update world.process pid (some process) }, [])
  | .exit pid => ({ world with process := Function.update world.process pid none }, [])
  | .switch cpu now prev next =>
    ({ world with
      acct := traceSchedSwitch layout world.acct cpu now prev next
      ran := world.enters cpu next }, [])
  | .tcp cpu tgid probe => ({ world with tcp := probe.run layout world.tcp cpu tgid }, [])
  | .readRuntime order =>
    if world.runtimeDue.isEmpty then
      let due := PidRuntime.due order world.acct world.runtime
      ({ world with runtime := ⟨due.1⟩, runtimeDue := due.2 }, [])
    else (world, [])
  | .resolveRuntime reads =>
    match world.runtimeDue with
    | [] => (world, [])
    | item :: rest =>
      let answer := world.resolver.resolve (world.procFs reads) item.1
      ({ world with runtimeDue := rest, resolver := answer.2 },
        [.runtime (PidRuntime.dueRow item answer.1)])
  | .readTcp order =>
    if world.tcpDue.isEmpty then
      ({ world with
        tcp := (TcpStats.readAndClear world.tcp).1, tcpDue := TcpStats.due order world.tcp }, [])
    else (world, [])
  | .resolveTcp reads =>
    match world.tcpDue with
    | [] => (world, [])
    | item :: rest =>
      let answer := world.resolver.resolve (world.procFs reads) item.tgid
      ({ world with tcpDue := rest, resolver := answer.2 },
        [.tcp (TcpStats.dueRow item answer.1)])
  | .evict drops => ({ world with resolver := evictCache drops world.resolver }, [])

/-- The world as a machine. -/
def worldMachine (cpus : Nat) (layout : Layout UInt32) :
    Machine (World cpus) (Event cpus) Report :=
  ⟨World.step layout⟩

/-- A moment of a run of the world. -/
abbrev WorldMoment (cpus : Nat) := World cpus × Event cpus

/-- The steps of the CPU account and its collector. -/
def Event.ofRuntime : Event cpus → Bool
  | .switch _ _ _ _ => true
  | .readRuntime _ => true
  | .resolveRuntime _ => true
  | _ => false

/-- The steps of the TCP account and its collector. -/
def Event.ofTcp : Event cpus → Bool
  | .tcp _ _ _ => true
  | .readTcp _ => true
  | .resolveTcp _ => true
  | _ => false

/-- No other step touches the CPU account. -/
theorem World.runtime_frame (layout : Layout UInt32) (world : World cpus) (event : Event cpus)
    (other : event.ofRuntime = false) :
    (world.step layout event).1.acct = world.acct ∧
      (world.step layout event).1.runtime = world.runtime ∧
      (world.step layout event).1.runtimeDue = world.runtimeDue := by
  cases event with
  | switch cpu now prev next => cases other
  | readRuntime order => cases other
  | resolveRuntime reads => cases other
  | exit pid => exact ⟨rfl, rfl, rfl⟩
  | tcp cpu tgid probe => exact ⟨rfl, rfl, rfl⟩
  | evict drops => exact ⟨rfl, rfl, rfl⟩
  | create pid process => cases held : world.process pid <;> simp [World.step, held]
  | readTcp order => cases idle : world.tcpDue.isEmpty <;> simp [World.step, idle]
  | resolveTcp reads => cases pending : world.tcpDue <;> simp [World.step, pending]

/-- No other step touches the TCP account. -/
theorem World.tcp_frame (layout : Layout UInt32) (world : World cpus) (event : Event cpus)
    (other : event.ofTcp = false) :
    (world.step layout event).1.tcp = world.tcp ∧
      (world.step layout event).1.tcpDue = world.tcpDue := by
  cases event with
  | tcp cpu tgid probe => cases other
  | readTcp order => cases other
  | resolveTcp reads => cases other
  | exit pid => exact ⟨rfl, rfl⟩
  | switch cpu now prev next => exact ⟨rfl, rfl⟩
  | evict drops => exact ⟨rfl, rfl⟩
  | create pid process => cases held : world.process pid <;> simp [World.step, held]
  | readRuntime order => cases idle : world.runtimeDue.isEmpty <;> simp [World.step, idle]
  | resolveRuntime reads => cases pending : world.runtimeDue <;> simp [World.step, pending]

/-! ## Whole polls

Resolving every pid that is due with nothing in between is the poll of the source. -/

/-- Resolving all that is pending, one at a time, is `resolveAll`: for the event that resolves the
next of the items that `pending` reads and `resume` replaces. -/
theorem resolve_rounds {α β : Type} (layout : Layout UInt32) (event : Event cpus)
    (reads : Readable) (pending : World cpus → List α)
    (resume : World cpus → List α → Resolver → World cpus) (pidOf : α → UInt32)
    (row : α → GoString → β) (report : β → Report)
    (round : ∀ world item rest, pending world = item :: rest →
      let answer := world.resolver.resolve (world.procFs reads) (pidOf item)
      world.step layout event = (resume world rest answer.2, [report (row item answer.1)]))
    (left : ∀ world rest resolver, pending (resume world rest resolver) = rest)
    (learnt : ∀ world rest resolver, (resume world rest resolver).resolver = resolver)
    (files : ∀ world rest resolver,
      (resume world rest resolver).procFs reads = world.procFs reads)
    (again : ∀ world rest later resolver next,
      resume (resume world rest resolver) later next = resume world later next)
    (same : ∀ world, resume world (pending world) world.resolver = world) (world : World cpus) :
    let resolved := resolveAll (fun resolver pid =>
      Resolver.resolve resolver (world.procFs reads) pid) pidOf row (pending world) world.resolver
    (worldMachine cpus layout).outputs world (List.replicate (pending world).length event) =
      resolved.1.map report ∧
    (worldMachine cpus layout).final world (List.replicate (pending world).length event) =
      resume world [] resolved.2 := by
  have loop (items : List α) (current : World cpus) (due : pending current = items)
      (proc : current.procFs reads = world.procFs reads) :
      let resolved := resolveAll (fun resolver pid =>
        Resolver.resolve resolver (world.procFs reads) pid) pidOf row items current.resolver
      (worldMachine cpus layout).outputs current (List.replicate items.length event) =
        resolved.1.map report ∧
      (worldMachine cpus layout).final current (List.replicate items.length event) =
        resume current [] resolved.2 := by
    induction items generalizing current with
    | nil =>
      have unchanged := same current
      rw [due] at unchanged
      exact ⟨rfl, unchanged.symm⟩
    | cons item items ih =>
      have step := round current item items due
      dsimp only at step
      rw [proc] at step
      have rest := ih (resume current items
        (current.resolver.resolve (world.procFs reads) (pidOf item)).2) (left _ _ _)
        ((files _ _ _).trans proc)
      rw [learnt] at rest
      rw [List.length_cons, List.replicate_succ, Machine.outputs_cons, Machine.final_cons]
      dsimp only [worldMachine] at rest ⊢
      rw [step, rest.1, rest.2, again]
      exact ⟨rfl, rfl⟩
  exact loop (pending world) world rfl rfl

/-- A `pidruntime` poll with no other step between is `pollOnce`. -/
theorem poll_runtime (layout : Layout UInt32) (world : World cpus)
    (order : RangeOrder UInt32 UInt64) (reads : Readable) (idle : world.runtimeDue = []) :
    let due := PidRuntime.due order world.acct world.runtime
    let polled := PidRuntime.pollOnce (fun resolver pid =>
      resolver.resolve (world.procFs reads) pid) order world.acct world.runtime world.resolver
    let events : List (Event cpus) :=
      .readRuntime order :: List.replicate due.2.length (.resolveRuntime reads)
    (worldMachine cpus layout).outputs world events = polled.2.1.map .runtime ∧
    (worldMachine cpus layout).final world events =
      { world with runtime := polled.1, resolver := polled.2.2 } := by
  intro due polled events
  have read : (worldMachine cpus layout).step world (.readRuntime order) =
      ({ world with runtime := ⟨due.1⟩, runtimeDue := due.2 }, []) := by
    show World.step layout world (.readRuntime order) = _
    simp only [World.step, idle, List.isEmpty_nil, if_true, due]
  have whole := PidRuntime.pollOnce_eq (fun resolver pid =>
      Resolver.resolve resolver (world.procFs reads) pid) order world.acct world.runtime
    world.resolver
  have round (current : World cpus) (item : UInt32 × UInt64) (rest : List (UInt32 × UInt64))
      (pending : current.runtimeDue = item :: rest) :
      let answer := current.resolver.resolve (current.procFs reads) item.1
      current.step layout (.resolveRuntime reads) =
        ({ current with runtimeDue := rest, resolver := answer.2 },
          [.runtime (PidRuntime.dueRow item answer.1)]) := by
    simp only [World.step, pending]
  have rounds := resolve_rounds layout (.resolveRuntime reads) reads World.runtimeDue
    (fun world rest resolver => { world with runtimeDue := rest, resolver := resolver }) Prod.fst
    PidRuntime.dueRow .runtime round (fun _ _ _ => rfl) (fun _ _ _ => rfl) (fun _ _ _ => rfl)
    (fun _ _ _ _ _ => rfl) (fun _ => rfl)
    { world with runtime := ⟨due.1⟩, runtimeDue := due.2 }
  simp only [events, Machine.outputs_cons, Machine.final_cons, read, List.nil_append, rounds.1,
    rounds.2, polled, whole, due, ← idle]
  exact ⟨rfl, rfl⟩

/-- A `tcpstats` poll with no other step between is `pollOnce`. -/
theorem poll_tcp (layout : Layout UInt32) (world : World cpus)
    (order : RangeOrder UInt32 TcpStats.Stats) (reads : Readable) (idle : world.tcpDue = []) :
    let due := TcpStats.due order world.tcp
    let polled := TcpStats.pollOnce (fun resolver pid =>
      resolver.resolve (world.procFs reads) pid) order world.tcp world.resolver
    let events : List (Event cpus) :=
      .readTcp order :: List.replicate due.length (.resolveTcp reads)
    (worldMachine cpus layout).outputs world events = polled.2.1.map .tcp ∧
    (worldMachine cpus layout).final world events =
      { world with tcp := polled.1, resolver := polled.2.2 } := by
  intro due polled events
  have read : (worldMachine cpus layout).step world (.readTcp order) =
      ({ world with tcp := (TcpStats.readAndClear world.tcp).1, tcpDue := due }, []) := by
    show World.step layout world (.readTcp order) = _
    simp only [World.step, idle, List.isEmpty_nil, if_true, due]
  have whole := TcpStats.pollOnce_eq (fun resolver pid =>
      Resolver.resolve resolver (world.procFs reads) pid) order world.tcp world.resolver
  have round (current : World cpus) (item : TcpStats.Stats) (rest : List TcpStats.Stats)
      (pending : current.tcpDue = item :: rest) :
      let answer := current.resolver.resolve (current.procFs reads) item.tgid
      current.step layout (.resolveTcp reads) =
        ({ current with tcpDue := rest, resolver := answer.2 },
          [.tcp (TcpStats.dueRow item answer.1)]) := by
    simp only [World.step, pending]
  have rounds := resolve_rounds layout (.resolveTcp reads) reads World.tcpDue
    (fun world rest resolver => { world with tcpDue := rest, resolver := resolver })
    TcpStats.Stats.tgid TcpStats.dueRow .tcp round (fun _ _ _ => rfl) (fun _ _ _ => rfl)
    (fun _ _ _ => rfl) (fun _ _ _ _ _ => rfl) (fun _ => rfl)
    { world with tcp := (TcpStats.readAndClear world.tcp).1, tcpDue := due }
  simp only [events, Machine.outputs_cons, Machine.final_cons, read, List.nil_append, rounds.1,
    rounds.2, polled, whole, due, ← idle]
  exact ⟨rfl, rfl⟩

end ContainerAnomaly.Accounting
