import ContainerAnomaly.Cgroup.Reader
import ContainerAnomaly.Collector.PidRuntime
import ContainerAnomaly.Collector.Syscalls
import ContainerAnomaly.Collector.TcpStats
import ContainerAnomaly.Lib.Machine

/-!
# The feature aggregator

`pkg/feature/aggregator.go`. The collectors' snapshots are merged into one accumulator for each
container id, and every window tick turns each accumulator into a vector and resets it. The
aggregator is a machine whose inputs are its ingest methods and its ticks.
-/

namespace ContainerAnomaly.Feature

open Lib

/-- `time.Time`, in nanoseconds since the zero time. -/
abbrev Time := Int

/-- `time.Duration`, in nanoseconds. -/
abbrev Duration := Int

/-- `Vector`. -/
structure Vector where
  /-- When the window starts. -/
  windowStart : Time := 0
  /-- When it ends. -/
  windowEnd : Time := 0
  /-- Empty for the host. -/
  containerID : GoString := []
  /-- The name of the container. -/
  name : GoString := []
  /-- Its image. -/
  image : GoString := []
  /-- The processes that exited in the window. -/
  procExits : UInt64 := 0
  /-- Those that a signal ended. -/
  procCrashes : UInt64 := 0
  /-- The bytes sent in the window. -/
  tcpBytesTx : UInt64 := 0
  /-- The bytes received. -/
  tcpBytesRx : UInt64 := 0
  /-- The segments sent again. -/
  tcpRetrans : UInt64 := 0
  /-- The time run in the window. -/
  cpuRuntimeNS : UInt64 := 0
  /-- All syscalls of the window. -/
  sysTotal : UInt64 := 0
  /-- Calls that open files. -/
  sysFileOpen : UInt64 := 0
  /-- Calls that close files. -/
  sysFileClose : UInt64 := 0
  /-- Calls that read. -/
  sysFileRead : UInt64 := 0
  /-- Calls that write. -/
  sysFileWrite : UInt64 := 0
  /-- Calls that remove files. -/
  sysFileUnlink : UInt64 := 0
  /-- Calls that rename files. -/
  sysFileRename : UInt64 := 0
  /-- Calls that change modes or owners. -/
  sysFilePerm : UInt64 := 0
  /-- Calls that make sockets. -/
  sysNetSocket : UInt64 := 0
  /-- Calls that connect. -/
  sysNetConnect : UInt64 := 0
  /-- Calls that bind. -/
  sysNetBind : UInt64 := 0
  /-- Calls that listen. -/
  sysNetListen : UInt64 := 0
  /-- Calls that accept. -/
  sysNetAccept : UInt64 := 0
  /-- Calls that send. -/
  sysNetSend : UInt64 := 0
  /-- Calls that receive. -/
  sysNetRecv : UInt64 := 0
  /-- Calls that execute programs. -/
  sysProcExec : UInt64 := 0
  /-- Calls that make processes or threads. -/
  sysProcFork : UInt64 := 0
  /-- Calls that send signals. -/
  sysProcKill : UInt64 := 0
  /-- Calls that may change privileges. -/
  sysPrivEscalate : UInt64 := 0
  /-- Calls that may leave a container. -/
  sysEscapeAttempt : UInt64 := 0
  /-- Calls that change the memory of a process. -/
  sysMemLayout : UInt64 := 0
  /-- All other calls. -/
  sysOther : UInt64 := 0
  /-- The CPU time of the window in milliseconds. -/
  cgroupCPUUsageMS : UInt64 := 0
  /-- The throttled share, in percent. -/
  cgroupCPUThrottlePct : Float := 0
  /-- The memory in use, in mebibytes. -/
  cgroupMemCurrentMB : UInt64 := 0
  /-- `some avg10` of `memory.pressure`. -/
  cgroupMemPressure : Float := 0
  /-- `oom_kill` of `memory.events`. -/
  cgroupOOMKills : UInt64 := 0
  /-- The mebibytes read in the window. -/
  cgroupIOReadMB : UInt64 := 0
  /-- The mebibytes written in the window. -/
  cgroupIOWriteMB : UInt64 := 0

/-- `accumulator`. -/
structure Accumulator where
  /-- The vector of the window so far. -/
  v : Vector := {}
  /-- `usage_usec` of the last sample that had one. -/
  prevCPUUsageUsec : UInt64 := 0
  /-- The bytes read, as the last sample that had them said. -/
  prevIORead : UInt64 := 0
  /-- The bytes written, likewise. -/
  prevIOWrite : UInt64 := 0

/-- `Aggregator`, with the `windowStart` that `Run` keeps from tick to tick. -/
structure Aggregator where
  /-- The length of a window. -/
  window : Duration
  /-- The accumulators, by container. -/
  acc : GoMap GoString Accumulator
  /-- The start of the window. -/
  windowStart : Time

/-- `New`. -/
def Aggregator.new (window : Duration) : Aggregator := ⟨window, ∅, 0⟩

/-- The two increments of `IngestExit`. -/
def Accumulator.addExit (crash : Bool) (ac : Accumulator) : Accumulator :=
  { ac with v := { ac.v with
    procExits := ac.v.procExits + 1
    procCrashes := if crash then ac.v.procCrashes + 1 else ac.v.procCrashes } }

/-- The additions of `IngestTCP` for a row. -/
def Accumulator.addTCP (row : TcpStats.Stats) (ac : Accumulator) : Accumulator :=
  { ac with v := { ac.v with
    tcpBytesTx := ac.v.tcpBytesTx + row.bytesTx
    tcpBytesRx := ac.v.tcpBytesRx + row.bytesRx
    tcpRetrans := ac.v.tcpRetrans + row.retransmits } }

/-- The addition of `IngestCPU` for a row. -/
def Accumulator.addCPU (row : PidRuntime.Row) (ac : Accumulator) : Accumulator :=
  { ac with v := { ac.v with cpuRuntimeNS := ac.v.cpuRuntimeNS + row.runtimeNS } }

/-- The additions of `IngestSyscalls` for a row. -/
def Accumulator.addSyscalls (row : Syscalls.Row) (ac : Accumulator) : Accumulator :=
  let c := row.counts
  { ac with v := { ac.v with
    sysTotal := ac.v.sysTotal + c.total
    sysFileOpen := ac.v.sysFileOpen + c.fileOpen
    sysFileClose := ac.v.sysFileClose + c.fileClose
    sysFileRead := ac.v.sysFileRead + c.fileRead
    sysFileWrite := ac.v.sysFileWrite + c.fileWrite
    sysFileUnlink := ac.v.sysFileUnlink + c.fileUnlink
    sysFileRename := ac.v.sysFileRename + c.fileRename
    sysFilePerm := ac.v.sysFilePerm + c.filePerm
    sysNetSocket := ac.v.sysNetSocket + c.netSocket
    sysNetConnect := ac.v.sysNetConnect + c.netConnect
    sysNetBind := ac.v.sysNetBind + c.netBind
    sysNetListen := ac.v.sysNetListen + c.netListen
    sysNetAccept := ac.v.sysNetAccept + c.netAccept
    sysNetSend := ac.v.sysNetSend + c.netSend
    sysNetRecv := ac.v.sysNetRecv + c.netRecv
    sysProcExec := ac.v.sysProcExec + c.procExec
    sysProcFork := ac.v.sysProcFork + c.procFork
    sysProcKill := ac.v.sysProcKill + c.procKill
    sysPrivEscalate := ac.v.sysPrivEscalate + c.privEscalate
    sysEscapeAttempt := ac.v.sysEscapeAttempt + c.escapeAttempt
    sysMemLayout := ac.v.sysMemLayout + c.memLayout
    sysOther := ac.v.sysOther + c.other } }

/-- The body of `IngestCgroup`. -/
def Accumulator.setCgroup (name image : GoString) (s : Cgroup.Stats) (ac : Accumulator) :
    Accumulator where
  v := { ac.v with
    name := name
    image := image
    cgroupCPUUsageMS :=
      if s.cpu.usageUsec ≥ ac.prevCPUUsageUsec then (s.cpu.usageUsec - ac.prevCPUUsageUsec) / 1000
      else ac.v.cgroupCPUUsageMS
    cgroupCPUThrottlePct :=
      if s.cpu.nrPeriods > 0 then s.cpu.nrThrottled.toFloat / s.cpu.nrPeriods.toFloat * 100
      else ac.v.cgroupCPUThrottlePct
    cgroupMemCurrentMB := s.memory.current / 1024 / 1024
    cgroupMemPressure := s.memory.pressure.some.avg10
    cgroupOOMKills := s.memory.oomKill
    cgroupIOReadMB :=
      if s.io.rBytes ≥ ac.prevIORead then (s.io.rBytes - ac.prevIORead) / 1024 / 1024
      else ac.v.cgroupIOReadMB
    cgroupIOWriteMB :=
      if s.io.wBytes ≥ ac.prevIOWrite then (s.io.wBytes - ac.prevIOWrite) / 1024 / 1024
      else ac.v.cgroupIOWriteMB }
  prevCPUUsageUsec := s.cpu.usageUsec
  prevIORead := s.io.rBytes
  prevIOWrite := s.io.wBytes

namespace Aggregator

/-- Change the accumulator that `accFor` returns. -/
def change (a : Aggregator) (cid : GoString) (body : Accumulator → Accumulator) : Aggregator :=
  { a with acc := a.acc.upsert {} cid body }

/-- `IngestExit`. -/
def ingestExit (a : Aggregator) (containerID : GoString) (crash : Bool) : Aggregator :=
  a.change containerID (.addExit crash)

/-- `IngestTCP`. -/
def ingestTCP (a : Aggregator) (rows : List TcpStats.Stats) : Aggregator :=
  rows.foldl (fun a row => a.change row.containerID (.addTCP row)) a

/-- `IngestCPU`. -/
def ingestCPU (a : Aggregator) (rows : List PidRuntime.Row) : Aggregator :=
  rows.foldl (fun a row => a.change row.containerID (.addCPU row)) a

/-- `IngestSyscalls`. -/
def ingestSyscalls (a : Aggregator) (rows : List Syscalls.Row) : Aggregator :=
  rows.foldl (fun a row => a.change row.containerID (.addSyscalls row)) a

/-- `IngestCgroup`. -/
def ingestCgroup (a : Aggregator) (cid name image : GoString) (s : Cgroup.Stats) : Aggregator :=
  a.change cid (.setCgroup name image s)

end Aggregator

/-- A tick of the window: its time, the order in which it ranges over the accumulators, and what
`ResolveName` answers while it does, when it is set. -/
structure Tick where
  /-- The time of the tick. -/
  time : Time
  /-- The clock of the host is past the zero time. -/
  nonzero : time ≠ 0
  /-- The order in which the accumulators are ranged over. -/
  order : RangeOrder GoString Accumulator
  /-- `ResolveName` with its answers at this tick, `none` when it is not set. -/
  resolveName : Option (GoString → GoString × GoString)

/-- Fill in name and image when `IngestCgroup` has not; the answer is that of `ResolveName`, when
it is set. -/
def Vector.backfill (v : Vector) (answer : Option (GoString × GoString)) : Vector :=
  match answer with
  | some (name, image) =>
    if v.containerID ≠ [] ∧ v.name = [] then { v with name := name, image := image } else v
  | none => v

/-- The vector that an accumulator is finalized into. -/
def Accumulator.finalize (ac : Accumulator) (windowStart windowEnd : Time) (cid : GoString)
    (answer : Option (GoString × GoString)) : Vector :=
  { ac.v with windowStart := windowStart, windowEnd := windowEnd, containerID := cid }.backfill
    answer

/-- What is left of an accumulator that was finalized into a vector. -/
def Accumulator.reset (ac : Accumulator) (v : Vector) : Accumulator :=
  { ac with v := { name := v.name, image := v.image } }

/-- The tick case of `Run`: the aggregator after it and the vectors sent. -/
def Aggregator.tick (a : Aggregator) (tick : Tick) : Aggregator × List Vector :=
  let windowStart := if a.windowStart = 0 then tick.time - a.window else a.windowStart
  let result := (a.acc.range tick.order).foldl
    (fun (state : GoMap GoString Accumulator × List Vector) entry =>
      let v := entry.2.finalize windowStart tick.time entry.1 (tick.resolveName.map (· entry.1))
      (state.1.insert entry.1 (entry.2.reset v), state.2 ++ [v]))
    (a.acc, [])
  ({ a with acc := result.1, windowStart := tick.time }, result.2)

/-- The inputs of the aggregator. -/
inductive Input where
  | exit (containerID : GoString) (crash : Bool)
  | tcp (rows : List TcpStats.Stats)
  | cpu (rows : List PidRuntime.Row)
  | syscalls (rows : List Syscalls.Row)
  | cgroup (cid name image : GoString) (s : Cgroup.Stats)
  | tick (tick : Tick)

/-- One step of the aggregator; only a tick emits vectors. -/
def Aggregator.step (a : Aggregator) : Input → Aggregator × List Vector
  | .exit containerID crash => (a.ingestExit containerID crash, [])
  | .tcp rows => (a.ingestTCP rows, [])
  | .cpu rows => (a.ingestCPU rows, [])
  | .syscalls rows => (a.ingestSyscalls rows, [])
  | .cgroup cid name image s => (a.ingestCgroup cid name image s, [])
  | .tick tick => a.tick tick

/-- The aggregator as a machine. -/
def aggregator : Machine Aggregator Input Vector := ⟨Aggregator.step⟩

end ContainerAnomaly.Feature
