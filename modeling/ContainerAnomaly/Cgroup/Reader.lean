import ContainerAnomaly.Lib.GoString

/-!
# The cgroup of a container

`pkg/cgroup/reader.go`: the statistics of a cgroup, the parsers of the files they are read from,
`Read`, and `PathForContainer`, which gives the systemd scope directory when it exists, and
otherwise the first cgroup of the container's init process whose path contains the container id.
A parser whose file cannot be opened returns the zero value of its record, and `Read` succeeds.
-/

namespace ContainerAnomaly.Cgroup

open Lib

/-- `CPUStat`. -/
structure CPUStat where
  /-- The time used. -/
  usageUsec : UInt64 := 0
  /-- The time used in user mode. -/
  userUsec : UInt64 := 0
  /-- The time used in the kernel. -/
  systemUsec : UInt64 := 0
  /-- The periods of the quota. -/
  nrPeriods : UInt64 := 0
  /-- The periods in which it was used up. -/
  nrThrottled : UInt64 := 0
  /-- The time for which it was used up. -/
  throttledUsec : UInt64 := 0

/-- `PressureLine`. -/
structure PressureLine where
  /-- The share of the last ten seconds, in percent. -/
  avg10 : Float := 0
  /-- The share of the last minute. -/
  avg60 : Float := 0
  /-- The share of the last five minutes. -/
  avg300 : Float := 0
  /-- The time stalled. -/
  total : UInt64 := 0

/-- `Pressure`. -/
structure Pressure where
  /-- Some tasks were stalled. -/
  some : PressureLine := {}
  /-- All tasks were stalled. -/
  full : PressureLine := {}

/-- `MemoryStat`. -/
structure MemoryStat where
  /-- The bytes in use. -/
  current : UInt64 := 0
  /-- The limit, zero for none. -/
  max : UInt64 := 0
  /-- The processes killed for want of memory. -/
  oomKill : UInt64 := 0
  /-- `memory.pressure`. -/
  pressure : Pressure := {}

/-- `IOStat`. -/
structure IOStat where
  /-- The bytes read. -/
  rBytes : UInt64 := 0
  /-- The bytes written. -/
  wBytes : UInt64 := 0
  /-- The reads. -/
  rIOS : UInt64 := 0
  /-- The writes. -/
  wIOS : UInt64 := 0

/-- `Stats`. -/
structure Stats where
  /-- `cpu.stat`. -/
  cpu : CPUStat := {}
  /-- `cpu.pressure`. -/
  cpuPressure : Pressure := {}
  /-- The files of memory. -/
  memory : MemoryStat := {}
  /-- `io.stat`. -/
  io : IOStat := {}

/-- The value of a number, which is also returned beside an error. -/
def number (text : GoString) : UInt64 := text.parseUint.1

/-- Key and value of `key=value`, where there is a `=`. -/
def keyValue (kv : GoString) : Option (GoString × GoString) :=
  (kv.index (lit "=")).map fun eq => (kv.take eq, kv.drop (eq + 1))

/-- A line of `cpu.stat`. -/
def CPUStat.readLine (s : CPUStat) (line : GoString) : CPUStat :=
  match line.fields with
  | [key, value] =>
    let n := number value
    if key = lit "usage_usec" then { s with usageUsec := n }
    else if key = lit "user_usec" then { s with userUsec := n }
    else if key = lit "system_usec" then { s with systemUsec := n }
    else if key = lit "nr_periods" then { s with nrPeriods := n }
    else if key = lit "nr_throttled" then { s with nrThrottled := n }
    else if key = lit "throttled_usec" then { s with throttledUsec := n }
    else s
  | _ => s

/-- `readCPUStat`, of a file that is `none` when it cannot be opened. -/
def readCPUStat : Option GoString → CPUStat
  | none => {}
  | some text => text.scanLines.foldl CPUStat.readLine {}

/-- A field of a line of `io.stat`. -/
def IOStat.readField (s : IOStat) (kv : GoString) : IOStat :=
  match keyValue kv with
  | none => s
  | some (k, v) =>
    let n := number v
    if k = lit "rbytes" then { s with rBytes := s.rBytes + n }
    else if k = lit "wbytes" then { s with wBytes := s.wBytes + n }
    else if k = lit "rios" then { s with rIOS := s.rIOS + n }
    else if k = lit "wios" then { s with wIOS := s.wIOS + n }
    else s

/-- A line of `io.stat`. -/
def IOStat.readLine (s : IOStat) (line : GoString) : IOStat :=
  if line.fields.length < 2 then s else (line.fields.drop 1).foldl IOStat.readField s

/-- `readIOStat`, of a file that is `none` when it cannot be opened. -/
def readIOStat : Option GoString → IOStat
  | none => {}
  | some text => text.scanLines.foldl IOStat.readLine {}

section Floats

/-! `strconv.ParseFloat` is a parameter, with the value it returns beside an error. -/

variable (parseFloat : GoString → Float)

/-- A field of a line of a pressure file. -/
def PressureLine.readField (p : PressureLine) (kv : GoString) : PressureLine :=
  match keyValue kv with
  | none => p
  | some (k, v) =>
    if k = lit "avg10" then { p with avg10 := parseFloat v }
    else if k = lit "avg60" then { p with avg60 := parseFloat v }
    else if k = lit "avg300" then { p with avg300 := parseFloat v }
    else if k = lit "total" then { p with total := number v }
    else p

/-- A line of a pressure file. -/
def Pressure.readLine (p : Pressure) (line : GoString) : Pressure :=
  let kvs := line.fields.drop 1
  if (lit "some").isPrefixOf line then
    { p with some := kvs.foldl (PressureLine.readField parseFloat) p.some }
  else if (lit "full").isPrefixOf line then
    { p with full := kvs.foldl (PressureLine.readField parseFloat) p.full }
  else p

/-- `readPressure`, of a file that is `none` when it cannot be opened, without its error. -/
def readPressure : Option GoString → Pressure
  | none => {}
  | some text => text.scanLines.foldl (Pressure.readLine parseFloat) {}

/-- What the reader sees of the files of a cgroup. -/
structure CgroupFiles where
  /-- `os.Stat` succeeds. -/
  stat : GoString → Bool
  /-- What a scanner gets of a file, `none` when `os.Open` fails. -/
  openFile : GoString → Option GoString
  /-- `os.ReadFile`, `none` for an error. -/
  readFile : GoString → Option GoString

/-- The kills that a line of `memory.events` tells of. -/
def readOOMKill (kills : UInt64) (line : GoString) : UInt64 :=
  match line.fields with
  | [key, value] => if key = lit "oom_kill" then number value else kills
  | _ => kills

/-- `readMemory`. -/
def readMemory (files : CgroupFiles) (cgPath : GoString) : MemoryStat where
  current :=
    match files.readFile (GoString.joinPath [cgPath, lit "memory.current"]) with
    | none => 0
    | some text => number text.trimSpace
  max :=
    match files.readFile (GoString.joinPath [cgPath, lit "memory.max"]) with
    | none => 0
    | some text => if text.trimSpace = lit "max" then 0 else number text.trimSpace
  oomKill :=
    match files.openFile (GoString.joinPath [cgPath, lit "memory.events"]) with
    | none => 0
    | some text => text.scanLines.foldl readOOMKill 0
  pressure := readPressure parseFloat
    (files.openFile (GoString.joinPath [cgPath, lit "memory.pressure"]))

/-- `Read`, `none` for the error "cgroup path missing". -/
def read (files : CgroupFiles) (cgPath : GoString) : Option Stats :=
  if files.stat cgPath then
    some {
      cpu := readCPUStat (files.openFile (GoString.joinPath [cgPath, lit "cpu.stat"]))
      cpuPressure := readPressure parseFloat
        (files.openFile (GoString.joinPath [cgPath, lit "cpu.pressure"]))
      memory := readMemory parseFloat files cgPath
      io := readIOStat (files.openFile (GoString.joinPath [cgPath, lit "io.stat"])) }
  else none

end Floats

/-- What the reader sees of the file system. -/
structure CgroupFs where
  /-- `os.Stat` succeeds. -/
  stat : GoString → Bool
  /-- The contents of `/proc/<pid>/cgroup`, `none` when it cannot be read. -/
  procCgroup : Int → Option GoString

/-- The directory of a line of `/proc/<pid>/cgroup`, when it contains the container id. -/
def pathOfLine (root cid line : GoString) : Option GoString :=
  match line.index (lit "::") with
  | none => none
  | some idx =>
    let rel := GoString.trimSpace (line.drop (idx + 2))
    if rel.contains cid then some (GoString.joinPath [root, rel]) else none

/-- `PathForContainer`, `none` for the error "cgroup path not found". -/
def pathForContainer (fs : CgroupFs) (root cid : GoString) (initPid : Int) : Option GoString :=
  let systemd := GoString.joinPath
    [root, lit "system.slice", lit "docker-" ++ cid ++ lit ".scope"]
  if fs.stat systemd then some systemd
  else if initPid > 0 then
    match fs.procCgroup initPid with
    | none => none
    | some raw => (raw.splitOn GoString.newline).findSome? (pathOfLine root cid)
  else none

end ContainerAnomaly.Cgroup
