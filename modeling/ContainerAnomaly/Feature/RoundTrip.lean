import ContainerAnomaly.Feature.Encoder
import ContainerAnomaly.Lib.Calendar
import ContainerAnomaly.Lib.Csv
import ContainerAnomaly.Lib.Fixed

/-!
# Reading a feature row back

What can be read back from the line of a vector: each cell, looked up by its name in the headers,
gives the field of that name. Identities and counters come back as they were, percentages to four
decimals, and of a time stamp the wall clock of its location, to the second (`line_recovers`). A
location that puts its clocks back shows an hour twice, and the layout has no zone to tell the two
apart (`repeated_hour`).
-/

namespace ContainerAnomaly.Feature

open Lib

/-- The seconds that a clock shows in a location, given the offset of its zone at every second. -/
def wallClock (location : Int → Int) (t : Time) : Int := t / 10 ^ 9 + location (t / 10 ^ 9)

/-- What the standard library prints for vectors of a location. -/
def formatsIn (location : Int → Int) : Formats where
  time t := Calendar.stamp (wallClock location t)
  fixed4 := Fixed.fixed4

/-- The line that `Encoder.Write` writes. -/
def Vector.line (formats : Formats) (v : Vector) : GoString := Csv.writeRecord (v.record formats)

/-- A field of a vector. -/
inductive Cell where
  | time (field : Vector → Time)
  | identity (field : Vector → GoString)
  | count (field : Vector → UInt64)
  | percentage (field : Vector → Float)

/-- The field that a column is named after. -/
def layout : List (GoString × Cell) :=
  [(lit "window_start", .time Vector.windowStart),
    (lit "window_end", .time Vector.windowEnd),
    (lit "container_id", .identity Vector.containerID),
    (lit "name", .identity Vector.name),
    (lit "image", .identity Vector.image),
    (lit "proc_exits", .count Vector.procExits),
    (lit "proc_crashes", .count Vector.procCrashes),
    (lit "tcp_bytes_tx", .count Vector.tcpBytesTx),
    (lit "tcp_bytes_rx", .count Vector.tcpBytesRx),
    (lit "tcp_retrans", .count Vector.tcpRetrans),
    (lit "cpu_runtime_ns", .count Vector.cpuRuntimeNS),
    (lit "sys_total", .count Vector.sysTotal),
    (lit "sys_file_open", .count Vector.sysFileOpen),
    (lit "sys_file_close", .count Vector.sysFileClose),
    (lit "sys_file_read", .count Vector.sysFileRead),
    (lit "sys_file_write", .count Vector.sysFileWrite),
    (lit "sys_file_unlink", .count Vector.sysFileUnlink),
    (lit "sys_file_rename", .count Vector.sysFileRename),
    (lit "sys_file_perm", .count Vector.sysFilePerm),
    (lit "sys_net_socket", .count Vector.sysNetSocket),
    (lit "sys_net_connect", .count Vector.sysNetConnect),
    (lit "sys_net_bind", .count Vector.sysNetBind),
    (lit "sys_net_listen", .count Vector.sysNetListen),
    (lit "sys_net_accept", .count Vector.sysNetAccept),
    (lit "sys_net_send", .count Vector.sysNetSend),
    (lit "sys_net_recv", .count Vector.sysNetRecv),
    (lit "sys_proc_exec", .count Vector.sysProcExec),
    (lit "sys_proc_fork", .count Vector.sysProcFork),
    (lit "sys_proc_kill", .count Vector.sysProcKill),
    (lit "sys_priv_escalate", .count Vector.sysPrivEscalate),
    (lit "sys_escape_attempt", .count Vector.sysEscapeAttempt),
    (lit "sys_mem_layout", .count Vector.sysMemLayout),
    (lit "sys_other", .count Vector.sysOther),
    (lit "cg_cpu_usage_ms", .count Vector.cgroupCPUUsageMS),
    (lit "cg_cpu_throttle_pct", .percentage Vector.cgroupCPUThrottlePct),
    (lit "cg_mem_current_mb", .count Vector.cgroupMemCurrentMB),
    (lit "cg_mem_pressure", .percentage Vector.cgroupMemPressure),
    (lit "cg_oom_kills", .count Vector.cgroupOOMKills),
    (lit "cg_io_read_mb", .count Vector.cgroupIOReadMB),
    (lit "cg_io_write_mb", .count Vector.cgroupIOWriteMB)]

/-- The text of a field. -/
def Cell.print (formats : Formats) (v : Vector) : Cell → GoString
  | .time field => formats.time (field v)
  | .identity field => field v
  | .count field => utoa (field v)
  | .percentage field => ftoa formats (field v)

/-- A text gives a field back, when time stamps are read by `readTime` and show `shown`. -/
def Cell.Recovered (readTime : GoString → Int) (shown : Time → Int) (v : Vector)
    (text : GoString) : Cell → Prop
  | .time field => readTime text = shown (field v)
  | .identity field => text = field v
  | .count field => text.parseUint = (field v, none)
  | .percentage field => (Fixed.readQuantity text).Near (1 / 20000) (Fixed.quantity (field v))

/-- Two vectors agree in a field, in a percentage as far as it is printed. -/
def Cell.Agrees (location : Int → Int) (v w : Vector) : Cell → Prop
  | .time field => wallClock location (field v) = wallClock location (field w)
  | .identity field => field v = field w
  | .count field => field v = field w
  | .percentage field =>
    Fixed.readQuantity (ftoa (formatsIn location) (field v)) =
      Fixed.readQuantity (ftoa (formatsIn location) (field w))

/-- The identity of a vector has no carriage return. -/
structure Vector.Clean (v : Vector) : Prop where
  /-- The id has none. -/
  containerID : Csv.carriageReturn ∉ v.containerID
  /-- The name has none. -/
  name : Csv.carriageReturn ∉ v.name
  /-- The image has none. -/
  image : Csv.carriageReturn ∉ v.image

/-- The line of a vector is read as a record that gives back the field of every column. -/
def Recovers (location : Int → Int) (readTime : GoString → Int) (shown : Time → Int)
    (v : Vector) : Prop :=
  ∃ record, Csv.read (v.line (formatsIn location)) = some (record, []) ∧
    ∀ column ∈ layout, ∃ text, cellOf record column.1 = some text ∧
      column.2.Recovered readTime shown v text

/-- The columns of the layout are the headers. -/
theorem headers_eq : headers = layout.map Prod.fst := rfl

/-- No two columns have one name. -/
theorem nodup_headers : headers.Nodup := by decide +kernel

/-- A record has the fields in the order of the headers. -/
theorem record_eq (formats : Formats) (v : Vector) :
    v.record formats = layout.map fun column => column.2.print formats v := rfl

/-- The field of a column stands under its name. -/
theorem cellOf_layout (formats : Formats) (v : Vector) {column : GoString × Cell}
    (listed : column ∈ layout) :
    cellOf (v.record formats) column.1 = some (column.2.print formats v) := by
  obtain ⟨i, lt, rfl⟩ := List.mem_iff_getElem.mp listed
  have position : headers.idxOf (layout[i]).1 = i := by
    have there : headers[i]? = some (layout[i]).1 := by simp [headers_eq, lt]
    obtain ⟨inside, same⟩ := List.getElem?_eq_some_iff.mp there
    rw [← same]
    exact nodup_headers.idxOf_getElem i inside
  have present : (layout[i]).1 ∈ headers := by
    rw [headers_eq]
    exact List.mem_map_of_mem (List.getElem_mem lt)
  rw [cellOf, lookup_zip _ _ _ present, position, record_eq, List.getElem?_map,
    List.getElem?_eq_getElem lt]
  rfl

/-- The text of a field gives it back. -/
theorem recovered_print (location : Int → Int) (v : Vector) (cell : Cell) :
    cell.Recovered Calendar.readStamp (wallClock location) v
      (cell.print (formatsIn location) v) := by
  cases cell with
  | time field => exact Calendar.readStamp_stamp _
  | identity field => rfl
  | count field => exact GoString.parseUint_decimal (field v)
  | percentage field =>
    show (Fixed.readQuantity (ftoa (formatsIn location) (field v))).Near _ _
    unfold ftoa
    split
    · rename_i zero
      have read : Fixed.readQuantity (lit "0") = .number 0 := by decide +kernel
      rw [read, Fixed.quantity_eq_zero zero]
      norm_num [Quantity.Near]
    · exact Fixed.readQuantity_fixed4 (field v)

/-- The identities are the only texts that are not printed. -/
theorem Vector.Clean.identity {v : Vector} (clean : v.Clean) {name : GoString}
    {field : Vector → GoString} (listed : (name, Cell.identity field) ∈ layout) :
    Csv.carriageReturn ∉ field v := by
  have fields : name = lit "container_id" ∧ field = Vector.containerID ∨
      name = lit "name" ∧ field = Vector.name ∨ name = lit "image" ∧ field = Vector.image := by
    simpa [layout] using listed
  rcases fields with ⟨_, rfl⟩ | ⟨_, rfl⟩ | ⟨_, rfl⟩
  · exact clean.containerID
  · exact clean.name
  · exact clean.image

/-- The cells of a clean vector have no carriage return. -/
theorem Vector.Clean.record {v : Vector} (clean : v.Clean) (location : Int → Int) :
    ∀ text ∈ v.record (formatsIn location), Csv.carriageReturn ∉ text := by
  intro text inside
  rw [record_eq] at inside
  obtain ⟨⟨name, cell⟩, listed, rfl⟩ := List.mem_map.mp inside
  have low : ∀ {c : UInt8}, 43 ≤ c → Csv.carriageReturn ≠ c := by
    rintro c high rfl
    exact absurd high (by decide)
  intro there
  cases cell with
  | time field =>
    exact low (UInt8.le_trans (by decide) (Calendar.le_of_mem_stamp there)) rfl
  | identity field => exact clean.identity listed there
  | count field =>
    have digit := (GoString.isNumeral_decimal (field v).toNat).digits _ there
    exact low (UInt8.le_trans (by decide) digit.1) rfl
  | percentage field =>
    change _ ∈ ftoa _ _ at there
    unfold ftoa at there
    split at there
    · exact absurd there (by decide)
    · exact low (Fixed.le_of_mem_fixed4 there) rfl

/-- What a field is read as tells two vectors apart. -/
theorem Cell.agrees_of_print {location : Int → Int} {v w : Vector} {cell : Cell}
    (same : cell.print (formatsIn location) v = cell.print (formatsIn location) w) :
    cell.Agrees location v w := by
  have first := recovered_print location v cell
  have second := recovered_print location w cell
  rw [same] at first
  cases cell with
  | time field => exact first.symm.trans second
  | identity field => exact same
  | count field => exact (Prod.mk.inj (first.symm.trans second)).1
  | percentage field => exact congrArg Fixed.readQuantity same

/-- Encoding a vector keeps its identity, its counters, its percentages to four decimals and the
wall clocks of its time stamps to the second, each under the column of its name. -/
theorem line_recovers (location : Int → Int) :
    (headers = layout.map Prod.fst ∧ headers.Nodup) ∧
    (∀ v : Vector, v.Clean → Recovers location Calendar.readStamp (wallClock location) v) ∧
    ∀ v w : Vector, v.line (formatsIn location) = w.line (formatsIn location) →
      ∀ column ∈ layout, column.2.Agrees location v w := by
  refine ⟨⟨headers_eq, nodup_headers⟩, ?_, ?_⟩
  · intro v clean
    refine ⟨_, Csv.read_writeRecord (by simp [record_eq, layout]) (clean.record location), ?_⟩
    intro column listed
    exact ⟨_, cellOf_layout _ v listed, recovered_print location v column.2⟩
  · intro v w same column listed
    have records := Csv.writeRecord_injective (by simp [record_eq, layout])
      (by simp [record_eq, layout]) same
    have cell := cellOf_layout (formatsIn location) v listed
    rw [records, cellOf_layout (formatsIn location) w listed] at cell
    exact Cell.agrees_of_print (Option.some.inj cell).symm

/-- A vector with quotes, a separator and a line feed in its identity. -/
def quoted : Vector := { name := lit "a,\"b\"", image := [10] }

/-- It comes back from its line. -/
theorem line_recovers_quoted :
    Recovers (fun _ => 0) Calendar.readStamp (wallClock fun _ => 0) quoted :=
  (line_recovers fun _ => 0).2.1 quoted ⟨by decide, by decide, by decide⟩

/-- The zone of New York around the end of summer time in 2024. -/
def newYork (second : Int) : Int := if second < 63866210400 then -14400 else -18000

/-- No reading of time stamps tells the hour before the clocks go back from the hour after. -/
theorem repeated_hour :
    ¬ ∃ readTime, ∀ v : Vector, v.Clean → Recovers newYork readTime (fun t => t / 10 ^ 9) v := by
  rintro ⟨readTime, recovers⟩
  -- Half past one, before and after.
  let before : Vector := { windowEnd := 63866208600 * 10 ^ 9 }
  let after : Vector := { windowEnd := 63866212200 * 10 ^ 9 }
  have shown : ∀ v : Vector, v.Clean →
      readTime (Calendar.stamp (wallClock newYork v.windowEnd)) = v.windowEnd / 10 ^ 9 := by
    intro v clean
    obtain ⟨record, read, cells⟩ := recovers v clean
    have same : record = v.record (formatsIn newYork) := by
      have back := Csv.read_writeRecord (by simp [record_eq, layout]) (clean.record newYork)
      exact (Prod.mk.inj (Option.some.inj (read.symm.trans back))).1
    have listed : (lit "window_end", Cell.time Vector.windowEnd) ∈ layout := by simp [layout]
    obtain ⟨text, cell, told⟩ := cells _ listed
    rw [same, cellOf_layout _ v listed] at cell
    obtain rfl := Option.some.inj cell
    exact told
  have clocks : wallClock newYork before.windowEnd = wallClock newYork after.windowEnd := by
    decide
  have first := shown before ⟨by simp [before], by simp [before], by simp [before]⟩
  have second := shown after ⟨by simp [after], by simp [after], by simp [after]⟩
  rw [clocks, second] at first
  exact absurd first (by decide)

end ContainerAnomaly.Feature
