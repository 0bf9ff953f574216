import ContainerAnomaly.Feature.Windowing

/-!
# Feature records

`pkg/feature/csv.go`: the columns of the feature file and the record that `Encoder.Write` appends
for a vector, cell by cell under the columns. Time stamps and percentages are printed by the
standard library, which is a parameter.
-/

namespace ContainerAnomaly.Feature

open Lib Bpf

/-- `Headers`. -/
def headers : List GoString :=
  [lit "window_start", lit "window_end",
    lit "container_id", lit "name", lit "image",
    lit "proc_exits", lit "proc_crashes",
    lit "tcp_bytes_tx", lit "tcp_bytes_rx", lit "tcp_retrans",
    lit "cpu_runtime_ns",
    lit "sys_total", lit "sys_file_open", lit "sys_file_close", lit "sys_file_read",
    lit "sys_file_write",
    lit "sys_file_unlink", lit "sys_file_rename", lit "sys_file_perm",
    lit "sys_net_socket", lit "sys_net_connect", lit "sys_net_bind", lit "sys_net_listen",
    lit "sys_net_accept",
    lit "sys_net_send", lit "sys_net_recv",
    lit "sys_proc_exec", lit "sys_proc_fork", lit "sys_proc_kill",
    lit "sys_priv_escalate", lit "sys_escape_attempt", lit "sys_mem_layout", lit "sys_other",
    lit "cg_cpu_usage_ms", lit "cg_cpu_throttle_pct", lit "cg_mem_current_mb",
    lit "cg_mem_pressure", lit "cg_oom_kills", lit "cg_io_read_mb", lit "cg_io_write_mb"]

/-- What the standard library prints. -/
structure Formats where
  /-- `Format("2006-01-02T15:04:05")`. -/
  time : Time → GoString
  /-- `Sprintf("%.4f")`. -/
  fixed4 : Float → GoString

/-- `utoa`. -/
def utoa (n : UInt64) : GoString := lit (toString n.toNat)

/-- `ftoa`. -/
def ftoa (formats : Formats) (f : Float) : GoString := if f == 0 then lit "0" else formats.fixed4 f

/-- The record of `Encoder.Write`. -/
def Vector.record (formats : Formats) (v : Vector) : List GoString :=
  [formats.time v.windowStart,
    formats.time v.windowEnd,
    v.containerID,
    v.name,
    v.image,
    utoa v.procExits,
    utoa v.procCrashes,
    utoa v.tcpBytesTx,
    utoa v.tcpBytesRx,
    utoa v.tcpRetrans,
    utoa v.cpuRuntimeNS,
    utoa v.sysTotal,
    utoa v.sysFileOpen,
    utoa v.sysFileClose,
    utoa v.sysFileRead,
    utoa v.sysFileWrite,
    utoa v.sysFileUnlink,
    utoa v.sysFileRename,
    utoa v.sysFilePerm,
    utoa v.sysNetSocket,
    utoa v.sysNetConnect,
    utoa v.sysNetBind,
    utoa v.sysNetListen,
    utoa v.sysNetAccept,
    utoa v.sysNetSend,
    utoa v.sysNetRecv,
    utoa v.sysProcExec,
    utoa v.sysProcFork,
    utoa v.sysProcKill,
    utoa v.sysPrivEscalate,
    utoa v.sysEscapeAttempt,
    utoa v.sysMemLayout,
    utoa v.sysOther,
    utoa v.cgroupCPUUsageMS,
    ftoa formats v.cgroupCPUThrottlePct,
    utoa v.cgroupMemCurrentMB,
    ftoa formats v.cgroupMemPressure,
    utoa v.cgroupOOMKills,
    utoa v.cgroupIOReadMB,
    utoa v.cgroupIOWriteMB]

/-- The column of a syscall counter. -/
def sysColumn : Field → GoString
  | .total => lit "sys_total"
  | .fileOpen => lit "sys_file_open"
  | .fileClose => lit "sys_file_close"
  | .fileRead => lit "sys_file_read"
  | .fileWrite => lit "sys_file_write"
  | .fileUnlink => lit "sys_file_unlink"
  | .fileRename => lit "sys_file_rename"
  | .filePerm => lit "sys_file_perm"
  | .netSocket => lit "sys_net_socket"
  | .netConnect => lit "sys_net_connect"
  | .netBind => lit "sys_net_bind"
  | .netListen => lit "sys_net_listen"
  | .netAccept => lit "sys_net_accept"
  | .netSend => lit "sys_net_send"
  | .netRecv => lit "sys_net_recv"
  | .procExec => lit "sys_proc_exec"
  | .procFork => lit "sys_proc_fork"
  | .procKill => lit "sys_proc_kill"
  | .privEscalate => lit "sys_priv_escalate"
  | .escapeAttempt => lit "sys_escape_attempt"
  | .memLayout => lit "sys_mem_layout"
  | .other => lit "sys_other"

/-- The cell of a record under a column. -/
def cellOf (record : List GoString) (name : GoString) : Option GoString :=
  (headers.zip record).lookup name

/-- What stands under a key that is there. -/
theorem lookup_zip {α : Type} (keys : List GoString) (values : List α) (key : GoString)
    (present : key ∈ keys) : (keys.zip values).lookup key = values[keys.idxOf key]? := by
  induction keys generalizing values with
  | nil => cases present
  | cons first keys ih =>
    cases values with
    | nil => simp
    | cons value values =>
      by_cases same : key = first
      · subst same
        simp
      · have inside := List.mem_of_ne_of_mem same present
        have apart : (key == first) = false := by simpa using same
        rw [List.zip_cons_cons, List.lookup_cons, apart, List.idxOf_cons_ne _ (Ne.symm same)]
        exact ih values inside

/-- The counters that are columns, in the order of the columns. -/
def sysFields : List Field := .total :: buckets

/-- The syscall counters stand side by side in a record. -/
theorem record_sys (formats : Formats) (v : Vector) :
    ((v.record formats).drop 11).take 22 = sysFields.map fun field => utoa (v.get (.sys field)) :=
  rfl

/-- Their columns stand side by side in the headers. -/
theorem idxOf_sysColumn : ∀ field ∈ sysFields,
    sysColumn field ∈ headers ∧ headers.idxOf (sysColumn field) = 11 + sysFields.idxOf field := by
  decide +kernel

/-- Every syscall counter stands under its column. -/
theorem cellOf_sys (formats : Formats) (v : Vector) (field : Field) :
    cellOf (v.record formats) (sysColumn field) = some (utoa (v.get (.sys field))) := by
  have listed : field ∈ sysFields := by
    by_cases total : field = .total
    · exact total ▸ List.mem_cons_self
    · exact List.mem_cons_of_mem _ (mem_buckets total)
  obtain ⟨present, position⟩ := idxOf_sysColumn field listed
  have below : sysFields.idxOf field < 22 := List.idxOf_lt_length_iff.mpr listed
  have cell := congrArg (fun cells => cells[sysFields.idxOf field]?) (record_sys formats v)
  rw [List.getElem?_take_of_lt below, List.getElem?_drop, List.getElem?_map,
    List.getElem?_idxOf listed] at cell
  rw [cellOf, lookup_zip _ _ _ present, position]
  exact cell

/-- The name stands under its column. -/
theorem cellOf_name (formats : Formats) (v : Vector) :
    cellOf (v.record formats) (lit "name") = some v.name := by
  have position : lit "name" ∈ headers ∧ headers.idxOf (lit "name") = 3 := by decide +kernel
  rw [cellOf, lookup_zip _ _ _ position.1, position.2]
  rfl

end ContainerAnomaly.Feature
