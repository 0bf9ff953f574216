import ContainerAnomaly.Lib.HashTable
import ContainerAnomaly.Bpf.SyscallTrace
import Mathlib.Algebra.BigOperators.Fin
import Mathlib.Algebra.Group.Defs

/-!
# The TCP accounting program

`bpf/tcp_stats.bpf.c`. Three probes count bytes, packets and retransmissions for the thread
group that happens to run, in the slot of its CPU. What a probe adds is a record of its own
(`gain`), and `bump_cases` says where it goes: into the entry of the thread group, into a new
one, or nowhere when the map is full.
-/

namespace ContainerAnomaly.Bpf

open Lib

/-- `struct tcp_stats`. -/
structure TcpStats where
  /-- The bytes sent. -/
  bytesTx : UInt64 := 0
  /-- The bytes received. -/
  bytesRx : UInt64 := 0
  /-- How often bytes were sent. -/
  pktsTx : UInt64 := 0
  /-- How often bytes were received. -/
  pktsRx : UInt64 := 0
  /-- The segments sent again. -/
  retransmits : UInt64 := 0
deriving DecidableEq

/-- `tcp_stats_by_tgid`. -/
abbrev TcpTable (cpus : Nat) := HashTable UInt32 (PerCpu cpus TcpStats) 10240

/-- The three increments of `bump` in an entry that exists. -/
def TcpStats.grow (v : TcpStats) (txB rxB retrans : UInt64) : TcpStats where
  bytesTx := if txB ≠ 0 then v.bytesTx + txB else v.bytesTx
  pktsTx := if txB ≠ 0 then v.pktsTx + 1 else v.pktsTx
  bytesRx := if rxB ≠ 0 then v.bytesRx + rxB else v.bytesRx
  pktsRx := if rxB ≠ 0 then v.pktsRx + 1 else v.pktsRx
  retransmits := if retrans ≠ 0 then v.retransmits + 1 else v.retransmits

/-- The value `bump` inserts. -/
def TcpStats.fresh (txB rxB retrans : UInt64) : TcpStats where
  bytesTx := if txB ≠ 0 then txB else 0
  pktsTx := if txB ≠ 0 then 1 else 0
  bytesRx := if rxB ≠ 0 then rxB else 0
  pktsRx := if rxB ≠ 0 then 1 else 0
  retransmits := if retrans ≠ 0 then 1 else 0

variable {cpus : Nat}

/-- `bump`; the result of the insert is not checked. -/
def bump (layout : Layout UInt32) (table : TcpTable cpus) (cpu : Fin cpus) (tgid : UInt32)
    (txB rxB retrans : UInt64) : TcpTable cpus :=
  match table.lookup tgid with
  | some _ =>
    table.modify tgid fun slots =>
      Function.update slots cpu ((slots cpu).grow txB rxB retrans)
  | none =>
    (table.insertNew layout tgid
      (Function.update (fun _ => {}) cpu (.fresh txB rxB retrans))).getD table

/-- The probes, with the arguments they read. -/
inductive TcpProbe where
  /-- `kretprobe_tcp_sendmsg`. -/
  | sendmsg (sent : Int32)
  /-- `kprobe_tcp_cleanup_rbuf`. -/
  | cleanupRbuf (copied : Int32)
  /-- `kprobe_tcp_retransmit_skb`. -/
  | retransmitSkb

/-- The arguments a probe calls `bump` with, `none` when it returns before. -/
def TcpProbe.amounts : TcpProbe → Option (UInt64 × UInt64 × UInt64)
  | .sendmsg sent => if sent ≤ 0 then none else some (UInt64.ofNat sent.toInt.toNat, 0, 0)
  | .cleanupRbuf copied =>
    if copied ≤ 0 then none else some (0, UInt64.ofNat copied.toInt.toNat, 0)
  | .retransmitSkb => some (0, 0, 1)

/-- A probe that fires on a CPU while a thread group runs there. -/
def TcpProbe.run (probe : TcpProbe) (layout : Layout UInt32) (table : TcpTable cpus)
    (cpu : Fin cpus) (tgid : UInt32) : TcpTable cpus :=
  match probe.amounts with
  | none => table
  | some (txB, rxB, retrans) => bump layout table cpu tgid txB rxB retrans

/-- Counters are added field by field. -/
instance : Add TcpStats where
  add left right := {
    bytesTx := left.bytesTx + right.bytesTx
    bytesRx := left.bytesRx + right.bytesRx
    pktsTx := left.pktsTx + right.pktsTx
    pktsRx := left.pktsRx + right.pktsRx
    retransmits := left.retransmits + right.retransmits }

instance : Zero TcpStats := ⟨{}⟩

/-- Equality of counters, field by field. -/
theorem TcpStats.add_eq (left right : TcpStats) : left + right =
    ⟨left.bytesTx + right.bytesTx, left.bytesRx + right.bytesRx, left.pktsTx + right.pktsTx,
      left.pktsRx + right.pktsRx, left.retransmits + right.retransmits⟩ := rfl

/-- The counters of an entry that was never touched. -/
theorem TcpStats.zero_eq : (0 : TcpStats) = {} := rfl

instance : AddCommMonoid TcpStats where
  add_assoc first second third := by simp [TcpStats.add_eq, add_assoc]
  zero_add counters := by simp [TcpStats.add_eq, TcpStats.zero_eq]
  add_zero counters := by simp [TcpStats.add_eq, TcpStats.zero_eq]
  add_comm left right := by simp [TcpStats.add_eq, add_comm]
  nsmul := nsmulRec

/-- The increments add what a fresh entry would hold. -/
theorem TcpStats.grow_eq (v : TcpStats) (txB rxB retrans : UInt64) :
    v.grow txB rxB retrans = v + .fresh txB rxB retrans := by
  by_cases sent : txB = 0 <;> by_cases got : rxB = 0 <;> by_cases again : retrans = 0 <;>
    simp [grow, fresh, add_eq, sent, got, again]

/-- Where the counters of a probe go: into the entry of the thread group, into a new one, or
nowhere when the map is full. -/
theorem bump_cases (layout : Layout UInt32) (table : TcpTable cpus) (cpu : Fin cpus)
    (tgid : UInt32) (txB rxB retrans : UInt64) :
    ((tgid ∈ table.keys ∨ table.entries.length < 10240) ∧
      ∀ other, (bump layout table cpu tgid txB rxB retrans).lookup other =
        if other = tgid then
          let slots := (table.lookup tgid).getD fun _ => {}
          some (Function.update slots cpu (slots cpu + .fresh txB rxB retrans))
        else table.lookup other) ∨
    (¬ (tgid ∈ table.keys ∨ table.entries.length < 10240) ∧
      bump layout table cpu tgid txB rxB retrans = table) := by
  unfold bump
  cases found : table.lookup tgid with
  | some slots =>
    left
    have present := (table.mem_keys_iff tgid).mpr ⟨slots, found⟩
    refine ⟨.inl present, fun other => ?_⟩
    dsimp only
    rw [HashTable.lookup_modify]
    by_cases same : other = tgid
    · subst same
      simp [found, TcpStats.grow_eq]
    · simp [same]
  | none =>
    have absent := (table.lookup_eq_none_iff tgid).mp found
    by_cases room : table.entries.length < 10240
    · left
      have admitted := (HashTable.insertNew_isSome_iff layout table tgid
        (Function.update (fun _ => {}) cpu (.fresh txB rxB retrans))).mpr ⟨absent, room⟩
      obtain ⟨next, stored⟩ := Option.isSome_iff_exists.mp admitted
      refine ⟨.inr room, fun other => ?_⟩
      have zero : ({} : TcpStats) + .fresh txB rxB retrans = .fresh txB rxB retrans :=
        zero_add _
      simp only [stored, Option.getD_some, Option.getD_none, zero]
      exact HashTable.lookup_insertNew stored other
    · right
      have refused : table.insertNew layout tgid
          (Function.update (fun _ => {}) cpu (.fresh txB rxB retrans)) = none := by
        rw [← Option.not_isSome_iff_eq_none, HashTable.insertNew_isSome_iff]
        exact fun both => room both.2
      refine ⟨fun either => either.elim absent room, ?_⟩
      simp only [refused, Option.getD_none]

/-- Counters can be taken from both sides of an equation. -/
instance : IsLeftCancelAdd TcpStats where
  add_left_cancel counters left right same := by
    simp only [TcpStats.add_eq, TcpStats.mk.injEq, add_right_inj] at same
    cases left
    cases right
    simpa using same

/-- The counters of a thread group, summed over the CPUs. -/
def tcpTotal (table : TcpTable cpus) (tgid : UInt32) : TcpStats :=
  ∑ cpu, (table.lookup tgid).getD (fun _ => {}) cpu

/-- What a call of `bump` adds to the counters of a thread group. -/
def bumped (table : TcpTable cpus) (running : UInt32) (txB rxB retrans : UInt64)
    (tgid : UInt32) : TcpStats :=
  if tgid = running ∧ (tgid ∈ table.keys ∨ table.entries.length < 10240) then
    .fresh txB rxB retrans
  else 0

/-- A call of `bump` adds its counters once. -/
theorem tcpTotal_bump (layout : Layout UInt32) (table : TcpTable cpus) (cpu : Fin cpus)
    (running : UInt32) (txB rxB retrans : UInt64) (tgid : UInt32) :
    tcpTotal (bump layout table cpu running txB rxB retrans) tgid =
      tcpTotal table tgid + bumped table running txB rxB retrans tgid := by
  unfold tcpTotal bumped
  rcases bump_cases layout table cpu running txB rxB retrans with ⟨room, stored⟩ | ⟨full, same⟩
  · rw [stored tgid]
    by_cases own : tgid = running
    · subst own
      rw [if_pos rfl, if_pos ⟨rfl, room⟩]
      have pointwise : (fun other => Function.update ((table.lookup tgid).getD fun _ => {}) cpu
            ((table.lookup tgid).getD (fun _ => {}) cpu + .fresh txB rxB retrans) other) =
          fun other => (table.lookup tgid).getD (fun _ => {}) other +
            if other = cpu then TcpStats.fresh txB rxB retrans else 0 := by
        funext other
        by_cases here : other = cpu
        · subst here
          simp
        · simp [here]
      rw [Option.getD_some, pointwise, Finset.sum_add_distrib, Finset.sum_ite_eq' Finset.univ cpu]
      simp
    · rw [if_neg own, if_neg (fun both => own both.1), add_zero]
  · have refused : ¬ (tgid = running ∧ (tgid ∈ table.keys ∨ table.entries.length < 10240)) := by
      intro both
      exact full (both.1 ▸ both.2)
    rw [same, if_neg refused, add_zero]

/-- A thread group without an entry has no counters. -/
theorem tcpTotal_eq_zero {table : TcpTable cpus} {tgid : UInt32}
    (missing : table.lookup tgid = none) : tcpTotal table tgid = 0 := by
  rw [tcpTotal, missing]
  exact Finset.sum_const_zero

/-- Deleting a thread group leaves the counters of the others. -/
theorem tcpTotal_erase (table : TcpTable cpus) (key tgid : UInt32) :
    tcpTotal (table.erase key) tgid = if tgid = key then 0 else tcpTotal table tgid := by
  by_cases same : tgid = key
  · rw [if_pos same]
    exact tcpTotal_eq_zero (by rw [HashTable.lookup_erase, if_pos same])
  · rw [if_neg same, tcpTotal, HashTable.lookup_erase, if_neg same]
    rfl

end ContainerAnomaly.Bpf
