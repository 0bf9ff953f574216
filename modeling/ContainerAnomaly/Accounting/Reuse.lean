import ContainerAnomaly.Accounting.World
import ContainerAnomaly.Lib.Meter

/-!
# Activity and the pid it is reported under

Both accounts are meters: the kernel charges activity to a pid while some process holds it, a
poll reads what a pid has gathered, and the row is resolved later. `runtime_lawful` and
`tcp_lawful` tie the two pollers to the meter, so that every row is the sum of the charges
between two reads. Whose activity that was is decided when a process is switched in or sends,
and whom it is reported under when the row is resolved.
-/

namespace ContainerAnomaly.Accounting

open Lib Bpf Container

variable {cpus : Nat}

/-- The time a moment charges to a pid, with the container of the process that ran: the one that was
switched in under the pid on this CPU. -/
def runtimeCharge (pid : UInt32) (moment : WorldMoment cpus) : Option (GoString × UInt64) :=
  match moment.2 with
  | .switch cpu now prev _ =>
    if pid = prev ∧ prev ≠ 0 then
      (moment.1.acct.lookup prev).map fun slots =>
        (moment.1.ran pid cpu,
          if now ≥ (slots cpu).lastStartNs then now - (slots cpu).lastStartNs else 0)
    else none
  | _ => none

/-- The runtime of a pid, summed over the CPUs. -/
def World.runtimeTotal (world : World cpus) (pid : UInt32) : UInt64 :=
  ((world.acct.lookup pid).map PidRuntime.sumPerCpu).getD 0

/-- The CPU account as a meter. -/
def runtimeMeter (cpus : Nat) :
    Meter (World cpus) (Event cpus) UInt32 GoString (UInt32 × UInt64) UInt64 where
  reads := fun moment =>
    match moment.2 with
    | .readRuntime _ => moment.1.runtimeDue.isEmpty
    | _ => false
  charge := runtimeCharge
  unread := fun world pid => world.runtimeTotal pid - GoMap.getD world.runtime.prevSeen pid 0
  due := World.runtimeDue
  keyOf := Prod.fst
  amount := Prod.snd

/-- A switch adds to the account of a pid what it charges to it. -/
theorem runtimeTotal_switch (layout : Layout UInt32) (world : World cpus) (cpu : Fin cpus)
    (now : UInt64) (prev next pid : UInt32) :
    (world.step layout (.switch cpu now prev next)).1.runtimeTotal pid =
      world.runtimeTotal pid + Meter.sum (runtimeCharge pid
        (world, (.switch cpu now prev next : Event cpus))).toList := by
  -- Charging adds the interval.
  have charged : (((chargePrev world.acct cpu now prev).lookup pid).map
      PidRuntime.sumPerCpu).getD 0 = world.runtimeTotal pid + Meter.sum (runtimeCharge pid
        (world, (.switch cpu now prev next : Event cpus))).toList := by
    have charge : runtimeCharge pid (world, (.switch cpu now prev next : Event cpus)) =
        if pid = prev ∧ prev ≠ 0 then
          (world.acct.lookup prev).map fun slots =>
            (world.ran pid cpu,
              if now ≥ (slots cpu).lastStartNs then now - (slots cpu).lastStartNs else 0)
        else none := rfl
    rw [lookup_chargePrev, charge, World.runtimeTotal]
    by_cases left : pid = prev ∧ prev ≠ 0
    · rw [if_pos left, if_pos left]
      obtain ⟨rfl, busy⟩ := left
      cases world.acct.lookup pid with
      | none => simp [Meter.sum]
      | some slots =>
        simp only [Option.map_some, Option.getD_some, Option.toList_some, Meter.sum, List.map_cons,
          List.map_nil, List.sum_cons, List.sum_nil, add_zero, PidRuntime.sumPerCpu_eq]
        rw [PidRuntime.sum_update]
        simp only [CpuAcct.charge]
        split <;> grind
    · rw [if_neg left, if_neg left]
      simp [Meter.sum]
  -- Stamping adds nothing.
  rw [← charged]
  show (((stampNext layout (chargePrev world.acct cpu now prev) cpu now next).lookup pid).map
    PidRuntime.sumPerCpu).getD 0 = _
  rcases stampNext_cases layout (chargePrev world.acct cpu now prev) cpu now next with
    ⟨_, same⟩ | ⟨_, _, _, stored⟩ | ⟨_, absent, _, _, stored⟩ | ⟨_, _, _, same⟩
  · rw [same]
  · rw [stored]
    by_cases entering : pid = next
    · rw [if_pos entering]
      cases (chargePrev world.acct cpu now prev).lookup pid with
      | none => rfl
      | some slots =>
        simp only [Option.map_some, Option.getD_some, PidRuntime.sumPerCpu_eq]
        rw [PidRuntime.sum_update, sub_self, add_zero]
    · rw [if_neg entering]
  · rw [stored]
    by_cases entering : pid = next
    · have missing := (HashTable.lookup_eq_none_iff _ next).mpr absent
      rw [if_pos entering, entering, missing]
      simp only [Option.map_some, Option.getD_some, Option.map_none, Option.getD_none,
        PidRuntime.sumPerCpu_eq]
      rw [PidRuntime.sum_update]
      simp
    · rw [if_neg entering]
  · rw [same]

/-- A poll that starts sees every account, and makes due what it had not seen. -/
theorem runtime_read (world : World cpus) (order : RangeOrder UInt32 UInt64) :
    (∀ pid, GoMap.getD (PidRuntime.due order world.acct world.runtime).1 pid 0 =
      world.runtimeTotal pid) ∧
    ∀ item ∈ (PidRuntime.due order world.acct world.runtime).2,
      item.2 = world.runtimeTotal item.1 - GoMap.getD world.runtime.prevSeen item.1 0 := by
  constructor
  · intro pid
    have seen := fun total => DeltaPoll.poll_seen order PidRuntime.sumPerCpu 0
      PidRuntime.dueDelta world.acct.entries world.acct.distinct world.runtime.prevSeen pid total
    unfold World.runtimeTotal GoMap.getD PidRuntime.due
    congr 1
    apply Option.ext
    intro total
    rw [seen total, Option.map_eq_some_iff]
    simp only [HashTable.lookup_eq_some_iff]
  · intro item inside
    have rows := DeltaPoll.poll_rows order PidRuntime.sumPerCpu 0 PidRuntime.dueDelta
      world.acct.entries world.acct.distinct world.runtime.prevSeen
    obtain ⟨⟨pid, slots⟩, stored, made⟩ := List.mem_filterMap.mp (rows.mem_iff.mp inside)
    have found := (world.acct.lookup_eq_some_iff pid slots).mpr stored
    unfold PidRuntime.dueDelta at made
    split at made
    · cases made
    · obtain rfl := Option.some.inj made
      rw [World.runtimeTotal, found]
      rfl

/-- A step that reads no accounts gathers what it charges and makes nothing due. -/
theorem runtime_gather (layout : Layout UInt32) (world : World cpus) (event : Event cpus)
    (quiet : ¬ (runtimeMeter cpus).reads (world, event)) :
    (∀ pid, (world.step layout event).1.runtimeTotal pid -
        GoMap.getD (world.step layout event).1.runtime.prevSeen pid 0 =
      world.runtimeTotal pid - GoMap.getD world.runtime.prevSeen pid 0 +
        Meter.sum (runtimeCharge pid (world, event)).toList) ∧
    ∀ item ∈ (world.step layout event).1.runtimeDue, item ∈ world.runtimeDue := by
  have frame : ∀ next : World cpus, next.acct = world.acct → next.runtime = world.runtime →
      ∀ pid, next.runtimeTotal pid - GoMap.getD next.runtime.prevSeen pid 0 =
        world.runtimeTotal pid - GoMap.getD world.runtime.prevSeen pid 0 +
          Meter.sum (none : Option (GoString × UInt64)).toList := by
    intro next accounts collector pid
    rw [World.runtimeTotal, accounts, collector, ← World.runtimeTotal]
    simp [Meter.sum]
  by_cases other : event.ofRuntime = false
  · obtain ⟨accounts, collector, due⟩ := world.runtime_frame layout event other
    have uncharged : ∀ pid, runtimeCharge pid (world, event) = none := by
      cases event <;> first | exact fun pid => rfl | cases other
    refine ⟨fun pid => ?_, fun item inside => due ▸ inside⟩
    rw [uncharged]
    exact frame _ accounts collector pid
  · cases event with
    | switch cpu now prev next =>
      refine ⟨fun pid => ?_, fun item inside => inside⟩
      have total := runtimeTotal_switch layout world cpu now prev next pid
      rw [total]
      show world.runtimeTotal pid + Meter.sum _ - GoMap.getD world.runtime.prevSeen pid 0 =
        world.runtimeTotal pid - GoMap.getD world.runtime.prevSeen pid 0 + _
      rw [add_sub_right_comm]
    | readRuntime order =>
      have busy : ¬ world.runtimeDue.isEmpty = true := quiet
      simp only [World.step, if_neg busy]
      exact ⟨frame world rfl rfl, fun item inside => inside⟩
    | resolveRuntime files =>
      cases pending : world.runtimeDue with
      | nil =>
        simp only [World.step, pending]
        exact ⟨frame world rfl rfl, fun item inside => pending ▸ inside⟩
      | cons first later =>
        simp only [World.step, pending]
        exact ⟨frame _ rfl rfl, fun item inside => List.mem_cons_of_mem first inside⟩
    | create pid process => exact absurd rfl other
    | exit pid => exact absurd rfl other
    | tcp cpu tgid probe => exact absurd rfl other
    | readTcp order => exact absurd rfl other
    | resolveTcp files => exact absurd rfl other
    | evict drops => exact absurd rfl other

/-- The CPU account is a lawful meter. -/
theorem runtime_lawful (cpus : Nat) (layout : Layout UInt32) :
    (runtimeMeter cpus).Lawful (worldMachine cpus layout) := by
  refine ⟨fun world event reads => ?_, runtime_gather layout⟩
  cases event with
  | readRuntime order =>
    have idle : world.runtimeDue.isEmpty = true := reads
    have next : ((worldMachine cpus layout).step world (.readRuntime order)).1 = { world with
        runtime := ⟨(PidRuntime.due order world.acct world.runtime).1⟩
        runtimeDue := (PidRuntime.due order world.acct world.runtime).2 } := by
      show (World.step layout world (.readRuntime order)).1 = _
      simp only [World.step, if_pos idle]
    obtain ⟨seen, due⟩ := runtime_read world order
    rw [next]
    refine ⟨fun pid => ?_, due⟩
    show world.runtimeTotal pid - _ = 0
    rw [← seen pid, sub_self]
  | create pid process => cases reads
  | exit pid => cases reads
  | switch cpu now prev next => cases reads
  | tcp cpu tgid probe => cases reads
  | resolveRuntime files => cases reads
  | readTcp order => cases reads
  | resolveTcp files => cases reads
  | evict drops => cases reads

/-- The counters a moment charges to a thread group, with the container of the process that is
charged. -/
def tcpCharge (tgid : UInt32) (moment : WorldMoment cpus) : Option (GoString × Bpf.TcpStats) :=
  match moment.2 with
  | .tcp _ running probe =>
    if tgid = running ∧ (tgid ∈ moment.1.tcp.keys ∨ moment.1.tcp.entries.length < 10240) then
      probe.amounts.map fun amounts =>
        (moment.1.owner tgid, .fresh amounts.1 amounts.2.1 amounts.2.2)
    else none
  | _ => none

/-- The counters of a thread group, summed over the CPUs. -/
def World.tcpTotal (world : World cpus) (tgid : UInt32) : Bpf.TcpStats :=
  ∑ cpu, (world.tcp.lookup tgid).getD (fun _ => {}) cpu

/-- The TCP account as a meter. -/
def tcpMeter (cpus : Nat) :
    Meter (World cpus) (Event cpus) UInt32 GoString TcpStats.Stats Bpf.TcpStats where
  reads := fun moment =>
    match moment.2 with
    | .readTcp _ => moment.1.tcpDue.isEmpty
    | _ => false
  charge := tcpCharge
  unread := World.tcpTotal
  due := World.tcpDue
  keyOf := TcpStats.Stats.tgid
  amount := TcpStats.Stats.counters

/-- A probe adds to the account of a thread group what it charges to it. -/
theorem tcpTotal_probe (layout : Layout UInt32) (world : World cpus) (cpu : Fin cpus)
    (running : UInt32) (probe : TcpProbe) (tgid : UInt32) :
    (world.step layout (.tcp cpu running probe)).1.tcpTotal tgid = world.tcpTotal tgid +
      Meter.sum (tcpCharge tgid (world, (.tcp cpu running probe : Event cpus))).toList := by
  have charge : tcpCharge tgid (world, (.tcp cpu running probe : Event cpus)) =
      if tgid = running ∧ (tgid ∈ world.tcp.keys ∨ world.tcp.entries.length < 10240) then
        probe.amounts.map fun amounts =>
          (world.owner tgid, .fresh amounts.1 amounts.2.1 amounts.2.2)
      else none := rfl
  show tcpTotal (probe.run layout world.tcp cpu running) tgid = tcpTotal world.tcp tgid + _
  rw [charge]
  unfold TcpProbe.run
  cases probe.amounts with
  | none => simp [Meter.sum]
  | some amounts =>
    rw [tcpTotal_bump, bumped]
    split <;> simp [Meter.sum]

/-- A poll that starts takes every account. -/
theorem tcp_read (world : World cpus) (order : RangeOrder UInt32 TcpStats.Stats) :
    (∀ tgid, ∑ cpu, ((TcpStats.readAndClear world.tcp).1.lookup tgid).getD (fun _ => {}) cpu =
      0) ∧
    ∀ item ∈ TcpStats.due order world.tcp, item.counters = world.tcpTotal item.tgid := by
  refine ⟨fun tgid => ?_, fun item inside => ?_⟩
  · have missing : (TcpStats.readAndClear world.tcp).1.lookup tgid = none := by
      rw [HashTable.lookup_eq_none_iff, HashTable.keys, TcpStats.readAndClear_empty]
      simp
    rw [missing]
    exact Finset.sum_const_zero
  · obtain ⟨slots, found, sums⟩ := (TcpStats.mem_due order world.tcp item).mp inside
    rw [World.tcpTotal, found, sums, (TcpStats.sumPerCpu_eq item.tgid slots).2]
    rfl

/-- A step that reads no accounts gathers what it charges and makes nothing due. -/
theorem tcp_gather (layout : Layout UInt32) (world : World cpus) (event : Event cpus)
    (quiet : ¬ (tcpMeter cpus).reads (world, event)) :
    (∀ tgid, (world.step layout event).1.tcpTotal tgid =
      world.tcpTotal tgid + Meter.sum (tcpCharge tgid (world, event)).toList) ∧
    ∀ item ∈ (world.step layout event).1.tcpDue, item ∈ world.tcpDue := by
  have frame : ∀ next : World cpus, next.tcp = world.tcp → ∀ tgid, next.tcpTotal tgid =
      world.tcpTotal tgid + Meter.sum (none : Option (GoString × Bpf.TcpStats)).toList := by
    intro next accounts tgid
    rw [World.tcpTotal, accounts, ← World.tcpTotal]
    simp [Meter.sum]
  by_cases other : event.ofTcp = false
  · obtain ⟨accounts, due⟩ := world.tcp_frame layout event other
    have uncharged : ∀ tgid, tcpCharge tgid (world, event) = none := by
      cases event <;> first | exact fun tgid => rfl | cases other
    refine ⟨fun tgid => ?_, fun item inside => due ▸ inside⟩
    rw [uncharged]
    exact frame _ accounts tgid
  · cases event with
    | tcp cpu running probe =>
      exact ⟨tcpTotal_probe layout world cpu running probe, fun item inside => inside⟩
    | readTcp order =>
      have busy : ¬ world.tcpDue.isEmpty = true := quiet
      simp only [World.step, if_neg busy]
      exact ⟨frame world rfl, fun item inside => inside⟩
    | resolveTcp files =>
      cases pending : world.tcpDue with
      | nil =>
        simp only [World.step, pending]
        exact ⟨frame world rfl, fun item inside => pending ▸ inside⟩
      | cons first later =>
        simp only [World.step, pending]
        exact ⟨frame _ rfl, fun item inside => List.mem_cons_of_mem first inside⟩
    | create pid process => exact absurd rfl other
    | exit pid => exact absurd rfl other
    | switch cpu now prev next => exact absurd rfl other
    | readRuntime order => exact absurd rfl other
    | resolveRuntime files => exact absurd rfl other
    | evict drops => exact absurd rfl other

/-- The TCP account is a lawful meter. -/
theorem tcp_lawful (cpus : Nat) (layout : Layout UInt32) :
    (tcpMeter cpus).Lawful (worldMachine cpus layout) := by
  refine ⟨fun world event reads => ?_, tcp_gather layout⟩
  cases event with
  | readTcp order =>
    have idle : world.tcpDue.isEmpty = true := reads
    have next : ((worldMachine cpus layout).step world (.readTcp order)).1 = { world with
        tcp := (TcpStats.readAndClear world.tcp).1
        tcpDue := TcpStats.due order world.tcp } := by
      show (World.step layout world (.readTcp order)).1 = _
      simp only [World.step, if_pos idle]
    rw [next]
    exact tcp_read world order
  | create pid process => cases reads
  | exit pid => cases reads
  | switch cpu now prev next => cases reads
  | tcp cpu tgid probe => cases reads
  | readRuntime order => cases reads
  | resolveRuntime files => cases reads
  | resolveTcp files => cases reads
  | evict drops => cases reads

/-- In every run the CPU account stands for the charges. -/
theorem runtime_tracks (layout : Layout UInt32) (process : UInt32 → Option Process)
    (events : List (Event cpus)) :
    (runtimeMeter cpus).Tracks ((worldMachine cpus layout).trace (.boot cpus process) events)
      ((worldMachine cpus layout).final (.boot cpus process) events) := by
  apply Meter.tracks (runtime_lawful cpus layout)
  · intro pid
    exact sub_self (0 : UInt64)
  · rfl

/-- In every run the TCP account stands for the charges. -/
theorem tcp_tracks (layout : Layout UInt32) (process : UInt32 → Option Process)
    (events : List (Event cpus)) :
    (tcpMeter cpus).Tracks ((worldMachine cpus layout).trace (.boot cpus process) events)
      ((worldMachine cpus layout).final (.boot cpus process) events) := by
  apply Meter.tracks (tcp_lawful cpus layout)
  · intro tgid
    show ∑ _cpu : Fin cpus, (0 : Bpf.TcpStats) = 0
    exact Finset.sum_const_zero
  · rfl

end ContainerAnomaly.Accounting
