import ContainerAnomaly.Collector.PidRuntime
import ContainerAnomaly.Lib.Schedule

/-!
# CPU accounting is exact

The account of a pid against the schedule that produced it. `Represents` relates the map to the
history of switches: the slot of the CPU a pid runs on holds the time it was switched in, every
other slot of the pid holds the zero sentinel, and the runtimes add up to the closed intervals.
A pid gets its entry with its first switch-in or, when the map is full, never.
-/

namespace ContainerAnomaly.Accounting

open Lib Bpf PidRuntime Schedule

variable {cpus : Nat}

/-- The map after a history of switches, the latest first. -/
def acctAfter (layout : Layout UInt32) :
    List (Switch (Fin cpus) UInt32) → CpuAcctTable cpus
  | [] => .empty _ _ _
  | event :: past =>
    traceSchedSwitch layout (acctAfter layout past) event.cpu event.now event.prev event.next

/-- The switch-in time of a pid on a CPU, zero when it does not run there. -/
def startedAt (history : List (Switch (Fin cpus) UInt32)) (pid : UInt32) (cpu : Fin cpus) :
    UInt64 :=
  match lastOn cpu history with
  | some event => if event.next = pid then event.now else 0
  | none => 0

/-- How the map stands to the schedule. -/
structure Represents (boot : Fin cpus → UInt32) (history : List (Switch (Fin cpus) UInt32))
    (table : CpuAcctTable cpus) : Prop where
  /-- A slot holds the time its pid was switched in there, or zero. -/
  started : ∀ pid slots, table.lookup pid = some slots → pid ≠ 0 →
    ∀ cpu, (slots cpu).lastStartNs = startedAt history pid cpu
  /-- A pid with an entry that runs was switched in. -/
  switched : ∀ pid slots, table.lookup pid = some slots → pid ≠ 0 →
    ∀ cpu, runningOn boot history cpu = pid → lastOn cpu history ≠ none
  /-- The runtimes of an entry are the closed intervals of its pid. -/
  charged : ∀ pid slots, table.lookup pid = some slots → pid ≠ 0 →
    ∑ cpu, (slots cpu).runtimeNs = UInt64.ofNat (closedTime pid history)
  /-- While there is room, every pid that was switched in has its entry. -/
  entered : table.entries.length < 65536 → ∀ event ∈ history, event.next ≠ 0 →
    event.next ∈ table.keys

/-- How one entry of the map stands to the schedule. -/
structure Entry (boot : Fin cpus → UInt32) (history : List (Switch (Fin cpus) UInt32))
    (pid : UInt32) (slots : PerCpu cpus CpuAcct) : Prop where
  /-- A slot is stamped with the start of the pid on its CPU, if it runs there. -/
  started : ∀ cpu, (slots cpu).lastStartNs = startedAt history pid cpu
  /-- There was a switch on each CPU where the pid runs. -/
  switched : ∀ cpu, runningOn boot history cpu = pid → lastOn cpu history ≠ none
  /-- The slots add up to the closed time of the pid. -/
  charged : ∑ cpu, (slots cpu).runtimeNs = UInt64.ofNat (closedTime pid history)

/-- The map stands to the schedule when its entries do and none is missing. -/
theorem Represents.of_entries {boot : Fin cpus → UInt32}
    {history : List (Switch (Fin cpus) UInt32)} {table : CpuAcctTable cpus}
    (entry : ∀ pid slots, table.lookup pid = some slots → pid ≠ 0 →
      Entry boot history pid slots)
    (entered : table.entries.length < 65536 → ∀ event ∈ history, event.next ≠ 0 →
      event.next ∈ table.keys) : Represents boot history table where
  started := fun pid slots found busy => (entry pid slots found busy).started
  switched := fun pid slots found busy => (entry pid slots found busy).switched
  charged := fun pid slots found busy => (entry pid slots found busy).charged
  entered := entered

section Step

variable {boot : Fin cpus → UInt32} {past : List (Switch (Fin cpus) UInt32)}
  {event : Switch (Fin cpus) UInt32} {table : CpuAcctTable cpus}

/-- On the CPU of a switch, only the incoming pid has a switch-in time afterwards. -/
theorem startedAt_cons_self (pid : UInt32) : startedAt (event :: past) pid event.cpu =
    if event.next = pid then event.now else 0 := by
  rw [startedAt, lastOn_cons_self]

/-- The switch-in times on the other CPUs stay. -/
theorem startedAt_cons_ne (pid : UInt32) {cpu : Fin cpus} (other : cpu ≠ event.cpu) :
    startedAt (event :: past) pid cpu = startedAt past pid cpu := by
  rw [startedAt, lastOn_cons_ne other, startedAt]

/-- A pid that does not run on a CPU has no switch-in time there. -/
theorem startedAt_eq_zero (boot : Fin cpus → UInt32) {pid : UInt32} {cpu : Fin cpus}
    (absent : runningOn boot past cpu ≠ pid) : startedAt past pid cpu = 0 := by
  unfold startedAt
  cases last : lastOn cpu past with
  | none => rfl
  | some entered =>
    rw [runningOn_of_lastOn boot last] at absent
    exact if_neg absent

/-- The slots of an entry after the charging half of a switch. -/
theorem charged_slots (represents : Represents boot past table)
    (leaves : event.prev = runningOn boot past event.cpu)
    (ordered : ∀ before ∈ past, before.now ≤ event.now) {pid : UInt32} (busy : pid ≠ 0)
    {slots : PerCpu cpus CpuAcct}
    (found : (chargePrev table event.cpu event.now event.prev).lookup pid = some slots) :
    (∀ cpu, (slots cpu).lastStartNs = if cpu = event.cpu then 0 else startedAt past pid cpu) ∧
    ∑ cpu, (slots cpu).runtimeNs = UInt64.ofNat (closedTime pid (event :: past)) ∧
    pid ∈ table.keys := by
  rw [lookup_chargePrev] at found
  by_cases left : pid = event.prev
  · rw [if_pos ⟨left, left ▸ busy⟩] at found
    obtain ⟨before, stored, rfl⟩ := Option.map_eq_some_iff.mp found
    have present := (table.mem_keys_iff pid).mpr ⟨before, stored⟩
    have runs : runningOn boot past event.cpu = pid := by rw [← leaves, left]
    have start := represents.started pid before stored busy
    have sum := represents.charged pid before stored busy
    -- The entry is older than this switch, so the pid was switched in on this CPU.
    obtain ⟨entered, last⟩ := Option.ne_none_iff_exists'.mp
      (represents.switched pid before stored busy event.cpu runs)
    have began : (before event.cpu).lastStartNs = entered.now := by
      have next : entered.next = pid := by rw [← runningOn_of_lastOn boot last, runs]
      rw [start, startedAt, last]
      exact if_pos next
    have order := ordered entered (lastOn_mem last).1
    refine ⟨fun cpu => ?_, ?_, present⟩
    · by_cases here : cpu = event.cpu
      · subst here
        simp [CpuAcct.charge]
      · simp [here, start]
    · have gained : closedTime pid (event :: past) =
          closedTime pid past + (event.now.toNat - entered.now.toNat) := by
        rw [closedTime, if_pos left.symm, ended, last]
        rfl
      have length : UInt64.ofNat (event.now.toNat - entered.now.toNat) =
          event.now - entered.now := by
        rw [← UInt64.toNat_sub_of_le _ _ order, UInt64.ofNat_toNat]
      rw [sum_update, sum, gained, UInt64.ofNat_add, length]
      have slot : ((before event.cpu).charge event.now).runtimeNs =
          (before event.cpu).runtimeNs + (event.now - entered.now) := by
        simp only [CpuAcct.charge, began, ge_iff_le, order, if_true]
      rw [slot]
      grind
  · rw [if_neg (fun both => left both.1)] at found
    have present := (table.mem_keys_iff pid).mpr ⟨slots, found⟩
    refine ⟨fun cpu => ?_, ?_, present⟩
    · by_cases here : cpu = event.cpu
      · rw [if_pos here, represents.started pid slots found busy, here]
        apply startedAt_eq_zero boot
        rw [← leaves]
        exact fun same => left same.symm
      · rw [if_neg here]
        exact represents.started pid slots found busy cpu
    · rw [closedTime, if_neg (fun same => left same.symm), Nat.add_zero]
      exact represents.charged pid slots found busy

/-- A pid that has an entry and runs after a switch was switched in. -/
theorem switched_cons (represents : Represents boot past table) {pid : UInt32} (busy : pid ≠ 0)
    (present : pid ∈ table.keys) (cpu : Fin cpus)
    (runs : runningOn boot (event :: past) cpu = pid) : lastOn cpu (event :: past) ≠ none := by
  by_cases here : cpu = event.cpu
  · rw [here, lastOn_cons_self]
    simp
  · obtain ⟨before, stored⟩ := (table.mem_keys_iff pid).mp present
    rw [runningOn_cons_ne boot here] at runs
    rw [lastOn_cons_ne here]
    exact represents.switched pid before stored busy cpu runs

/-- The entry of a pid that is not switched in is only charged. -/
theorem entry_charged (represents : Represents boot past table)
    (leaves : event.prev = runningOn boot past event.cpu)
    (ordered : ∀ before ∈ past, before.now ≤ event.now) {pid : UInt32} (busy : pid ≠ 0)
    (stays : event.next ≠ pid) {slots : PerCpu cpus CpuAcct}
    (found : (chargePrev table event.cpu event.now event.prev).lookup pid = some slots) :
    Entry boot (event :: past) pid slots := by
  obtain ⟨starts, runtime, present⟩ := charged_slots represents leaves ordered busy found
  refine ⟨fun cpu => ?_, switched_cons represents busy present, runtime⟩
  rw [starts cpu]
  by_cases here : cpu = event.cpu
  · rw [if_pos here, here, startedAt_cons_self, if_neg stays]
  · rw [if_neg here, startedAt_cons_ne pid here]

/-- The entry of a pid that is switched in is charged, if it ran, and stamped. -/
theorem entry_stamped (represents : Represents boot past table)
    (leaves : event.prev = runningOn boot past event.cpu)
    (ordered : ∀ before ∈ past, before.now ≤ event.now) (busy : event.next ≠ 0)
    {slots : PerCpu cpus CpuAcct}
    (found : (chargePrev table event.cpu event.now event.prev).lookup event.next = some slots) :
    Entry boot (event :: past) event.next
      (Function.update slots event.cpu { slots event.cpu with lastStartNs := event.now }) := by
  obtain ⟨starts, runtime, present⟩ := charged_slots represents leaves ordered busy found
  refine ⟨fun cpu => ?_, switched_cons represents busy present, ?_⟩
  · by_cases here : cpu = event.cpu
    · rw [here, Function.update_self, startedAt_cons_self, if_pos rfl]
    · rw [Function.update_of_ne here, starts cpu, if_neg here, startedAt_cons_ne _ here]
  · rw [sum_update, runtime, sub_self, add_zero]

/-- The entry of a pid that is switched in for the first time. -/
theorem entry_created (earlier : WellFormed 0 boot past)
    (leaves : event.prev = runningOn boot past event.cpu)
    (alone : ∀ cpu, cpu ≠ event.cpu → runningOn boot past cpu = event.next → event.next = 0)
    (busy : event.next ≠ 0) (never : ∀ other ∈ past, other.next ≠ event.next) :
    Entry boot (event :: past) event.next
      (Function.update (fun _ => {}) event.cpu ⟨event.now, 0⟩) := by
  have elsewhere : ∀ cpu, cpu ≠ event.cpu → runningOn boot past cpu ≠ event.next :=
    fun cpu other runs => busy (alone cpu other runs)
  refine ⟨fun cpu => ?_, fun cpu runs => ?_, ?_⟩
  · by_cases here : cpu = event.cpu
    · rw [here, Function.update_self, startedAt_cons_self, if_pos rfl]
    · rw [Function.update_of_ne here, startedAt_cons_ne _ here]
      exact (startedAt_eq_zero boot (elsewhere cpu here)).symm
  · by_cases here : cpu = event.cpu
    · rw [here, lastOn_cons_self]
      simp
    · rw [runningOn_cons_ne boot here] at runs
      exact absurd runs (elsewhere cpu here)
  · have unseen : closedTime event.next (event :: past) = 0 := by
      rw [closedTime, earlier.closedTime_eq_zero never, Nat.zero_add]
      by_cases left : event.prev = event.next
      · rw [if_pos left]
        exact ended_eq_zero leaves (by rw [left]; exact never)
      · rw [if_neg left]
    rw [sum_update, unseen]
    simp

end Step

/-- A switch of a well-formed schedule keeps the map in step with it. -/
theorem Represents.switch (layout : Layout UInt32) {boot : Fin cpus → UInt32}
    {past : List (Switch (Fin cpus) UInt32)} {event : Switch (Fin cpus) UInt32}
    {table : CpuAcctTable cpus} (represents : Represents boot past table)
    (earlier : WellFormed 0 boot past)
    (leaves : event.prev = runningOn boot past event.cpu)
    (ordered : ∀ before ∈ past, before.now ≤ event.now)
    (alone : ∀ cpu, cpu ≠ event.cpu → runningOn boot past cpu = event.next → event.next = 0) :
    Represents boot (event :: past)
      (traceSchedSwitch layout table event.cpu event.now event.prev event.next) := by
  have keys := keys_chargePrev table event.cpu event.now event.prev
  have size : (chargePrev table event.cpu event.now event.prev).entries.length =
      table.entries.length := by
    have lengths := congrArg List.length keys
    rwa [HashTable.keys, HashTable.keys, List.length_map, List.length_map] at lengths
  unfold traceSchedSwitch
  rcases stampNext_cases layout (chargePrev table event.cpu event.now event.prev) event.cpu
      event.now event.next with
    ⟨idle, same⟩ | ⟨busyNext, present, sameKeys, stored⟩ |
    ⟨busyNext, absent, room, grown, stored⟩ | ⟨busyNext, absent, full, same⟩
  · rw [same]
    refine .of_entries (fun pid slots found busy => ?_) (fun room other member busy => ?_)
    · exact entry_charged represents leaves ordered busy (fun equal => busy (equal ▸ idle)) found
    · rw [keys]
      rcases List.mem_cons.mp member with rfl | old
      · exact absurd idle busy
      · exact represents.entered (size ▸ room) other old busy
  · refine .of_entries (fun pid slots found busy => ?_) (fun room other member busy => ?_)
    · rw [stored] at found
      by_cases next : pid = event.next
      · subst next
        rw [if_pos rfl] at found
        obtain ⟨before, charged, rfl⟩ := Option.map_eq_some_iff.mp found
        exact entry_stamped represents leaves ordered busy charged
      · rw [if_neg next] at found
        exact entry_charged represents leaves ordered busy (Ne.symm next) found
    · have length := congrArg List.length sameKeys
      rw [HashTable.keys, HashTable.keys, List.length_map, List.length_map, size] at length
      rw [sameKeys]
      rcases List.mem_cons.mp member with rfl | old
      · exact present
      · rw [keys]
        exact represents.entered (length ▸ room) other old busy
  · rw [keys] at absent
    rw [size] at room grown
    have never : ∀ other ∈ past, other.next ≠ event.next := by
      intro other member equal
      exact absent (equal ▸ represents.entered room other member (equal ▸ busyNext))
    refine .of_entries (fun pid slots found busy => ?_) (fun _ other member busy => ?_)
    · rw [stored] at found
      by_cases next : pid = event.next
      · subst next
        rw [if_pos rfl] at found
        obtain rfl := Option.some.inj found
        exact entry_created earlier leaves alone busy never
      · rw [if_neg next] at found
        exact entry_charged represents leaves ordered busy (Ne.symm next) found
    · rw [HashTable.mem_keys_iff, stored]
      by_cases next : other.next = event.next
      · rw [if_pos next]
        exact ⟨_, rfl⟩
      · rw [if_neg next, ← HashTable.mem_keys_iff, keys]
        rcases List.mem_cons.mp member with rfl | old
        · exact absurd rfl next
        · exact represents.entered room other old busy
  · rw [same]
    refine .of_entries (fun pid slots found busy => ?_) (fun room => absurd room full)
    have stays : event.next ≠ pid := by
      intro equal
      exact absent (equal ▸ (HashTable.mem_keys_iff _ pid).mpr ⟨slots, found⟩)
    exact entry_charged represents leaves ordered busy stays found

/-- The map is in step with every well-formed schedule. -/
theorem represents_schedule (layout : Layout UInt32) {boot : Fin cpus → UInt32}
    {history : List (Switch (Fin cpus) UInt32)} (formed : WellFormed 0 boot history) :
    Represents boot history (acctAfter layout history) := by
  induction formed with
  | boot alone =>
    constructor
    · intro pid slots found
      cases found
    · intro pid slots found
      cases found
    · intro pid slots found
      cases found
    · intro _ event member
      cases member
  | switch event past earlier leaves ordered alone ih =>
    exact ih.switch layout earlier leaves ordered alone

/-- A pid that is refused by a full map never gets an entry. -/
theorem refused_forever (layout : Layout UInt32) (pid : UInt32)
    (past later : List (Switch (Fin cpus) UInt32))
    (full : (acctAfter layout past).entries.length = 65536)
    (absent : (acctAfter layout past).lookup pid = none) :
    (acctAfter layout (later ++ past)).lookup pid = none := by
  suffices held : (acctAfter layout (later ++ past)).entries.length = 65536 ∧
      (acctAfter layout (later ++ past)).lookup pid = none from held.2
  induction later with
  | nil => exact ⟨full, absent⟩
  | cons event later ih =>
    obtain ⟨stillFull, missing⟩ := ih
    have size := length_traceSchedSwitch layout (acctAfter layout (later ++ past)) event.cpu
      event.now event.prev event.next
    have member := mem_keys_traceSchedSwitch layout (acctAfter layout (later ++ past)) event.cpu
      event.now event.prev event.next pid
    rw [stillFull, if_neg fun grows => lt_irrefl _ grows.2.2] at size
    refine ⟨size, ?_⟩
    rw [HashTable.lookup_eq_none_iff] at missing ⊢
    intro inside
    rcases member.mp inside with old | ⟨_, _, room⟩
    · exact missing old
    · exact absurd stillFull room.ne

/-- The runtimes of an entry add up to the closed run intervals of its pid. -/
theorem sum_eq_closedTime (layout : Layout UInt32) {boot : Fin cpus → UInt32}
    {history : List (Switch (Fin cpus) UInt32)} (formed : WellFormed 0 boot history)
    {pid : UInt32} (busy : pid ≠ 0) {slots : PerCpu cpus CpuAcct}
    (found : (acctAfter layout history).lookup pid = some slots) :
    (sumPerCpu slots).toNat = closedTime pid history := by
  have charged := (represents_schedule layout formed).charged pid slots found busy
  have fits := (formed.closedTime_le pid busy).1 (2 ^ 64 - 1) (fun event _ => by
    have := event.now.toNat_lt
    omega)
  have small : closedTime pid history < UInt64.size := by
    have : UInt64.size = 2 ^ 64 := rfl
    omega
  rw [sumPerCpu_eq, charged, UInt64.toNat_ofNat_of_lt' small]

/-- CPU accounting is exact: after every well-formed schedule, on any number of CPUs and with any
migration, the runtime of a pid that has an entry, summed over the CPUs as a poll sums it, is the
total length of its closed run intervals that began with a switch-in; and a pid whose insert
failed because the map was full has no entry. -/
theorem runtime_exact (layout : Layout UInt32) (boot : Fin cpus → UInt32)
    (history : List (Switch (Fin cpus) UInt32)) (formed : WellFormed 0 boot history)
    (pid : UInt32) (busy : pid ≠ 0) :
    (∀ slots, (acctAfter layout history).lookup pid = some slots →
      (sumPerCpu slots).toNat = closedTime pid history) ∧
    ∀ event past later, history = later ++ event :: past → event.next = pid →
      (acctAfter layout past).lookup pid = none →
      (acctAfter layout past).entries.length = 65536 →
      (acctAfter layout history).lookup pid = none := by
  constructor
  · intro slots found
    exact sum_eq_closedTime layout formed busy found
  · intro event past later split _ missing full
    have refused := refused_forever layout pid past (later ++ [event]) full missing
    rwa [List.append_assoc, List.singleton_append, ← split] at refused

/-- A pid that migrates between two CPUs, the latest switch first: 15 ns on the first and 20 on
the second. -/
def migration : List (Switch (Fin 2) UInt32) :=
  [⟨1, 50, 5, 0⟩, ⟨1, 30, 0, 5⟩, ⟨0, 25, 5, 0⟩, ⟨0, 10, 0, 5⟩]

/-- The migrating pid is charged 35 ns. -/
theorem runtime_exact_migration :
    ∃ slots, (acctAfter (fun _ _ => 0) migration).lookup 5 = some slots ∧
      (sumPerCpu slots).toNat = 35 := by
  have formed : WellFormed 0 (fun _ => 0) migration := by
    refine .switch _ _ (.switch _ _ (.switch _ _ (.switch _ _ (.boot ?_) ?_ ?_ ?_) ?_ ?_ ?_)
      ?_ ?_ ?_) ?_ ?_ ?_ <;> decide
  obtain ⟨slots, found⟩ := Option.isSome_iff_exists.mp
    (by decide : ((acctAfter (fun _ _ => 0) migration).lookup 5).isSome)
  have exact := (runtime_exact (fun _ _ => 0) (fun _ => 0) migration formed 5 (by decide)).1
    slots found
  have length : closedTime 5 migration = 35 := by decide
  exact ⟨slots, found, exact.trans length⟩

end ContainerAnomaly.Accounting
