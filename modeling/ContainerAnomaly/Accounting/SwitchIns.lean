import ContainerAnomaly.Accounting.Runtime

/-!
# Charges and switch-ins

The accounting program under any sequence of switches: nothing is assumed of the outgoing pid,
which may not be the one switched in last on its CPU. The zero that marks a slot as not running is
subtracted like a time, so a switch-out without a switch-in on its CPU charges the whole uptime;
every other charge is the recorded interval (`charges_recorded_iff`).
-/

namespace ContainerAnomaly.Accounting

open Lib Bpf

variable {cpus : Nat}

/-- When a pid was last switched in on a CPU, unless it was switched out there since. -/
def switchedIn : List (Switch (Fin cpus) UInt32) → UInt32 → Fin cpus → Option UInt64
  | [], _, _ => none
  | event :: past, pid, cpu =>
    if event.cpu = cpu then
      if event.next = pid then some event.now
      else if event.prev = pid then none
      else switchedIn past pid cpu
    else switchedIn past pid cpu

/-- Time is positive and does not run backwards. -/
structure Timed (history : List (Switch (Fin cpus) UInt32)) : Prop where
  /-- The clock is past zero. -/
  positive : ∀ event ∈ history, 0 < event.now
  /-- The clock does not go back. -/
  ordered : history.Pairwise fun later before => before.now ≤ later.now

/-- The past of a timed history is timed. -/
theorem Timed.past {later past : List (Switch (Fin cpus) UInt32)}
    (timed : Timed (later ++ past)) : Timed past where
  positive := fun event inside => timed.positive event (List.mem_append_right _ inside)
  ordered := (List.pairwise_append.mp timed.ordered).2.1

/-- A recorded switch-in is an event of the past. -/
theorem switchedIn_mem {history : List (Switch (Fin cpus) UInt32)} {pid : UInt32} {cpu : Fin cpus}
    {start : UInt64} (recorded : switchedIn history pid cpu = some start) :
    ∃ event ∈ history, event.next = pid ∧ event.now = start := by
  induction history with
  | nil => cases recorded
  | cons event past ih =>
    have older : switchedIn past pid cpu = some start →
        ∃ entered ∈ event :: past, entered.next = pid ∧ entered.now = start := by
      intro before
      obtain ⟨entered, inside, names⟩ := ih before
      exact ⟨entered, List.mem_cons_of_mem _ inside, names⟩
    unfold switchedIn at recorded
    by_cases here : event.cpu = cpu
    · rw [if_pos here] at recorded
      by_cases next : event.next = pid
      · rw [if_pos next] at recorded
        exact ⟨event, List.mem_cons_self, next, Option.some.inj recorded⟩
      · rw [if_neg next] at recorded
        by_cases prev : event.prev = pid
        · rw [if_pos prev] at recorded
          cases recorded
        · rw [if_neg prev] at recorded
          exact older recorded
    · rw [if_neg here] at recorded
      exact older recorded

/-- The map holds the switch-ins of the pids it has an entry for, in any history. -/
structure Records (history : List (Switch (Fin cpus) UInt32)) (table : CpuAcctTable cpus) :
    Prop where
  /-- A slot holds the switch-in on its CPU, or zero. -/
  started : ∀ pid slots, table.lookup pid = some slots →
    ∀ cpu, (slots cpu).lastStartNs = (switchedIn history pid cpu).getD 0
  /-- While there is room, every pid that was switched in has its entry. -/
  entered : table.entries.length < 65536 → ∀ event ∈ history, event.next ≠ 0 →
    event.next ∈ table.keys
  /-- The idle task has none. -/
  busy : 0 ∉ table.keys

/-- A slot after the charging half of a switch. -/
theorem Records.charged {past : List (Switch (Fin cpus) UInt32)} {table : CpuAcctTable cpus}
    (records : Records past table) (event : Switch (Fin cpus) UInt32) {pid : UInt32}
    {slots : PerCpu cpus CpuAcct}
    (found : (chargePrev table event.cpu event.now event.prev).lookup pid = some slots)
    (cpu : Fin cpus) : (slots cpu).lastStartNs =
      if event.cpu = cpu ∧ event.prev = pid then 0 else (switchedIn past pid cpu).getD 0 := by
  have present : pid ∈ table.keys := by
    rw [← keys_chargePrev table event.cpu event.now event.prev, HashTable.mem_keys_iff]
    exact ⟨slots, found⟩
  have running : pid ≠ 0 := fun idle => records.busy (idle ▸ present)
  rw [lookup_chargePrev] at found
  by_cases left : pid = event.prev
  · rw [if_pos ⟨left, left ▸ running⟩] at found
    obtain ⟨before, stored, rfl⟩ := Option.map_eq_some_iff.mp found
    by_cases here : cpu = event.cpu
    · subst here
      simp [left, CpuAcct.charge]
    · rw [Function.update_of_ne here, if_neg fun both => here both.1.symm]
      exact records.started pid before stored cpu
  · rw [if_neg fun both => left both.1] at found
    rw [if_neg fun both => left both.2.symm]
    exact records.started pid slots found cpu

/-- A slot of a pid that is not switched in, after a switch. -/
theorem Records.unstamped {past : List (Switch (Fin cpus) UInt32)} {table : CpuAcctTable cpus}
    (records : Records past table) {event : Switch (Fin cpus) UInt32} {pid : UInt32}
    (stays : event.next ≠ pid) {slots : PerCpu cpus CpuAcct}
    (found : (chargePrev table event.cpu event.now event.prev).lookup pid = some slots)
    (cpu : Fin cpus) :
    (slots cpu).lastStartNs = (switchedIn (event :: past) pid cpu).getD 0 := by
  rw [records.charged event found cpu, switchedIn, if_neg stays]
  by_cases here : event.cpu = cpu
  · by_cases left : event.prev = pid <;> simp [here, left]
  · simp [here]

/-- A switch keeps what the map records in step with it. -/
theorem Records.switch (layout : Layout UInt32) {past : List (Switch (Fin cpus) UInt32)}
    {table : CpuAcctTable cpus} (records : Records past table)
    (event : Switch (Fin cpus) UInt32) :
    Records (event :: past)
      (traceSchedSwitch layout table event.cpu event.now event.prev event.next) := by
  have keys := keys_chargePrev table event.cpu event.now event.prev
  have size := length_chargePrev table event.cpu event.now event.prev
  have member := mem_keys_traceSchedSwitch layout table event.cpu event.now event.prev event.next
  constructor
  · intro pid slots found cpu
    unfold traceSchedSwitch at found
    rcases stampNext_cases layout (chargePrev table event.cpu event.now event.prev) event.cpu
        event.now event.next with
      ⟨idle, same⟩ | ⟨busy, present, _, stored⟩ | ⟨busy, absent, room, _, stored⟩ |
      ⟨busy, absent, full, same⟩
    · rw [same] at found
      have stays : event.next ≠ pid := by
        rintro rfl
        have present := (HashTable.mem_keys_iff _ _).mpr ⟨slots, found⟩
        exact records.busy (idle ▸ keys ▸ present)
      exact records.unstamped stays found cpu
    · rw [stored] at found
      by_cases next : pid = event.next
      · subst next
        rw [if_pos rfl] at found
        obtain ⟨before, charged, rfl⟩ := Option.map_eq_some_iff.mp found
        by_cases here : cpu = event.cpu
        · subst here
          simp [switchedIn]
        · have start := records.charged event charged cpu
          rw [if_neg fun both => here both.1.symm] at start
          rw [Function.update_of_ne here, start, switchedIn, if_neg (Ne.symm here)]
      · rw [if_neg next] at found
        exact records.unstamped (Ne.symm next) found cpu
    · rw [stored] at found
      by_cases next : pid = event.next
      · subst next
        rw [if_pos rfl] at found
        obtain rfl := Option.some.inj found
        by_cases here : cpu = event.cpu
        · subst here
          simp [switchedIn]
        · -- A new entry is that of a pid that was never switched in before.
          have never : switchedIn past event.next cpu = none := by
            cases recorded : switchedIn past event.next cpu with
            | none => rfl
            | some start =>
              obtain ⟨entered, inside, next, _⟩ := switchedIn_mem recorded
              have old := records.entered (size ▸ room) entered inside (next ▸ busy)
              exact absurd (keys.symm ▸ next ▸ old) absent
          rw [Function.update_of_ne here, switchedIn, if_neg (Ne.symm here), never]
          rfl
      · rw [if_neg next] at found
        exact records.unstamped (Ne.symm next) found cpu
    · rw [same] at found
      have stays : event.next ≠ pid := by
        rintro rfl
        exact absent ((HashTable.mem_keys_iff _ _).mpr ⟨slots, found⟩)
      exact records.unstamped stays found cpu
  · intro room other inside busy
    rw [member]
    rw [length_traceSchedSwitch] at room
    have before : table.entries.length < 65536 := by omega
    rcases List.mem_cons.mp inside with rfl | old
    · exact .inr ⟨rfl, busy, before⟩
    · exact .inl (records.entered before other old busy)
  · rw [member]
    rintro (old | ⟨idle, busy, _⟩)
    · exact records.busy old
    · exact busy idle.symm

/-- After every history, the map holds the switch-ins of its pids. -/
theorem records_history (layout : Layout UInt32) (history : List (Switch (Fin cpus) UInt32)) :
    Records history (acctAfter layout history) := by
  induction history with
  | nil =>
    refine ⟨fun pid slots found => ?_, fun _ event inside => ?_, fun inside => ?_⟩
    · cases found
    · cases inside
    · cases inside
  | cons event past ih => exact ih.switch layout event

/-- The runtime of a pid on a CPU. -/
def runtimeOn (table : CpuAcctTable cpus) (pid : UInt32) (cpu : Fin cpus) : UInt64 :=
  ((table.lookup pid).map fun slots => (slots cpu).runtimeNs).getD 0

/-- What a switch adds to the slot of the outgoing pid. -/
def charged (layout : Layout UInt32) (past : List (Switch (Fin cpus) UInt32))
    (event : Switch (Fin cpus) UInt32) : UInt64 :=
  runtimeOn (acctAfter layout (event :: past)) event.prev event.cpu -
    runtimeOn (acctAfter layout past) event.prev event.cpu

/-- Stamping charges nothing. -/
theorem runtimeOn_stampNext (layout : Layout UInt32) (table : CpuAcctTable cpus) (cpu : Fin cpus)
    (now : UInt64) (nextPid pid : UInt32) (other : Fin cpus) :
    runtimeOn (stampNext layout table cpu now nextPid) pid other = runtimeOn table pid other := by
  unfold runtimeOn
  rcases stampNext_cases layout table cpu now nextPid with
    ⟨_, same⟩ | ⟨_, _, _, stored⟩ | ⟨_, absent, _, _, stored⟩ | ⟨_, _, _, same⟩
  · rw [same]
  · rw [stored]
    by_cases next : pid = nextPid
    · rw [if_pos next]
      cases table.lookup pid with
      | none => rfl
      | some slots => by_cases here : other = cpu <;> simp [here]
    · rw [if_neg next]
  · rw [stored]
    by_cases next : pid = nextPid
    · subst next
      rw [if_pos rfl, (table.lookup_eq_none_iff pid).mpr absent]
      by_cases here : other = cpu <;> simp [here]
    · rw [if_neg next]
  · rw [same]

/-- A switch charges the outgoing pid, if it has an entry, for the time since its slot was
stamped, or since the start of the clock. -/
theorem charged_eq (layout : Layout UInt32) (past : List (Switch (Fin cpus) UInt32))
    (event : Switch (Fin cpus) UInt32) :
    charged layout past event =
      if event.prev ∈ (acctAfter layout past).keys then
        if event.now ≥ (switchedIn past event.prev event.cpu).getD 0 then
          event.now - (switchedIn past event.prev event.cpu).getD 0
        else 0
      else 0 := by
  have records := records_history layout past
  have left : runtimeOn (acctAfter layout (event :: past)) event.prev event.cpu =
      runtimeOn (chargePrev (acctAfter layout past) event.cpu event.now event.prev) event.prev
        event.cpu := runtimeOn_stampNext layout _ event.cpu event.now event.next _ _
  rw [charged, left, runtimeOn, runtimeOn, lookup_chargePrev]
  by_cases present : event.prev ∈ (acctAfter layout past).keys
  · obtain ⟨slots, found⟩ := (HashTable.mem_keys_iff _ _).mp present
    have busy : event.prev ≠ 0 := fun idle => records.busy (idle ▸ present)
    rw [if_pos ⟨rfl, busy⟩, if_pos present, found,
      ← records.started event.prev slots found event.cpu]
    simp only [Option.map_some, Option.getD_some, Function.update_self, CpuAcct.charge]
    by_cases later : event.now ≥ (slots event.cpu).lastStartNs
    · rw [if_pos later, if_pos later, add_sub_cancel_left]
    · rw [if_neg later, if_neg later, sub_self]
  · have missing := (HashTable.lookup_eq_none_iff _ _).mpr present
    rw [if_neg present, missing]
    simp

/-- A switch adds to the outgoing pid at most the time since it was recorded as switched in on
this CPU, and nothing when it was not. -/
def ChargesRecorded (layout : Layout UInt32) (past : List (Switch (Fin cpus) UInt32))
    (event : Switch (Fin cpus) UInt32) : Prop :=
  match switchedIn past event.prev event.cpu with
  | some start => (charged layout past event).toNat ≤ event.now.toNat - start.toNat
  | none => charged layout past event = 0

/-- A switch charges no more than it should exactly when the outgoing pid has no entry or is
recorded as switched in. -/
theorem charges_recorded_step (layout : Layout UInt32) (past : List (Switch (Fin cpus) UInt32))
    (event : Switch (Fin cpus) UInt32) (timed : Timed (event :: past)) :
    ChargesRecorded layout past event ↔
      event.prev ∉ (acctAfter layout past).keys ∨
        switchedIn past event.prev event.cpu ≠ none := by
  have amount := charged_eq layout past event
  have positive := timed.positive event List.mem_cons_self
  unfold ChargesRecorded
  cases recorded : switchedIn past event.prev event.cpu with
  | some start =>
    obtain ⟨entered, inside, _, rfl⟩ := switchedIn_mem recorded
    have later : entered.now ≤ event.now := (List.pairwise_cons.mp timed.ordered).1 _ inside
    refine iff_of_true ?_ (.inr (by simp))
    rw [recorded, Option.getD_some, if_pos later] at amount
    dsimp only
    rw [amount]
    split
    · exact le_of_eq (UInt64.toNat_sub_of_le _ _ later)
    · exact Nat.zero_le _
  | none =>
    -- The mark of a slot that is not running is a start of zero: the whole uptime is charged.
    rw [recorded, Option.getD_none, if_pos (UInt64.zero_le), UInt64.sub_zero] at amount
    dsimp only
    rw [amount]
    by_cases present : event.prev ∈ (acctAfter layout past).keys
    · rw [if_pos present]
      have nonzero : event.now ≠ 0 := (UInt64.pos_iff_ne_zero).mp positive
      simp [nonzero, present]
    · rw [if_neg present]
      exact iff_of_true rfl (.inl present)

/-- In every history, on any CPUs and whatever runs there, each switch charges at most the time
since a recorded switch-in exactly when each one finds its outgoing pid without an entry or
recorded as switched in on that CPU. -/
theorem charges_recorded_iff (layout : Layout UInt32) (history : List (Switch (Fin cpus) UInt32))
    (timed : Timed history) :
    (∀ later event past, history = later ++ event :: past → ChargesRecorded layout past event) ↔
      ∀ later event past, history = later ++ event :: past →
        event.prev ∉ (acctAfter layout past).keys ∨
          switchedIn past event.prev event.cpu ≠ none := by
  refine forall₃_congr fun later event past => forall_congr' fun split => ?_
  rw [split] at timed
  exact charges_recorded_step layout past event timed.past

/-- Thread 8 execs while it runs on one CPU and takes over the pid of its leader 7, which was
switched in on another: it leaves as 7. The latest switch comes first. -/
def takesOver (home away : Fin cpus) : List (Switch (Fin cpus) UInt32) :=
  [⟨away, 200, 7, 0⟩, ⟨home, 150, 7, 0⟩, ⟨away, 100, 0, 8⟩, ⟨home, 50, 0, 7⟩]

/-- The pid that was taken over is charged 200 ns on a CPU it was never switched in on. -/
theorem uptime_charged :
    Timed (takesOver (0 : Fin 2) 1) ∧
    charged (fun _ _ => 0) (takesOver (0 : Fin 2) 1).tail ⟨1, 200, 7, 0⟩ = 200 ∧
    ¬ ∀ later event past, takesOver (0 : Fin 2) 1 = later ++ event :: past →
      ChargesRecorded (fun _ _ => 0) past event := by
  refine ⟨⟨by decide, by decide⟩, by decide, fun within => ?_⟩
  have last : charged (fun _ _ => 0) (takesOver (0 : Fin 2) 1).tail ⟨1, 200, 7, 0⟩ = 0 :=
    within [] _ _ rfl
  exact absurd last (by decide)

/-- A pid that runs on one CPU and then on another is charged within its switch-ins. -/
theorem charges_recorded_iff_migration :
    Timed migration ∧ ∀ later event past, migration = later ++ event :: past →
      ChargesRecorded (fun _ _ => 0) past event := by
  have timed : Timed migration := ⟨by decide, by decide⟩
  refine ⟨timed, (charges_recorded_iff (fun _ _ => 0) migration timed).mpr ?_⟩
  intro later event past split
  rcases later with _ | ⟨_, _ | ⟨_, _ | ⟨_, _ | ⟨_, later⟩⟩⟩⟩
  · obtain ⟨rfl, rfl⟩ := List.cons.inj split
    exact .inr (by decide)
  · obtain ⟨rfl, rfl⟩ := List.cons.inj (List.cons.inj split).2
    exact .inl (by decide)
  · obtain ⟨rfl, rfl⟩ := List.cons.inj (List.cons.inj (List.cons.inj split).2).2
    exact .inr (by decide)
  · obtain ⟨rfl, rfl⟩ := List.cons.inj (List.cons.inj (List.cons.inj (List.cons.inj split).2).2).2
    exact .inl (by decide)
  · simp [migration] at split

end ContainerAnomaly.Accounting
