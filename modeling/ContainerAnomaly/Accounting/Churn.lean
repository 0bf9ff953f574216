import ContainerAnomaly.Accounting.Runtime
import Mathlib.Data.Finset.Card

/-!
# The accounts of processes that come and go

Processes are created and exit, switches are accounted and polls forget what has gone from the map.
Nothing goes from it: the program only inserts and the poll only reads, so the map holds every pid
that was ever switched in until it is full. Live processes are accounted, and the map is no larger
than what has lived since the last poll, exactly when these pids are few (`survives_iff`).
-/

namespace ContainerAnomaly.Accounting

open Lib Bpf PidRuntime Schedule

variable {cpus : Nat}

/-- What happens to processes and their accounts. -/
inductive Happens (cpus : Nat) where
  | create (pid : UInt32)
  | exit (pid : UInt32)
  | switch (event : Switch (Fin cpus) UInt32)
  | poll (order : RangeOrder UInt32 UInt64)

/-- The pids that are alive, and those that were at some time since the last poll. -/
structure Census where
  /-- The pids that are alive. -/
  alive : Finset UInt32
  /-- Those that were alive at some time since the last poll. -/
  recent : Finset UInt32

/-- The census after a history, the latest first. -/
def census (start : Finset UInt32) : List (Happens cpus) → Census
  | [] => ⟨start, start⟩
  | .create pid :: past =>
    ⟨insert pid (census start past).alive, insert pid (census start past).recent⟩
  | .exit pid :: past => ⟨(census start past).alive.erase pid, (census start past).recent⟩
  | .switch _ :: past => census start past
  | .poll _ :: past => ⟨(census start past).alive, (census start past).alive⟩

/-- The switches of a history. -/
def schedule (history : List (Happens cpus)) : List (Switch (Fin cpus) UInt32) :=
  history.filterMap fun
    | .switch event => some event
    | _ => none

/-- The pids that were switched in; the idle task is none. -/
def entrants : List (Happens cpus) → Finset UInt32
  | [] => ∅
  | .switch event :: past =>
    if event.next = 0 then entrants past else insert event.next (entrants past)
  | _ :: past => entrants past

/-- The kernel map and the collector. -/
structure Accounts (cpus : Nat) where
  /-- `cpu_acct_by_pid`. -/
  table : CpuAcctTable cpus
  /-- The collector that polls it. -/
  collector : Collector

/-- The accounts after a history. -/
def accountsAfter (layout : Layout UInt32) : List (Happens cpus) → Accounts cpus
  | [] => ⟨.empty _ _ _, .new⟩
  | .switch event :: past =>
    let accounts := accountsAfter layout past
    { accounts with
      table := traceSchedSwitch layout accounts.table event.cpu event.now event.prev event.next }
  | .poll order :: past =>
    let accounts := accountsAfter layout past
    { accounts with collector := ⟨(due order accounts.table accounts.collector).1⟩ }
  | .create _ :: past => accountsAfter layout past
  | .exit _ :: past => accountsAfter layout past

/-- The histories that can be observed: a schedule is well formed, only live pids are switched in,
and no more than 65536 are alive at a time. -/
inductive Lawful (start : Finset UInt32) (boot : Fin cpus → UInt32) : List (Happens cpus) → Prop
  | boot (host : 0 ∉ start) (few : start.card ≤ 65536)
      (alone : ∀ left right, boot left = boot right → boot left ≠ 0 → left = right) :
      Lawful start boot []
  | create (pid : UInt32) (past : List (Happens cpus)) (earlier : Lawful start boot past)
      (busy : pid ≠ 0) (free : pid ∉ (census start past).alive)
      (few : (census start past).alive.card < 65536) :
      Lawful start boot (.create pid :: past)
  | exit (pid : UInt32) (past : List (Happens cpus)) (earlier : Lawful start boot past)
      (lives : pid ∈ (census start past).alive) :
      Lawful start boot (.exit pid :: past)
  | switch (event : Switch (Fin cpus) UInt32) (past : List (Happens cpus))
      (earlier : Lawful start boot past)
      (leaves : event.prev = runningOn boot (schedule past) event.cpu)
      (ordered : ∀ before ∈ schedule past, before.now ≤ event.now)
      (alone : ∀ cpu, cpu ≠ event.cpu → runningOn boot (schedule past) cpu = event.next →
        event.next = 0)
      (lives : event.next ≠ 0 → event.next ∈ (census start past).alive) :
      Lawful start boot (.switch event :: past)
  | poll (order : RangeOrder UInt32 UInt64) (past : List (Happens cpus))
      (earlier : Lawful start boot past) :
      Lawful start boot (.poll order :: past)

variable {start : Finset UInt32} {boot : Fin cpus → UInt32}

/-- The switches of a lawful history are a well-formed schedule. -/
theorem Lawful.schedule {history : List (Happens cpus)} (lawful : Lawful start boot history) :
    WellFormed 0 boot (schedule history) := by
  induction lawful with
  | boot _ _ alone => exact .boot alone
  | create pid past _ _ _ _ ih => exact ih
  | exit pid past _ _ ih => exact ih
  | switch event past _ leaves ordered alone _ ih => exact .switch event _ ih leaves ordered alone
  | poll order past _ ih => exact ih

/-- The past of a lawful history is lawful. -/
theorem Lawful.past (later : List (Happens cpus)) {past : List (Happens cpus)}
    (lawful : Lawful start boot (later ++ past)) : Lawful start boot past := by
  induction later with
  | nil => exact lawful
  | cons latest later ih =>
    cases lawful with
    | create _ _ earlier => exact ih earlier
    | exit _ _ earlier => exact ih earlier
    | switch _ _ earlier => exact ih earlier
    | poll _ _ earlier => exact ih earlier

/-- The map is made by the switches alone. -/
theorem table_eq (layout : Layout UInt32) (history : List (Happens cpus)) :
    (accountsAfter layout history).table = acctAfter layout (schedule history) := by
  induction history with
  | nil => rfl
  | cons latest past ih =>
    cases latest with
    | switch event =>
      show traceSchedSwitch layout (accountsAfter layout past).table _ _ _ _ = _
      rw [ih]
      rfl
    | create pid => exact ih
    | exit pid => exact ih
    | poll order => exact ih

/-- A switch adds its incoming pid to those that were switched in. -/
theorem mem_entrants_switch (event : Switch (Fin cpus) UInt32) (past : List (Happens cpus))
    (pid : UInt32) :
    pid ∈ entrants (.switch event :: past) ↔
      pid ∈ entrants past ∨ pid = event.next ∧ event.next ≠ 0 := by
  show pid ∈ (if event.next = 0 then entrants past else insert event.next (entrants past)) ↔ _
  by_cases idle : event.next = 0
  · simp [idle]
  · simp [idle, or_comm]

/-- Pids that were switched in stay so. -/
theorem entrants_subset (later past : List (Happens cpus)) :
    entrants past ⊆ entrants (later ++ past) := by
  induction later with
  | nil => exact Finset.Subset.refl _
  | cons latest later ih =>
    cases latest with
    | switch event =>
      intro pid old
      exact (mem_entrants_switch event (later ++ past) pid).mpr (.inl (ih old))
    | create pid => exact ih
    | exit pid => exact ih
    | poll order => exact ih

/-- The map holds no pid that was not switched in. -/
theorem entered_of_mem (layout : Layout UInt32) (history : List (Happens cpus)) (pid : UInt32)
    (present : pid ∈ (accountsAfter layout history).table.keys) : pid ∈ entrants history := by
  induction history with
  | nil => cases present
  | cons latest past ih =>
    cases latest with
    | switch event =>
      have made := (mem_keys_traceSchedSwitch layout (accountsAfter layout past).table event.cpu
        event.now event.prev event.next pid).mp present
      rw [mem_entrants_switch]
      rcases made with old | ⟨entered, busy, _⟩
      · exact .inl (ih old)
      · exact .inr ⟨entered, busy⟩
    | create pid => exact ih present
    | exit pid => exact ih present
    | poll order => exact ih present

/-- A map that holds every pid that was switched in has that many entries. -/
theorem length_eq_card (layout : Layout UInt32) (history : List (Happens cpus))
    (all : ∀ pid ∈ entrants history, pid ∈ (accountsAfter layout history).table.keys) :
    (accountsAfter layout history).table.entries.length = (entrants history).card := by
  have same : (accountsAfter layout history).table.keys.toFinset = entrants history := by
    ext pid
    rw [List.mem_toFinset]
    exact ⟨entered_of_mem layout history pid, all pid⟩
  have counted : (accountsAfter layout history).table.keys.toFinset.card =
      (accountsAfter layout history).table.keys.length :=
    List.toFinset_card_of_nodup (accountsAfter layout history).table.distinct
  rw [← same, counted, HashTable.keys, List.length_map]

/-- While the pids that were switched in fit into the map, it holds them all. -/
theorem mem_of_few (layout : Layout UInt32) (history : List (Happens cpus))
    (few : (entrants history).card ≤ 65536) :
    ∀ pid ∈ entrants history, pid ∈ (accountsAfter layout history).table.keys := by
  induction history with
  | nil => simp [entrants]
  | cons latest past ih =>
    cases latest with
    | switch event =>
      have fewBefore : (entrants past).card ≤ 65536 :=
        (Finset.card_le_card (entrants_subset [.switch event] past)).trans few
      intro pid entered
      refine (mem_keys_traceSchedSwitch layout (accountsAfter layout past).table event.cpu
        event.now event.prev event.next pid).mpr ?_
      rcases (mem_entrants_switch event past pid).mp entered with old | ⟨rfl, busy⟩
      · exact .inl (ih fewBefore pid old)
      · by_cases known : event.next ∈ entrants past
        · exact .inl (ih fewBefore _ known)
        · -- The new pid takes one of the places that are left.
          have size := length_eq_card layout past (ih fewBefore)
          have grown : entrants (.switch event :: past) = insert event.next (entrants past) :=
            if_neg busy
          rw [grown, Finset.card_insert_of_notMem known] at few
          exact .inr ⟨rfl, busy, by omega⟩
    | create pid => exact ih few
    | exit pid => exact ih few
    | poll order => exact ih few

/-- The idle task is not switched in. -/
theorem ne_zero_of_entered (history : List (Happens cpus)) :
    ∀ pid ∈ entrants history, pid ≠ 0 := by
  induction history with
  | nil => simp [entrants]
  | cons latest past ih =>
    cases latest with
    | switch event =>
      intro pid entered
      rcases (mem_entrants_switch event past pid).mp entered with old | ⟨rfl, busy⟩
      · exact ih pid old
      · exact busy
    | create pid => exact ih
    | exit pid => exact ih
    | poll order => exact ih

/-- At every moment of a history each live pid that was switched in has an entry with its closed
run intervals, and after every poll there are no more entries than pids that were alive since the
poll before. -/
structure Survives (layout : Layout UInt32) (start : Finset UInt32)
    (history : List (Happens cpus)) : Prop where
  /-- Each live pid that was switched in has an entry with its closed run intervals. -/
  charged : ∀ later past, history = later ++ past →
    ∀ pid ∈ (census start past).alive, pid ∈ entrants past →
      ∃ slots, (accountsAfter layout past).table.lookup pid = some slots ∧
        (sumPerCpu slots).toNat = closedTime pid (schedule past)
  /-- After a poll there are no more entries than pids alive since the poll before. -/
  evicted : ∀ later order past, history = later ++ .poll order :: past →
    (accountsAfter layout (.poll order :: past)).table.entries.length ≤
      (census start past).recent.card

/-- What survives a history has survived its past. -/
theorem Survives.past {layout : Layout UInt32} (later : List (Happens cpus))
    {past : List (Happens cpus)} (survives : Survives layout start (later ++ past)) :
    Survives layout start past where
  charged recent before split := survives.charged (later ++ recent) before (by
    rw [split, List.append_assoc])
  evicted recent order before split := survives.evicted (later ++ recent) order before (by
    rw [split, List.append_assoc])

/-- When accounts survive, every pid that was switched in has its entry: it was alive then. -/
theorem Survives.mem {layout : Layout UInt32} {history : List (Happens cpus)}
    (lawful : Lawful start boot history) (survives : Survives layout start history) (pid : UInt32)
    (entered : pid ∈ entrants history) : pid ∈ (accountsAfter layout history).table.keys := by
  induction lawful with
  | boot _ _ _ => simp [entrants] at entered
  | create pid past _ _ _ _ ih => exact ih (Survives.past [.create pid] survives) entered
  | exit pid past _ _ ih => exact ih (Survives.past [.exit pid] survives) entered
  | poll order past _ ih => exact ih (Survives.past [.poll order] survives) entered
  | switch event past _ _ _ _ lives ih =>
    rcases (mem_entrants_switch event past pid).mp entered with old | ⟨rfl, busy⟩
    · have present := ih (Survives.past [.switch event] survives) old
      exact (mem_keys_traceSchedSwitch layout (accountsAfter layout past).table event.cpu
        event.now event.prev event.next pid).mpr (.inl present)
    · obtain ⟨slots, found, _⟩ := survives.charged [] _ rfl event.next (lives busy) entered
      exact (HashTable.mem_keys_iff _ _).mpr ⟨slots, found⟩

/-- In every lawful history, accounts survive exactly when no more than 65536 pids are ever
switched in, and at every poll no more have been than were alive since the poll before. -/
theorem survives_iff (layout : Layout UInt32) (start : Finset UInt32) (boot : Fin cpus → UInt32)
    (history : List (Happens cpus)) (lawful : Lawful start boot history) :
    Survives layout start history ↔
      (entrants history).card ≤ 65536 ∧
        ∀ later order past, history = later ++ .poll order :: past →
          (entrants past).card ≤ (census start past).recent.card := by
  constructor
  · intro survives
    have all := survives.mem lawful
    constructor
    · rw [← length_eq_card layout history all]
      exact (accountsAfter layout history).table.bounded
    · rintro later order past rfl
      have lawfulPast : Lawful start boot (.poll order :: past) := lawful.past later
      have kept := survives.evicted later order past rfl
      rwa [length_eq_card layout (.poll order :: past)
        ((Survives.past later survives).mem lawfulPast)] at kept
  · rintro ⟨few, gone⟩
    have fewBefore : ∀ later past, history = later ++ past → (entrants past).card ≤ 65536 := by
      rintro later past rfl
      exact (Finset.card_le_card (entrants_subset later past)).trans few
    constructor
    · intro later past split pid lives entered
      have present := mem_of_few layout past (fewBefore later past split) pid entered
      obtain ⟨slots, found⟩ := (HashTable.mem_keys_iff _ _).mp present
      refine ⟨slots, found, ?_⟩
      rw [table_eq] at found
      subst split
      have busy := ne_zero_of_entered past pid entered
      exact sum_eq_closedTime layout (lawful.past later).schedule busy found
    · intro later order past split
      have fewPast : (entrants (.poll order :: past)).card ≤ 65536 :=
        fewBefore later (.poll order :: past) split
      rw [length_eq_card layout _ (mem_of_few layout _ fewPast)]
      exact gone later order past split

/-- Two processes are switched in and one of them exits before the first of two polls; the latest
comes first. -/
def oneExits (cpu : Fin cpus) : List (Happens cpus) :=
  [.poll (RangeOrder.stored _ _), .poll (RangeOrder.stored _ _), .exit 1,
    .switch ⟨cpu, 20, 1, 2⟩, .switch ⟨cpu, 10, 0, 1⟩]

/-- The history is lawful. -/
theorem oneExits_lawful : Lawful {1, 2} (fun _ => 0) (oneExits (0 : Fin 1)) := by
  refine .poll _ _ (.poll _ _ (.exit 1 _ (.switch _ _ (.switch _ _ (.boot ?_ ?_ ?_) ?_ ?_ ?_ ?_)
    ?_ ?_ ?_ ?_) ?_)) <;> decide

/-- The entry of the process that has exited is still there after the second poll, when only one
process has been alive since the poll before. -/
theorem exited_entry_stays :
    Lawful {1, 2} (fun _ => 0) (oneExits (0 : Fin 1)) ∧
    ¬ Survives (fun _ _ => 0) {1, 2} (oneExits (0 : Fin 1)) := by
  refine ⟨oneExits_lawful, fun survives => ?_⟩
  have kept := survives.evicted [] (RangeOrder.stored _ _) (oneExits 0).tail rfl
  exact absurd kept (by decide)

/-- Before the second poll the accounts survive. -/
theorem survives_iff_first_poll :
    Survives (fun _ _ => 0) {1, 2} (oneExits (0 : Fin 1)).tail := by
  have lawful : Lawful {1, 2} (fun _ => 0) (oneExits (0 : Fin 1)).tail :=
    Lawful.past [.poll (RangeOrder.stored _ _)] oneExits_lawful
  refine (survives_iff (fun _ _ => 0) {1, 2} (fun _ => 0) _ lawful).mpr ⟨by decide, ?_⟩
  intro later order past split
  rcases later with _ | ⟨_, _ | ⟨_, _ | ⟨_, _ | ⟨_, later⟩⟩⟩⟩
  · obtain ⟨_, rfl⟩ := List.cons.inj split
    decide
  · simp [oneExits] at split
  · simp [oneExits] at split
  · simp [oneExits] at split
  · simp [oneExits] at split

end ContainerAnomaly.Accounting
