import ContainerAnomaly.Collector.TcpStats
import ContainerAnomaly.Lib.Machine
import Mathlib.Tactic.Abel

/-!
# TCP polls in steps

`pollOnce` of `pkg/collector/tcpstats/collector.go` step by step, while the probes go on counting:
each `Next` and each `Delete` is a step of its own. A thread group that is counted again after its
`Delete` can be returned again by the same poll, and its row then has the last reading only.
Everything counted is reported, left or lost between a `Next` and its `Delete` exactly when such
repeated readings replace nothing (`accounted_iff_nothing_replaced`).
-/

namespace ContainerAnomaly.TcpStats

open Lib Bpf Container

/-- A poll in progress. -/
structure Poll where
  /-- The key that the iterator is at. -/
  cursor : Option UInt32
  /-- The number of keys it has asked for. -/
  asked : Nat
  /-- The key at the cursor has been returned and is not yet deleted. -/
  undeleted : Bool
  /-- What has been read so far. -/
  perTgid : GoMap UInt32 Stats

/-- `pollOnce` with a new iterator. -/
def Poll.begun : Poll := ⟨none, 0, false, ∅⟩

/-- The kernel map, the poll in progress and the resolver. -/
structure Polling (cpus : Nat) (ρ : Type) where
  /-- `tcp_stats_by_tgid`. -/
  table : TcpTable cpus
  /-- The poll under way. -/
  poll : Option Poll
  /-- What answers for the rows. -/
  resolver : ρ

/-- An empty map and no poll. -/
def Polling.loaded (cpus : Nat) {ρ : Type} (resolver : ρ) : Polling cpus ρ :=
  ⟨.empty _ _ _, none, resolver⟩

/-- The steps. -/
inductive PollStep (cpus : Nat) where
  /-- `bump`. -/
  | bump (cpu : Fin cpus) (tgid : UInt32) (txB rxB retrans : UInt64)
  /-- `pollOnce` begins, when none is in progress. -/
  | begin
  /-- `iter.Next`, after the last key was deleted; without another key the poll ends, and ranges
  over its map in an order. -/
  | next (order : RangeOrder UInt32 Stats)
  /-- `Delete` of the key that was returned. -/
  | delete

section Steps

variable {cpus : Nat} {ρ : Type} (layout : Layout UInt32) (budget : Nat)
  (resolve : ρ → UInt32 → GoString × ρ)

/-- What `Next` returns: the key after the cursor and its values, while the iterator goes on. -/
def Polling.found (state : Polling cpus ρ) : Option (UInt32 × PerCpu cpus Bpf.TcpStats) :=
  match state.poll with
  | none => none
  | some poll =>
    if poll.undeleted ∨ budget ≤ poll.asked then none
    else
      (state.table.nextKey poll.cursor).bind fun key =>
        (state.table.lookup key).map fun perCPU => (key, perCPU)

/-- One step, with the rows of a snapshot when a poll ends. -/
def Polling.step (state : Polling cpus ρ) : PollStep cpus → Polling cpus ρ × List Stats
  | .bump cpu tgid txB rxB retrans =>
    ({ state with table := bump layout state.table cpu tgid txB rxB retrans }, [])
  | .begin =>
    match state.poll with
    | some _ => (state, [])
    | none => ({ state with poll := some .begun }, [])
  | .next order =>
    match state.poll with
    | none => (state, [])
    | some poll =>
      match state.found budget with
      | some (key, perCPU) =>
        ({ state with poll := some {
            cursor := some key
            asked := poll.asked + 1
            undeleted := true
            perTgid := poll.perTgid.insert key (sumPerCpu key perCPU) } }, [])
      | none =>
        if poll.undeleted then (state, [])
        else
          let snapshot := resolveAll resolve Stats.tgid dueRow
            ((poll.perTgid.range order).map Prod.snd) state.resolver
          ({ state with poll := none, resolver := snapshot.2 }, snapshot.1)
  | .delete =>
    match state.poll with
    | none => (state, [])
    | some poll =>
      match poll.undeleted, poll.cursor with
      | true, some key =>
        ({ state with
          table := state.table.erase key, poll := some { poll with undeleted := false } }, [])
      | _, _ => (state, [])

/-- Polling as a machine. -/
def polling : Machine (Polling cpus ρ) (PollStep cpus) Stats :=
  ⟨Polling.step layout budget resolve⟩

end Steps

section Ledger

variable {cpus : Nat} {ρ : Type} (budget : Nat) (tgid : UInt32)

/-- The thread group has been returned and is not yet deleted. -/
def Polling.between (state : Polling cpus ρ) : Bool :=
  state.poll.any fun poll => poll.undeleted && poll.cursor = some tgid

/-- The reading that the poll in progress has of the thread group. -/
def Polling.reading (state : Polling cpus ρ) : Bpf.TcpStats :=
  (((state.poll.bind fun poll => poll.perTgid.lookup tgid).map Stats.counters).getD 0)

/-- What the map has of the thread group and no reading of the poll in progress. -/
def Polling.left (state : Polling cpus ρ) : Bpf.TcpStats :=
  if state.between tgid then 0 else tcpTotal state.table tgid

/-- What a step adds to the counters of the thread group in the map. -/
def added : Polling cpus ρ × PollStep cpus → Bpf.TcpStats
  | (state, .bump _ running txB rxB retrans) => bumped state.table running txB rxB retrans tgid
  | _ => 0

/-- What a step adds between a `Next` that returned the thread group and its `Delete`. -/
def gap (moment : Polling cpus ρ × PollStep cpus) : Bpf.TcpStats :=
  if moment.1.between tgid then added tgid moment else 0

/-- What a `Next` reads of the thread group, when it returns it. -/
def read : Polling cpus ρ × PollStep cpus → Option Bpf.TcpStats
  | (state, .next _) =>
    (state.found budget).bind fun entry =>
      if entry.1 = tgid then some (tcpTotal state.table tgid) else none
  | _ => none

/-- A poll begins. -/
def begins : Polling cpus ρ × PollStep cpus → Bool
  | (state, .begin) => state.poll.isNone
  | _ => false

/-- The thread group is returned before the next poll begins. -/
def again : List (Polling cpus ρ × PollStep cpus) → Bool
  | [] => false
  | moment :: later => (read budget tgid moment).isSome || (!begins moment && again later)

/-- The readings of the thread group that a later `Next` of the same poll replaces. -/
def replaced : List (Polling cpus ρ × PollStep cpus) → List Bpf.TcpStats
  | [] => []
  | moment :: later =>
    (if again budget tgid later then (read budget tgid moment).toList else []) ++ replaced later

/-- The counters of the rows of the thread group. -/
def reported (rows : List Stats) : Bpf.TcpStats :=
  ((rows.filter fun row => row.tgid = tgid).map Stats.counters).sum

/-- Everything that was added is in a row, in the map, or was added between a `Next` and its
`Delete`. -/
def Accounted (machine : Machine (Polling cpus ρ) (PollStep cpus) Stats)
    (start : Polling cpus ρ) (steps : List (PollStep cpus)) : Prop :=
  reported tgid (machine.outputs start steps) + tcpTotal (machine.final start steps).table tgid +
    ((machine.trace start steps).map (gap tgid)).sum =
  ((machine.trace start steps).map (added tgid)).sum

end Ledger

section Law

variable {cpus : Nat} {ρ : Type} (layout : Layout UInt32) (budget : Nat)
  (resolve : ρ → UInt32 → GoString × ρ)

/-- The readings of a poll are filed under the thread groups they are of. -/
def Polling.Filed (state : Polling cpus ρ) : Prop :=
  ∀ poll, state.poll = some poll → ∀ key stats, poll.perTgid.lookup key = some stats →
    stats.tgid = key

/-- What `Next` returns is in the map, and everything returned before was deleted. -/
theorem Polling.found_eq_some {state : Polling cpus ρ} {poll : Poll} {key : UInt32}
    {perCPU : PerCpu cpus Bpf.TcpStats} (running : state.poll = some poll)
    (found : state.found budget = some (key, perCPU)) :
    poll.undeleted = false ∧ state.table.lookup key = some perCPU := by
  simp only [Polling.found, running] at found
  by_cases stops : poll.undeleted ∨ budget ≤ poll.asked
  · rw [if_pos stops] at found
    cases found
  · rw [if_neg stops] at found
    obtain ⟨next, _, stored⟩ := Option.bind_eq_some_iff.mp found
    obtain ⟨values, present, same⟩ := Option.map_eq_some_iff.mp stored
    obtain ⟨rfl, rfl⟩ := Prod.mk.inj same
    exact ⟨by simpa using fun undeleted => stops (.inl undeleted), present⟩

/-- What a `Next` can do: nothing, return a key, or end the poll. -/
theorem Polling.next_cases (state : Polling cpus ρ) (order : RangeOrder UInt32 Stats) :
    (state.step layout budget resolve (.next order) = (state, []) ∧ state.found budget = none) ∨
    (∃ poll key perCPU, state.poll = some poll ∧ state.found budget = some (key, perCPU) ∧
      state.step layout budget resolve (.next order) =
        ({ state with poll := some ⟨some key, poll.asked + 1, true,
            poll.perTgid.insert key (sumPerCpu key perCPU)⟩ }, [])) ∨
    ∃ poll, state.poll = some poll ∧ state.found budget = none ∧ poll.undeleted = false ∧
      let snapshot := resolveAll resolve Stats.tgid dueRow
        ((poll.perTgid.range order).map Prod.snd) state.resolver
      state.step layout budget resolve (.next order) =
        ({ state with poll := none, resolver := snapshot.2 }, snapshot.1) := by
  cases running : state.poll with
  | none => exact .inl ⟨by simp only [step, running], by simp only [found, running]⟩
  | some poll =>
    cases returned : state.found budget with
    | some entry =>
      obtain ⟨key, perCPU⟩ := entry
      exact .inr (.inl ⟨poll, key, perCPU, rfl, rfl, by simp only [step, running, returned]⟩)
    | none =>
      cases pending : poll.undeleted with
      | true => exact .inl ⟨by simp [step, running, returned, pending], rfl⟩
      | false =>
        exact .inr (.inr ⟨poll, rfl, rfl, pending, by simp [step, running, returned, pending]⟩)

/-- What a `Delete` can do: nothing, or delete the key that was returned. -/
theorem Polling.delete_cases (state : Polling cpus ρ) :
    state.step layout budget resolve .delete = (state, []) ∨
    ∃ poll key, state.poll = some poll ∧ poll.undeleted = true ∧ poll.cursor = some key ∧
      state.step layout budget resolve .delete =
        ({ state with
          table := state.table.erase key, poll := some { poll with undeleted := false } }, []) := by
  cases running : state.poll with
  | none => exact .inl (by simp only [step, running])
  | some poll =>
    cases pending : poll.undeleted with
    | false => exact .inl (by simp only [step, running, pending])
    | true =>
      cases at_key : poll.cursor with
      | none => exact .inl (by simp only [step, running, pending, at_key])
      | some key =>
        exact .inr ⟨poll, key, rfl, pending, at_key, by simp only [step, running, pending, at_key]⟩

/-- The rows of a snapshot report the readings of the poll. -/
theorem reported_snapshot (poll : Poll) (order : RangeOrder UInt32 Stats) (resolver : ρ)
    (filed : ∀ key stats, poll.perTgid.lookup key = some stats → stats.tgid = key)
    (tgid : UInt32) :
    reported tgid (resolveAll resolve Stats.tgid dueRow ((poll.perTgid.range order).map Prod.snd)
      resolver).1 = ((poll.perTgid.lookup tgid).map Stats.counters).getD 0 := by
  have resolved (items : List Stats) (current : ρ) :
      reported tgid (resolveAll resolve Stats.tgid dueRow items current).1 =
        reported tgid items := by
    induction items generalizing current with
    | nil => rfl
    | cons item items ih =>
      have rest := ih (resolve current item.tgid).2
      simp only [reported, resolveAll, List.filter_cons] at rest ⊢
      have same : (dueRow item (resolve current item.tgid).1).tgid = item.tgid := rfl
      rw [same]
      split
      · rw [List.map_cons, List.map_cons, List.sum_cons, List.sum_cons, rest]
        rfl
      · exact rest
  have own : ((poll.perTgid.range order).map Prod.snd).filter (fun row => row.tgid = tgid) =
      ((poll.perTgid.range order).filter (fun entry => entry.1 = tgid)).map Prod.snd := by
    rw [List.filter_map]
    congr 1
    apply List.filter_congr
    intro entry inside
    have stored := (GoMap.mem_range_iff order poll.perTgid entry.1 entry.2).mp inside
    simp [filed entry.1 entry.2 stored]
  rw [resolved, reported, own, GoMap.filter_range]
  cases poll.perTgid.lookup tgid with
  | none => rfl
  | some stats => simp

/-- Every step keeps the readings filed. -/
theorem Polling.Filed.step {state : Polling cpus ρ} (filed : state.Filed)
    (taken : PollStep cpus) : (state.step layout budget resolve taken).1.Filed := by
  cases taken with
  | bump cpu running txB rxB retrans => exact filed
  | begin =>
    cases running : state.poll with
    | some poll =>
      simp only [Polling.step, running]
      exact filed
    | none =>
      simp only [Polling.step, running]
      rintro poll same key stats stored
      obtain rfl := Option.some.inj same
      cases stored
  | next order =>
    rcases state.next_cases layout budget resolve order with
      ⟨still, _⟩ | ⟨poll, key, perCPU, running, _, moved⟩ | ⟨poll, running, _, _, ended⟩
    · rw [still]
      exact filed
    · rw [moved]
      rintro next same other stats stored
      obtain rfl := Option.some.inj same
      by_cases own : other = key
      · subst own
        rw [AList.lookup_insert] at stored
        obtain rfl := Option.some.inj stored
        exact (sumPerCpu_eq other perCPU).1
      · rw [AList.lookup_insert_ne own] at stored
        exact filed poll running other stats stored
    · rw [ended]
      rintro next same
      cases same
  | delete =>
    rcases state.delete_cases layout budget resolve with
      still | ⟨poll, key, running, _, _, moved⟩
    · rw [still]
      exact filed
    · rw [moved]
      rintro next same
      obtain rfl := Option.some.inj same
      exact filed poll running

/-- Where the counters of a thread group go in one step: a reading is reported when its poll ends,
and is replaced when the thread group is read again. -/
theorem Polling.step_ledger {state : Polling cpus ρ} (filed : state.Filed) (taken : PollStep cpus)
    (tgid : UInt32) :
    state.reading tgid + state.left tgid + added tgid (state, taken) =
      reported tgid (state.step layout budget resolve taken).2 +
        ((state.step layout budget resolve taken).1.reading tgid +
          (state.step layout budget resolve taken).1.left tgid) +
        gap tgid (state, taken) +
        if (read budget tgid (state, taken)).isSome then state.reading tgid else 0 := by
  have silent : reported tgid [] = 0 := rfl
  cases taken with
  | bump cpu running txB rxB retrans =>
    have grown := tcpTotal_bump layout state.table cpu running txB rxB retrans tgid
    by_cases between : state.between tgid
    · have after : Polling.between tgid { state with
          table := bump layout state.table cpu running txB rxB retrans } = true := between
      simp [Polling.step, Polling.left, Polling.reading, gap, read, silent, between, after]
    · have after : Polling.between tgid { state with
          table := bump layout state.table cpu running txB rxB retrans } = false := by
        show state.between tgid = false
        simpa using between
      simp [Polling.step, Polling.left, Polling.reading, gap, read, silent, between, after, grown,
        added, add_assoc]
  | begin =>
    cases running : state.poll with
    | some poll =>
      simp [Polling.step, running, added, gap, read, silent]
    | none =>
      simp [Polling.step, running, added, gap, read, silent, Polling.left, Polling.reading,
        Polling.between, Poll.begun]
  | next order =>
    rcases state.next_cases layout budget resolve order with
      ⟨still, nothing⟩ | ⟨poll, key, perCPU, running, found, moved⟩ |
      ⟨poll, running, nothing, deleted, ended⟩
    · simp [still, added, gap, read, nothing, silent]
    · obtain ⟨deleted, stored⟩ := Polling.found_eq_some budget running found
      have before : state.between tgid = false := by simp [Polling.between, running, deleted]
      rw [moved]
      by_cases own : key = tgid
      · subst own
        have sums : (sumPerCpu key perCPU).counters = tcpTotal state.table key := by
          rw [(sumPerCpu_eq key perCPU).2, tcpTotal, stored]
          rfl
        simp [Polling.left, Polling.reading, Polling.between, added, gap, read, found, silent,
          running, deleted, sums, add_comm]
      · have other : tgid ≠ key := Ne.symm own
        simp [Polling.left, Polling.reading, Polling.between, added, gap, read, found, silent,
          running, deleted, own, AList.lookup_insert_ne other]
    · have before : state.between tgid = false := by simp [Polling.between, running, deleted]
      have rows := reported_snapshot resolve poll order state.resolver
        (filed poll running) tgid
      rw [ended]
      simp [Polling.left, Polling.reading, Polling.between, added, gap, read, nothing, running,
        deleted, rows]
  | delete =>
    rcases state.delete_cases layout budget resolve with
      still | ⟨poll, key, running, pending, at_key, moved⟩
    · simp [still, added, gap, read, silent]
    · rw [moved]
      by_cases own : key = tgid
      · subst own
        simp [Polling.left, Polling.reading, Polling.between, added, gap, read, silent, running,
          pending, at_key, tcpTotal_erase]
      · have other : tgid ≠ key := Ne.symm own
        simp [Polling.left, Polling.reading, Polling.between, added, gap, read, silent, running,
          pending, at_key, tcpTotal_erase, own, other]

/-- What the reading of a thread group is after a step: what was just read, nothing when the poll
has just begun or ended, or what it was. -/
theorem Polling.step_reading (state : Polling cpus ρ) (taken : PollStep cpus) (tgid : UInt32) :
    (read budget tgid (state, taken) =
      some ((state.step layout budget resolve taken).1.reading tgid)) ∨
    (read budget tgid (state, taken) = none ∧
      ((begins (state, taken) = true ∧
        (state.step layout budget resolve taken).1.reading tgid = 0) ∨
      (begins (state, taken) = false ∧ ((state.step layout budget resolve taken).1.poll = none ∨
        (state.step layout budget resolve taken).1.reading tgid = state.reading tgid)))) := by
  cases taken with
  | bump cpu running txB rxB retrans => exact .inr ⟨rfl, .inr ⟨rfl, .inr rfl⟩⟩
  | begin =>
    refine .inr ⟨rfl, ?_⟩
    cases running : state.poll with
    | some poll => exact .inr ⟨by simp [begins, running], .inr (by simp [Polling.step, running])⟩
    | none =>
      exact .inl ⟨by simp [begins, running],
        by simp [Polling.step, running, Polling.reading, Poll.begun]⟩
  | next order =>
    rcases state.next_cases layout budget resolve order with
      ⟨still, nothing⟩ | ⟨poll, key, perCPU, running, found, moved⟩ |
      ⟨poll, running, nothing, deleted, ended⟩
    · exact .inr ⟨by simp [read, nothing], .inr ⟨rfl, .inr (by rw [still])⟩⟩
    · obtain ⟨deleted, stored⟩ := Polling.found_eq_some budget running found
      rw [moved]
      by_cases own : key = tgid
      · subst own
        have sums : (sumPerCpu key perCPU).counters = tcpTotal state.table key := by
          rw [(sumPerCpu_eq key perCPU).2, tcpTotal, stored]
          rfl
        exact .inl (by simp [read, found, Polling.reading, sums])
      · have other : tgid ≠ key := Ne.symm own
        refine .inr ⟨by simp [read, found, own], .inr ⟨rfl, .inr ?_⟩⟩
        simp [Polling.reading, running, AList.lookup_insert_ne other]
    · exact .inr ⟨by simp [read, nothing], .inr ⟨rfl, .inl (by rw [ended])⟩⟩
  | delete =>
    refine .inr ⟨rfl, .inr ⟨rfl, .inr ?_⟩⟩
    rcases state.delete_cases layout budget resolve with
      still | ⟨poll, key, running, pending, at_key, moved⟩
    · rw [still]
    · simp [moved, Polling.reading, running]

/-- Without a poll nothing is returned before one begins. -/
theorem again_idle (state : Polling cpus ρ) (idle : state.poll = none)
    (steps : List (PollStep cpus)) (tgid : UInt32) :
    again budget tgid ((polling layout budget resolve).trace state steps) = false := by
  induction steps generalizing state with
  | nil => rfl
  | cons taken steps ih =>
    rw [Machine.trace, again]
    have nothing : state.found budget = none := by simp only [Polling.found, idle]
    cases taken with
    | begin => simp [read, begins, idle]
    | bump cpu running txB rxB retrans =>
      have rest := ih ((polling layout budget resolve).step state
        (.bump cpu running txB rxB retrans)).1 idle
      simpa [read] using fun _ => rest
    | next order =>
      have still : state.step layout budget resolve (.next order) = (state, []) := by
        simp only [Polling.step, idle]
      have rest := ih state idle
      simpa [read, nothing, polling, still] using fun _ => rest
    | delete =>
      have still : state.step layout budget resolve .delete = (state, []) := by
        simp only [Polling.step, idle]
      have rest := ih state idle
      simpa [read, polling, still] using fun _ => rest

/-! ## Whole polls

With no other step in between, the steps of a poll are the `pollOnce` of the source. -/

/-- The steps of a poll over a number of keys. -/
def wholePoll (order : RangeOrder UInt32 Stats) : Nat → List (PollStep cpus)
  | 0 => [.next order]
  | keys + 1 => .next order :: .delete :: wholePoll order keys

/-- A table without entries is the empty one. -/
theorem eq_empty_of_entries {table : TcpTable cpus} (none_left : table.entries = []) :
    table = .empty _ _ _ := by
  cases table
  dsimp only at none_left
  subst none_left
  rfl

/-- A poll that starts over at the first key reads and deletes every entry, and ends. -/
theorem wholePoll_from (order : RangeOrder UInt32 Stats)
    (entries : List (UInt32 × PerCpu cpus Bpf.TcpStats)) (table : TcpTable cpus) (poll : Poll)
    (resolver : ρ) (stored : table.entries = entries) (deleted : poll.undeleted = false)
    (first : table.nextKey poll.cursor = table.keys.head?)
    (covers : poll.asked + entries.length ≤ budget) :
    let read := entries.foldl (fun perTgid entry =>
      perTgid.insert entry.1 (sumPerCpu entry.1 entry.2)) poll.perTgid
    let snapshot := resolveAll resolve Stats.tgid dueRow ((read.range order).map Prod.snd) resolver
    (polling layout budget resolve).outputs ⟨table, some poll, resolver⟩
      (wholePoll order entries.length) = snapshot.1 ∧
    (polling layout budget resolve).final ⟨table, some poll, resolver⟩
      (wholePoll order entries.length) = ⟨.empty _ _ _, none, snapshot.2⟩ := by
  induction entries generalizing table poll with
  | nil =>
    have nothing : (⟨table, some poll, resolver⟩ : Polling cpus ρ).found budget = none := by
      simp [Polling.found, first, HashTable.keys, stored]
    have ended : (polling layout budget resolve).step ⟨table, some poll, resolver⟩ (.next order) =
        (⟨table, none, (resolveAll resolve Stats.tgid dueRow
          ((poll.perTgid.range order).map Prod.snd) resolver).2⟩,
          (resolveAll resolve Stats.tgid dueRow
            ((poll.perTgid.range order).map Prod.snd) resolver).1) := by
      simp [polling, Polling.step, nothing, deleted]
    have drained : table = .empty _ _ _ := eq_empty_of_entries stored
    dsimp only [List.foldl_nil]
    rw [List.length_nil, wholePoll, Machine.outputs_cons, Machine.final_cons, ended, drained]
    exact ⟨List.append_nil _, rfl⟩
  | cons entry entries ih =>
    obtain ⟨key, perCPU⟩ := entry
    rw [List.length_cons] at covers
    have room : ¬ budget ≤ poll.asked := by omega
    have present : table.lookup key = some perCPU := by
      rw [HashTable.lookup_eq_some_iff, stored]
      exact List.mem_cons_self
    have found : (⟨table, some poll, resolver⟩ : Polling cpus ρ).found budget =
        some (key, perCPU) := by
      simp [Polling.found, first, HashTable.keys, stored, deleted, room, present]
    let advanced : Poll :=
      ⟨some key, poll.asked + 1, false, poll.perTgid.insert key (sumPerCpu key perCPU)⟩
    have returned : (polling layout budget resolve).step ⟨table, some poll, resolver⟩
        (.next order) =
          (⟨table, some { advanced with undeleted := true }, resolver⟩, []) := by
      simp [polling, Polling.step, found, advanced]
    have erased : (polling layout budget resolve).step
        ⟨table, some { advanced with undeleted := true }, resolver⟩ .delete =
          (⟨table.erase key, some advanced, resolver⟩, []) := by
      simp [polling, Polling.step, advanced]
    have kept : (table.erase key).entries = entries :=
      @HashTable.entries_erase_of_split _ _ _ _ table [] entries (key, perCPU) stored
    have gone : key ∉ (table.erase key).keys := by
      rw [← HashTable.lookup_eq_none_iff, HashTable.lookup_erase, if_pos rfl]
    have rest := ih (table.erase key) advanced kept rfl (HashTable.nextKey_of_absent _ gone)
      (by show poll.asked + 1 + entries.length ≤ budget; omega)
    rw [List.length_cons, wholePoll, Machine.outputs_cons, Machine.outputs_cons,
      Machine.final_cons, Machine.final_cons, returned, erased]
    exact rest

/-- A poll that nothing interrupts is `pollOnce`. -/
theorem wholePoll_eq (order : RangeOrder UInt32 Stats) (table : TcpTable cpus) (resolver : ρ)
    (covers : table.entries.length ≤ budget) :
    let polled := pollOnce resolve order table resolver
    let steps : List (PollStep cpus) := .begin :: wholePoll order table.entries.length
    (polling layout budget resolve).outputs ⟨table, none, resolver⟩ steps = polled.2.1 ∧
    (polling layout budget resolve).final ⟨table, none, resolver⟩ steps =
      ⟨polled.1, none, polled.2.2⟩ := by
  have whole := wholePoll_from layout budget resolve order
    table.entries table .begun resolver rfl rfl rfl
    (by simpa [Poll.begun] using covers)
  have drained := eq_empty_of_entries (readAndClear_empty table)
  have read : (readAndClear table).2 = table.entries.foldl (fun perTgid entry =>
      perTgid.insert entry.1 (sumPerCpu entry.1 entry.2)) ∅ := by
    rw [readAndClear, (table.drain_eq table.bounded).1]
  dsimp only at whole ⊢
  rw [pollOnce_eq, drained, due, read, Machine.outputs_cons, Machine.final_cons]
  exact whole

section Sums

variable {M : Type} [AddCommMonoid M]

/-- A reading that a step meets is replaced by it or kept for the rest of the run. -/
theorem carried {read : Option M} {begun again : Bool} {before after : M}
    (cases : read = some after ∨ (read = none ∧ ((begun = true ∧ after = 0) ∨
      (begun = false ∧ (again = false ∨ after = before))))) :
    (if read.isSome then before else 0) + (if again then after else 0) =
      (if again then read.toList else []).sum +
        if read.isSome || (!begun && again) then before else 0 := by
  rcases cases with rfl | ⟨rfl, ⟨rfl, rfl⟩ | ⟨rfl, rfl | rfl⟩⟩
  · cases again <;> simp [add_comm]
  · simp
  · simp
  · simp

/-- The equation of one step and that of the rest make the equation of the run. -/
theorem step_rest {begun gained later reported reports next final gap gaps replaced more lost rest
      kept : M}
    (step : begun + gained = reported + next + gap + lost)
    (run : next + later = reports + final + gaps + more + rest)
    (carried : lost + rest = replaced + kept) :
    begun + (gained + later) =
      reported + reports + final + (gap + gaps) + (replaced + more) + kept := by
  calc begun + (gained + later)
      = reported + next + gap + lost + later := by rw [← add_assoc, step]
    _ = reported + gap + lost + (next + later) := by abel
    _ = reported + gap + lost + (reports + final + gaps + more + rest) := by rw [run]
    _ = reported + gap + (reports + final + gaps + more) + (lost + rest) := by abel
    _ = reported + gap + (reports + final + gaps + more) + (replaced + kept) := by rw [carried]
    _ = reported + reports + final + (gap + gaps) + (replaced + more) + kept := by abel

end Sums

/-- Where the counters of a thread group go in a run. -/
theorem run_ledger (state : Polling cpus ρ) (filed : state.Filed) (steps : List (PollStep cpus))
    (tgid : UInt32) :
    let machine := polling layout budget resolve
    state.reading tgid + state.left tgid + ((machine.trace state steps).map (added tgid)).sum =
      reported tgid (machine.outputs state steps) +
        ((machine.final state steps).reading tgid + (machine.final state steps).left tgid) +
        ((machine.trace state steps).map (gap tgid)).sum +
        (replaced budget tgid (machine.trace state steps)).sum +
        if again budget tgid (machine.trace state steps) then state.reading tgid else 0 := by
  intro machine
  induction steps generalizing state with
  | nil => simp [machine, reported, replaced, again, Machine.outputs]
  | cons taken steps ih =>
    have step := Polling.step_ledger layout budget resolve
      filed taken tgid
    have rest := ih _ (filed.step layout budget resolve taken)
    have rows : reported tgid (machine.outputs state (taken :: steps)) =
        reported tgid (state.step layout budget resolve taken).2 +
          reported tgid (machine.outputs (state.step layout budget resolve taken).1 steps) := by
      rw [Machine.outputs_cons, reported, List.filter_append, List.map_append, List.sum_append]
      rfl
    have reading : read budget tgid (state, taken) =
          some ((state.step layout budget resolve taken).1.reading tgid) ∨
        (read budget tgid (state, taken) = none ∧ ((begins (state, taken) = true ∧
            (state.step layout budget resolve taken).1.reading tgid = 0) ∨
          (begins (state, taken) = false ∧ (again budget tgid (machine.trace
              (state.step layout budget resolve taken).1 steps) = false ∨
            (state.step layout budget resolve taken).1.reading tgid = state.reading tgid)))) := by
      refine (Polling.step_reading layout budget resolve state taken tgid).imp_right
        (.imp_right (.imp_right ?_))
      exact .imp_right (.imp_left fun ended => again_idle layout budget resolve _ ended steps tgid)
    rw [Machine.trace, Machine.final_cons, rows, List.map_cons, List.map_cons, List.sum_cons,
      List.sum_cons, replaced, again, List.sum_append]
    exact step_rest step rest (carried reading)

/-- In every run in which all polls are complete, whatever is counted meanwhile, the rows of a
thread group, what the map has left of it, and what was added between a `Next` that returned it and
the `Delete` make up all that was added, exactly when the readings of it that a later `Next` of the
same poll replaced add up to nothing. -/
theorem accounted_iff_nothing_replaced (resolver : ρ) (steps : List (PollStep cpus))
    (complete : ((polling layout budget resolve).final (.loaded cpus resolver) steps).poll = none)
    (tgid : UInt32) :
    Accounted tgid (polling layout budget resolve) (.loaded cpus resolver) steps ↔
      (replaced budget tgid
        ((polling layout budget resolve).trace (.loaded cpus resolver) steps)).sum = 0 := by
  have filed : (Polling.loaded cpus resolver).Filed := by
    rintro poll same
    cases same
  have ledger := run_ledger layout budget resolve
    (.loaded cpus resolver) filed steps tgid
  have unread : ∀ state : Polling cpus ρ, state.poll = none →
      state.reading tgid = 0 ∧ state.left tgid = tcpTotal state.table tgid := by
    intro state idle
    simp [Polling.reading, Polling.left, Polling.between, idle]
  obtain ⟨zero, whole⟩ := unread (.loaded cpus resolver) rfl
  obtain ⟨reported, left⟩ := unread _ complete
  have empty : tcpTotal (Polling.loaded cpus resolver).table tgid = 0 := tcpTotal_eq_zero rfl
  dsimp only at ledger
  rw [zero, whole, empty, reported, left] at ledger
  simp only [zero_add, ite_self, add_zero] at ledger
  rw [Accounted, ledger, left_eq_add]

end Law

/-- Thread groups 9 and 7 send; a poll reads and deletes 7, which sends 500 bytes more, and then
reads and deletes 9, so that the iterator starts over and returns 7 again. -/
def sentTwice : List (PollStep 1) :=
  [.bump (Fin.last 0) 9 100 0 0, .bump (Fin.last 0) 7 1000 0 0, .begin, .next (.stored _ _),
    .delete, .bump (Fin.last 0) 7 500 0 0, .next (.stored _ _), .delete, .next (.stored _ _),
    .delete, .next (.stored _ _)]

/-- The row of 7 has the last 500 bytes, and its first 1000 are nowhere. -/
theorem sentTwice_not_accounted :
    let machine : Machine (Polling 1 Unit) (PollStep 1) Stats :=
      polling (fun _ _ => 0) 10240 fun _ _ => ([], ())
    (machine.final (.loaded 1 ()) sentTwice).poll = none ∧
    reported 7 (machine.outputs (.loaded 1 ()) sentTwice) = ⟨500, 0, 1, 0, 0⟩ ∧
    ¬ Accounted 7 machine (.loaded 1 ()) sentTwice := by
  intro machine
  refine ⟨by decide, by decide, ?_⟩
  unfold Accounted
  decide

/-- When the second 500 bytes are sent before the poll, all are in the row. -/
theorem accounted_iff_nothing_replaced_once :
    Accounted 7 (polling (fun _ _ => 0) 10240 fun _ _ => ([], ())) (.loaded 1 ())
      [.bump (Fin.last 0) 7 1000 0 0, .bump (Fin.last 0) 7 500 0 0, .begin,
        .next (.stored _ _), .delete, .next (.stored _ _)] :=
  (accounted_iff_nothing_replaced (fun _ _ => 0) 10240 (fun _ _ => ([], ())) () _ (by decide)
    7).mpr (by decide)

end ContainerAnomaly.TcpStats
