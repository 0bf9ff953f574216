import ContainerAnomaly.Agent.Bounds
import ContainerAnomaly.Agent.Feed
import ContainerAnomaly.Collector.TcpBounds

/-!
# TCP traffic in the file

The probes, the steps of the polls and the TCP collector in front of the rest of the agent. A poll
may lose what is counted while it reads, and may return a thread group twice; still, the rows that
are written never hold more bytes or retransmissions than the probes have counted
(`tcp_columns_bounded`).
-/

namespace ContainerAnomaly.Agent

open Lib Feature Bpf TcpStats

/-- The columns that are filled from the snapshots of the TCP collector. -/
inductive TcpColumn where
  | tx | rx | retrans

/-- The counter of the column. -/
def TcpColumn.counter : TcpColumn → Counter
  | .tx => .tcpBytesTx
  | .rx => .tcpBytesRx
  | .retrans => .tcpRetrans

/-- The counter of the kernel that fills it. -/
def TcpColumn.part : TcpColumn → Part
  | .tx => .bytesTx
  | .rx => .bytesRx
  | .retrans => .retransmits

section Traffic

variable {cpus : Nat} {ρ : Type} (layout : Layout UInt32) (budget : Nat)
  (resolve : ρ → UInt32 → GoString × ρ)

/-- Polling, with the snapshot of a poll when it ends. -/
def tcpSystem : Machine (Polling cpus ρ) (PollStep cpus) (List Stats) where
  step state input :=
    let next := (polling layout budget resolve).step state input
    (next.1, if state.poll.isSome ∧ next.1.poll.isNone then [next.2] else [])

/-- The TCP program, its map and its collector, whose goroutine polls in steps. -/
def tcpFeeder : Feeder (Polling cpus ρ) (PollStep cpus) (List Stats) .tcp where
  machine := tcpSystem layout budget resolve
  sends
    | .bump _ _ _ _ _ => false
    | _ => true
  items _ snapshots := snapshots
  single state input := by
    show (if _ then _ else _ : List (List Stats)).length ≤ 1
    split <;> simp
  quiet state input silent := by
    cases input with
    | bump cpu tgid txB rxB retrans =>
      refine if_neg fun ended => ?_
      have idle : state.poll = none := Option.isNone_iff_eq_none.mp ended.2
      have running := ended.1
      rw [idle] at running
      cases running
    | _ => cases silent

/-- Rows are put out at the end of a poll. -/
theorem rows_at_end (state : Polling cpus ρ) (input : PollStep cpus) :
    (((tcpSystem layout budget resolve).step state input).2).flatten =
      ((polling layout budget resolve).step state input).2 := by
  show (if _ then _ else _ : List (List Stats)).flatten = _
  by_cases ended : state.poll.isSome ∧
      ((polling layout budget resolve).step state input).1.poll.isNone
  · rw [if_pos ended, List.flatten_cons, List.flatten_nil, List.append_nil]
  · rw [if_neg ended, List.flatten_nil]
    cases input with
    | bump cpu tgid txB rxB retrans => rfl
    | begin =>
      show [] = (state.step layout budget resolve .begin).2
      cases running : state.poll <;> simp [Polling.step, running]
    | next order =>
      show [] = (state.step layout budget resolve (.next order)).2
      rcases state.next_cases layout budget resolve order with
        ⟨still, _⟩ | ⟨_, _, _, _, _, moved⟩ | ⟨poll, running, _, _, ends⟩
      · rw [still]
      · rw [moved]
      · refine absurd ⟨by rw [running]; rfl, ?_⟩ ended
        show (state.step layout budget resolve (.next order)).1.poll.isNone = true
        rw [ends]
        rfl
    | delete =>
      show [] = (state.step layout budget resolve .delete).2
      rcases state.delete_cases layout budget resolve with still | ⟨_, _, _, _, _, moved⟩
      · rw [still]
      · rw [moved]

/-- The snapshots of a past hold the rows of its polls. -/
theorem snapshots_flatten (start : Polling cpus ρ) (steps : List (PollStep cpus)) :
    ((tcpSystem layout budget resolve).outputs start steps).flatten =
      (polling layout budget resolve).outputs start steps := by
  induction steps generalizing start with
  | nil => rfl
  | cons input steps ih =>
    rw [Machine.outputs_cons, Machine.outputs_cons, List.flatten_append, rows_at_end, ih]
    rfl

/-- Snapshots are worth what their rows report. -/
theorem handedWorth_tcp (column : TcpColumn) (snapshots : List (List Stats)) :
    handedWorth column.counter .tcp snapshots = reportedOf column.part snapshots.flatten := by
  have rows_worth : ∀ rows : List Stats,
      givenWorth column.counter (Input.tcp rows).ingests = reportedOf column.part rows := by
    intro rows
    rw [givenWorth, Input.ingests, List.map_map]
    cases column <;> rfl
  induction snapshots with
  | nil => rfl
  | cons rows snapshots ih =>
    have front : handedWorth column.counter .tcp (rows :: snapshots) =
        givenWorth column.counter (Input.tcp rows).ingests +
          handedWorth column.counter .tcp snapshots := givenWorth_append _ _ _
    rw [front, ih, rows_worth, List.flatten_cons, reportedOf, reportedOf, reportedOf,
      List.map_append, List.sum_append]

/-- What other collectors send is no TCP traffic. -/
theorem handedWorth_tcp_other (column : TcpColumn) {source : Source} (other : source ≠ .tcp)
    (items : List source.Item) : handedWorth column.counter source items = 0 := by
  refine handedWorth_eq_zero _ (fun item given own => ?_) items
  cases source with
  | tcp => exact absurd rfl other
  | exits =>
    obtain rfl := List.mem_singleton.mp own
    cases column <;> rfl
  | cpu =>
    obtain ⟨row, _, rfl⟩ := List.mem_map.mp own
    cases column <;> rfl
  | sys =>
    obtain ⟨row, _, rfl⟩ := List.mem_map.mp own
    cases column <;> rfl

/-- In every run, whatever the order of the probes, the steps of the polls and the goroutines, the
vectors written for all containers together hold no more of a column than the probes have
counted. -/
theorem tcp_columns_bounded (resolver : ρ) (window : Duration)
    (inputs : List (PollStep cpus ⊕ Move)) (column : TcpColumn) :
    trueTotal column.counter ((tcpFeeder layout budget resolve).agent.outputs
        (.loaded cpus resolver, .start window) inputs) ≤
      counted column.part (inputs.filterMap Sum.getLeft?) := by
  let start : Polling cpus ρ := .loaded cpus resolver
  let own := ((tcpFeeder layout budget resolve).past start window inputs).flatMap
    (tcpFeeder layout budget resolve).own
  have snapshots : (((tcpFeeder layout budget resolve).ownPast start window inputs).flatMap
      fun step => (tcpFeeder layout budget resolve).items step.2
        ((tcpFeeder layout budget resolve).machine.step step.1 step.2).2).flatten =
      (polling layout budget resolve).outputs start own :=
    snapshots_flatten layout budget resolve start own
  have calls : own.filterMap PollStep.call =
      (inputs.filterMap Sum.getLeft?).filterMap PollStep.call := by
    refine (tcpFeeder layout budget resolve).filterMap_own start window inputs _
      fun input sends => ?_
    cases input with
    | bump _ _ _ _ _ => cases sends
    | _ => rfl
  have made := (tcpFeeder layout budget resolve).written_le column.counter start window inputs
    fun _ differs items => handedWorth_tcp_other column differs items
  rw [handedWorth_tcp, snapshots] at made
  have paid := reported_le_counted column.part layout budget resolve resolver own
  rw [counted, calls] at paid
  exact made.trans paid

end Traffic

end ContainerAnomaly.Agent
