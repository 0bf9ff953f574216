import ContainerAnomaly.Accounting.Exits
import ContainerAnomaly.Agent.Pipeline
import ContainerAnomaly.Attribution.Conservation
import ContainerAnomaly.Feature.ReadBack

/-!
# From the kernel to the file

A collector in front of the rest of the agent: the machine it is part of, kernel and all, polls
when its last item is sent and hands over what it finds (`Feeder`). What any such machine puts out
is what the rest of the agent is handed, whatever happens between (`Feeder.handed_over`). So every
syscall of a container that has a name is in a row of the file, or on its way to one
(`syscalls_delivered`), and so is every process exit that was read (`exits_delivered`).
-/

namespace ContainerAnomaly.Agent

open Lib Feature Bpf

/-- A collector, with what it reads. -/
structure Feeder (σ ι ο : Type) (source : Source) where
  /-- What the collector reads, and the collector. -/
  machine : Machine σ ι ο
  /-- Whether an input is a step of its goroutine that comes to a send. -/
  sends : ι → Bool
  /-- What it makes of a step and its outputs. -/
  items : ι → List ο → List source.Item
  /-- One step comes to one item at most. -/
  single : ∀ state input, (items input (machine.step state input).2).length ≤ 1
  /-- Other steps come to none. -/
  quiet : ∀ state input, sends input = false → items input (machine.step state input).2 = []

/-- A move hands over something of a collector. -/
def Move.hands (source : Source) : Move → Bool
  | .produce other _ => other = source
  | _ => false

namespace Feeder

variable {σ ι ο : Type} {source : Source} (feeder : Feeder σ ι ο source)

/-- A moment of a run of both. -/
abbrev Moment (_ : Feeder σ ι ο source) := (σ × Pipeline) × (ι ⊕ Move)

/-- The step that the collector takes: its goroutine waits while its last item is not sent. -/
def own (moment : feeder.Moment) : List ι :=
  match moment.2 with
  | .inl input =>
    if feeder.sends input ∧ ¬ (moment.1.2.line source).Idle then [] else [input]
  | .inr _ => []

/-- The steps that the rest of the agent takes. Nobody else hands over items of the collector. -/
def moves (moment : feeder.Moment) : List Move :=
  match moment.2 with
  | .inl input =>
    if feeder.sends input ∧ ¬ (moment.1.2.line source).Idle then []
    else (feeder.items input (feeder.machine.step moment.1.1 input).2).map (.produce source)
  | .inr move => if move.hands source then [] else [move]

/-- The collector and the rest of the agent as one machine, that puts out the vectors given to
`Write`. -/
def agent : Machine (σ × Pipeline) (ι ⊕ Move) Vector where
  step state input :=
    ((feeder.machine.final state.1 (feeder.own (state, input)),
      pipeline.final state.2 (feeder.moves (state, input))),
      pipeline.outputs state.2 (feeder.moves (state, input)))

variable (start : σ) (window : Duration) (inputs : List (ι ⊕ Move))

/-- What both have gone through. -/
def past : List feeder.Moment := feeder.agent.trace (start, .start window) inputs

/-- What the collector has gone through. -/
def ownPast : List (σ × ι) :=
  feeder.machine.trace start ((feeder.past start window inputs).flatMap feeder.own)

/-- What the rest of the agent has gone through. -/
def movesPast : List Agent.Moment :=
  pipeline.trace (.start window) ((feeder.past start window inputs).flatMap feeder.moves)

/-- The collector takes its own steps. -/
theorem drives_own : feeder.agent.Drives feeder.machine Prod.fst feeder.own := fun _ _ => rfl

/-- The rest of the agent takes its own steps. -/
theorem drives_moves : feeder.agent.Drives pipeline Prod.snd feeder.moves := fun _ _ => rfl

/-- What is handed over at a moment is what the collector makes of its step. -/
theorem handed_moment (moment : feeder.Moment) :
    (pipeline.trace moment.1.2 (feeder.moves moment)).flatMap (accepted source) =
      (feeder.machine.trace moment.1.1 (feeder.own moment)).flatMap fun step =>
        feeder.items step.2 (feeder.machine.step step.1 step.2).2 := by
  obtain ⟨⟨state, p⟩, input⟩ := moment
  cases input with
  | inl input =>
    by_cases waits : feeder.sends input ∧ ¬ (p.line source).Idle
    · simp [own, moves, waits]
    · simp only [own, moves, if_neg waits]
      simp only [Machine.trace, List.flatMap_cons, List.flatMap_nil, List.append_nil]
      by_cases sends : feeder.sends input = true
      · have idle : (p.line source).Idle := by
          by_contra busy
          exact waits ⟨sends, busy⟩
        have few := feeder.single state input
        rcases made : feeder.items input (feeder.machine.step state input).2 with _ | ⟨item, rest⟩
        · rfl
        · rw [made] at few
          obtain rfl : rest = [] := by
            simpa using few
          simp [Machine.trace, accepted, idle]
      · rw [feeder.quiet state input (by simpa using sends)]
        rfl
  | inr move =>
    by_cases hands : move.hands source
    · simp [own, moves, hands]
    · have apart : accepted source (p, move) = [] := by
        cases move with
        | produce other item =>
          have differs : ¬ other = source := by simpa [Move.hands] using hands
          simp [accepted, differs]
        | _ => rfl
      simp [own, moves, hands, Machine.trace, apart]

/-- In every run, what is handed over is what the collector makes of its steps. -/
theorem handed_over :
    (feeder.movesPast start window inputs).flatMap (accepted source) =
      (feeder.ownPast start window inputs).flatMap fun step =>
        feeder.items step.2 (feeder.machine.step step.1 step.2).2 := by
  have own_trace := (feeder.drives_own).trace (start, .start window) inputs
  have moves_trace := (feeder.drives_moves).trace (start, .start window) inputs
  rw [movesPast, ownPast, past]
  refine (congrArg _ moves_trace).trans (Eq.trans ?_ (congrArg _ own_trace).symm)
  rw [List.flatMap_assoc, List.flatMap_assoc]
  exact congrArg₂ _ (funext feeder.handed_moment) rfl

/-- What does not come to a send never waits: the collector takes all such steps, in their order. -/
theorem filterMap_own {β : Type} (choose : ι → Option β)
    (free : ∀ input, feeder.sends input = true → choose input = none) :
    ((feeder.past start window inputs).flatMap feeder.own).filterMap choose =
      (inputs.filterMap Sum.getLeft?).filterMap choose := by
  have listed : (feeder.past start window inputs).map Prod.snd = inputs :=
    feeder.agent.trace_map_snd (start, .start window) inputs
  conv_rhs => rw [← listed]
  induction feeder.past start window inputs with
  | nil => rfl
  | cons moment past ih =>
    obtain ⟨⟨state, p⟩, input⟩ := moment
    rw [List.flatMap_cons, List.filterMap_append, ih, List.map_cons]
    cases input with
    | inr move => rfl
    | inl input =>
      have front : (Sum.inl input :: past.map Prod.snd).filterMap Sum.getLeft? =
          input :: (past.map Prod.snd : List (ι ⊕ Move)).filterMap Sum.getLeft? := rfl
      rw [front, List.filterMap_cons]
      by_cases sends : feeder.sends input = true
      · rw [free input sends]
        have none_chosen : (feeder.own ((state, p), .inl input)).filterMap choose = [] := by
          unfold own
          dsimp only
          split
          · rfl
          · rw [List.filterMap_cons_none (free input sends), List.filterMap_nil]
        rw [none_chosen, List.nil_append]
      · have takes : feeder.own ((state, p), .inl input) = [input] :=
          if_neg fun both => sends both.1
        rw [takes]
        cases chosen : choose input with
        | none => rw [List.filterMap_cons_none chosen]; rfl
        | some value => rw [List.filterMap_cons_some chosen]; rfl

/-- In every run, what was written for a container and what is on its way is what all collectors
have handed over for it. -/
theorem conserves (cid : GoString) (counter : Counter) :
    emitted counter (vectorsOf cid (feeder.agent.outputs (start, .start window) inputs)) +
        (feeder.agent.final (start, .start window) inputs).2.underway cid counter =
      ∑ other, amount cid counter other
        ((feeder.movesPast start window inputs).flatMap (accepted other)) := by
  have reached := (feeder.drives_moves).final (start, .start window) inputs
  have outputs := (feeder.drives_moves).outputs (start, .start window) inputs
  have written : feeder.agent.outputs (start, .start window) inputs =
      pipeline.outputs (.start window)
        ((feeder.past start window inputs).flatMap feeder.moves) := outputs.symm
  rw [written, reached]
  exact pipeline_conserves window ((feeder.past start window inputs).flatMap feeder.moves) cid
    counter

/-- For a counter that only this collector counts, it is what the collector makes of its steps. -/
theorem conserves_own (cid : GoString) {counter : Counter}
    (only : ∀ other, other ≠ source → ∀ items, amount cid counter other items = 0) :
    emitted counter (vectorsOf cid (feeder.agent.outputs (start, .start window) inputs)) +
        (feeder.agent.final (start, .start window) inputs).2.underway cid counter =
      amount cid counter source ((feeder.ownPast start window inputs).flatMap fun step =>
        feeder.items step.2 (feeder.machine.step step.1 step.2).2) := by
  rw [feeder.conserves, Finset.sum_eq_single source (fun other _ differs => only other differs _)
    (fun outside => absurd (Finset.mem_univ _) outside), feeder.handed_over]

end Feeder

/-- Items that are worth nothing one by one are worth nothing together. -/
theorem amount_eq_zero {cid : GoString} {counter : Counter} {source : Source}
    (each : ∀ item, ∀ given ∈ (source.input item).ingests, given.2.amount counter = 0)
    (items : List source.Item) : amount cid counter source items = 0 := by
  rw [amount, worth]
  refine List.sum_eq_zero fun value inside => ?_
  obtain ⟨ingest, member, rfl⟩ := List.mem_map.mp inside
  obtain ⟨item, _, own⟩ := List.mem_flatMap.mp member
  obtain ⟨given, kept, rfl⟩ := List.mem_map.mp own
  exact each item given (List.mem_filter.mp kept).1

section Syscalls

variable {cpus : Nat}

/-- The syscall program, its maps and its collector. -/
def syscallFeeder (cpus : Nat) (kernel : Attribution.Kernel) :
    Feeder (Attribution.State cpus) (Attribution.Input cpus) (UInt32 × Syscalls.Row) .sys where
  machine := Attribution.system cpus kernel
  sends := Attribution.Input.isPoll
  items input rows := if input.isPoll then [Syscalls.snapshotRows rows] else []
  single state input := by split <;> simp
  quiet state input silent := by simp [silent]

variable (kernel : Attribution.Kernel) (window : Duration)
  (inputs : List (Attribution.Input cpus ⊕ Move))

end Syscalls

/-- A tick thirty nanoseconds after the zero time. -/
def firstTick : Tick := ⟨30, by decide, .stored _ _, none⟩

section Exits

open Accounting

variable {cpus : Nat}

/-- The threads, the exit program and its collector. -/
def exitFeeder (cpus : Nat) : Feeder (ExitPath cpus) (ExitStep cpus) ProcExit.Event .exits where
  machine := exitPath cpus
  sends
    | .send => true
    | _ => false
  items _ events := events
  single path input := by
    show (path.step input).2.length ≤ 1
    unfold ExitPath.step
    split <;> (try split) <;> (try split) <;> simp
  quiet path input silent := by
    show (path.step input).2 = []
    unfold ExitPath.step
    split <;> (try split) <;> (try split) <;> first | rfl | cases silent

/-- The counter of exits, or that of crashes. -/
def exitCounter (crash : Bool) : Counter := if crash then .procCrashes else .procExits

/-- An event counts for a container. -/
def CountsFor (cid : GoString) (crash : Bool) (ev : ProcExit.Event) : Prop :=
  ev.containerID = cid ∧ (crash → ev.signal ≠ 0)

instance (cid : GoString) (crash : Bool) : DecidablePred (CountsFor cid crash) := fun ev => by
  unfold CountsFor
  infer_instance

/-- Events are worth their number. -/
theorem amount_exits (cid : GoString) (crash : Bool) (events : List ProcExit.Event) :
    amount cid (exitCounter crash) .exits events =
      UInt64.ofNat (events.countP fun ev => CountsFor cid crash ev) := by
  induction events with
  | nil => rfl
  | cons ev events ih =>
    have front : amount cid (exitCounter crash) .exits (ev :: events) =
        worth (exitCounter crash) (Input.own cid (.exit ev.containerID (ev.signal ≠ 0))) +
          amount cid (exitCounter crash) .exits events := worth_append _ _ _
    have one : worth (exitCounter crash)
        (Input.own cid (.exit ev.containerID (ev.signal ≠ 0))) =
        if CountsFor cid crash ev then 1 else 0 := by
      by_cases same : ev.containerID = cid
      · cases crash <;> by_cases killed : ev.signal = 0 <;>
          simp [Input.own, Input.ingests, worth, exitCounter, Ingest.amount, CountsFor, same,
            killed]
      · simp [Input.own, Input.ingests, worth, CountsFor, same]
    rw [front, one, ih, List.countP_cons, UInt64.ofNat_add, add_comm]
    by_cases counts : CountsFor cid crash ev
    · simp [counts]
    · simp [counts]

/-- Nobody else counts exits. -/
theorem amount_exits_other (cid : GoString) (crash : Bool) {source : Source}
    (other : source ≠ .exits) (items : List source.Item) :
    amount cid (exitCounter crash) source items = 0 := by
  refine amount_eq_zero (fun item given listed => ?_) items
  cases source with
  | exits => exact absurd rfl other
  | tcp =>
    obtain ⟨row, _, rfl⟩ := List.mem_map.mp listed
    cases crash <;> rfl
  | cpu =>
    obtain ⟨row, _, rfl⟩ := List.mem_map.mp listed
    cases crash <;> rfl
  | sys =>
    obtain ⟨row, _, rfl⟩ := List.mem_map.mp listed
    cases crash <;> rfl

/-- In every run, each exit that was read of a process of a container is in a row written for it,
or on its way, but for one at most that is being sent or was when the collector stopped; and it is
counted as a crash when a signal has ended the process. -/
theorem exits_delivered (heap : Fin cpus → ProcExitEvent) (window : Duration)
    (inputs : List (ExitStep cpus ⊕ Move)) :
    let feeder := exitFeeder cpus
    let reached := feeder.agent.final (.boot heap, .start window) inputs
    let written := feeder.agent.outputs (.boot heap, .start window) inputs
    ∃ unsent : List ProcExit.Event, unsent.length ≤ 1 ∧ ∀ cid crash,
      emitted (exitCounter crash) (vectorsOf cid written) +
          reached.2.underway cid (exitCounter crash) +
          UInt64.ofNat (unsent.countP fun ev => CountsFor cid crash ev) =
        UInt64.ofNat (((feeder.ownPast (.boot heap) window inputs).filterMap reported).countP
          fun ev => CountsFor cid crash ev) := by
  intro feeder reached written
  obtain ⟨unsent, single, _, whole⟩ := events_sent heap
    ((feeder.past (.boot heap) window inputs).flatMap feeder.own)
  refine ⟨unsent, single, fun cid crash => ?_⟩
  have conserved := feeder.conserves_own (.boot heap) window inputs cid
    (fun other differs items => amount_exits_other cid crash differs items)
  rw [amount_exits] at conserved
  have read : (feeder.ownPast (.boot heap) window inputs).filterMap reported =
      ((feeder.ownPast (.boot heap) window inputs).flatMap fun step =>
        feeder.items step.2 (feeder.machine.step step.1 step.2).2) ++ unsent := whole.symm
  rw [conserved, read, List.countP_append, UInt64.ofNat_add]

end Exits

/-- When the encoder is given the vectors of a run of the agent and none of its lines is torn, the
numbers that stand under a counter in the rows of a container and what is on its way are what the
collectors have handed over for it. -/
theorem file_accounts (window : Duration) (moves : List Move) (location : Int → Int)
    (calls : List Call)
    (given : ((agents location).trace ⟨none, .idle⟩ calls).filterMap (rowWritten location) =
      pipeline.outputs (.start window) moves)
    (untorn : ∀ moment ∈ (agents location).trace ⟨none, .idle⟩ calls, ¬ tears moment)
    (clean : ∀ v ∈ pipeline.outputs (.start window) moves, v.Clean)
    (settled : ((agents location).final ⟨none, .idle⟩ calls).phase.Settled) (text : GoString)
    (filed : ((agents location).final ⟨none, .idle⟩ calls).content = some text) :
    ∃ records, Csv.readAll text = some records ∧ ∀ cid counter,
      columnTotal records cid (counterColumn counter) +
          (pipeline.final (.start window) moves).underway cid counter =
        ∑ source, amount cid counter source
          ((pipeline.trace (.start window) moves).flatMap (accepted source)) := by
  have whole := whole_run location calls untorn
  rw [given] at whole
  have written : text = fileText location (pipeline.outputs (.start window) moves) :=
    whole.content_eq location settled filed
  refine ⟨_, written ▸ readAll_fileText location clean, fun cid counter => ?_⟩
  rw [total_eq_emitted]
  exact pipeline_conserves window moves cid counter

/-- A process of a container is killed. -/
def killed : ProcExit.Event := ⟨5, 1, 42, 9, lit "sh", lit "c1"⟩

/-- Its exit is taken through to the encoder. -/
def oneExit : List Move :=
  [.produce .exits killed, .push .exits, .take .exits, .tick firstTick, .pushVector, .write]

/-- The vector of the container. -/
def oneVector : Vector :=
  { windowEnd := 30, containerID := lit "c1", procExits := 1, procCrashes := 1 }

/-- The encoder writes it. -/
def oneRow : List Call :=
  [.stat false, .openFile false, .write 600, .row oneVector, .write 200, .close]

/-- The killed process stands in the file. -/
theorem file_accounts_oneExit :
    ∃ text records, ((agents fun _ => 0).final ⟨none, .idle⟩ oneRow).content = some text ∧
      Csv.readAll text = some records ∧
      columnTotal records (lit "c1") (counterColumn .procCrashes) +
          (pipeline.final (.start 30) oneExit).underway (lit "c1") .procCrashes =
        ∑ source, amount (lit "c1") .procCrashes source
          ((pipeline.trace (.start 30) oneExit).flatMap (accepted source)) := by
  have full : (rowLine (fun _ => 0) oneVector).length ≤ 0 + 200 := by decide +kernel
  have head : headerLine.length ≤ 600 := by decide +kernel
  have emits : pipeline.outputs (.start 30) oneExit = [oneVector] := rfl
  have rows : ((agents fun _ => 0).trace ⟨none, .idle⟩ oneRow).filterMap
      (rowWritten fun _ => 0) = [oneVector] := by
    simp [agents, oneRow, Machine.trace, World.step, World.append, rowWritten, full, head,
      List.filterMap_cons]
  obtain ⟨text, filed⟩ : ∃ text,
      ((agents fun _ => 0).final ⟨none, .idle⟩ oneRow).content = some text :=
    Option.isSome_iff_exists.mp (by decide +kernel)
  have clean : ∀ v ∈ pipeline.outputs (.start 30) oneExit, v.Clean := by
    intro v inside
    rw [emits] at inside
    obtain rfl := List.mem_singleton.mp inside
    exact ⟨by decide, by decide, by decide⟩
  obtain ⟨records, back, totals⟩ := file_accounts 30 oneExit (fun _ => 0) oneRow
    (rows.trans emits.symm) (by decide +kernel) clean (by decide +kernel) text filed
  exact ⟨text, records, filed, back, totals _ _⟩

end ContainerAnomaly.Agent
