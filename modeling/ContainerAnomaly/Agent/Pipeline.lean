import ContainerAnomaly.Collector.ProcExit
import ContainerAnomaly.Feature.Windowing
import ContainerAnomaly.Lib.Channel
import Mathlib.Algebra.BigOperators.Group.Finset.Basic
import Mathlib.Data.Fintype.Basic

/-!
# The goroutines of the agent

`cmd/agent/main.go`. Four collectors, each a goroutine that sends on a channel of its own, the
window loop of the aggregator, which sends vectors on another, the poll of the cgroups, and the
loop of `main`, which receives from all of them and calls the aggregator or the encoder. They run
in any order and wait for room. Whatever the order, the aggregator is a run over what `main` has
received (`flows`), and every amount that a collector has handed over is in a vector written, or
on its way (`agent_conserves`).
-/

namespace ContainerAnomaly.Agent

open Lib Feature

/-- The collectors that send to `main`. -/
inductive Source where
  | exits | tcp | cpu | sys
deriving DecidableEq

instance : Fintype Source :=
  ⟨{.exits, .tcp, .cpu, .sys}, fun source => by cases source <;> decide⟩

/-- What a collector sends. -/
abbrev Source.Item : Source → Type
  | .exits => ProcExit.Event
  | .tcp => List TcpStats.Stats
  | .cpu => List PidRuntime.Row
  | .sys => List Syscalls.Row

/-- The capacity of its channel. -/
def Source.capacity : Source → Nat
  | .exits => 1024
  | .tcp | .cpu | .sys => 16

/-- What `main` does with what it receives. -/
def Source.input : (source : Source) → source.Item → Input
  | .exits, ev => .exit ev.containerID (ev.signal ≠ 0)
  | .tcp, rows => .tcp rows
  | .cpu, rows => .cpu rows
  | .sys, rows => .syscalls rows

/-- The channels with their senders, the aggregator, and whether `main` still loops. -/
structure Pipeline where
  /-- The goroutine of each collector and its channel. -/
  line : (source : Source) → Outbox source.Item source.capacity
  /-- The aggregator. -/
  agg : Aggregator
  /-- The goroutine of the aggregator and its channel. -/
  vectors : Outbox Vector 256
  /-- `main` is in its loop. -/
  looping : Bool

/-- What happens next. -/
inductive Move where
  /-- The goroutine of a collector has something to send. -/
  | produce (source : Source) (item : source.Item)
  /-- It sends it, when there is room. -/
  | push (source : Source)
  /-- `main` receives it. -/
  | take (source : Source)
  /-- `pollCgroup` has read a container. -/
  | cgroup (cid name image : GoString) (s : Cgroup.Stats)
  /-- The ticker of `Run`. -/
  | tick (tick : Tick)
  /-- `Run` sends a vector, when there is room. -/
  | pushVector
  /-- `main` receives a vector and calls `Write`. -/
  | write
  /-- `main` receives a signal and returns. -/
  | stop

/-- The agent when `main` begins to loop. -/
def Pipeline.start (window : Duration) : Pipeline :=
  ⟨fun _ => .empty, .new window, .empty, true⟩

/-- Change the line of a collector. -/
def Pipeline.setLine (p : Pipeline) (source : Source)
    (next : Outbox source.Item source.capacity) : Pipeline :=
  { p with line := Function.update p.line source next }

/-- One step, with the vectors given to `Write`. -/
def Pipeline.step (p : Pipeline) : Move → Pipeline × List Vector
  | .produce source item => (p.setLine source ((p.line source).make [item]), [])
  | .push source => (p.setLine source (p.line source).push, [])
  | .take source =>
    if p.looping then
      let next := p.setLine source (p.line source).pull.1
      match (p.line source).pull.2 with
      | some item => ({ next with agg := (p.agg.step (source.input item)).1 }, [])
      | none => (next, [])
    else (p, [])
  | .cgroup cid name image s => ({ p with agg := (p.agg.step (.cgroup cid name image s)).1 }, [])
  | .tick tick =>
    -- `Run` waits for a tick only when every vector of the last one is sent.
    if p.vectors.Idle then
      let next := p.agg.step (.tick tick)
      ({ p with agg := next.1, vectors := p.vectors.make next.2 }, [])
    else (p, [])
  | .pushVector => ({ p with vectors := p.vectors.push }, [])
  | .write =>
    if p.looping then
      ({ p with vectors := p.vectors.pull.1 }, p.vectors.pull.2.toList)
    else (p, [])
  | .stop => ({ p with looping := false }, [])

/-- The agent as a machine that puts out the vectors given to `Write`. -/
def pipeline : Machine Pipeline Move Vector := ⟨Pipeline.step⟩

/-- A moment of a run. -/
abbrev Moment := Pipeline × Move

/-- What the aggregator is given. -/
def ingested (moment : Moment) : List Input :=
  match moment.2 with
  | .take source =>
    if moment.1.looping then (moment.1.line source).pull.2.toList.map source.input else []
  | .cgroup cid name image s => [.cgroup cid name image s]
  | .tick tick => if moment.1.vectors.Idle then [.tick tick] else []
  | _ => []

/-- What happens on the line of a collector. -/
def lineSteps (source : Source) (moment : Moment) : List (OutboxStep source.Item) :=
  match moment.2 with
  | .produce other item => if same : other = source then [.make [same ▸ item]] else []
  | .push other => if other = source then [.push] else []
  | .take other => if other = source ∧ moment.1.looping then [.pull] else []
  | _ => []

/-- What happens on the line of the vectors. -/
def vectorSteps (moment : Moment) : List (OutboxStep Vector) :=
  match moment.2 with
  | .tick tick =>
    if moment.1.vectors.Idle then [.make (moment.1.agg.step (.tick tick)).2] else []
  | .pushVector => [.push]
  | .write => if moment.1.looping then [.pull] else []
  | _ => []

/-- What a collector hands over, when its last item is sent. -/
def accepted (source : Source) (moment : Moment) : List source.Item :=
  match moment.2 with
  | .produce other item =>
    if same : other = source then
      if (moment.1.line source).Idle then [same ▸ item] else []
    else []
  | _ => []

/-- What `main` receives from a collector. -/
def takenFrom (source : Source) (moment : Moment) : List source.Item :=
  match moment.2 with
  | .take other =>
    if other = source ∧ moment.1.looping then (moment.1.line source).pull.2.toList else []
  | _ => []

/-- The aggregator runs over what it is given. -/
theorem drives_agg : pipeline.Drives aggregator Pipeline.agg ingested := by
  intro p move
  show (p.step move).1.agg = _
  cases move with
  | take source =>
    unfold Pipeline.step ingested
    dsimp only
    by_cases looping : p.looping
    · simp only [looping, if_true]
      cases p.line source |>.pull.2 <;> rfl
    · simp [looping]
  | tick tick =>
    unfold Pipeline.step ingested
    dsimp only
    split <;> rfl
  | write =>
    unfold Pipeline.step
    dsimp only
    split <;> rfl
  | _ => rfl

/-- The line of a collector goes through its own steps. -/
theorem drives_line (source : Source) :
    pipeline.Drives (Outbox.machine source.Item source.capacity) (fun p => p.line source)
      (lineSteps source) := by
  intro p move
  show (p.step move).1.line source = _
  have other_line : ∀ other next, other ≠ source →
      (p.setLine other next).line source = p.line source :=
    fun other next differs => Function.update_of_ne (Ne.symm differs) _ _
  have own_line : ∀ next, (p.setLine source next).line source = next :=
    fun next => Function.update_self _ _ _
  cases move with
  | produce other item =>
    by_cases same : other = source
    · subst same
      simp [Pipeline.step, lineSteps, own_line, Outbox.machine, Machine.final]
    · simp [Pipeline.step, lineSteps, same, other_line]
  | push other =>
    by_cases same : other = source
    · subst same
      simp [Pipeline.step, lineSteps, own_line, Outbox.machine, Machine.final]
    · simp [Pipeline.step, lineSteps, same, other_line]
  | take other =>
    by_cases looping : p.looping
    · have next_line : (p.step (.take other)).1.line source =
          (p.setLine other (p.line other).pull.1).line source := by
        simp only [Pipeline.step, looping, if_true]
        cases (p.line other).pull.2 <;> rfl
      rw [next_line]
      by_cases same : other = source
      · subst same
        simp [lineSteps, own_line, looping, Outbox.machine, Machine.final]
      · simp [lineSteps, same, other_line]
    · simp [Pipeline.step, lineSteps, looping]
  | tick tick =>
    unfold Pipeline.step
    dsimp only
    split <;> rfl
  | write =>
    unfold Pipeline.step
    dsimp only
    split <;> rfl
  | _ => rfl

/-- The line of the vectors goes through its own steps. -/
theorem drives_vectors :
    pipeline.Drives (Outbox.machine Vector 256) Pipeline.vectors vectorSteps := by
  intro p move
  show (p.step move).1.vectors = _
  cases move with
  | take source =>
    unfold Pipeline.step
    dsimp only
    split
    · split <;> rfl
    · rfl
  | tick tick =>
    unfold Pipeline.step vectorSteps
    dsimp only
    split <;> rfl
  | write =>
    unfold Pipeline.step vectorSteps
    dsimp only
    split <;> rfl
  | _ => rfl

/-- What happens at a moment on the line of a collector, seen from both ends. -/
theorem line_moment (source : Source) (moment : Moment) :
    let line := Outbox.machine source.Item source.capacity
    line.outputs (moment.1.line source) (lineSteps source moment) = takenFrom source moment ∧
      (line.trace (moment.1.line source) (lineSteps source moment)).flatMap Outbox.made =
        accepted source moment := by
  obtain ⟨p, move⟩ := moment
  cases move with
  | produce other item =>
    by_cases same : other = source
    · subst same
      constructor
      · simp [lineSteps, takenFrom, Outbox.machine, Machine.outputs, Machine.trace,
          Machine.outputsOf]
      · simp [lineSteps, accepted, Machine.trace, Outbox.made]
    · simp [lineSteps, takenFrom, accepted, same, Machine.outputs]
  | push other =>
    by_cases same : other = source
    · subst same
      constructor
      · simp [lineSteps, takenFrom, Outbox.machine, Machine.outputs, Machine.trace,
          Machine.outputsOf]
      · simp [lineSteps, accepted, Machine.trace, Outbox.made]
    · simp [lineSteps, takenFrom, accepted, same, Machine.outputs]
  | take other =>
    by_cases receives : other = source ∧ p.looping
    · constructor
      · simp [lineSteps, takenFrom, receives, Outbox.machine, Machine.outputs, Machine.trace,
          Machine.outputsOf]
      · simp [lineSteps, accepted, receives, Machine.trace, Outbox.made]
    · simp [lineSteps, takenFrom, accepted, receives, Machine.outputs]
  | _ => exact ⟨rfl, rfl⟩

/-- What happens at a moment on the line of the vectors, seen from both ends. -/
theorem vectors_moment (moment : Moment) :
    let line := Outbox.machine Vector 256
    line.outputs moment.1.vectors (vectorSteps moment) =
        (pipeline.step moment.1 moment.2).2 ∧
      (line.trace moment.1.vectors (vectorSteps moment)).flatMap Outbox.made =
        aggregator.outputs moment.1.agg (ingested moment) := by
  obtain ⟨p, move⟩ := moment
  have silent_ingest : ∀ input : Input, (∀ tick, input ≠ .tick tick) →
      aggregator.outputs p.agg [input] = [] := by
    intro input quiet
    show (p.agg.step input).2 ++ [] = []
    rw [p.agg.step_ingests input quiet]
    rfl
  cases move with
  | take source =>
    constructor
    · show [] = (p.step (.take source)).2
      unfold Pipeline.step
      dsimp only
      split
      · split <;> rfl
      · rfl
    · unfold ingested
      dsimp only
      split
      · cases (p.line source).pull.2 with
        | none => rfl
        | some item =>
          have quiet : ∀ tick, source.input item ≠ .tick tick := by
            intro tick same
            cases source <;> cases same
          exact (silent_ingest _ quiet).symm
      · rfl
  | cgroup cid name image s =>
    refine ⟨rfl, (silent_ingest _ fun tick same => ?_).symm⟩
    cases same
  | tick tick =>
    by_cases idle : p.vectors.Idle
    · constructor
      · simp [vectorSteps, pipeline, Pipeline.step, idle, Outbox.machine, Machine.outputs,
          Machine.trace, Machine.outputsOf]
      · simp [vectorSteps, ingested, idle, Machine.trace, Outbox.made, Machine.outputs,
          Machine.outputsOf, aggregator]
    · constructor
      · simp [vectorSteps, pipeline, Pipeline.step, idle, Machine.outputs]
      · simp [vectorSteps, ingested, idle, Machine.outputs]
  | write =>
    by_cases looping : p.looping
    · constructor
      · simp [vectorSteps, pipeline, Pipeline.step, looping, Outbox.machine, Machine.outputs,
          Machine.trace, Machine.outputsOf]
      · simp [vectorSteps, ingested, looping, Machine.trace, Outbox.made, Machine.outputs]
    · constructor
      · simp [vectorSteps, pipeline, Pipeline.step, looping, Machine.outputs]
      · simp [vectorSteps, ingested, looping, Machine.outputs]
  | _ => exact ⟨rfl, rfl⟩

/-- How things flow through a run of the agent. -/
structure Flows (window : Duration) (past : List Moment) (p : Pipeline) (written : List Vector) :
    Prop where
  /-- What a collector has handed over was received, or is on its line, in order. -/
  ordered : ∀ source, past.flatMap (takenFrom source) ++ (p.line source).inFlight =
    past.flatMap (accepted source)
  /-- No more than the channel holds, and one item more, is on its line. -/
  bounded : ∀ source, (p.line source).inFlight.length ≤ source.capacity + 1
  /-- The aggregator is where it comes to by what was received. -/
  aggregated : p.agg = aggregator.final (.new window) (past.flatMap ingested)
  /-- What it has emitted was written, or is on its line, in order. -/
  emitted : written ++ p.vectors.inFlight =
    aggregator.outputs (.new window) (past.flatMap ingested)

/-- Every run of the agent is a run of the aggregator over what `main` has received, and each line
keeps its order. -/
theorem flows (window : Duration) (moves : List Move) :
    Flows window (pipeline.trace (.start window) moves) (pipeline.final (.start window) moves)
      (pipeline.outputs (.start window) moves) := by
  refine ⟨fun source => ?_, fun source => ?_, drives_agg.final (.start window) moves, ?_⟩
  · have order := Outbox.run (.empty : Outbox source.Item source.capacity)
      ((pipeline.trace (.start window) moves).flatMap (lineSteps source))
    have reached := (drives_line source).final (.start window) moves
    have outputs := (drives_line source).outputs (.start window) moves
    have trace := (drives_line source).trace (.start window) moves
    simp only [line_moment] at outputs
    change (Outbox.machine _ _).outputs .empty _ = _ at outputs
    change (Outbox.machine _ _).trace .empty _ = _ at trace
    change _ = (Outbox.machine _ _).final .empty _ at reached
    rw [outputs, ← reached, trace, List.flatMap_assoc] at order
    simp only [line_moment] at order
    exact order
  · rw [(drives_line source).final (.start window) moves]
    refine Outbox.length_inFlight _ fun items made => ?_
    obtain ⟨⟨p, move⟩, _, step⟩ := List.mem_flatMap.mp made
    cases move with
    | produce other item =>
      by_cases same : other = source
      · subst same
        simp only [lineSteps, dif_pos, List.mem_singleton, OutboxStep.make.injEq] at step
        exact step ▸ le_refl _
      · simp [lineSteps, same] at step
    | push other =>
      by_cases same : other = source
      · simp [lineSteps, same] at step
      · simp [lineSteps, same] at step
    | take other =>
      by_cases receives : other = source ∧ p.looping
      · simp [lineSteps, receives] at step
      · simp [lineSteps, receives] at step
    | _ => simp [lineSteps] at step
  · have order := Outbox.run (.empty : Outbox Vector 256)
      ((pipeline.trace (.start window) moves).flatMap vectorSteps)
    have reached := drives_vectors.final (.start window) moves
    have outputs := drives_vectors.outputs (.start window) moves
    have trace := drives_vectors.trace (.start window) moves
    simp only [vectors_moment] at outputs
    change (Outbox.machine _ _).outputs .empty _ = _ at outputs
    change (Outbox.machine _ _).trace .empty _ = _ at trace
    change _ = (Outbox.machine _ _).final .empty _ at reached
    rw [outputs, ← reached, trace, List.flatMap_assoc] at order
    simp only [vectors_moment] at order
    exact order.trans (drives_agg.outputs (.start window) moves).symm

/-- What some items of a collector are worth of a counter of a container. -/
def amount (cid : GoString) (counter : Counter) (source : Source) (items : List source.Item) :
    UInt64 :=
  worth counter (items.flatMap fun item => (source.input item).own cid)

/-- Items are worth what their parts are. -/
theorem amount_append (cid : GoString) (counter : Counter) (source : Source)
    (first second : List source.Item) :
    amount cid counter source (first ++ second) =
      amount cid counter source first + amount cid counter source second := by
  rw [amount, List.flatMap_append, worth_append]
  rfl

/-- The aggregator is given what is received, and beside that nothing that counts. -/
theorem worth_ingested (cid : GoString) (counter : Counter) (moment : Moment) :
    worth counter ((ingested moment).flatMap (Input.own cid)) =
      ∑ source, amount cid counter source (takenFrom source moment) := by
  obtain ⟨p, move⟩ := moment
  have nothing : ∀ source : Source, amount cid counter source [] = 0 := fun _ => rfl
  cases move with
  | take other =>
    rw [Finset.sum_eq_single other]
    · by_cases looping : p.looping
      · simp only [ingested, takenFrom, looping, if_true, and_self, amount, List.flatMap_map]
      · simp [ingested, takenFrom, looping, amount]
    · intro source _ differs
      have elsewhere : ¬ (other = source ∧ p.looping = true) :=
        fun same => differs same.1.symm
      simp only [takenFrom, if_neg elsewhere, nothing]
    · intro outside
      exact absurd (Finset.mem_univ other) outside
  | cgroup cid' name image s =>
    have zero : worth counter (Input.own cid (.cgroup cid' name image s)) = 0 := by
      unfold Input.own Input.ingests
      by_cases same : cid' = cid
      · simp [same, worth, Ingest.amount]
      · simp [same, worth]
    simp only [ingested, List.flatMap_cons, List.flatMap_nil, List.append_nil, zero]
    exact (Finset.sum_eq_zero fun source _ => nothing source).symm
  | tick tick =>
    have zero : worth counter ((ingested (p, .tick tick)).flatMap (Input.own cid)) = 0 := by
      unfold ingested
      dsimp only
      split <;> rfl
    rw [zero]
    exact (Finset.sum_eq_zero fun source _ => nothing source).symm
  | _ => exact (Finset.sum_eq_zero fun source _ => nothing source).symm

/-- What the aggregator was given in a past is worth what was received in it. -/
theorem worth_past (cid : GoString) (counter : Counter) (past : List Moment) :
    worth counter ((past.flatMap ingested).flatMap (Input.own cid)) =
      ∑ source, amount cid counter source (past.flatMap (takenFrom source)) := by
  induction past with
  | nil => exact (Finset.sum_eq_zero fun source _ => rfl).symm
  | cons moment past ih =>
    simp only [List.flatMap_cons, List.flatMap_append, worth_append, amount_append]
    rw [Finset.sum_add_distrib, ← ih, ← worth_ingested]

/-- The vectors of a container. -/
def vectorsOf (cid : GoString) (vectors : List Vector) : List Vector :=
  vectors.filter fun v => v.containerID = cid

/-- What is still on its way to the file. -/
def Pipeline.underway (p : Pipeline) (cid : GoString) (counter : Counter) : UInt64 :=
  emitted counter (vectorsOf cid p.vectors.inFlight) + held counter (p.agg.acc.lookup cid) +
    ∑ source, amount cid counter source (p.line source).inFlight

/-- Of every counter, what was written for a container and what is on its way is what the collectors
have handed over for it. -/
theorem pipeline_conserves (window : Duration) (moves : List Move) (cid : GoString)
    (counter : Counter) :
    emitted counter (vectorsOf cid (pipeline.outputs (.start window) moves)) +
        (pipeline.final (.start window) moves).underway cid counter =
      ∑ source, amount cid counter source
        ((pipeline.trace (.start window) moves).flatMap (accepted source)) := by
  obtain ⟨ordered, _, aggregated, emits⟩ := flows window moves
  obtain ⟨reached, vectors⟩ := run_account cid window
    ((pipeline.trace (.start window) moves).flatMap ingested)
  have conserved := account_conserves cid window counter
    (((pipeline.trace (.start window) moves).flatMap ingested).filterMap (Input.view cid))
  rw [← vectors, ← reached, flatMap_own, ← emits, ← aggregated, List.filter_append,
    worth_past] at conserved
  have parts : ∀ source, amount cid counter source
      ((pipeline.trace (.start window) moves).flatMap (accepted source)) =
      amount cid counter source
        ((pipeline.trace (.start window) moves).flatMap (takenFrom source)) +
      amount cid counter source
        ((pipeline.final (.start window) moves).line source).inFlight := by
    intro source
    rw [← ordered source, amount_append]
  have holds : held counter ((pipeline.final (.start window) moves).agg.acc.lookup cid) =
      held counter ((pipeline.final (.start window) moves).agg.account cid).accumulator := rfl
  simp only [parts]
  rw [Finset.sum_add_distrib, ← conserved, Pipeline.underway, holds]
  simp only [Feature.emitted, vectorsOf, List.map_append, List.sum_append, add_assoc]

/-- The windows written for a container follow one another. -/
theorem pipeline_adjacent (window : Duration) (moves : List Move) (cid : GoString) :
    (vectorsOf cid (pipeline.outputs (.start window) moves)).IsChain
      fun v later => later.windowStart = v.windowEnd := by
  have emits := (flows window moves).emitted
  obtain ⟨_, vectors⟩ := run_account cid window
    ((pipeline.trace (.start window) moves).flatMap ingested)
  have chain := (account_adjacent cid window
    (((pipeline.trace (.start window) moves).flatMap ingested).filterMap (Input.view cid))).1
  rw [← vectors, ← emits, List.filter_append] at chain
  exact chain.left_of_append

/-- What a run of the agent makes of what its collectors hand over. -/
structure Delivered (window : Duration) (past : List Moment) (p : Pipeline)
    (written : List Vector) : Prop extends Flows window past p written where
  /-- Of every counter, what was written for a container and what is on its way is what the
  collectors have handed over for it, modulo 2^64. -/
  conserved : ∀ cid counter,
    Feature.emitted counter (vectorsOf cid written) + p.underway cid counter =
      ∑ source, amount cid counter source (past.flatMap (accepted source))
  /-- The windows written for a container follow one another. -/
  adjacent : ∀ cid, (vectorsOf cid written).IsChain
    fun v later => later.windowStart = v.windowEnd

/-- In every run of the agent, whatever the order of its goroutines, nothing that a collector has
handed over is lost, counted twice or given to another container. -/
theorem agent_conserves (window : Duration) (moves : List Move) :
    Delivered window (pipeline.trace (.start window) moves)
      (pipeline.final (.start window) moves) (pipeline.outputs (.start window) moves) :=
  ⟨flows window moves, pipeline_conserves window moves, pipeline_adjacent window moves⟩

end ContainerAnomaly.Agent
