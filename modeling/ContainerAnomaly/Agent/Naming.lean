import ContainerAnomaly.Container.Refresh
import ContainerAnomaly.Feature.Deltas
import ContainerAnomaly.Feature.Naming

/-!
# Names across the agent

The parties of `cmd/agent/main.go` that decide under which name a container is reported: the
refreshes of the resolver, the cgroup poll, which works through a snapshot of the containers, and
the collectors and ticks of the aggregator, in any order. A name that `ResolveName` made up before
the container was known stands after it is known, until a sample comes (`names_hold_iff`).
-/

namespace ContainerAnomaly.Agent

open Lib Container Feature

/-- `ContainerByID`. -/
def containerByID (r : Resolver) (cid : GoString) : Option Info := r.containers.lookup cid

/-- `agg.ResolveName`. -/
def resolveName (r : Resolver) (cid : GoString) : GoString × GoString :=
  match containerByID r cid with
  | some c => (c.name, c.image)
  | none =>
    if cid.length ≥ 12 then (lit "cid:" ++ cid.take 12, [])
    else (lit "unknown", [])

/-- The resolver, the aggregator, and the containers that `pollCgroup` has yet to read of the
snapshot it took. -/
structure State where
  /-- The resolver. -/
  resolver : Resolver
  /-- The containers that `pollCgroup` has yet to read. -/
  polling : List (GoString × Info)
  /-- The aggregator. -/
  agg : Aggregator

/-- The agent when its loops start. -/
def State.initial (window : Duration) (r : Resolver) : State := ⟨r, [], .new window⟩

/-- What the parties do. -/
inductive Event where
  | exit (containerID : GoString) (crash : Bool)
  | tcp (rows : List TcpStats.Stats)
  | cpu (rows : List PidRuntime.Row)
  | syscalls (rows : List Syscalls.Row)
  | refresh (docker : Docker)
  /-- A tick of `pollCgroup`: it ranges over a new snapshot. -/
  | poll (order : RangeOrder GoString Info)
  /-- `pollCgroup` reads its next container, `none` when that fails. -/
  | read (stats : Option Cgroup.Stats)
  | tick (time : Time) (nonzero : time ≠ 0) (order : RangeOrder GoString Accumulator)

/-- What an event gives the aggregator, if anything. -/
def State.input (state : State) : Event → Option Input
  | .exit containerID crash => some (.exit containerID crash)
  | .tcp rows => some (.tcp rows)
  | .cpu rows => some (.cpu rows)
  | .syscalls rows => some (.syscalls rows)
  | .refresh _ => none
  | .poll _ => none
  | .read none => none
  | .read (some s) => state.polling.head?.map fun entry =>
      .cgroup entry.1 entry.2.name entry.2.image s
  | .tick time nonzero order =>
    some (.tick ⟨time, nonzero, order, some (resolveName state.resolver)⟩)

/-- The aggregator takes an input, if there is one. -/
def State.handle (state : State) : Option Input → State × List Vector
  | none => (state, [])
  | some input =>
    let handled := state.agg.step input
    ({ state with agg := handled.1 }, handled.2)

/-- One event. A refresh that fails changes nothing, and a poll begins after the one before it has
ended. -/
def State.step (state : State) (event : Event) : State × List Vector :=
  let handled := state.handle (state.input event)
  match event with
  | .refresh docker =>
    ({ handled.1 with resolver := (state.resolver.refresh docker).getD state.resolver }, handled.2)
  | .poll order =>
    ({ handled.1 with
        polling := if state.polling = [] then state.resolver.containers.range order
          else state.polling }, handled.2)
  | .read _ => ({ handled.1 with polling := state.polling.tail }, handled.2)
  | _ => handled

/-- The agent as a machine. -/
def agent : Machine State Event Vector := ⟨State.step⟩

/-- What the aggregator is given in a run. -/
def heard (start : State) (events : List Event) : List Input :=
  (agent.trace start events).filterMap fun moment => moment.1.input moment.2

/-- An event is to the aggregator what it gives it. -/
theorem step_agg (state : State) (event : Event) :
    (agent.step state event).1.agg = aggregator.final state.agg (state.input event).toList := by
  show (state.step event).1.agg = _
  cases event with
  | read stats =>
    cases stats with
    | none => rfl
    | some s =>
      simp only [State.step, State.input]
      cases state.polling.head? <;> rfl
  | _ => rfl

/-- A run is to the aggregator what it gives it. -/
theorem final_agg (start : State) (events : List Event) :
    (agent.final start events).agg = aggregator.final start.agg (heard start events) := by
  induction events using List.reverseRecOn with
  | nil => rfl
  | append_singleton events event ih =>
    have more : heard start (events ++ [event]) =
        heard start events ++ ((agent.final start events).input event).toList := by
      rw [heard, Machine.trace_snoc, List.filterMap_append]
      cases input : (agent.final start events).input event <;> simp [heard, input]
    rw [Machine.final_snoc, step_agg, ih, more, Machine.final_append]

/-- At every tick of a run, the vectors of the containers that the resolver knows by a name carry
that name and the image. -/
def NamesHold (window : Duration) (r : Resolver) (events : List Event) : Prop :=
  ∀ past time nonzero order rest, events = past ++ .tick time nonzero order :: rest →
    ∀ cid info, cid ≠ [] →
      containerByID (agent.final (.initial window r) past).resolver cid = some info →
      info.name ≠ [] →
      ∀ v ∈ (agent.step (agent.final (.initial window r) past) (.tick time nonzero order)).2,
        v.containerID = cid → v.name = info.name ∧ v.image = info.image

/-- In every run, known containers are reported by their names exactly when at every tick the first
non-empty name that such a container was given since its last sample is the one the resolver has
for it now. -/
theorem names_hold_iff (window : Duration) (r : Resolver) (events : List Event) :
    NamesHold window r events ↔
      ∀ past time nonzero order rest, events = past ++ .tick time nonzero order :: rest →
        ∀ cid info, cid ≠ [] →
          containerByID (agent.final (.initial window r) past).resolver cid = some info →
          info.name ≠ [] →
          ∀ names naming,
            given ((heard (.initial window r) past).filterMap (Input.view cid)) = some names →
            standing names = some naming → naming = (info.name, info.image) := by
  refine forall₅_congr fun past time nonzero order rest => forall_congr' fun _ => forall₂_congr
    fun cid info => forall₃_congr fun container known _ => ?_
  have answers : resolveName (agent.final (.initial window r) past).resolver cid =
      (info.name, info.image) := by
    rw [resolveName, known]
  have reached : (agent.final (.initial window r) past).agg =
      aggregator.final (.new window) (heard (.initial window r) past) :=
    final_agg (.initial window r) past
  have named := named_iff window container (heard (.initial window r) past)
    ⟨time, nonzero, order, some (resolveName (agent.final (.initial window r) past).resolver)⟩ rfl
  rw [answers, ← reached] at named
  rw [← named]
  refine forall₃_congr fun v _ _ => ?_
  rw [Prod.mk.injEq]

/-- A container id. -/
def newID : GoString := List.replicate 64 97

/-- Docker, once it lists the container. -/
def listing : Docker where
  listContainers := some [⟨newID, [lit "/web"], lit "nginx", true⟩]
  inspectContainer _ := some ⟨4711⟩

/-- A process of a new container exits before the next refresh, and no sample of it is ever taken:
the placeholder of the first window names the second one, though the resolver knows the container
by then. -/
theorem placeholder_sticks :
    ¬ NamesHold 30 ⟨∅, ∅⟩ [.exit newID false, .tick 30 (by decide) (RangeOrder.stored _ _),
      .refresh listing, .tick 60 (by decide) (RangeOrder.stored _ _)] := by
  intro hold
  have known := hold [.exit newID false, .tick 30 (by decide) (RangeOrder.stored _ _),
    .refresh listing] 60 (by decide) (RangeOrder.stored _ _) [] rfl newID
    ⟨newID, newID.take 12, lit "web", lit "nginx", 4711⟩ (by decide) (by decide) (by decide)
  have sent : ((agent.step (agent.final (.initial 30 ⟨∅, ∅⟩)
      [.exit newID false, .tick 30 (by decide) (RangeOrder.stored _ _), .refresh listing])
      (.tick 60 (by decide) (RangeOrder.stored _ _))).2.map
        fun v => (v.containerID, v.name)) = [(newID, lit "cid:aaaaaaaaaaaa")] := by decide
  obtain ⟨v, only, shows⟩ := List.map_eq_singleton_iff.mp sent
  obtain ⟨owner, name⟩ := Prod.mk.inj shows
  have named := (known v (by rw [only]; exact List.mem_cons_self) owner).1
  exact absurd (name.symm.trans named) (by decide)

end ContainerAnomaly.Agent
