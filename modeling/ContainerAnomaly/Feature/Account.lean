import ContainerAnomaly.Feature.Aggregator

/-!
# One container's account

What the aggregator is for, container by container: an account that takes in what is ingested
for its container and is closed at every tick. `aggregator_hasPart` shows that the aggregator,
with its shared map and its loops over snapshots, is to each container nothing but its account.
-/

namespace ContainerAnomaly.Feature

open Lib

/-- What is ingested for a container at a time: an exit, a row of a snapshot, or a sample. -/
inductive Ingest where
  | exit (crash : Bool)
  | tcp (row : TcpStats.Stats)
  | cpu (row : PidRuntime.Row)
  | syscalls (row : Syscalls.Row)
  | cgroup (name image : GoString) (s : Cgroup.Stats)

/-- What an accumulator makes of it. -/
def Accumulator.ingest (item : Ingest) (ac : Accumulator) : Accumulator :=
  match item with
  | .exit crash => ac.addExit crash
  | .tcp row => ac.addTCP row
  | .cpu row => ac.addCPU row
  | .syscalls row => ac.addSyscalls row
  | .cgroup name image s => ac.setCgroup name image s

/-- An accumulator, once there is one, and the current window. -/
structure Account where
  /-- The length of a window. -/
  window : Duration
  /-- The accumulator of the container, if there is one. -/
  accumulator : Option Accumulator
  /-- The start of the window. -/
  windowStart : Time

/-- What an account sees: something is ingested for it, or a tick, with the answer of
`ResolveName` for its container. -/
inductive View where
  | ingest (first : Ingest) (rest : List Ingest)
  | tick (time : Time) (nonzero : time ≠ 0) (answer : Option (GoString × GoString))

/-- Ingest a list of things. -/
def Account.ingestAll (account : Account) (items : List Ingest) : Account :=
  { account with
    accumulator := some (items.foldl (fun ac item => ac.ingest item)
      (account.accumulator.getD {})) }

/-- The start of the window that a tick closes. -/
def Account.opened (account : Account) (time : Time) : Time :=
  if account.windowStart = 0 then time - account.window else account.windowStart

/-- One step of the account of a container. -/
def Account.step (cid : GoString) (account : Account) : View → Account × List Vector
  | .ingest first rest => (account.ingestAll (first :: rest), [])
  | .tick time _ answer =>
    match account.accumulator with
    | none => ({ account with windowStart := time }, [])
    | some ac =>
      let v := ac.finalize (account.opened time) time cid answer
      ({ account with accumulator := some (ac.reset v), windowStart := time }, [v])

/-- The account of a container as a machine. -/
def accountOf (cid : GoString) : Machine Account View Vector := ⟨Account.step cid⟩

/-- A tick finds no accumulator. -/
theorem Account.step_tick_none {cid : GoString} {account : Account}
    (absent : account.accumulator = none) (time : Time) (nonzero : time ≠ 0)
    (answer : Option (GoString × GoString)) :
    (accountOf cid).step account (.tick time nonzero answer) =
      ({ account with windowStart := time }, []) := by
  show account.step cid (.tick time nonzero answer) = _
  simp only [Account.step, absent]

/-- A tick finalizes the accumulator. -/
theorem Account.step_tick_some {cid : GoString} {account : Account} {ac : Accumulator}
    (present : account.accumulator = some ac) (time : Time) (nonzero : time ≠ 0)
    (answer : Option (GoString × GoString)) :
    (accountOf cid).step account (.tick time nonzero answer) =
      let v := ac.finalize (account.opened time) time cid answer
      ({ account with accumulator := some (ac.reset v), windowStart := time }, [v]) := by
  show account.step cid (.tick time nonzero answer) = _
  simp only [Account.step, present]

/-- What an input ingests, with the containers it is for. -/
def Input.ingests : Input → List (GoString × Ingest)
  | .exit containerID crash => [(containerID, .exit crash)]
  | .tcp rows => rows.map fun row => (row.containerID, .tcp row)
  | .cpu rows => rows.map fun row => (row.containerID, .cpu row)
  | .syscalls rows => rows.map fun row => (row.containerID, .syscalls row)
  | .cgroup cid name image s => [(cid, .cgroup name image s)]
  | .tick _ => []

/-- What an input ingests for one container. -/
def Input.own (cid : GoString) (input : Input) : List Ingest :=
  (input.ingests.filter fun item => item.1 = cid).map Prod.snd

/-- How one container sees an input. -/
def Input.view (cid : GoString) (input : Input) : Option View :=
  match input with
  | .tick closing => some (.tick closing.time closing.nonzero (closing.resolveName.map (· cid)))
  | input =>
    match input.own cid with
    | [] => none
    | first :: rest => some (.ingest first rest)

/-- How one container sees the aggregator. -/
def Aggregator.account (cid : GoString) (a : Aggregator) : Account :=
  ⟨a.window, a.acc.lookup cid, a.windowStart⟩

/-- An input that is no tick changes one accumulator after the other. -/
theorem Aggregator.step_ingests (a : Aggregator) (input : Input)
    (quiet : ∀ tick, input ≠ .tick tick) :
    a.step input =
      (input.ingests.foldl (fun a item => a.change item.1 (.ingest item.2)) a, []) := by
  cases input with
  | exit containerID crash => rfl
  | tcp rows =>
    rw [Input.ingests, List.foldl_map]
    rfl
  | cpu rows =>
    rw [Input.ingests, List.foldl_map]
    rfl
  | syscalls rows =>
    rw [Input.ingests, List.foldl_map]
    rfl
  | cgroup cid name image s => rfl
  | tick tick => exact absurd rfl (quiet tick)

/-- A list of changes touches the accumulators only. -/
theorem Aggregator.foldl_change (a : Aggregator) (items : List (GoString × Ingest)) :
    items.foldl (fun a item => a.change item.1 (.ingest item.2)) a =
      { a with
        acc := items.foldl (fun acc item => acc.upsert {} item.1 (.ingest item.2)) a.acc } := by
  induction items generalizing a with
  | nil => rfl
  | cons item items ih => exact ih _

/-- A vector is the accumulator's, with its bounds, its container, and some name and image. -/
theorem Accumulator.finalize_eq (ac : Accumulator) (windowStart windowEnd : Time)
    (cid : GoString) (answer : Option (GoString × GoString)) :
    ∃ name image, ac.finalize windowStart windowEnd cid answer = { ac.v with
      windowStart := windowStart
      windowEnd := windowEnd
      containerID := cid
      name := name
      image := image } := by
  unfold finalize Vector.backfill
  split
  · split
    · exact ⟨_, _, rfl⟩
    · exact ⟨_, _, rfl⟩
  · exact ⟨_, _, rfl⟩

/-- The container of a vector is that of the accumulator it was made of. -/
@[simp] theorem Accumulator.finalize_containerID (ac : Accumulator) (windowStart windowEnd : Time)
    (cid : GoString) (answer : Option (GoString × GoString)) :
    (ac.finalize windowStart windowEnd cid answer).containerID = cid := by
  obtain ⟨name, image, named⟩ := ac.finalize_eq windowStart windowEnd cid answer
  rw [named]

/-- The bounds of a vector. -/
theorem Accumulator.finalize_bounds (ac : Accumulator) (windowStart windowEnd : Time)
    (cid : GoString) (answer : Option (GoString × GoString)) :
    (ac.finalize windowStart windowEnd cid answer).windowStart = windowStart ∧
      (ac.finalize windowStart windowEnd cid answer).windowEnd = windowEnd := by
  obtain ⟨name, image, named⟩ := ac.finalize_eq windowStart windowEnd cid answer
  rw [named]
  exact ⟨rfl, rfl⟩

/-- What is ingested for a container goes to its account. -/
theorem Aggregator.account_ingest (cid : GoString) (a : Aggregator)
    (items : List (GoString × Ingest)) :
    (items.foldl (fun a item => a.change item.1 (.ingest item.2)) a).account cid =
      match (items.filter fun item => item.1 = cid).map Prod.snd with
      | [] => a.account cid
      | first :: rest => (a.account cid).ingestAll (first :: rest) := by
  have stored := GoMap.lookup_foldl_upsert ({} : Accumulator) Prod.fst
    (fun item : GoString × Ingest => Accumulator.ingest item.2) items a.acc cid
  rw [foldl_change]
  unfold account
  rw [stored]
  cases items.filter fun item => item.1 = cid with
  | nil => rfl
  | cons first rest =>
    simp only [List.map_cons, Account.ingestAll, List.foldl_cons, List.foldl_map]
    rfl

/-- A tick closes the account of every container. -/
theorem Aggregator.account_tick (cid : GoString) (a : Aggregator) (tick : Tick) :
    let closed := (accountOf cid).step (a.account cid)
      (.tick tick.time tick.nonzero (tick.resolveName.map (· cid)))
    (a.tick tick).1.account cid = closed.1 ∧
      (a.tick tick).2.filter (fun v => v.containerID = cid) = closed.2 := by
  intro closed
  let made (entry : GoString × Accumulator) : Vector :=
    entry.2.finalize ((a.account cid).opened tick.time) tick.time entry.1
      (tick.resolveName.map (· entry.1))
  obtain ⟨emitted, stored⟩ := GoMap.foldl_range_store tick.order a.acc
    (fun entry => entry.2.reset (made entry)) made
  have vectors : (a.tick tick).2 = (a.acc.range tick.order).map made := emitted
  have left : (a.tick tick).1.acc.lookup cid =
      (a.acc.lookup cid).map fun ac => ac.reset (made (cid, ac)) := stored cid
  have own : (a.tick tick).2.filter (fun v => v.containerID = cid) =
      ((a.acc.lookup cid).map fun ac => made (cid, ac)).toList := by
    have keyed : (fun v : Vector => decide (v.containerID = cid)) ∘ made =
        fun entry => decide (entry.1 = cid) := by
      funext entry
      simp [made]
    rw [vectors, List.filter_map, keyed, GoMap.filter_range]
    cases a.acc.lookup cid <;> rfl
  show (⟨a.window, (a.tick tick).1.acc.lookup cid, tick.time⟩ : Account) = _ ∧ _
  rw [own, left]
  cases found : a.acc.lookup cid with
  | none =>
    have absent : (a.account cid).accumulator = none := found
    have next : closed = _ := Account.step_tick_none absent _ tick.nonzero _
    rw [next, absent]
    exact ⟨rfl, rfl⟩
  | some ac =>
    have present : (a.account cid).accumulator = some ac := found
    have next : closed = _ := Account.step_tick_some present _ tick.nonzero _
    rw [next]
    exact ⟨rfl, rfl⟩

/-- An input that is no tick is seen by the containers it ingests something for. -/
theorem Input.view_of_quiet {input : Input} (quiet : ∀ tick, input ≠ .tick tick)
    (cid : GoString) : input.view cid =
      match input.own cid with
      | [] => none
      | first :: rest => some (.ingest first rest) := by
  cases input with
  | tick closing => exact absurd rfl (quiet closing)
  | _ => rfl

/-- To each container the aggregator is its account. -/
theorem aggregator_hasPart (cid : GoString) :
    aggregator.HasPart (accountOf cid) (Aggregator.account cid) (Input.view cid)
      (fun v => v.containerID = cid) := by
  have ingested : ∀ (a : Aggregator) input, (∀ tick, input ≠ .tick tick) →
      (aggregator.step a input).1.account cid = (match input.own cid with
        | [] => a.account cid
        | first :: rest => (a.account cid).ingestAll (first :: rest)) ∧
      (aggregator.step a input).2 = [] := by
    intro a input quiet
    show (a.step input).1.account cid = _ ∧ (a.step input).2 = []
    rw [a.step_ingests input quiet]
    exact ⟨a.account_ingest cid input.ingests, rfl⟩
  constructor
  · intro a input unseen
    have quiet : ∀ tick, input ≠ .tick tick := by
      rintro tick rfl
      cases unseen
    obtain ⟨reached, silent⟩ := ingested a input quiet
    rw [Input.view_of_quiet quiet] at unseen
    rw [reached, silent]
    cases items : input.own cid with
    | nil => exact ⟨rfl, rfl⟩
    | cons first rest => simp [items] at unseen
  · intro a input own viewed
    by_cases ticks : ∃ closing, input = .tick closing
    · obtain ⟨closing, rfl⟩ := ticks
      obtain rfl := Option.some.inj viewed
      exact a.account_tick cid closing
    · have quiet := not_exists.mp ticks
      obtain ⟨reached, silent⟩ := ingested a input quiet
      rw [Input.view_of_quiet quiet] at viewed
      rw [reached, silent]
      cases items : input.own cid with
      | nil => simp [items] at viewed
      | cons first rest =>
        rw [items] at viewed
        obtain rfl := Option.some.inj viewed
        exact ⟨rfl, rfl⟩

end ContainerAnomaly.Feature
