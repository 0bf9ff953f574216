import ContainerAnomaly.Feature.Account

/-!
# Windows conserve what they are given

What is ingested for a container is in its vectors or still in its accumulator, nothing of it
depends on other containers, every tick emits one vector for each container, and the windows of
a container follow one another without a gap. Each is a fact about an account, carried over to
the aggregator by `aggregator_hasPart`.
-/

namespace ContainerAnomaly.Feature

open Lib Bpf

/-- The additive counters of a vector, by name. -/
inductive Counter where
  | procExits | procCrashes | tcpBytesTx | tcpBytesRx | tcpRetrans | cpuRuntimeNS
  | sys (field : Field)
deriving DecidableEq

/-- The value of a counter. -/
def Vector.get (v : Vector) : Counter → UInt64
  | .procExits => v.procExits
  | .procCrashes => v.procCrashes
  | .tcpBytesTx => v.tcpBytesTx
  | .tcpBytesRx => v.tcpBytesRx
  | .tcpRetrans => v.tcpRetrans
  | .cpuRuntimeNS => v.cpuRuntimeNS
  | .sys .total => v.sysTotal
  | .sys .fileOpen => v.sysFileOpen
  | .sys .fileClose => v.sysFileClose
  | .sys .fileRead => v.sysFileRead
  | .sys .fileWrite => v.sysFileWrite
  | .sys .fileUnlink => v.sysFileUnlink
  | .sys .fileRename => v.sysFileRename
  | .sys .filePerm => v.sysFilePerm
  | .sys .netSocket => v.sysNetSocket
  | .sys .netConnect => v.sysNetConnect
  | .sys .netBind => v.sysNetBind
  | .sys .netListen => v.sysNetListen
  | .sys .netAccept => v.sysNetAccept
  | .sys .netSend => v.sysNetSend
  | .sys .netRecv => v.sysNetRecv
  | .sys .procExec => v.sysProcExec
  | .sys .procFork => v.sysProcFork
  | .sys .procKill => v.sysProcKill
  | .sys .privEscalate => v.sysPrivEscalate
  | .sys .escapeAttempt => v.sysEscapeAttempt
  | .sys .memLayout => v.sysMemLayout
  | .sys .other => v.sysOther

/-- How much of a counter something that is ingested is worth. -/
def Ingest.amount (counter : Counter) : Ingest → UInt64
  | .exit crash =>
    match counter with
    | .procExits => 1
    | .procCrashes => if crash then 1 else 0
    | _ => 0
  | .tcp row =>
    match counter with
    | .tcpBytesTx => row.bytesTx
    | .tcpBytesRx => row.bytesRx
    | .tcpRetrans => row.retransmits
    | _ => 0
  | .cpu row =>
    match counter with
    | .cpuRuntimeNS => row.runtimeNS
    | _ => 0
  | .syscalls row =>
    match counter with
    | .sys field => row.counts.get field
    | _ => 0
  | .cgroup _ _ _ => 0

/-- Ingesting adds to every counter what the thing is worth of it. -/
theorem get_ingest (counter : Counter) (item : Ingest) (ac : Accumulator) :
    (ac.ingest item).v.get counter = ac.v.get counter + item.amount counter := by
  cases item with
  | exit crash =>
    cases crash <;> cases counter with
    | sys field => cases field <;> exact (add_zero _).symm
    | _ => first | rfl | exact (add_zero _).symm
  | tcp row =>
    cases counter with
    | sys field => cases field <;> exact (add_zero _).symm
    | _ => first | rfl | exact (add_zero _).symm
  | cpu row =>
    cases counter with
    | sys field => cases field <;> exact (add_zero _).symm
    | _ => first | rfl | exact (add_zero _).symm
  | syscalls row =>
    cases counter with
    | sys field => cases field <;> rfl
    | _ => exact (add_zero _).symm
  | cgroup name image s =>
    cases counter with
    | sys field => cases field <;> exact (add_zero _).symm
    | _ => exact (add_zero _).symm

/-- A vector carries the counters of its accumulator. -/
theorem get_finalize (counter : Counter) (ac : Accumulator) (windowStart windowEnd : Time)
    (cid : GoString) (answer : Option (GoString × GoString)) :
    (ac.finalize windowStart windowEnd cid answer).get counter = ac.v.get counter := by
  obtain ⟨name, image, named⟩ := ac.finalize_eq windowStart windowEnd cid answer
  rw [named]
  cases counter with
  | sys field => cases field <;> rfl
  | _ => rfl

/-- Nothing of a counter is left in an accumulator that was finalized. -/
theorem get_reset (counter : Counter) (ac : Accumulator) (v : Vector) :
    (ac.reset v).v.get counter = 0 := by
  cases counter with
  | sys field => cases field <;> rfl
  | _ => rfl

/-- What a view ingests. -/
def View.items : View → List Ingest
  | .ingest first rest => first :: rest
  | .tick _ _ _ => []

/-- What is worth of a counter in a list of things ingested. -/
def worth (counter : Counter) (items : List Ingest) : UInt64 :=
  (items.map (Ingest.amount counter)).sum

/-- The sum of a counter over vectors. -/
def emitted (counter : Counter) (vectors : List Vector) : UInt64 :=
  (vectors.map fun v => v.get counter).sum

/-- The value of a counter in an accumulator that may not exist yet. -/
def held (counter : Counter) (accumulator : Option Accumulator) : UInt64 :=
  (accumulator.getD {}).v.get counter

/-- A counter of an accumulator grows by what is ingested. -/
theorem get_ingestAll (counter : Counter) (items : List Ingest) (ac : Accumulator) :
    (items.foldl (fun ac item => ac.ingest item) ac).v.get counter =
      ac.v.get counter + worth counter items := by
  induction items generalizing ac with
  | nil => exact (add_zero _).symm
  | cons item items ih =>
    rw [List.foldl_cons, ih, get_ingest, add_assoc]
    rfl

/-- One step moves what a counter holds into a vector, or adds to it. -/
theorem account_step_conserves (cid : GoString) (counter : Counter) (account : Account)
    (view : View) :
    emitted counter ((accountOf cid).step account view).2 +
        held counter ((accountOf cid).step account view).1.accumulator =
      held counter account.accumulator + worth counter view.items := by
  cases view with
  | ingest first rest =>
    show 0 + held counter (some _) = _
    rw [zero_add]
    exact get_ingestAll counter (first :: rest) (account.accumulator.getD {})
  | tick time nonzero answer =>
    cases found : account.accumulator with
    | none =>
      rw [Account.step_tick_none found]
      simp [emitted, worth, View.items, found]
    | some ac =>
      rw [Account.step_tick_some found]
      simp [emitted, held, worth, View.items, get_finalize, get_reset]

/-- The account that nothing has been ingested for. -/
def Account.new (window : Duration) : Account := ⟨window, none, 0⟩

/-- Lists of things ingested are worth what their parts are. -/
theorem worth_append (counter : Counter) (first second : List Ingest) :
    worth counter (first ++ second) = worth counter first + worth counter second := by
  rw [worth, List.map_append, List.sum_append]
  rfl

/-- In every run of an account, what it has emitted and what it holds is what was ingested. -/
theorem account_conserves (cid : GoString) (window : Duration) (counter : Counter)
    (views : List View) :
    emitted counter ((accountOf cid).outputs (.new window) views) +
        held counter ((accountOf cid).final (.new window) views).accumulator =
      worth counter (views.flatMap View.items) := by
  induction views using List.reverseRecOn with
  | nil =>
    cases counter with
    | sys field => cases field <;> rfl
    | _ => rfl
  | append_singleton views view ih =>
    have step := account_step_conserves cid counter
      ((accountOf cid).final (.new window) views) view
    rw [Machine.outputs_snoc, Machine.final_snoc, List.flatMap_append, worth_append, ← ih,
      emitted, List.map_append, List.sum_append, add_assoc]
    have single : [view].flatMap View.items = view.items := List.append_nil _
    rw [single, add_assoc, ← step]
    rfl

/-- An account has an accumulator once something was ingested. -/
theorem account_exists (cid : GoString) (window : Duration) (views : List View) :
    ((accountOf cid).final (.new window) views).accumulator.isSome ↔
      views.flatMap View.items ≠ [] := by
  induction views using List.reverseRecOn with
  | nil => simp [Account.new]
  | append_singleton views view ih =>
    rw [Machine.final_snoc, List.flatMap_append]
    cases view with
    | ingest first rest =>
      have ingested : ((accountOf cid).step ((accountOf cid).final (.new window) views)
        (.ingest first rest)).1.accumulator.isSome := rfl
      simp [ingested, View.items]
    | tick time nonzero answer =>
      have quiet : [View.tick time nonzero answer].flatMap View.items = [] := rfl
      rw [quiet, List.append_nil, ← ih]
      cases found : ((accountOf cid).final (.new window) views).accumulator with
      | none => simp [Account.step_tick_none found, found]
      | some ac => simp [Account.step_tick_some found]

/-- The windows of an account follow one another, and the current one follows the last. -/
theorem account_adjacent (cid : GoString) (window : Duration) (views : List View) :
    ((accountOf cid).outputs (.new window) views).IsChain
        (fun v later => later.windowStart = v.windowEnd) ∧
      ∀ v ∈ ((accountOf cid).outputs (.new window) views).getLast?,
        ((accountOf cid).final (.new window) views).accumulator.isSome ∧
        ((accountOf cid).final (.new window) views).windowStart = v.windowEnd ∧
        v.windowEnd ≠ 0 := by
  induction views using List.reverseRecOn with
  | nil => simp [Machine.outputs]
  | append_singleton views view ih =>
    obtain ⟨chain, last⟩ := ih
    rw [Machine.outputs_snoc, Machine.final_snoc]
    cases view with
    | ingest first rest =>
      have silent : ((accountOf cid).step ((accountOf cid).final (.new window) views)
        (.ingest first rest)).2 = [] := rfl
      rw [silent, List.append_nil]
      exact ⟨chain, fun v isLast => ⟨rfl, (last v isLast).2⟩⟩
    | tick time nonzero answer =>
      cases found : ((accountOf cid).final (.new window) views).accumulator with
      | none =>
        rw [Account.step_tick_none found, List.append_nil]
        refine ⟨chain, fun v isLast => ?_⟩
        -- Without an accumulator there has been no vector.
        have present := (last v isLast).1
        rw [found] at present
        cases present
      | some ac =>
        rw [Account.step_tick_some found]
        constructor
        · apply chain.append (List.isChain_singleton _)
          intro v isLast later isNext
          obtain ⟨_, follows, nonzero⟩ := last v isLast
          obtain rfl := Option.some.inj isNext
          rw [(ac.finalize_bounds _ _ _ _).1, Account.opened, follows, if_neg nonzero]
        · intro v isLast
          rw [List.getLast?_concat, Option.mem_some_iff] at isLast
          rw [← isLast, (ac.finalize_bounds _ _ _ _).2]
          exact ⟨rfl, rfl, nonzero⟩

/-- The laws of a run of the aggregator. -/
structure Windowed (window : Duration) (inputs : List Input) : Prop where
  /-- For every container and every additive counter, what was emitted and what the accumulator
  holds is what was ingested, modulo 2^64. -/
  conserved : ∀ cid counter,
    emitted counter ((aggregator.outputs (.new window) inputs).filter
        fun v => v.containerID = cid) +
      held counter ((aggregator.final (.new window) inputs).acc.lookup cid) =
    worth counter (inputs.flatMap (Input.own cid))
  /-- Runs that a container sees alike emit the same vectors for it. -/
  isolated : ∀ cid other, other.filterMap (Input.view cid) = inputs.filterMap (Input.view cid) →
    (aggregator.outputs (.new window) other).filter (fun v => v.containerID = cid) =
      (aggregator.outputs (.new window) inputs).filter fun v => v.containerID = cid
  /-- A tick emits one vector for each container that anything was ingested for, and no other. -/
  single : ∀ past tick rest, inputs = past ++ .tick tick :: rest → ∀ cid,
    ((aggregator.step (aggregator.final (.new window) past) (.tick tick)).2.filter
      fun v => v.containerID = cid).length =
        if past.flatMap (Input.own cid) = [] then 0 else 1
  /-- The vectors of a tick have the same bounds. -/
  bounded : ∀ past tick rest, inputs = past ++ .tick tick :: rest → ∃ windowStart,
    ∀ v ∈ (aggregator.step (aggregator.final (.new window) past) (.tick tick)).2,
      v.windowStart = windowStart ∧ v.windowEnd = tick.time
  /-- The windows of a container follow one another. -/
  adjacent : ∀ cid,
    ((aggregator.outputs (.new window) inputs).filter fun v => v.containerID = cid).IsChain
      fun v later => later.windowStart = v.windowEnd

/-- What a container is given is what it sees ingested. -/
theorem flatMap_own (cid : GoString) (inputs : List Input) :
    (inputs.filterMap (Input.view cid)).flatMap View.items = inputs.flatMap (Input.own cid) := by
  have single : ∀ input : Input,
      (input.view cid).toList.flatMap View.items = input.own cid := by
    intro input
    by_cases ticks : ∃ closing, input = .tick closing
    · obtain ⟨closing, rfl⟩ := ticks
      rfl
    · rw [Input.view_of_quiet (not_exists.mp ticks)]
      cases items : input.own cid with
      | nil => rfl
      | cons first rest => simp [View.items]
  induction inputs with
  | nil => rfl
  | cons input inputs ih =>
    rw [List.flatMap_cons, ← ih, ← single input]
    cases viewed : input.view cid with
    | none => rw [List.filterMap_cons_none viewed]; rfl
    | some view => rw [List.filterMap_cons_some viewed]; simp

/-- A container's part of a run is the run of its account. -/
theorem run_account (cid : GoString) (window : Duration) (inputs : List Input) :
    (aggregator.final (.new window) inputs).account cid =
        (accountOf cid).final (.new window) (inputs.filterMap (Input.view cid)) ∧
      (aggregator.outputs (.new window) inputs).filter (fun v => v.containerID = cid) =
        (accountOf cid).outputs (.new window) (inputs.filterMap (Input.view cid)) :=
  (aggregator_hasPart cid).run _ (.new window) inputs

/-- The vectors of a tick for one container. -/
theorem tick_account (cid : GoString) (window : Duration) (past : List Input) (tick : Tick) :
    (aggregator.step (aggregator.final (.new window) past) (.tick tick)).2.filter
        (fun v => v.containerID = cid) =
      ((accountOf cid).step
        ((accountOf cid).final (.new window) (past.filterMap (Input.view cid)))
        (.tick tick.time tick.nonzero (tick.resolveName.map (· cid)))).2 := by
  rw [← (run_account cid window past).1]
  exact ((aggregator_hasPart cid).step _ (.tick tick) _ rfl).2

/-- Every run of the aggregator obeys the laws of windows. -/
theorem windowed (window : Duration) (inputs : List Input) : Windowed window inputs := by
  constructor
  · intro cid counter
    obtain ⟨reached, emits⟩ := run_account cid window inputs
    have accumulator : (aggregator.final (.new window) inputs).acc.lookup cid =
        ((aggregator.final (.new window) inputs).account cid).accumulator := rfl
    rw [emits, accumulator, reached, ← flatMap_own]
    exact account_conserves cid window counter _
  · intro cid other alike
    rw [(run_account cid window other).2, (run_account cid window inputs).2, alike]
  · intro past tick rest _ cid
    have present := account_exists cid window (past.filterMap (Input.view cid))
    rw [flatMap_own] at present
    rw [tick_account]
    cases found : ((accountOf cid).final (.new window)
        (past.filterMap (Input.view cid))).accumulator with
    | none =>
      have nothing : past.flatMap (Input.own cid) = [] := by simpa [found] using present
      rw [Account.step_tick_none found, if_pos nothing]
      rfl
    | some ac =>
      have something : past.flatMap (Input.own cid) ≠ [] := by simpa [found] using present
      rw [Account.step_tick_some found, if_neg something]
      rfl
  · intro past tick rest _
    refine ⟨((aggregator.final (.new window) past).account []).opened tick.time, ?_⟩
    intro v sent
    have own : v ∈ (aggregator.step (aggregator.final (.new window) past) (.tick tick)).2.filter
        fun other => other.containerID = v.containerID :=
      List.mem_filter.mpr ⟨sent, by simp⟩
    rw [tick_account, ← (run_account v.containerID window past).1] at own
    cases found : ((aggregator.final (.new window) past).account v.containerID).accumulator with
    | none =>
      rw [Account.step_tick_none found] at own
      cases own
    | some ac =>
      rw [Account.step_tick_some found] at own
      rw [List.mem_singleton.mp own]
      exact ac.finalize_bounds _ _ _ _
  · intro cid
    rw [(run_account cid window inputs).2]
    exact (account_adjacent cid window _).1

end ContainerAnomaly.Feature
