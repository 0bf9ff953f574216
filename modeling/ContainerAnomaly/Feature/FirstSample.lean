import ContainerAnomaly.Feature.Deltas

/-!
# The first sample of a container

`IngestCgroup` compares the first sample of a container with counters of zero, so the growth before
the agent saw the container is charged to the window of that sample. To each container each of the
three fields is a gauge of differences (`dial_run`), and what the vectors carry stays within what
the samples have risen by exactly when the first sample is covered (`never_overcharged_iff`).
-/

namespace ContainerAnomaly.Feature

open Lib DeltaGauge

variable (field : Gauge) (cid : GoString)

/-- A field of an accumulator as a gauge. -/
def Gauge.dial (ac : Accumulator) : DeltaGauge :=
  ⟨(field.prev ac).toNat, (field.delta ac.v).toNat⟩

/-- The field of a container in an aggregator. -/
def Aggregator.dial (a : Aggregator) : DeltaGauge := field.dial ((a.acc.lookup cid).getD {})

/-- What an input is to a field of a container. -/
def Input.reading : Input → Option Reading
  | .tick _ => some .tick
  | .cgroup other _ _ s => if other = cid then some (.sample (field.total s).toNat) else none
  | _ => none

/-- What the vectors of a container carry in a field. -/
def carried (vectors : List Vector) : Nat :=
  ((vectors.filter fun v => v.containerID = cid).map fun v => (field.delta v).toNat).sum

/-- A sample is a sample of the gauge. -/
theorem dial_setCgroup (name image : GoString) (s : Cgroup.Stats) (ac : Accumulator) :
    field.dial (ac.setCgroup name image s) =
      (field.dial ac).take field.unit.toNat (field.total s).toNat := by
  rw [Gauge.dial, Gauge.delta_setCgroup, Gauge.prev_setCgroup, take, Gauge.dial]
  by_cases risen : field.prev ac ≤ field.total s
  · rw [if_pos risen, if_pos (UInt64.le_iff_toNat_le.mp risen), UInt64.toNat_div,
      UInt64.toNat_sub_of_le _ _ risen]
  · rw [if_neg risen, if_neg (UInt64.le_iff_toNat_le.not.mp risen)]

/-- Of what is ingested, only the samples move a gauge. -/
theorem dial_foldl (items : List Ingest) (ac : Accumulator) :
    field.dial (items.foldl (fun ac item => ac.ingest item) ac) =
      (samples items).foldl (fun dial s => dial.take field.unit.toNat (field.total s).toNat)
        (field.dial ac) := by
  induction items generalizing ac with
  | nil => rfl
  | cons item items ih =>
    rw [List.foldl_cons, ih]
    cases item with
    | cgroup name image s =>
      have moved := dial_setCgroup field name image s ac
      rw [Accumulator.ingest, moved]
      rfl
    | exit crash => cases field <;> rfl
    | tcp row => cases field <;> rfl
    | cpu row => cases field <;> rfl
    | syscalls row => cases field <;> rfl

/-- Only a tick is a tick of the gauge. -/
theorem reading_tick {input : Input} (seen : input.reading field cid = some .tick) :
    ∃ closing, input = .tick closing := by
  cases input with
  | tick closing => exact ⟨closing, rfl⟩
  | cgroup other name image s =>
    by_cases same : other = cid <;> simp [Input.reading, same] at seen
  | _ => cases seen

/-- Only a sample of the container is a sample of the gauge. -/
theorem reading_sample {input : Input} {total : Nat}
    (seen : input.reading field cid = some (.sample total)) :
    ∃ name image s, input = .cgroup cid name image s ∧ (field.total s).toNat = total := by
  cases input with
  | cgroup other name image s =>
    by_cases same : other = cid
    · subst same
      exact ⟨name, image, s, rfl, by simpa [Input.reading] using seen⟩
    · simp [Input.reading, same] at seen
  | tick closing => simp [Input.reading] at seen
  | _ => cases seen

/-- The samples of a container in an input that is no tick. -/
theorem samples_own (input : Input) (quiet : ∀ tick, input ≠ .tick tick) :
    (samples (input.own cid)).map (fun s => Reading.sample (field.total s).toNat) =
      (input.reading field cid).toList := by
  have silent {α : Type} (rows : List α) (keyOf : α → GoString) (item : α → Ingest)
      (other : ∀ row, (item row).sample = none) :
      samples (((rows.map fun row => (keyOf row, item row)).filter fun entry =>
        entry.1 = cid).map Prod.snd) = [] := by
    rw [samples, List.filterMap_eq_nil_iff]
    intro found inside
    obtain ⟨entry, kept, rfl⟩ := List.mem_map.mp inside
    obtain ⟨row, _, rfl⟩ := List.mem_map.mp (List.mem_filter.mp kept).1
    exact other row
  cases input with
  | tick tick => exact absurd rfl (quiet tick)
  | cgroup other name image s =>
    by_cases same : other = cid <;>
      simp [Input.own, Input.ingests, Input.reading, samples, Ingest.sample, same]
  | exit containerID crash =>
    have nothing := silent [()] (fun _ => containerID) (fun _ => .exit crash) fun _ => rfl
    exact congrArg (List.map _) nothing
  | tcp rows => exact congrArg (List.map _) (silent rows _ .tcp fun _ => rfl)
  | cpu rows => exact congrArg (List.map _) (silent rows _ .cpu fun _ => rfl)
  | syscalls rows => exact congrArg (List.map _) (silent rows _ .syscalls fun _ => rfl)

/-- What is ingested goes into the accumulator of its container. -/
theorem accumulator_ingest (a : Aggregator) (items : List (GoString × Ingest)) :
    ((items.foldl (fun a item => a.change item.1 (.ingest item.2)) a).acc.lookup cid).getD {} =
      ((items.filter fun item => item.1 = cid).map Prod.snd).foldl
        (fun ac item => ac.ingest item) ((a.acc.lookup cid).getD {}) := by
  have changed := congrArg Account.accumulator (a.account_ingest cid items)
  have stored : (items.foldl (fun a item => a.change item.1 (.ingest item.2)) a).acc.lookup cid =
    _ := changed
  rw [stored]
  cases (items.filter fun item => item.1 = cid).map Prod.snd with
  | nil => rfl
  | cons first rest => rfl

/-- Samples move the gauge and nothing is read. -/
theorem gauge_samples (unit : Nat) (totals : List Nat) (dial : DeltaGauge) :
    totals.foldl (fun dial total => dial.take unit total) dial =
      (DeltaGauge.gauge unit).final dial (totals.map .sample) ∧
    ((DeltaGauge.gauge unit).outputs dial (totals.map .sample)).sum = 0 := by
  induction totals generalizing dial with
  | nil => exact ⟨rfl, rfl⟩
  | cons total totals ih =>
    obtain ⟨same, none_read⟩ := ih (dial.take unit total)
    rw [List.map_cons, Machine.outputs_cons, List.foldl_cons, same]
    exact ⟨rfl, none_read⟩

/-- A tick reads the field of a container and clears it. -/
theorem dial_tick (a : Aggregator) (closing : Tick) :
    (a.tick closing).1.dial field cid = { a.dial field cid with shown := 0 } ∧
      carried field cid (a.tick closing).2 = (a.dial field cid).shown := by
  obtain ⟨account, vectors⟩ := a.account_tick cid closing
  have left : (a.tick closing).1.acc.lookup cid = _ := congrArg Account.accumulator account
  rw [carried, vectors, Aggregator.dial, left, Aggregator.dial]
  cases found : a.acc.lookup cid with
  | none =>
    have absent : (a.account cid).accumulator = none := found
    rw [Account.step_tick_none absent, absent]
    cases field <;> exact ⟨rfl, rfl⟩
  | some ac =>
    have present : (a.account cid).accumulator = some ac := found
    rw [Account.step_tick_some present]
    obtain ⟨cleared, kept⟩ := gauge_reset field ac
      (ac.finalize ((a.account cid).opened closing.time) closing.time cid
        (closing.resolveName.map (· cid)))
    refine ⟨?_, ?_⟩
    · dsimp only [Option.getD_some]
      rw [Gauge.dial, cleared, kept]
      rfl
    · simp [delta_finalize, Gauge.dial]

/-- Any other input gives the field of a container its samples. -/
theorem dial_ingests (a : Aggregator) (input : Input) (quiet : ∀ tick, input ≠ .tick tick) :
    (a.step input).1.dial field cid =
      ((samples (input.own cid)).map fun s => (field.total s).toNat).foldl
        (fun dial total => dial.take field.unit.toNat total) (a.dial field cid) := by
  rw [a.step_ingests input quiet, Aggregator.dial, accumulator_ingest]
  exact (dial_foldl field (input.own cid) _).trans List.foldl_map.symm

/-- To a field of a container, a step is the reading it sees, if any. -/
theorem dial_step (a : Aggregator) (input : Input) :
    let seen := (input.reading field cid).toList
    let gauge := DeltaGauge.gauge field.unit.toNat
    (a.step input).1.dial field cid = gauge.final (a.dial field cid) seen ∧
      carried field cid (a.step input).2 = (gauge.outputs (a.dial field cid) seen).sum := by
  by_cases ticks : ∃ closing, input = .tick closing
  · obtain ⟨closing, rfl⟩ := ticks
    obtain ⟨cleared, read⟩ := dial_tick field cid a closing
    exact ⟨cleared, read⟩
  · have quiet := not_exists.mp ticks
    have sent : (a.step input).2 = [] := by rw [a.step_ingests input quiet]
    intro seen gauge
    obtain ⟨same, none_read⟩ := gauge_samples field.unit.toNat
      ((samples (input.own cid)).map fun s => (field.total s).toNat) (a.dial field cid)
    have readings : _ = seen := samples_own field cid input quiet
    rw [List.map_map, Function.comp_def, readings] at same none_read
    rw [dial_ingests field cid a input quiet, sent, same, none_read]
    exact ⟨rfl, rfl⟩

/-- What a field of a container sees of a run. -/
def readings (inputs : List Input) : List Reading := inputs.filterMap (Input.reading field cid)

/-- In a run from any state, a field of a container is a gauge, and its vectors carry what ticks
read. -/
theorem dial_run_from (a : Aggregator) (inputs : List Input) :
    (aggregator.final a inputs).dial field cid =
      (DeltaGauge.gauge field.unit.toNat).final (a.dial field cid) (readings field cid inputs) ∧
    carried field cid (aggregator.outputs a inputs) =
      ((DeltaGauge.gauge field.unit.toNat).outputs (a.dial field cid)
        (readings field cid inputs)).sum := by
  induction inputs using List.reverseRecOn with
  | nil => exact ⟨rfl, rfl⟩
  | append_singleton inputs input ih =>
    obtain ⟨state, read⟩ := ih
    obtain ⟨next, sent⟩ := dial_step field cid (aggregator.final a inputs) input
    have last : readings field cid (inputs ++ [input]) =
        readings field cid inputs ++ (input.reading field cid).toList := by
      rw [readings, List.filterMap_append]
      cases seen : input.reading field cid <;> simp [readings, seen]
    have more : carried field cid (aggregator.outputs a (inputs ++ [input])) =
        carried field cid (aggregator.outputs a inputs) +
          carried field cid ((aggregator.final a inputs).step input).2 := by
      rw [Machine.outputs_snoc, carried, List.filter_append, List.map_append, List.sum_append]
      rfl
    rw [more, read, sent, Machine.final_snoc, last, Machine.final_append,
      Machine.outputs_append, List.sum_append, ← state]
    exact ⟨next, rfl⟩

/-- In every run, a field of a container is a gauge, and its vectors carry what ticks read. -/
theorem dial_run (window : Duration) (inputs : List Input) :
    (aggregator.final (.new window) inputs).dial field cid =
      (DeltaGauge.gauge field.unit.toNat).final .blank (readings field cid inputs) ∧
    carried field cid (aggregator.outputs (.new window) inputs) =
      readOut field.unit.toNat (readings field cid inputs) := by
  have fresh : (Aggregator.new window).dial field cid = .blank := by cases field <;> rfl
  rw [readOut, ← fresh]
  exact dial_run_from field cid (.new window) inputs

/-- The totals that a field sees are those of the samples. -/
theorem totals_readings (inputs : List Input) :
    totals (readings field cid inputs) =
      (samplesOf cid inputs).map fun s => (field.total s).toNat := by
  induction inputs with
  | nil => rfl
  | cons input inputs ih =>
    have own : ((input.reading field cid).toList).filterMap Reading.total =
        (samples (input.own cid)).map fun s => (field.total s).toNat := by
      by_cases ticks : ∃ closing, input = .tick closing
      · obtain ⟨closing, rfl⟩ := ticks
        rfl
      · rw [← samples_own field cid input (not_exists.mp ticks), List.filterMap_map,
          ← List.filterMap_eq_map]
        rfl
    have first : readings field cid (input :: inputs) =
        (input.reading field cid).toList ++ readings field cid inputs := by
      cases seen : input.reading field cid <;> simp [readings, seen]
    rw [first, totals_append, ih, totals, own, samplesOf, samplesOf, List.flatMap_cons,
      samples_append, List.map_append]

/-- A field sees a tick exactly at a tick. -/
theorem tick_mem_readings (inputs : List Input) :
    .tick ∈ readings field cid inputs ↔ ∃ closing, .tick closing ∈ inputs := by
  constructor
  · intro inside
    obtain ⟨input, member, seen⟩ := List.mem_filterMap.mp inside
    obtain ⟨closing, rfl⟩ := reading_tick field cid seen
    exact ⟨closing, member⟩
  · rintro ⟨closing, member⟩
    exact List.mem_filterMap.mpr ⟨.tick closing, member, rfl⟩

/-- A field sees no sample exactly when the container has none. -/
theorem totals_readings_nil (inputs : List Input) :
    totals (readings field cid inputs) = [] ↔ samplesOf cid inputs = [] := by
  rw [totals_readings, List.map_eq_nil_iff]

/-- That the bound holds at any moment of a run is that it holds at any moment of what the field
sees. -/
theorem bounds_readings (window : Duration) (inputs : List Input) :
    (∀ past, past <+: inputs →
      carried field cid (aggregator.outputs (.new window) past) * field.unit.toNat ≤
        growth ((samplesOf cid past).map fun s => (field.total s).toNat)) ↔
      ∀ past, past <+: readings field cid inputs →
        readOut field.unit.toNat past * field.unit.toNat ≤ growth (totals past) := by
  constructor
  · rintro never past ⟨rest, split⟩
    obtain ⟨early, late, rfl, rfl, _⟩ := List.filterMap_eq_append_iff.mp split.symm
    have bound := never early ⟨late, rfl⟩
    rw [(dial_run field cid window early).2, ← totals_readings] at bound
    exact bound
  · rintro never past ⟨rest, rfl⟩
    have bound := never (readings field cid past) ⟨readings field cid rest,
      List.filterMap_append.symm⟩
    rw [totals_readings] at bound
    rw [(dial_run field cid window past).2]
    exact bound

/-- When the first sample a field sees is covered. -/
theorem firstCovered_readings (unit : Nat) (inputs : List Input) :
    FirstCovered unit (readings field cid inputs) ↔
      ∀ before name image first between closing rest,
        inputs = before ++ .cgroup cid name image first :: (between ++ .tick closing :: rest) →
        samplesOf cid before = [] → (∀ tick, .tick tick ∉ between) →
        (field.total first).toNat < unit ∨
          ¬ ((first :: samplesOf cid between).map fun s => (field.total s).toNat).IsChain
            (· > ·) := by
  constructor
  · rintro covered before name image first between closing rest rfl none_yet noTick
    have quiet : Reading.tick ∉ readings field cid between := fun inside =>
      have ⟨tick, member⟩ := (tick_mem_readings field cid between).mp inside
      noTick tick member
    have first_covered := covered (readings field cid before) (field.total first).toNat
      (readings field cid between) (readings field cid rest)
      (by simp [readings, Input.reading])
      ((totals_readings_nil field cid before).mpr none_yet) quiet
    rw [totals_readings] at first_covered
    exact first_covered
  · intro covered before first between rest split none_yet noTick
    obtain ⟨early, input, late, rfl, rfl, opens, later⟩ := split_filterMap split
    obtain ⟨mid, ending, left, rfl, rfl, closes, _⟩ := split_filterMap later
    obtain ⟨name, image, s, rfl, rfl⟩ := reading_sample field cid opens
    obtain ⟨closing, rfl⟩ := reading_tick field cid closes
    have quiet : ∀ tick, .tick tick ∉ mid := fun tick member =>
      noTick ((tick_mem_readings field cid mid).mpr ⟨tick, member⟩)
    have whole := covered early name image s mid closing left rfl
      ((totals_readings_nil field cid early).mp none_yet) quiet
    rw [List.map_cons, ← totals_readings] at whole
    exact whole

/-- In every run, what the vectors of a container carry in a field never exceeds, at any moment,
what its samples have risen by from one to the next, exactly when the first sample shows less than
a unit, or one that has not fallen below the one before follows it before the next tick, or no tick
follows it. -/
theorem never_overcharged_iff (window : Duration) (inputs : List Input) :
    (∀ past, past <+: inputs →
      carried field cid (aggregator.outputs (.new window) past) * field.unit.toNat ≤
        growth ((samplesOf cid past).map fun s => (field.total s).toNat)) ↔
      ∀ before name image first between closing rest,
        inputs = before ++ .cgroup cid name image first :: (between ++ .tick closing :: rest) →
        samplesOf cid before = [] → (∀ tick, .tick tick ∉ between) →
        (field.total first).toNat < field.unit.toNat ∨
          ¬ ((first :: samplesOf cid between).map fun s => (field.total s).toNat).IsChain
            (· > ·) := by
  have positive : 0 < field.unit.toNat := by cases field <;> decide
  rw [bounds_readings, neverOver_iff field.unit.toNat positive (readings field cid inputs)]
  exact firstCovered_readings field cid field.unit.toNat inputs

/-- A container that has used 5 s of CPU time before its first sample is charged 5000 ms in the
window of that sample, though no sample has risen. -/
theorem first_sample_overcharged :
    carried .cpuUsage (lit "a") (aggregator.outputs (.new 30)
      [sampleOfA 5000000, .tick (tickAt 30 (by decide))]) = 5000 ∧
    ¬ ∀ past, past <+: [sampleOfA 5000000, .tick (tickAt 30 (by decide))] →
      carried .cpuUsage (lit "a") (aggregator.outputs (.new 30) past) * Gauge.cpuUsage.unit.toNat ≤
        growth ((samplesOf (lit "a") past).map fun s => (Gauge.cpuUsage.total s).toNat) := by
  refine ⟨by decide, fun never => ?_⟩
  exact absurd (never _ (List.prefix_refl _)) (by decide)

end ContainerAnomaly.Feature
