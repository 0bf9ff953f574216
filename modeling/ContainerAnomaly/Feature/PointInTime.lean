import ContainerAnomaly.Feature.FirstSample
import ContainerAnomaly.Lib.Register

/-!
# Point-in-time fields

Some fields of a vector are not deltas: each sample overwrites them with a value of its own. To
each container such a field is a register that the tick clears with all the others
(`Overwritten.isRegister`), so a vector shows the last sample of its window and a blank when the
window has none (`Overwritten.sent`). Memory and pressure are those of the latest sample exactly
when every window has one or the latest shows nothing (`shows_latest_iff`).
-/

namespace ContainerAnomaly.Feature

open Lib

/-- A field of a vector that samples overwrite, and nothing else but the reset changes. -/
structure Overwritten (β : Type) where
  /-- The field. -/
  shown : Vector → β
  /-- What a sample writes into it, if anything. -/
  written : Cgroup.Stats → Option β
  /-- A sample overwrites the field when it writes it. -/
  sampled : ∀ name image s ac,
    shown (Accumulator.setCgroup name image s ac).v = (written s).getD (shown ac.v)
  /-- Nothing else that is ingested changes it. -/
  unsampled : ∀ (item : Ingest) ac, item.sample = none →
    shown (Accumulator.ingest item ac).v = shown ac.v
  /-- Nor does what a tick writes into the vector. -/
  bounded : ∀ (v : Vector) windowStart windowEnd cid name image,
    shown { v with
      windowStart := windowStart
      windowEnd := windowEnd
      containerID := cid
      name := name
      image := image } = shown v

/-- `CgroupMemCurrentMB`. -/
def memCurrent : Overwritten UInt64 where
  shown := Vector.cgroupMemCurrentMB
  written s := some (s.memory.current / 1024 / 1024)
  sampled _ _ _ _ := rfl
  unsampled item _ other := by cases item <;> first | rfl | cases other
  bounded _ _ _ _ _ _ := rfl

/-- `CgroupMemPressure`. -/
def memPressure : Overwritten Float where
  shown := Vector.cgroupMemPressure
  written s := some s.memory.pressure.some.avg10
  sampled _ _ _ _ := rfl
  unsampled item _ other := by cases item <;> first | rfl | cases other
  bounded _ _ _ _ _ _ := rfl

/-- Ticks. -/
def Input.isTick : Input → Bool
  | .tick _ => true
  | _ => false

/-- The inputs of the current window. -/
def sinceTick (inputs : List Input) : List Input := sinceLast Input.isTick inputs

/-- Only a tick is one. -/
theorem Input.isTick_iff (input : Input) : input.isTick = true ↔ ∃ tick, input = .tick tick := by
  cases input <;> simp [isTick]

namespace Overwritten

variable {β : Type} (field : Overwritten β) (cid : GoString)

/-- What is ingested leaves the field as the last sample has written it. -/
theorem shown_foldl (items : List Ingest) (ac : Accumulator) :
    field.shown (items.foldl (fun ac item => ac.ingest item) ac).v =
      ((samples items).filterMap field.written).getLast?.getD (field.shown ac.v) := by
  have written : ∀ (ac : Accumulator) (item : Ingest),
      field.shown (ac.ingest item).v =
        (item.sample.bind field.written).getD (field.shown ac.v) := by
    intro ac item
    cases sample : item.sample with
    | none => exact field.unsampled item ac sample
    | some s =>
      cases item with
      | cgroup name image stats =>
        obtain rfl := Option.some.inj sample
        exact field.sampled name image stats ac
      | _ => cases sample
  have last := foldl_overwrite (fun ac : Accumulator => field.shown ac.v)
    (fun item : Ingest => item.sample.bind field.written) (fun ac item => ac.ingest item) written
    items ac
  rw [samples, List.filterMap_filterMap]
  exact last

/-- The field of a container in an aggregator. -/
def register (a : Aggregator) : β := field.shown ((a.acc.lookup cid).getD {}).v

/-- A vector carries the field of its accumulator. -/
theorem shown_finalize (ac : Accumulator) (windowStart windowEnd : Time)
    (answer : Option (GoString × GoString)) :
    field.shown (ac.finalize windowStart windowEnd cid answer) = field.shown ac.v := by
  obtain ⟨name, image, named⟩ := ac.finalize_eq windowStart windowEnd cid answer
  rw [named, field.bounded]

/-- An accumulator that was finalized shows what a new one does. -/
theorem shown_reset (ac : Accumulator) (v : Vector) :
    field.shown (ac.reset v).v = field.shown {} :=
  field.bounded {} 0 0 [] v.name v.image

/-- To a container, an overwritten field is a register that ticks clear. -/
theorem isRegister :
    aggregator.IsRegister (field.register cid) (field.shown {}) Input.isTick
      (fun input => (samples (input.own cid)).filterMap field.written) := by
  constructor
  · intro a input ticks
    obtain ⟨closing, rfl⟩ := input.isTick_iff.mp ticks
    have left : (a.tick closing).1.acc.lookup cid = _ :=
      congrArg Account.accumulator (a.account_tick cid closing).1
    show field.shown (((a.tick closing).1.acc.lookup cid).getD {}).v = field.shown {}
    rw [left]
    cases found : a.acc.lookup cid with
    | none =>
      have absent : (a.account cid).accumulator = none := found
      rw [Account.step_tick_none absent, absent]
      rfl
    | some ac =>
      have present : (a.account cid).accumulator = some ac := found
      rw [Account.step_tick_some present]
      exact field.shown_reset ac _
  · intro a input quiet
    have silent : ∀ tick, input ≠ .tick tick := by
      rintro tick rfl
      cases quiet
    show field.shown (((a.step input).1.acc.lookup cid).getD {}).v = _
    rw [a.step_ingests input silent, accumulator_ingest]
    exact field.shown_foldl (input.own cid) _

/-- Between two ticks the register shows what the last sample has written. -/
theorem final_register (window : Duration) (inputs : List Input) :
    field.register cid (aggregator.final (.new window) inputs) =
      ((samplesOf cid (sinceTick inputs)).filterMap field.written).getLast?.getD
        (field.shown {}) := by
  have fresh : field.register cid (.new window) = field.shown {} := rfl
  rw [Machine.final_register (field.isRegister cid) fresh]
  simp only [samplesOf, samples, sinceTick, List.filterMap_flatMap]

end Overwritten

/-- The vector of a container that has been sampled shows in every overwritten field what the last
sample of the window has written. -/
theorem overwritten_sent (window : Duration) (cid : GoString) (past : List Input) (closing : Tick)
    (sampled : samplesOf cid past ≠ []) :
    ∃ v, (aggregator.step (aggregator.final (.new window) past) (.tick closing)).2.filter
        (fun v => v.containerID = cid) = [v] ∧
      ∀ {β : Type} (field : Overwritten β), field.shown v =
        ((samplesOf cid (sinceTick past)).filterMap field.written).getLast?.getD
          (field.shown {}) := by
  have present : ((accountOf cid).final (.new window)
      (past.filterMap (Input.view cid))).accumulator.isSome := by
    rw [account_exists, flatMap_own]
    intro nothing
    exact sampled (by rw [samplesOf, nothing]; rfl)
  obtain ⟨ac, found⟩ := Option.isSome_iff_exists.mp present
  have stored : (aggregator.final (.new window) past).acc.lookup cid = some ac := by
    rw [← found, ← (run_account cid window past).1]
    rfl
  rw [tick_account, Account.step_tick_some found]
  refine ⟨_, rfl, fun field => ?_⟩
  rw [field.shown_finalize cid, ← field.final_register cid window, Overwritten.register, stored]
  rfl

/-- At every tick of a run, the vector of each container sampled so far carries the memory and the
pressure of its latest sample. -/
def ShowsLatest (window : Duration) (inputs : List Input) : Prop :=
  ∀ cid past closing rest, inputs = past ++ .tick closing :: rest →
    ∀ s, (samplesOf cid past).getLast? = some s →
      ∃ v, (aggregator.step (aggregator.final (.new window) past) (.tick closing)).2.filter
          (fun v => v.containerID = cid) = [v] ∧
        v.cgroupMemCurrentMB = s.memory.current / 1024 / 1024 ∧
        v.cgroupMemPressure = s.memory.pressure.some.avg10

/-- A latest sample is in the current window, or there is none in it. -/
theorem latest_sinceTick {cid : GoString} {past : List Input} {s : Cgroup.Stats}
    (sampled : (samplesOf cid past).getLast? = some s)
    (some_later : samplesOf cid (sinceTick past) ≠ []) :
    (samplesOf cid (sinceTick past)).getLast? = some s := by
  obtain ⟨before, split⟩ := sinceLast_suffix Input.isTick past
  obtain ⟨last, ends⟩ := List.getLast?_isSome.mpr some_later |> Option.isSome_iff_exists.mp
  have whole : samplesOf cid past = samplesOf cid before ++ samplesOf cid (sinceTick past) := by
    conv_lhs => rw [← split]
    rw [samplesOf, List.flatMap_append, samples_append]
    rfl
  rw [whole, List.getLast?_append, ends] at sampled
  exact ends.trans sampled

/-- In every run, the vectors carry the memory and the pressure of the latest sample exactly when
at every tick each container sampled so far has a sample in the window, or its latest one shows
neither a mebibyte nor any pressure. -/
theorem shows_latest_iff (window : Duration) (inputs : List Input) :
    ShowsLatest window inputs ↔
      ∀ cid past closing rest, inputs = past ++ .tick closing :: rest →
        ∀ s, (samplesOf cid past).getLast? = some s →
          samplesOf cid (sinceTick past) ≠ [] ∨
            s.memory.current / 1024 / 1024 = 0 ∧ s.memory.pressure.some.avg10 = 0 := by
  refine forall₅_congr fun cid past closing rest split => forall₂_congr fun s sampled => ?_
  have nonempty : samplesOf cid past ≠ [] := by
    intro nothing
    rw [nothing] at sampled
    cases sampled
  obtain ⟨v, sent, shows⟩ := overwritten_sent window cid past closing nonempty
  have memory := shows memCurrent
  have pressure := shows memPressure
  rw [sent]
  by_cases quiet : samplesOf cid (sinceTick past) = []
  · -- Nothing was written since the tick that cleared both fields.
    rw [quiet] at memory pressure
    constructor
    · rintro ⟨other, same, showsMemory, showsPressure⟩
      obtain rfl := (List.cons.inj same).1
      exact .inr ⟨showsMemory.symm.trans memory, showsPressure.symm.trans pressure⟩
    · rintro (later | ⟨noMemory, noPressure⟩)
      · exact absurd quiet later
      · exact ⟨v, rfl, memory.trans noMemory.symm, pressure.trans noPressure.symm⟩
  · have last := latest_sinceTick sampled quiet
    obtain ⟨earlier, ends⟩ := List.getLast?_eq_some_iff.mp last
    rw [ends, List.filterMap_append] at memory pressure
    refine iff_of_true ⟨v, rfl, memory.trans ?_, pressure.trans ?_⟩ (.inl quiet)
    · simp [memCurrent]
    · simp [memPressure]

/-- A container that uses 1024 MB is sampled before the first window closes and not in the next:
the second vector shows 0 MB. -/
theorem no_sample_no_memory :
    ¬ ShowsLatest 30 [.cgroup (lit "a") [] [] { memory := { current := 1073741824 } },
      .tick (tickAt 30 (by decide)), .tick (tickAt 60 (by decide))] := by
  intro shows
  obtain ⟨v, sent, memory, _⟩ := shows (lit "a")
    [.cgroup (lit "a") [] [] { memory := { current := 1073741824 } },
      .tick (tickAt 30 (by decide))] (tickAt 60 (by decide)) [] rfl _ rfl
  have blank : ((aggregator.step (aggregator.final (.new 30)
      [.cgroup (lit "a") [] [] { memory := { current := 1073741824 } },
        .tick (tickAt 30 (by decide))]) (.tick (tickAt 60 (by decide)))).2.filter
      fun v => v.containerID = lit "a").map Vector.cgroupMemCurrentMB = [0] := by decide
  rw [sent, List.map_singleton, memory] at blank
  exact absurd blank (by decide)

end ContainerAnomaly.Feature
