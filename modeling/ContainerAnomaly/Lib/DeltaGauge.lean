import ContainerAnomaly.Lib.Machine
import Mathlib.Algebra.BigOperators.Group.List.Basic
import Mathlib.Algebra.GroupWithZero.Nat
import Mathlib.Data.List.Chain

/-!
# Gauges of differences

A gauge shows how far a counter has risen from one sample to the next, in whole units, and is read
and cleared by ticks. A sample that has not fallen overwrites what the gauge shows; a lower one is
taken for a reset and only remembered. The first sample is compared with zero, so what the counter
has counted before it is shown as well. What is read never exceeds what the samples have risen by
exactly when that is less than a unit or is overwritten before a tick (`neverOver_iff`).
-/

namespace ContainerAnomaly.Lib

/-- An addend keeps a quotient exactly when it does not carry the remainder over. -/
theorem div_eq_add_div_iff (whole extra unit : Nat) (positive : 0 < unit) :
    whole / unit = (whole + extra) / unit ↔ whole % unit + extra < unit := by
  have split : whole + extra = unit * (whole / unit) + (whole % unit + extra) := by
    rw [← Nat.add_assoc, Nat.div_add_mod]
  rw [split, Nat.mul_add_div positive, ← Nat.div_eq_zero_iff_lt positive]
  omega

/-- The last sample and what is shown. -/
structure DeltaGauge where
  /-- The last sample. -/
  prev : Nat
  /-- What is shown. -/
  shown : Nat
deriving DecidableEq

namespace DeltaGauge

/-- What happens to a gauge. -/
inductive Reading where
  | sample (total : Nat)
  | tick
deriving DecidableEq

/-- A gauge without a sample. -/
def blank : DeltaGauge := ⟨0, 0⟩

/-- A sample, in units. -/
def take (unit : Nat) (gauge : DeltaGauge) (total : Nat) : DeltaGauge where
  prev := total
  shown := if gauge.prev ≤ total then (total - gauge.prev) / unit else gauge.shown

/-- Gauges as a machine, whose outputs are what ticks read. -/
def gauge (unit : Nat) : Machine DeltaGauge Reading Nat :=
  ⟨fun state reading =>
    match reading with
    | .sample total => (state.take unit total, [])
    | .tick => ({ state with shown := 0 }, [state.shown])⟩

/-- The total of a sample. -/
def Reading.total : Reading → Option Nat
  | .sample total => some total
  | .tick => none

/-- The totals of the samples. -/
def totals (readings : List Reading) : List Nat := readings.filterMap Reading.total

/-- What consecutive totals rise by. -/
def growth : List Nat → Nat
  | [] => 0
  | [_] => 0
  | earlier :: later :: rest => (later - earlier) + growth (later :: rest)

/-- What ticks have read in a run of a blank gauge. -/
def readOut (unit : Nat) (readings : List Reading) : Nat :=
  ((gauge unit).outputs .blank readings).sum

/-- The totals of two parts. -/
theorem totals_append (first second : List Reading) :
    totals (first ++ second) = totals first ++ totals second := List.filterMap_append

/-- A tick adds no total. -/
theorem totals_tick (readings : List Reading) : totals (readings ++ [.tick]) = totals readings := by
  rw [totals_append]
  exact List.append_nil _

/-- A sample adds its total. -/
theorem totals_sample (readings : List Reading) (total : Nat) :
    totals (readings ++ [.sample total]) = totals readings ++ [total] := by
  rw [totals_append]
  rfl

/-- A further total adds its rise over the last. -/
theorem growth_snoc (list : List Nat) (total : Nat) :
    growth (list ++ [total]) =
      growth list + (list.getLast?.map fun last => total - last).getD 0 := by
  induction list with
  | nil => rfl
  | cons first list ih =>
    cases list with
    | nil => simp [growth]
    | cons second list =>
      have rest : (first :: second :: list).getLast? = (second :: list).getLast? :=
        List.getLast?_cons_cons
      rw [List.cons_append] at ih
      rw [rest, List.cons_append, List.cons_append, growth, growth, ih, Nat.add_assoc]

/-- Falling totals do not grow. -/
theorem growth_of_falling (list : List Nat) (falling : list.IsChain (· > ·)) : growth list = 0 := by
  induction list with
  | nil => rfl
  | cons first list ih =>
    cases list with
    | nil => rfl
    | cons second list =>
      obtain ⟨below, rest⟩ := List.isChain_cons_cons.mp falling
      have none_risen : second - first = 0 := Nat.sub_eq_zero_of_le (Nat.le_of_lt below)
      rw [growth, ih rest, none_risen]

/-- A chain falls further by an element below its last. -/
theorem falling_snoc (list : List Nat) (last total : Nat) (ends : list.getLast? = some last) :
    (list ++ [total]).IsChain (· > ·) ↔ list.IsChain (· > ·) ∧ total < last := by
  rw [List.isChain_append]
  simp [ends]

variable (unit : Nat)

/-- What a sample does to a run. -/
theorem final_sample (readings : List Reading) (total : Nat) :
    (gauge unit).final .blank (readings ++ [.sample total]) =
      ((gauge unit).final .blank readings).take unit total ∧
    readOut unit (readings ++ [.sample total]) = readOut unit readings := by
  rw [readOut, Machine.final_snoc, Machine.outputs_snoc]
  exact ⟨rfl, by simp [gauge, readOut]⟩

/-- What a tick does to a run. -/
theorem final_tick (readings : List Reading) :
    (gauge unit).final .blank (readings ++ [.tick]) =
      { (gauge unit).final .blank readings with shown := 0 } ∧
    readOut unit (readings ++ [.tick]) =
      readOut unit readings + ((gauge unit).final .blank readings).shown := by
  rw [readOut, Machine.final_snoc, Machine.outputs_snoc]
  exact ⟨rfl, by simp [gauge, readOut]⟩

/-- A gauge remembers the last total. -/
theorem final_prev (readings : List Reading) :
    ((gauge unit).final .blank readings).prev = (totals readings).getLast?.getD 0 := by
  induction readings using List.reverseRecOn with
  | nil => rfl
  | append_singleton readings reading ih =>
    cases reading with
    | sample total => simp [(final_sample unit readings total).1, totals, Reading.total, take]
    | tick => simp [(final_tick unit readings).1, totals, Reading.total, ih]

/-- Without a sample nothing is shown or read. -/
theorem silent_of_no_sample (readings : List Reading) (none_yet : totals readings = []) :
    (gauge unit).final .blank readings = .blank ∧ readOut unit readings = 0 := by
  induction readings using List.reverseRecOn with
  | nil => exact ⟨rfl, rfl⟩
  | append_singleton readings reading ih =>
    rw [totals_append, List.append_eq_nil_iff] at none_yet
    obtain ⟨still, quiet⟩ := ih none_yet.1
    cases reading with
    | sample total => simp [totals, Reading.total] at none_yet
    | tick =>
      obtain ⟨state, read⟩ := final_tick unit readings
      rw [state, read, still, quiet]
      exact ⟨rfl, rfl⟩

/-- The first sample shows all of its total, until a sample that has not fallen overwrites it. -/
theorem first_window (before between : List Reading) (first : Nat) (none_yet : totals before = [])
    (noTick : .tick ∉ between) (falling : (first :: totals between).IsChain (· > ·)) :
    ((gauge unit).final .blank (before ++ .sample first :: between)).shown = first / unit ∧
      readOut unit (before ++ .sample first :: between) = 0 := by
  induction between using List.reverseRecOn with
  | nil =>
    obtain ⟨still, quiet⟩ := silent_of_no_sample unit before none_yet
    obtain ⟨state, read⟩ := final_sample unit before first
    rw [state, read, still, quiet]
    exact ⟨by simp [take, blank], rfl⟩
  | append_singleton between reading ih =>
    have earlier : .tick ∉ between := fun inside => noTick (List.mem_append_left _ inside)
    have split : before ++ .sample first :: (between ++ [reading]) =
        (before ++ .sample first :: between) ++ [reading] := by simp
    cases reading with
    | tick => exact absurd (List.mem_append_right _ List.mem_cons_self) noTick
    | sample total =>
      have added := totals_sample between total
      obtain ⟨last, ends⟩ : ∃ last, (first :: totals between).getLast? = some last :=
        ⟨_, List.getLast?_eq_some_getLast (by simp)⟩
      rw [added, ← List.cons_append, falling_snoc _ last total ends] at falling
      obtain ⟨shown, quiet⟩ := ih earlier falling.1
      obtain ⟨state, read⟩ := final_sample unit (before ++ .sample first :: between) total
      have prev := final_prev unit (before ++ .sample first :: between)
      have seen : totals (before ++ .sample first :: between) = first :: totals between := by
        rw [totals_append, none_yet]
        rfl
      rw [seen, ends, Option.getD_some] at prev
      have below : ¬ last ≤ total := Nat.not_le.mpr falling.2
      rw [split, state, read, take, prev, if_neg below]
      exact ⟨shown, quiet⟩

/-- The first sample shows less than a unit, or one that has not fallen follows it before the
first tick after it. -/
def FirstCovered (unit : Nat) (readings : List Reading) : Prop :=
  ∀ before first between rest, readings = before ++ .sample first :: (between ++ .tick :: rest) →
    totals before = [] → .tick ∉ between →
    first < unit ∨ ¬ (first :: totals between).IsChain (· > ·)

/-- There are only falling samples and no tick since the first. -/
def Falling (readings : List Reading) : Prop :=
  ∃ before first between, readings = before ++ .sample first :: between ∧ totals before = [] ∧
    .tick ∉ between ∧ (first :: totals between).IsChain (· > ·)

/-- What was read and is shown is within what the samples have risen by. -/
def Within (unit : Nat) (readings : List Reading) : Prop :=
  totals readings ≠ [] ∧
    readOut unit readings * unit + ((gauge unit).final .blank readings).shown * unit ≤
      growth (totals readings)

/-- A run that is within its growth stays within it. -/
theorem Within.step {readings : List Reading} (within : Within unit readings)
    (reading : Reading) : Within unit (readings ++ [reading]) := by
  obtain ⟨some_yet, bound⟩ := within
  cases reading with
  | tick =>
    obtain ⟨state, read⟩ := final_tick unit readings
    refine ⟨by rw [totals_tick]; exact some_yet, ?_⟩
    rw [state, read, totals_tick, Nat.add_mul, Nat.zero_mul, Nat.add_zero]
    exact bound
  | sample total =>
    have prev := final_prev unit readings
    obtain ⟨state, read⟩ := final_sample unit readings total
    obtain ⟨last, ends⟩ : ∃ last, (totals readings).getLast? = some last :=
      ⟨_, List.getLast?_eq_some_getLast some_yet⟩
    rw [ends, Option.getD_some] at prev
    refine ⟨by rw [totals_sample]; simp, ?_⟩
    have rise := Nat.div_mul_le_self (total - last) unit
    rw [state, read, totals_sample, growth_snoc, ends, take, prev, Option.map_some,
      Option.getD_some]
    by_cases below : last ≤ total
    · rw [if_pos below]
      dsimp only
      omega
    · rw [if_neg below]
      dsimp only
      omega

/-- Falling samples fall on, or are followed by one that has risen or, when the first is covered,
by a tick. -/
theorem Falling.step {readings : List Reading} (falling : Falling readings) (reading : Reading)
    (covered : FirstCovered unit (readings ++ [reading])) :
    Falling (readings ++ [reading]) ∨ Within unit (readings ++ [reading]) := by
  obtain ⟨before, first, between, split, none_yet, noTick, chain⟩ := falling
  obtain ⟨shown, quiet⟩ := first_window unit before between first none_yet noTick chain
  have seen : totals readings = first :: totals between := by
    rw [split, totals_append, none_yet]
    rfl
  rw [← split] at shown quiet
  cases reading with
  | tick =>
    obtain ⟨state, read⟩ := final_tick unit readings
    rcases covered before first between [] (by simp [split]) none_yet noTick with small | risen
    · refine .inr ⟨by rw [totals_tick, seen]; simp, ?_⟩
      rw [state, read, quiet, shown, Nat.div_eq_of_lt small]
      simp
    · exact absurd chain risen
  | sample total =>
    have prev := final_prev unit readings
    obtain ⟨state, read⟩ := final_sample unit readings total
    obtain ⟨last, ends⟩ : ∃ last, (first :: totals between).getLast? = some last :=
      ⟨_, List.getLast?_eq_some_getLast (by simp)⟩
    rw [seen, ends, Option.getD_some] at prev
    by_cases below : total < last
    · refine .inl ⟨before, first, between ++ [.sample total], by simp [split], none_yet,
        by simpa using noTick, ?_⟩
      rw [totals_sample]
      exact (falling_snoc (first :: totals between) last total ends).mpr ⟨chain, below⟩
    · refine .inr ⟨by rw [totals_sample]; simp, ?_⟩
      have rise := Nat.div_mul_le_self (total - last) unit
      rw [state, read, quiet, totals_sample, seen, growth_snoc, ends, take, prev,
        if_pos (Nat.not_lt.mp below), Option.map_some, Option.getD_some]
      dsimp only
      omega

/-- Where a run stands whose first sample is covered: there is no sample yet, the samples have
fallen since the first, or what was read and is shown is within what they have risen by. -/
theorem standing (readings : List Reading) (covered : FirstCovered unit readings) :
    totals readings = [] ∨ Falling readings ∨ Within unit readings := by
  induction readings using List.reverseRecOn with
  | nil => exact .inl rfl
  | append_singleton readings reading ih =>
    have earlier : FirstCovered unit readings := by
      intro before first between rest split
      exact covered before first between (rest ++ [reading]) (by simp [split])
    rcases ih earlier with none_yet | falling | within
    · cases reading with
      | tick => exact .inl ((totals_tick readings).trans none_yet)
      | sample total =>
        exact .inr (.inl ⟨readings, total, [], rfl, none_yet, by simp, List.isChain_singleton _⟩)
    · exact .inr (falling.step unit reading covered)
    · exact .inr (.inr (within.step unit reading))

/-- In every run, what ticks have read never exceeds, at any moment, what the samples have risen
by, exactly when the first sample is covered. -/
theorem neverOver_iff (positive : 0 < unit) (readings : List Reading) :
    (∀ past, past <+: readings → readOut unit past * unit ≤ growth (totals past)) ↔
      FirstCovered unit readings := by
  constructor
  · intro never before first between rest split none_yet noTick
    by_contra uncovered
    obtain ⟨large, falling⟩ := not_or.mp uncovered
    rw [not_not] at falling
    obtain ⟨shown, quiet⟩ := first_window unit before between first none_yet noTick falling
    obtain ⟨_, read⟩ := final_tick unit (before ++ .sample first :: between)
    have bound := never ((before ++ .sample first :: between) ++ [.tick]) ⟨rest, by simp [split]⟩
    have seen : totals ((before ++ .sample first :: between) ++ [.tick]) =
        first :: totals between := by
      rw [totals_append, totals_append, none_yet]
      exact List.append_nil _
    have whole : 0 < first / unit := Nat.div_pos (Nat.not_lt.mp large) positive
    rw [seen, growth_of_falling _ falling, read, quiet, shown, Nat.zero_add] at bound
    exact absurd (Nat.mul_pos whole positive) (Nat.not_lt.mpr bound)
  · intro covered past shorter
    have here : FirstCovered unit past := by
      obtain ⟨more, rfl⟩ := shorter
      intro before first between rest split
      exact covered before first between (rest ++ more) (by simp [split])
    rcases standing unit past here with none_yet |
      ⟨before, first, between, rfl, none_yet, noTick, chain⟩ | ⟨_, within⟩
    · rw [(silent_of_no_sample unit past none_yet).2, Nat.zero_mul]
      exact Nat.zero_le _
    · rw [(first_window unit before between first none_yet noTick chain).2, Nat.zero_mul]
      exact Nat.zero_le _
    · exact Nat.le_trans (Nat.le_add_right _ _) within

end DeltaGauge

end ContainerAnomaly.Lib
