import ContainerAnomaly.Feature.PointInTime
import Mathlib.Algebra.Order.Field.Rat
import Mathlib.Tactic.FieldSimp
import Mathlib.Tactic.Linarith

/-!
# Throttling and kills

`IngestCgroup` writes the throttled share of all periods of a container's life into the percentage,
and all its kills into the kills; neither is a growth over the window. The percentage is computed
once in floating point, as the source has it, and once in exact rationals, in which a vector is
compared with its window (`carries_windows_iff`).
-/

namespace ContainerAnomaly.Feature

open Lib

/-- What `IngestCgroup` computes the percentage with. -/
structure Numbers (φ : Type) where
  /-- 0. -/
  zero : φ
  /-- `float64(counter)`. -/
  counter : UInt64 → φ
  /-- The quotient. -/
  div : φ → φ → φ
  /-- `* 100`. -/
  percent : φ → φ

/-- The numbers of the source. -/
def floats : Numbers Float := ⟨0, UInt64.toFloat, (· / ·), (· * 100)⟩

/-- Exact rationals. -/
def rationals : Numbers ℚ := ⟨0, fun counter => counter.toNat, (· / ·), (· * 100)⟩

section Percentage

variable {φ : Type} (numbers : Numbers φ)

/-- What a sample writes into `CgroupCPUThrottlePct`. -/
def throttlePct (s : Cgroup.Stats) : Option φ :=
  if s.cpu.nrPeriods > 0 then
    some (numbers.percent
      (numbers.div (numbers.counter s.cpu.nrThrottled) (numbers.counter s.cpu.nrPeriods)))
  else none

/-- What the samples of a window leave in `CgroupCPUThrottlePct`. -/
def shownPct (samples : List Cgroup.Stats) : φ :=
  (samples.filterMap (throttlePct numbers)).getLast?.getD numbers.zero

end Percentage

/-- `CgroupCPUThrottlePct`. -/
def cpuThrottlePct : Overwritten Float where
  shown := Vector.cgroupCPUThrottlePct
  written := throttlePct floats
  sampled _ _ s _ := by
    unfold throttlePct
    by_cases periods : s.cpu.nrPeriods > 0 <;> simp [Accumulator.setCgroup, periods, floats]
  unsampled item _ other := by cases item <;> first | rfl | cases other
  bounded _ _ _ _ _ _ := rfl

/-- `CgroupOOMKills`. -/
def oomKills : Overwritten UInt64 where
  shown := Vector.cgroupOOMKills
  written s := some s.memory.oomKill
  sampled _ _ _ _ := rfl
  unsampled item _ other := by cases item <;> first | rfl | cases other
  bounded _ _ _ _ _ _ := rfl

/-- From a sample to a later one the counters do not fall, and no more periods are throttled than
pass. -/
structure Counting (s later : Cgroup.Stats) : Prop where
  /-- The periods do not fall. -/
  periods : s.cpu.nrPeriods.toNat ≤ later.cpu.nrPeriods.toNat
  /-- The throttled periods do not fall. -/
  throttled : s.cpu.nrThrottled.toNat ≤ later.cpu.nrThrottled.toNat
  /-- No more periods were throttled than there were. -/
  share : later.cpu.nrThrottled.toNat - s.cpu.nrThrottled.toNat ≤
    later.cpu.nrPeriods.toNat - s.cpu.nrPeriods.toNat
  /-- The kills do not fall. -/
  kills : s.memory.oomKill.toNat ≤ later.memory.oomKill.toNat

/-- Counters that have not moved have not fallen. -/
theorem Counting.refl (s : Cgroup.Stats) : Counting s s :=
  ⟨le_rfl, le_rfl, by omega, le_rfl⟩

/-- Counters that do not fall twice have not fallen. -/
theorem Counting.trans {s middle later : Cgroup.Stats} (first : Counting s middle)
    (second : Counting middle later) : Counting s later := by
  obtain ⟨periods, throttled, share, kills⟩ := first
  obtain ⟨laterPeriods, laterThrottled, laterShare, laterKills⟩ := second
  exact ⟨by omega, by omega, by omega, by omega⟩

instance : Trans Counting Counting Counting := ⟨Counting.trans⟩

/-- From the last sample before a window to each one in it, counters do not fall. -/
theorem counting_window {before between : List Cgroup.Stats} {start : Cgroup.Stats}
    (counting : (before ++ between).IsChain Counting) (last : before.getLast? = some start) :
    (start :: between).Pairwise Counting := by
  obtain ⟨earlier, rfl⟩ := List.getLast?_eq_some_iff.mp last
  rw [List.append_assoc] at counting
  exact (List.pairwise_append.mp counting.pairwise).2.1

/-- The newest sample shows no less than the first. -/
theorem counting_newest {start : Cgroup.Stats} {between : List Cgroup.Stats}
    (counting : (start :: between).Pairwise Counting) : Counting start (newest start between) := by
  rcases List.mem_cons.mp (newest_mem start between) with same | inside
  · rw [same]
    exact .refl start
  · exact (List.pairwise_cons.mp counting).1 _ inside

/-- When counters do not fall, the newest sample leaves the percentage. -/
theorem shownPct_newest {φ : Type} (numbers : Numbers φ) {start : Cgroup.Stats}
    {between : List Cgroup.Stats} (counting : (start :: between).Pairwise Counting)
    (sampled : between ≠ []) :
    shownPct numbers between =
      (throttlePct numbers (newest start between)).getD numbers.zero := by
  obtain ⟨earlier, last, rfl⟩ := (List.eq_nil_or_concat' between).resolve_left sampled
  have ends : newest start (earlier ++ [last]) = last := by simp [newest]
  rw [ends, shownPct, List.filterMap_append]
  cases writes : throttlePct numbers last with
  | some pct => simp [writes]
  | none =>
    -- No period has passed at the last sample, so none had at an earlier one.
    have silent : earlier.filterMap (throttlePct numbers) = [] := by
      refine List.filterMap_eq_nil_iff.mpr fun s inside => if_neg ?_
      have rises := ((List.pairwise_append.mp (List.pairwise_cons.mp counting).2).2.2 s inside
        last List.mem_cons_self).periods
      have idle : ¬ last.cpu.nrPeriods > 0 := fun passed => by simp [throttlePct, passed] at writes
      rw [gt_iff_lt, UInt64.lt_iff_toNat_lt] at idle ⊢
      omega
    simp [silent, writes]

/-- A percentage and a number of kills describe a window between two samples. -/
structure DescribesWindow (prev last : Cgroup.Stats) (pct : ℚ) (kills : UInt64) : Prop where
  /-- The percentage is the throttled share of the periods of the window. -/
  share : pct = if last.cpu.nrPeriods = prev.cpu.nrPeriods then 0 else
    100 * ((last.cpu.nrThrottled.toNat : ℚ) - prev.cpu.nrThrottled.toNat) /
      ((last.cpu.nrPeriods.toNat : ℚ) - prev.cpu.nrPeriods.toNat)
  /-- It is no less than zero. -/
  nonnegative : 0 ≤ pct
  /-- It is no more than a hundred. -/
  bounded : pct ≤ 100
  /-- The kills are those of the window. -/
  kills : kills.toNat = last.memory.oomKill.toNat - prev.memory.oomKill.toNat

/-- What a container has been through before a window says about its throttling and kills what the
window does: it was never killed, and its throttled share has not changed. -/
def SteadyLife (prev last : Cgroup.Stats) : Prop :=
  prev.memory.oomKill.toNat = 0 ∧
    (last.cpu.nrPeriods.toNat = 0 ∨
      if last.cpu.nrPeriods = prev.cpu.nrPeriods then last.cpu.nrThrottled.toNat = 0
      else last.cpu.nrThrottled.toNat * prev.cpu.nrPeriods.toNat =
        prev.cpu.nrThrottled.toNat * last.cpu.nrPeriods.toNat)

/-- The share of a window is a percentage. -/
theorem Counting.share_bounds {prev last : Cgroup.Stats} (counting : Counting prev last) :
    let share : ℚ := if last.cpu.nrPeriods = prev.cpu.nrPeriods then 0 else
      100 * ((last.cpu.nrThrottled.toNat : ℚ) - prev.cpu.nrThrottled.toNat) /
        ((last.cpu.nrPeriods.toNat : ℚ) - prev.cpu.nrPeriods.toNat)
    0 ≤ share ∧ share ≤ 100 := by
  intro share
  obtain ⟨periods, throttled, within, _⟩ := counting
  by_cases still : last.cpu.nrPeriods = prev.cpu.nrPeriods
  · simp [share, still]
  · have moved : prev.cpu.nrPeriods.toNat < last.cpu.nrPeriods.toNat :=
      lt_of_le_of_ne periods fun same => still (UInt64.toNat_inj.mp same.symm)
    have positive : (0 : ℚ) < (last.cpu.nrPeriods.toNat : ℚ) - prev.cpu.nrPeriods.toNat :=
      sub_pos.mpr (Nat.cast_lt.mpr moved)
    have grown : (0 : ℚ) ≤ (last.cpu.nrThrottled.toNat : ℚ) - prev.cpu.nrThrottled.toNat :=
      sub_nonneg.mpr (Nat.cast_le.mpr throttled)
    have below : (last.cpu.nrThrottled.toNat : ℚ) - prev.cpu.nrThrottled.toNat ≤
        (last.cpu.nrPeriods.toNat : ℚ) - prev.cpu.nrPeriods.toNat := by
      rw [← Nat.cast_sub throttled, ← Nat.cast_sub periods]
      exact Nat.cast_le.mpr within
    simp only [share, if_neg still]
    constructor
    · exact div_nonneg (by linarith) positive.le
    · rw [div_le_iff₀ positive]
      linarith

/-- The share of a life is that of its end exactly when it was so before. -/
theorem share_eq_iff {whole part before partBefore : Nat} (grown : before < whole) :
    ((part : ℚ) / whole * 100 = 100 * ((part : ℚ) - partBefore) / ((whole : ℚ) - before)) ↔
      part * before = partBefore * whole := by
  have wholePositive : (0 : ℚ) < whole := Nat.cast_pos.mpr (by omega)
  have endPositive : (0 : ℚ) < (whole : ℚ) - before := sub_pos.mpr (Nat.cast_lt.mpr grown)
  rw [div_mul_eq_mul_div, div_eq_div_iff wholePositive.ne' endPositive.ne',
    ← Nat.cast_inj (R := ℚ), Nat.cast_mul, Nat.cast_mul]
  constructor
  · intro same
    linarith
  · intro same
    linarith

/-- The share of a life is that of a window exactly when it has not changed in it. -/
theorem lifetime_share_iff {prev last : Cgroup.Stats} (counting : Counting prev last) :
    ((throttlePct rationals last).getD rationals.zero =
      if last.cpu.nrPeriods = prev.cpu.nrPeriods then 0 else
        100 * ((last.cpu.nrThrottled.toNat : ℚ) - prev.cpu.nrThrottled.toNat) /
          ((last.cpu.nrPeriods.toNat : ℚ) - prev.cpu.nrPeriods.toNat)) ↔
      (last.cpu.nrPeriods.toNat = 0 ∨
        if last.cpu.nrPeriods = prev.cpu.nrPeriods then last.cpu.nrThrottled.toNat = 0
        else last.cpu.nrThrottled.toNat * prev.cpu.nrPeriods.toNat =
          prev.cpu.nrThrottled.toNat * last.cpu.nrPeriods.toNat) := by
  have passed_iff : last.cpu.nrPeriods > 0 ↔ 0 < last.cpu.nrPeriods.toNat := UInt64.lt_iff_toNat_lt
  by_cases passed : 0 < last.cpu.nrPeriods.toNat
  · have some_periods : last.cpu.nrPeriods.toNat ≠ 0 := by omega
    rw [throttlePct, if_pos (passed_iff.mpr passed), or_iff_right some_periods]
    show (last.cpu.nrThrottled.toNat : ℚ) / last.cpu.nrPeriods.toNat * 100 = _ ↔ _
    by_cases still : last.cpu.nrPeriods = prev.cpu.nrPeriods
    · rw [if_pos still, if_pos still]
      have whole : (last.cpu.nrPeriods.toNat : ℚ) ≠ 0 := Nat.cast_ne_zero.mpr some_periods
      simp [whole]
    · rw [if_neg still, if_neg still]
      have grown : prev.cpu.nrPeriods.toNat < last.cpu.nrPeriods.toNat :=
        lt_of_le_of_ne counting.periods fun same => still (UInt64.toNat_inj.mp same.symm)
      exact share_eq_iff grown
  · have idle : last.cpu.nrPeriods.toNat = 0 := by omega
    have idleBefore : prev.cpu.nrPeriods.toNat = 0 := by
      have rises := counting.periods
      omega
    have still : last.cpu.nrPeriods = prev.cpu.nrPeriods :=
      UInt64.toNat_inj.mp (idle.trans idleBefore.symm)
    rw [throttlePct, if_neg (passed_iff.not.mpr passed), if_pos still]
    exact iff_of_true rfl (.inl idle)

/-- The samples of a window describe it exactly when there are none or the life before the window
says what the window does. -/
theorem describes_iff {start : Cgroup.Stats} {between : List Cgroup.Stats}
    (counting : (start :: between).Pairwise Counting) (kills : UInt64)
    (written : kills = (between.filterMap oomKills.written).getLast?.getD 0) :
    DescribesWindow start (newest start between) (shownPct rationals between) kills ↔
      between = [] ∨ SteadyLife start (newest start between) := by
  have grown := counting_newest counting
  by_cases sampled : between = []
  · subst sampled
    refine iff_of_true ?_ (.inl rfl)
    subst written
    exact ⟨(if_pos rfl).symm, le_rfl, by norm_num [shownPct, rationals], (Nat.sub_self _).symm⟩
  · have shown := shownPct_newest rationals counting sampled
    have counted : kills = (newest start between).memory.oomKill := by
      obtain ⟨earlier, last, rfl⟩ := (List.eq_nil_or_concat' between).resolve_left sampled
      rw [written, List.filterMap_append]
      simp [oomKills, newest]
    have bounds := grown.share_bounds
    rw [or_iff_right sampled, SteadyLife, ← lifetime_share_iff grown, ← shown]
    have none_before : kills.toNat = (newest start between).memory.oomKill.toNat -
        start.memory.oomKill.toNat ↔ start.memory.oomKill.toNat = 0 := by
      have rises := grown.kills
      rw [counted]
      omega
    constructor
    · rintro ⟨share, _, _, killed⟩
      exact ⟨none_before.mp killed, share⟩
    · rintro ⟨never, share⟩
      refine ⟨share, ?_, ?_, none_before.mpr never⟩
      · rw [share]
        exact bounds.1
      · rw [share]
        exact bounds.2

/-- The vector of a window that a sample precedes. -/
theorem window_sent (window : Duration) (cid : GoString) (past between : List Input)
    (opening closing : Tick) (noTick : ∀ tick, .tick tick ∉ between)
    (sampled : samplesOf cid past ≠ []) :
    ∃ v, (aggregator.step (aggregator.final (.new window) (past ++ .tick opening :: between))
        (.tick closing)).2.filter (fun v => v.containerID = cid) = [v] ∧
      v.cgroupCPUThrottlePct = shownPct floats (samplesOf cid between) ∧
      v.cgroupOOMKills =
        ((samplesOf cid between).filterMap oomKills.written).getLast?.getD 0 := by
  have before : samplesOf cid (past ++ .tick opening :: between) ≠ [] := by
    rw [samplesOf, List.flatMap_append, samples_append]
    exact List.append_ne_nil_of_left_ne_nil sampled _
  have current : sinceTick (past ++ .tick opening :: between) = between := by
    refine sinceLast_split Input.isTick past between rfl fun input inside => ?_
    rw [Bool.eq_false_iff]
    intro ticks
    obtain ⟨tick, rfl⟩ := input.isTick_iff.mp ticks
    exact noTick tick inside
  obtain ⟨v, sent, shows⟩ := overwritten_sent window cid _ closing before
  rw [current] at shows
  exact ⟨v, sent, shows cpuThrottlePct, shows oomKills⟩

/-- The vector of every window that a sample of a container precedes carries the throttled share
and the kills of the window. -/
def CarriesWindows (window : Duration) (cid : GoString) (inputs : List Input) : Prop :=
  ∀ past opening between closing rest start,
    inputs = past ++ .tick opening :: (between ++ .tick closing :: rest) →
    (∀ tick, .tick tick ∉ between) → (samplesOf cid past).getLast? = some start →
    ∃ v, (aggregator.step (aggregator.final (.new window) (past ++ .tick opening :: between))
        (.tick closing)).2.filter (fun v => v.containerID = cid) = [v] ∧
      v.cgroupCPUThrottlePct = shownPct floats (samplesOf cid between) ∧
      DescribesWindow start (newest start (samplesOf cid between))
        (shownPct rationals (samplesOf cid between)) v.cgroupOOMKills

/-- In every run in which the counters of a container do not fall, the vectors carry the throttled
share and the kills of their windows exactly when every window that a sample precedes has no
sample or the life of the container up to it says what the window does. -/
theorem carries_windows_iff (window : Duration) (cid : GoString) (inputs : List Input)
    (counting : (samplesOf cid inputs).IsChain Counting) :
    CarriesWindows window cid inputs ↔
      ∀ past opening between closing rest start,
        inputs = past ++ .tick opening :: (between ++ .tick closing :: rest) →
        (∀ tick, .tick tick ∉ between) → (samplesOf cid past).getLast? = some start →
        samplesOf cid between = [] ∨
          SteadyLife start (newest start (samplesOf cid between)) := by
  refine forall₅_congr fun past opening between closing rest => forall₄_congr
    fun start split noTick last => ?_
  have nonempty : samplesOf cid past ≠ [] := by
    intro nothing
    rw [nothing] at last
    cases last
  have rising : (start :: samplesOf cid between).Pairwise Counting := by
    have all : (samplesOf cid past ++ (samplesOf cid between ++ samplesOf cid rest)).IsChain
        Counting := by
      rw [split] at counting
      simpa [samplesOf, Input.own, Input.ingests] using counting
    rw [← List.append_assoc] at all
    exact counting_window (List.isChain_append.mp all).1 last
  obtain ⟨v, sent, pct, kills⟩ := window_sent window cid past between opening closing noTick
    nonempty
  rw [← describes_iff rising v.cgroupOOMKills kills, sent]
  constructor
  · rintro ⟨other, same, _, describes⟩
    obtain rfl := (List.cons.inj same).1
    exact describes
  · intro describes
    exact ⟨v, rfl, pct, describes⟩

/-- A sample with counts of periods, throttled periods and kills. -/
def quota (nrPeriods nrThrottled oomKill : UInt64) : Cgroup.Stats where
  cpu := { nrPeriods := nrPeriods, nrThrottled := nrThrottled }
  memory := { oomKill := oomKill }

/-- A sample of container `a` with these counts. -/
def quotaOfA (nrPeriods nrThrottled oomKill : UInt64) : Input :=
  .cgroup (lit "a") [] [] (quota nrPeriods nrThrottled oomKill)

/-- A container that is throttled in every period of a window, after 900 periods without, and was
killed once before the window: neither its share nor its kills are those of the window. -/
theorem burst_hidden :
    ¬ CarriesWindows 30 (lit "a") [quotaOfA 900 0 1, .tick (tickAt 30 (by decide)),
      quotaOfA 1000 100 1, .tick (tickAt 60 (by decide))] := by
  intro carries
  obtain ⟨v, _, _, describes⟩ := carries [quotaOfA 900 0 1] (tickAt 30 (by decide))
    [quotaOfA 1000 100 1] (tickAt 60 (by decide)) [] _ rfl (fun tick => by simp [quotaOfA]) rfl
  have described : DescribesWindow (quota 900 0 1) (quota 1000 100 1)
    (shownPct rationals [quota 1000 100 1]) v.cgroupOOMKills := describes
  have writes : throttlePct rationals (quota 1000 100 1) = some _ := if_pos (by decide)
  have moved : (quota 1000 100 1).cpu.nrPeriods ≠ (quota 900 0 1).cpu.nrPeriods := by decide
  have share := described.share
  rw [if_neg moved, shownPct, List.filterMap_cons_some writes] at share
  simp only [quota, rationals, List.filterMap_nil, List.getLast?_singleton, Option.getD_some,
    UInt64.reduceToNat] at share
  norm_num at share

/-- A container with no life before its first sample carries the share of the window after it. -/
theorem carries_windows_iff_new :
    CarriesWindows 30 (lit "a") [quotaOfA 0 0 0, .tick (tickAt 30 (by decide)),
      quotaOfA 100 50 2, .tick (tickAt 60 (by decide))] := by
  have counting : (samplesOf (lit "a") [quotaOfA 0 0 0, .tick (tickAt 30 (by decide)),
      quotaOfA 100 50 2, .tick (tickAt 60 (by decide))]).IsChain Counting := by
    refine List.IsChain.cons_cons ⟨?_, ?_, ?_, ?_⟩ (List.isChain_singleton _) <;> decide
  refine (carries_windows_iff 30 (lit "a") _ counting).mpr ?_
  intro past opening between closing rest start split noTick last
  rcases past with _ | ⟨first, _ | ⟨second, _ | ⟨third, _ | ⟨fourth, past⟩⟩⟩⟩
  · simp [quotaOfA] at split
  · rcases between with _ | ⟨sample, _ | ⟨other, between⟩⟩
    · simp [quotaOfA] at split
    · simp only [List.cons_append, List.nil_append, List.cons.injEq] at split
      obtain ⟨rfl, _, rfl, _, _⟩ := split
      obtain rfl : quota 0 0 0 = start := Option.some.inj last
      exact .inr ⟨rfl, .inr rfl⟩
    · simp [quotaOfA] at split
  · simp [quotaOfA] at split
  · simp at split
  · simp at split

end ContainerAnomaly.Feature
