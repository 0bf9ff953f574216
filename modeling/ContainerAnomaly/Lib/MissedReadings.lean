import ContainerAnomaly.Lib.DeltaGauge
import Mathlib.Data.List.ReduceOption

/-!
# Gauges whose counter cannot always be read

A counter that cannot be read is taken for zero. The gauge then remembers zero, and the next good
sample shows all that the counter has ever counted. That is its growth since the last good sample
exactly when what was counted before does not reach the next unit (`showsGrowth_iff`), and as long
as every good sample shows its growth, what ticks read stays within it (`staysWithin`).
-/

namespace ContainerAnomaly.Lib.DeltaGauge

/-- What happens to a gauge: its counter is read or cannot be read, or a tick reads the gauge. -/
inductive Poll where
  | good (total : Nat)
  | missed
  | tick
deriving DecidableEq

/-- What the gauge is told. -/
def Poll.reading : Poll → Reading
  | .good total => .sample total
  | .missed => .sample 0
  | .tick => .tick

/-- What reading the counter gives, when it was tried. -/
def Poll.attempt : Poll → Option (Option Nat)
  | .good total => some (some total)
  | .missed => some none
  | .tick => none

/-- What attempts to read the counter give. -/
def attempts (polls : List Poll) : List (Option Nat) := polls.filterMap Poll.attempt

/-- The last good total, from a given one on. -/
def lastGood (start : Nat) (attempts : List (Option Nat)) : Nat :=
  attempts.reduceOption.getLast?.getD start

variable (unit : Nat) (state : DeltaGauge)

/-- The gauge after polls. -/
def told (polls : List Poll) : DeltaGauge := (gauge unit).final state (polls.map Poll.reading)

/-- What ticks have read. -/
def collected (polls : List Poll) : Nat := ((gauge unit).outputs state (polls.map Poll.reading)).sum

/-- Every good sample shows the growth since the last one. -/
def ShowsGrowth (polls : List Poll) : Prop :=
  ∀ past total rest, polls = past ++ .good total :: rest →
    (told unit state (past ++ [.good total])).shown =
      (total - lastGood state.prev (attempts past)) / unit

/-- What was counted before a missed reading does not reach the next unit of the growth after. -/
def MissesHarmless (start : Nat) (polls : List Poll) : Prop :=
  ∀ past total rest, polls = past ++ .good total :: rest →
    (attempts past).getLast? = some none →
    (total - lastGood start (attempts past)) % unit + lastGood start (attempts past) < unit

/-- The last good total after a further attempt. -/
theorem lastGood_snoc (start : Nat) (list : List (Option Nat)) (attempt : Option Nat) :
    lastGood start (list ++ [attempt]) = attempt.getD (lastGood start list) := by
  cases attempt with
  | none => simp [lastGood, List.reduceOption_append]
  | some total => simp [lastGood, List.reduceOption_append]

/-- The gauge after one more poll. -/
theorem told_snoc (polls : List Poll) (poll : Poll) :
    told unit state (polls ++ [poll]) =
      ((gauge unit).step (told unit state polls) poll.reading).1 := by
  rw [told, List.map_append, List.map_singleton, Machine.final_snoc, told]

/-- What ticks have read after one more poll. -/
theorem collected_snoc (polls : List Poll) (poll : Poll) :
    collected unit state (polls ++ [poll]) = collected unit state polls +
      ((gauge unit).step (told unit state polls) poll.reading).2.sum := by
  rw [collected, List.map_append, List.map_singleton, Machine.outputs_snoc, List.sum_append, told,
    collected]

/-- The attempts after one more poll. -/
theorem attempts_snoc (polls : List Poll) (poll : Poll) :
    attempts (polls ++ [poll]) = attempts polls ++ poll.attempt.toList := by
  rw [attempts, List.filterMap_append, attempts]
  cases poll <;> rfl

/-- A gauge remembers the last good total, or zero after a missed reading. -/
theorem told_prev (polls : List Poll) :
    (told unit state polls).prev =
      if (attempts polls).getLast? = some none then 0
      else lastGood state.prev (attempts polls) := by
  induction polls using List.reverseRecOn with
  | nil => rfl
  | append_singleton polls poll ih =>
    rw [told_snoc, attempts_snoc]
    cases poll with
    | good total =>
      have last := lastGood_snoc state.prev (attempts polls) (some total)
      simp [Poll.attempt, Poll.reading, gauge, take, last]
    | missed => simp [Poll.attempt, Poll.reading, gauge, take]
    | tick =>
      rw [Poll.attempt, Option.toList_none, List.append_nil]
      exact ih

/-- What a good sample shows that is not below what the gauge remembers. -/
theorem told_good (past : List Poll) (total : Nat)
    (risen : (told unit state past).prev ≤ total) :
    (told unit state (past ++ [.good total])).shown =
      (total - (told unit state past).prev) / unit := by
  rw [told_snoc]
  exact if_pos risen

/-- Totals that do not fall: a good one is not below the last good one before it, which is not
below the start. -/
theorem lastGood_le (start : Nat) (past : List (Option Nat)) (total : Nat)
    (rising : (start :: (past ++ [some total]).reduceOption).Pairwise (· ≤ ·)) :
    start ≤ lastGood start past ∧ lastGood start past ≤ total := by
  have member : lastGood start past ∈ start :: past.reduceOption := by
    unfold lastGood
    cases ends : past.reduceOption.getLast? with
    | none => exact List.mem_cons_self
    | some last => exact List.mem_cons_of_mem _ (List.mem_of_getLast? ends)
  rw [List.reduceOption_append, ← List.cons_append, List.pairwise_append] at rising
  obtain ⟨before, _, above⟩ := rising
  constructor
  · rcases List.mem_cons.mp member with same | later
    · exact Nat.le_of_eq same.symm
    · exact (List.pairwise_cons.mp before).1 _ later
  · exact above _ member total (by simp [List.reduceOption])

/-- The attempts of a part of the polls do not fall either. -/
theorem rising_part {start : Nat} {polls past rest : List Poll} {total : Nat}
    (rising : (start :: (attempts polls).reduceOption).Pairwise (· ≤ ·))
    (split : polls = past ++ .good total :: rest) :
    (start :: (attempts past ++ [some total]).reduceOption).Pairwise (· ≤ ·) := by
  have whole : attempts polls = (attempts past ++ [some total]) ++ attempts rest := by
    rw [split, attempts, List.filterMap_append]
    simp [attempts, Poll.attempt]
  rw [whole, List.reduceOption_append, ← List.cons_append] at rising
  exact (List.pairwise_append.mp rising).1

/-- Every good sample shows its growth exactly when the missed readings are harmless. -/
theorem showsGrowth_iff (positive : 0 < unit) (polls : List Poll)
    (rising : (state.prev :: (attempts polls).reduceOption).Pairwise (· ≤ ·)) :
    ShowsGrowth unit state polls ↔ MissesHarmless unit state.prev polls := by
  have shown : ∀ past total rest, polls = past ++ .good total :: rest →
      ((told unit state (past ++ [.good total])).shown =
          (total - lastGood state.prev (attempts past)) / unit ↔
        ((attempts past).getLast? = some none →
          (total - lastGood state.prev (attempts past)) % unit +
            lastGood state.prev (attempts past) < unit)) := by
    intro past total rest split
    obtain ⟨_, risen⟩ := lastGood_le state.prev (attempts past) total (rising_part rising split)
    have prev := told_prev unit state past
    by_cases missed : (attempts past).getLast? = some none
    · rw [if_pos missed] at prev
      have whole : total - 0 = (total - lastGood state.prev (attempts past)) +
          lastGood state.prev (attempts past) := by omega
      rw [told_good unit state past total (by omega), prev, whole, eq_comm,
        div_eq_add_div_iff _ _ _ positive]
      exact ⟨fun fits _ => fits, fun fits => fits missed⟩
    · rw [if_neg missed] at prev
      rw [told_good unit state past total (by omega), prev]
      exact ⟨fun _ other => absurd other missed, fun _ => rfl⟩
  constructor
  · intro shows past total rest split
    exact (shown past total rest split).mp (shows past total rest split)
  · intro harmless past total rest split
    exact (shown past total rest split).mpr (harmless past total rest split)

/-- What ticks have read and the gauge shows, as long as every good sample shows its growth. -/
theorem balance (polls : List Poll)
    (rising : (state.prev :: (attempts polls).reduceOption).Pairwise (· ≤ ·))
    (shows : ShowsGrowth unit state polls) :
    collected unit state polls * unit + (told unit state polls).shown * unit ≤
      state.shown * unit + (lastGood state.prev (attempts polls) - state.prev) := by
  induction polls using List.reverseRecOn with
  | nil =>
    show 0 * unit + state.shown * unit ≤ state.shown * unit + (state.prev - state.prev)
    omega
  | append_singleton polls poll ih =>
    have earlier : ShowsGrowth unit state polls := by
      intro past total rest split
      exact shows past total (rest ++ [poll]) (by simp [split])
    have rising_before : (state.prev :: (attempts polls).reduceOption).Pairwise (· ≤ ·) := by
      rw [attempts_snoc, List.reduceOption_append, ← List.cons_append] at rising
      exact (List.pairwise_append.mp rising).1
    have before := ih rising_before earlier
    rw [collected_snoc, attempts_snoc]
    cases poll with
    | good total =>
      obtain ⟨above, risen⟩ := lastGood_le state.prev (attempts polls) total
        (rising_part rising rfl)
      have growth := Nat.div_mul_le_self (total - lastGood state.prev (attempts polls)) unit
      have last := lastGood_snoc state.prev (attempts polls) (some total)
      rw [shows polls total [] rfl]
      simp only [Poll.attempt, Option.toList_some, last, Option.getD_some, Poll.reading, gauge,
        List.sum_nil, Nat.add_zero]
      omega
    | missed =>
      have last := lastGood_snoc state.prev (attempts polls) none
      have cleared : (told unit state (polls ++ [.missed])).shown ≤
          (told unit state polls).shown := by
        rw [told_snoc]
        simp only [Poll.reading, gauge, take]
        split
        · simp
        · exact Nat.le_refl _
      have less := Nat.mul_le_mul_right unit cleared
      simp only [Poll.attempt, Option.toList_some, last, Option.getD_none, Poll.reading, gauge,
        List.sum_nil, Nat.add_zero]
      omega
    | tick =>
      have cleared : (told unit state (polls ++ [.tick])).shown = 0 := by
        rw [told_snoc]
        rfl
      rw [cleared]
      simp only [Poll.attempt, Option.toList_none, List.append_nil, Poll.reading, gauge,
        List.sum_singleton, Nat.add_mul, Nat.zero_mul, Nat.add_zero]
      exact before

/-- As long as every good sample shows its growth, what ticks have read never exceeds, at any
moment, what was shown at the start and the growth since. -/
theorem staysWithin (polls : List Poll)
    (rising : (state.prev :: (attempts polls).reduceOption).Pairwise (· ≤ ·))
    (shows : ShowsGrowth unit state polls) (past : List Poll) (shorter : past <+: polls) :
    collected unit state past * unit ≤
      state.shown * unit + (lastGood state.prev (attempts past) - state.prev) := by
  obtain ⟨more, rfl⟩ := shorter
  have rising_before : (state.prev :: (attempts past).reduceOption).Pairwise (· ≤ ·) := by
    rw [attempts, List.filterMap_append, List.reduceOption_append, ← List.cons_append] at rising
    exact (List.pairwise_append.mp rising).1
  have earlier : ShowsGrowth unit state past := by
    intro before total rest split
    exact shows before total (rest ++ more) (by simp [split])
  exact Nat.le_trans (Nat.le_add_right _ _) (balance unit state past rising_before earlier)

end ContainerAnomaly.Lib.DeltaGauge
