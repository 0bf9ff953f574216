import ContainerAnomaly.Lib.Numeral
import Mathlib.Algebra.BigOperators.Group.List.Basic

/-!
# Calendar

Days and the dates of the Gregorian calendar, which is extended to all years, and time stamps in the
layout `2006-01-02T15:04:05`. Days and seconds are counted from the start of the year 1. A time
stamp is read back to the second (`readStamp_stamp`).
-/

namespace ContainerAnomaly.Lib.Calendar

open GoString

/-- A year of 366 days. -/
def IsLeap (year : Int) : Prop := year % 4 = 0 ∧ (year % 100 ≠ 0 ∨ year % 400 = 0)

instance (year : Int) : Decidable (IsLeap year) := inferInstanceAs (Decidable (_ ∧ (_ ∨ _)))

/-- The days of the first years. -/
def daysOfYears (years : Int) : Int := 365 * years + years / 4 - years / 100 + years / 400

/-- The years before a day: whole periods of 400, 100, 4 and one years, of which the last in a
period of 400 or of 4 may be a day longer than the others. -/
def yearsBefore (day : Int) : Int :=
  let inPeriod := day % 146097
  let centuries := min (inPeriod / 36524) 3
  let inCentury := inPeriod - 36524 * centuries
  400 * (day / 146097) + 100 * centuries + 4 * (inCentury / 1461) +
    min (inCentury % 1461 / 365) 3

/-- A day is in the year after the years before it. -/
theorem daysOfYears_yearsBefore (day : Int) :
    daysOfYears (yearsBefore day) ≤ day ∧ day < daysOfYears (yearsBefore day + 1) := by
  unfold daysOfYears yearsBefore
  dsimp only
  generalize in_periods : day / 146097 = periods
  generalize in_period : day % 146097 = inPeriod
  generalize in_centuries : min (inPeriod / 36524) 3 = centuries
  generalize in_fours : (inPeriod - 36524 * centuries) / 1461 = fours
  generalize in_four : (inPeriod - 36524 * centuries) % 1461 = inFour
  generalize in_ones : min (inFour / 365) 3 = ones
  have period : day = 146097 * periods + inPeriod ∧ 0 ≤ inPeriod ∧ inPeriod < 146097 := by omega
  have century : 0 ≤ centuries ∧ centuries ≤ 3 ∧ 36524 * centuries ≤ inPeriod ∧
      inPeriod ≤ 36524 * centuries + 36524 ∧
      (centuries < 3 → inPeriod < 36524 * centuries + 36524) := by omega
  have four : inPeriod = 36524 * centuries + 1461 * fours + inFour ∧ 0 ≤ inFour ∧
      inFour < 1461 ∧ 0 ≤ fours ∧ fours ≤ 24 := by omega
  have one : 0 ≤ ones ∧ ones ≤ 3 ∧ 365 * ones ≤ inFour ∧ inFour ≤ 365 * ones + 365 ∧
      (ones < 3 → inFour < 365 * ones + 365) := by omega
  -- The leap days of whole periods, and of what is left of the last period.
  have whole : ∀ k, 0 ≤ k → k < 400 → (400 * periods + k) / 400 = periods ∧
      (400 * periods + k) / 100 = 4 * periods + k / 100 ∧
      (400 * periods + k) / 4 = 100 * periods + k / 4 := by omega
  have left : ∀ j, 0 ≤ j → j < 4 → (100 * centuries + 4 * fours + j) / 100 = centuries ∧
      (100 * centuries + 4 * fours + j) / 4 = 25 * centuries + fours := by omega
  have now := whole (100 * centuries + 4 * fours + ones) (by omega) (by omega)
  have here := left ones (by omega) (by omega)
  have before : 400 * periods + 100 * centuries + 4 * fours + ones =
      400 * periods + (100 * centuries + 4 * fours + ones) := by omega
  have after : 400 * periods + 100 * centuries + 4 * fours + ones + 1 =
      400 * periods + (100 * centuries + 4 * fours + ones + 1) := by omega
  rw [after, before, now.1, now.2.1, now.2.2, here.1, here.2]
  constructor
  · omega
  · by_cases early : ones < 3
    · have next := whole (100 * centuries + 4 * fours + ones + 1) (by omega) (by omega)
      have there := left (ones + 1) (by omega) (by omega)
      rw [next.1, next.2.1, next.2.2, Int.add_assoc (100 * centuries + 4 * fours), there.1, there.2]
      omega
    · -- The last of four years, of a century and of a period end with them.
      obtain rfl : ones = 3 := by omega
      by_cases last : fours = 24 ∧ centuries = 3
      · obtain ⟨rfl, rfl⟩ := last
        omega
      · have next := whole (100 * centuries + 4 * fours + 3 + 1) (by omega) (by omega)
        rw [next.1, next.2.1, next.2.2]
        by_cases turn : fours = 24
        · subst turn
          omega
        · omega

/-- The days of the months of a year. -/
def monthLengths (year : Int) : List Nat :=
  [31, if IsLeap year then 29 else 28, 31, 30, 31, 30, 31, 31, 30, 31, 30, 31]

/-- The months make up the year. -/
theorem sum_monthLengths (years : Int) :
    ((monthLengths (years + 1)).sum : Int) = daysOfYears (years + 1) - daysOfYears years := by
  have days : (monthLengths (years + 1)).sum = if IsLeap (years + 1) then 366 else 365 := by
    unfold monthLengths
    split <;> rfl
  rw [days]
  unfold daysOfYears
  by_cases leap : IsLeap (years + 1)
  · rw [if_pos leap]
    unfold IsLeap at leap
    omega
  · rw [if_neg leap]
    unfold IsLeap at leap
    omega

/-- No month has more than 31 days. -/
theorem le_of_mem_monthLengths {year : Int} {days : Nat} (listed : days ∈ monthLengths year) :
    days ≤ 31 := by
  unfold monthLengths at listed
  simp only [List.mem_cons, List.not_mem_nil, or_false] at listed
  split at listed <;> omega

/-- The months before a day of a year, and the days of its month before it. -/
def monthsBefore : List Nat → Nat → Nat × Nat
  | [], day => (0, day)
  | length :: lengths, day =>
    if day < length then (0, day)
    else
      let later := monthsBefore lengths (day - length)
      (later.1 + 1, later.2)

/-- A day is its months and what is left. -/
theorem monthsBefore_spec (lengths : List Nat) (day : Nat) :
    (lengths.take (monthsBefore lengths day).1).sum + (monthsBefore lengths day).2 = day ∧
    (day < lengths.sum → (monthsBefore lengths day).1 < lengths.length ∧
      ∃ length ∈ lengths, (monthsBefore lengths day).2 < length) := by
  induction lengths generalizing day with
  | nil => simp [monthsBefore]
  | cons length lengths ih =>
    rw [monthsBefore]
    by_cases here : day < length
    · simp [here]
    · rw [if_neg here, List.sum_cons]
      dsimp only
      rw [List.take_succ_cons, List.sum_cons, List.length_cons]
      constructor
      · have split := (ih (day - length)).1
        omega
      · intro within
        have later : day - length < lengths.sum := by omega
        obtain ⟨months, other, listed, less⟩ := (ih (day - length)).2 later
        exact ⟨Nat.succ_lt_succ months, other, List.mem_cons_of_mem length listed, less⟩

/-- A date. -/
structure Date where
  /-- The year. -/
  year : Int
  /-- The month, from one. -/
  month : Nat
  /-- The day of the month, from one. -/
  day : Nat
deriving DecidableEq

/-- The date of a day. -/
def date (day : Int) : Date :=
  let years := yearsBefore day
  let inYear := monthsBefore (monthLengths (years + 1)) (day - daysOfYears years).toNat
  ⟨years + 1, inYear.1 + 1, inYear.2 + 1⟩

/-- The days before a date. -/
def Date.days (date : Date) : Int :=
  daysOfYears (date.year - 1) + ((monthLengths date.year).take (date.month - 1)).sum +
    (date.day - 1)

/-- A day is the one of its date. -/
theorem days_date (day : Int) : (date day).days = day := by
  obtain ⟨from_start, _⟩ := daysOfYears_yearsBefore day
  have months := (monthsBefore_spec (monthLengths (yearsBefore day + 1))
    (day - daysOfYears (yearsBefore day)).toNat).1
  unfold Date.days date
  dsimp only
  rw [Int.add_sub_cancel, Nat.add_sub_cancel]
  omega

/-- A date has one of twelve months and one of at most 31 days. -/
theorem date_le (day : Int) : (date day).month ≤ 12 ∧ (date day).day ≤ 31 := by
  obtain ⟨from_start, until_end⟩ := daysOfYears_yearsBefore day
  have within : (day - daysOfYears (yearsBefore day)).toNat <
      (monthLengths (yearsBefore day + 1)).sum := by
    have total := sum_monthLengths (yearsBefore day)
    omega
  obtain ⟨months, length, listed, less⟩ := (monthsBefore_spec _ _).2 within
  have short := le_of_mem_monthLengths listed
  have year : (monthLengths (yearsBefore day + 1)).length = 12 := rfl
  rw [year] at months
  unfold date
  dsimp only
  exact ⟨months, Nat.lt_of_lt_of_le less short⟩

/-- `appendInt`: a number with zeros up to a width. -/
def appendInt (x : Int) (width : Nat) : GoString :=
  (if x < 0 then [45] else []) ++ padded width x.natAbs

/-- The text of a time in the layout `2006-01-02T15:04:05`. -/
def stamp (seconds : Int) : GoString :=
  let date := date (seconds / 86400)
  let clock := (seconds % 86400).toNat
  appendInt date.year 4 ++ [45] ++ padded 2 date.month ++ [45] ++ padded 2 date.day ++ [84] ++
    padded 2 (clock / 3600) ++ [58] ++ padded 2 (clock / 60 % 60) ++ [58] ++ padded 2 (clock % 60)

/-- The number that `appendInt` prints. -/
def readInt (text : GoString) : Int :=
  if text.head? = some 45 then -(digitsValue text.tail : Int) else digitsValue text

/-- The time of a stamp: what stands before the last fifteen bytes is the year. -/
def readStamp (text : GoString) : Int :=
  let back := text.drop (text.length - 15)
  let number := fun start => digitsValue ((back.drop start).take 2)
  (⟨readInt (text.take (text.length - 15)), number 1, number 4⟩ : Date).days * 86400 +
    number 7 * 3600 + number 10 * 60 + number 13

/-- A stamp has digits and the separators of the layout, none of them below the hyphen. -/
theorem le_of_mem_stamp {seconds : Int} {c : UInt8} (inside : c ∈ stamp seconds) : 45 ≤ c := by
  have number : ∀ {width n}, c ∈ padded width n → 45 ≤ c := by
    intro width n there
    exact UInt8.le_trans (by decide) ((isNumeral_padded width n).digits c there).1
  have year : ∀ {x width}, c ∈ appendInt x width → 45 ≤ c := by
    intro x width there
    rcases List.mem_append.mp there with sign | digits
    · split at sign
      · rw [List.mem_singleton.mp sign]
        decide
      · cases sign
    · exact number digits
  simp only [stamp, List.mem_append, List.mem_singleton, or_assoc] at inside
  rcases inside with there | rfl | there | rfl | there | rfl | there | rfl | there | rfl | there
  · exact year there
  all_goals first | exact number there | decide

/-- A stamp starts with a digit, or with the sign of its year. -/
theorem head?_stamp (seconds : Int) :
    ∃ c, (stamp seconds).head? = some c ∧ (c = 45 ∨ IsDigit c) := by
  have year : ∃ c rest, appendInt (date (seconds / 86400)).year 4 = c :: rest ∧
      (c = 45 ∨ IsDigit c) := by
    unfold appendInt
    split
    · exact ⟨45, _, rfl, .inl rfl⟩
    · simp only [List.nil_append]
      have numeral := isNumeral_padded 4 (date (seconds / 86400)).year.natAbs
      obtain ⟨c, rest, digits⟩ := List.exists_cons_of_ne_nil numeral.nonempty
      refine ⟨c, rest, digits, .inr (numeral.digits c ?_)⟩
      rw [digits]
      exact List.mem_cons_self
  obtain ⟨c, rest, start, first⟩ := year
  refine ⟨c, ?_, first⟩
  unfold stamp
  dsimp only
  rw [start]
  rfl

/-- A printed number is read back. -/
theorem readInt_appendInt (x : Int) (width : Nat) : readInt (appendInt x width) = x := by
  have numeral := isNumeral_padded width x.natAbs
  unfold readInt appendInt
  by_cases negative : x < 0
  · simp only [if_pos negative, List.singleton_append, List.head?_cons, List.tail_cons, if_true,
      numeral.value_eq]
    omega
  · rw [if_neg negative, List.nil_append, if_neg, numeral.value_eq]
    · omega
    · intro sign
      have digit := numeral.digits 45 (List.mem_of_mem_head? sign)
      exact absurd digit (by decide)

/-- A time is read back from its stamp. -/
theorem readStamp_stamp (seconds : Int) : readStamp (stamp seconds) = seconds := by
  obtain ⟨month_le, day_le⟩ := date_le (seconds / 86400)
  have days := days_date (seconds / 86400)
  have clock_lt : (seconds % 86400).toNat < 86400 := by omega
  have clock_eq : ((seconds % 86400).toNat : Int) = seconds % 86400 := by omega
  unfold stamp
  dsimp only
  generalize date (seconds / 86400) = day at month_le day_le days
  generalize (seconds % 86400).toNat = clock at clock_lt clock_eq
  -- Each number after the year stands in two digits.
  have two : ∀ n, n < 100 → ∃ high low, padded 2 n = [high, low] ∧ digitsValue [high, low] = n := by
    intro n small
    have length : (padded 2 n).length = 2 := length_padded (by decide) small
    obtain ⟨high, low, digits⟩ := List.length_eq_two.mp length
    exact ⟨high, low, digits, digits ▸ (isNumeral_padded 2 n).value_eq⟩
  obtain ⟨m₁, m₂, month, month_eq⟩ := two day.month (by omega)
  obtain ⟨d₁, d₂, dayOfMonth, day_eq⟩ := two day.day (by omega)
  obtain ⟨h₁, h₂, hour, hour_eq⟩ := two (clock / 3600) (by omega)
  obtain ⟨i₁, i₂, minute, minute_eq⟩ := two (clock / 60 % 60) (by omega)
  obtain ⟨s₁, s₂, second, second_eq⟩ := two (clock % 60) (by omega)
  have text : appendInt day.year 4 ++ [45] ++ padded 2 day.month ++ [45] ++ padded 2 day.day ++
      [84] ++ padded 2 (clock / 3600) ++ [58] ++ padded 2 (clock / 60 % 60) ++ [58] ++
      padded 2 (clock % 60) = appendInt day.year 4 ++
        [45, m₁, m₂, 45, d₁, d₂, 84, h₁, h₂, 58, i₁, i₂, 58, s₁, s₂] := by
    rw [month, dayOfMonth, hour, minute, second]
    simp
  have front : (appendInt day.year 4 ++ [45, m₁, m₂, 45, d₁, d₂, 84, h₁, h₂, 58, i₁, i₂, 58, s₁,
      s₂]).length - 15 = (appendInt day.year 4).length := by simp
  rw [text, readStamp, front, List.drop_left, List.take_left, readInt_appendInt]
  simp only [List.drop_succ_cons, List.drop_zero, List.take_succ_cons, List.take_zero, month_eq,
    day_eq, hour_eq, minute_eq, second_eq]
  rw [show (⟨day.year, day.month, day.day⟩ : Date) = day from rfl, days]
  omega

end ContainerAnomaly.Lib.Calendar
