import Mathlib

/-!
# Counting twice

Some tests are made of some items. How many items pass each test adds up to how many tests each item
passes (`sum_countP_comm`), so that it is no more than the items when each passes one at most.
-/

namespace ContainerAnomaly.Lib

variable {α β : Type}

/-- Counting adds one for each item that passes. -/
theorem countP_eq_sum (test : α → Bool) (items : List α) :
    items.countP test = (items.map fun item => if test item then 1 else 0).sum := by
  induction items with
  | nil => rfl
  | cons item items ih => rw [List.countP_cons, ih, List.map_cons, List.sum_cons, add_comm]

/-- The items that pass two tests, with the tests in the other order. -/
theorem length_filter_filter (test other : α → Bool) (items : List α) :
    ((items.filter test).filter other).length = (items.filter other).countP test := by
  rw [List.countP_eq_length_filter, List.filter_filter, List.filter_filter]
  exact congrArg List.length (List.filter_congr fun item _ => Bool.and_comm _ _)

/-- The items that pass each test add up to the tests that each item passes. -/
theorem sum_countP_comm (test : β → α → Bool) (tests : List β) (items : List α) :
    (tests.map fun one => items.countP (test one)).sum =
      (items.map fun item => tests.countP fun one => test one item).sum := by
  induction tests with
  | nil => simp
  | cons one tests ih =>
    rw [List.map_cons, List.sum_cons, ih, countP_eq_sum, ← List.sum_map_add]
    refine congrArg List.sum (List.map_congr_left fun item _ => ?_)
    rw [List.countP_cons, Nat.add_comm]

/-- When each item passes one test at most, the tests pass no more than the items. -/
theorem sum_countP_le (test : β → α → Bool) (tests : List β) (items : List α)
    (once : ∀ item ∈ items, (tests.countP fun one => test one item) ≤ 1) :
    (tests.map fun one => items.countP (test one)).sum ≤ items.length := by
  rw [sum_countP_comm]
  have most := List.sum_le_card_nsmul
    (items.map fun item => tests.countP fun one => test one item) 1 (by simpa using once)
  simpa using most

/-- One item at most passes a test that no two items pass. -/
theorem countP_le_one {test : α → Bool} {items : List α}
    (apart : items.Pairwise fun item other => test item → test other → False) :
    items.countP test ≤ 1 := by
  induction items with
  | nil => exact Nat.zero_le 1
  | cons item items ih =>
    obtain ⟨others, rest⟩ := List.pairwise_cons.mp apart
    rw [List.countP_cons]
    by_cases passes : test item
    · have alone : items.countP test = 0 :=
        List.countP_eq_zero.mpr fun other inside also => others other inside passes also
      rw [alone, if_pos passes]
    · rw [if_neg passes]
      exact ih rest

end ContainerAnomaly.Lib
