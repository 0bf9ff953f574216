import Mathlib.Algebra.BigOperators.Group.List.Basic
import Mathlib.Algebra.Order.BigOperators.Group.List
import Mathlib.Algebra.BigOperators.Ring.Finset
import Mathlib.Algebra.BigOperators.Ring.List
import Mathlib.Algebra.Order.Field.Basic
import Mathlib.Data.UInt

/-!
# A whole and its parts

A family of counters of which one, the whole, is the sum of some others, the parts. The law holds
of zeros, is kept by adding two families and by taking one from another, and by counting something
in the whole and in one part. In an ordered field the parts over a positive whole are shares:
between zero and one, and one in all (`shares`).
-/

namespace ContainerAnomaly.Lib

variable {α M : Type}

/-- The whole is the sum of the parts. -/
def IsWhole [Add M] [Zero M] (whole : α) (parts : List α) (values : α → M) : Prop :=
  values whole = (parts.map values).sum

namespace IsWhole

variable {whole : α} {parts : List α}

/-- Zeros are a whole and its parts. -/
theorem zero [AddMonoid M] : IsWhole whole parts fun _ => (0 : M) := by
  simp [IsWhole]

/-- Two families are added part by part. -/
theorem add [AddCommMonoid M] {left right : α → M} (first : IsWhole whole parts left)
    (second : IsWhole whole parts right) :
    IsWhole whole parts fun label => left label + right label := by
  show left whole + right whole = _
  rw [first, second, List.sum_map_add]

/-- What a family has grown by is a whole and its parts when it was and is one. -/
theorem of_add [AddCancelCommMonoid M] {left right : α → M} (first : IsWhole whole parts left)
    (both : IsWhole whole parts fun label => left label + right label) :
    IsWhole whole parts right := by
  have sums : left whole + right whole = (parts.map left).sum + (parts.map right).sum :=
    both.trans List.sum_map_add
  rw [← first] at sums
  exact add_left_cancel sums

/-- As much for the whole as for one of the parts. -/
theorem single [DecidableEq α] [AddMonoid M] (amount : M) {part : α} (member : part ∈ parts)
    (distinct : parts.Nodup) (apart : whole ∉ parts) :
    IsWhole whole parts fun label => if label = whole ∨ label = part then amount else 0 := by
  have others : ∀ label, label ≠ part → label ∈ parts →
      (if label = whole ∨ label = part then amount else 0) = 0 := by
    intro label other inside
    have part_only : label ≠ whole := fun same => apart (same ▸ inside)
    simp [part_only, other]
  have sum := List.sum_map_eq_nsmul_single part _ others
  rw [List.count_eq_one_of_mem distinct member, one_nsmul, if_pos (.inr rfl)] at sum
  show (if whole = whole ∨ whole = part then amount else 0) = _
  rw [sum, if_pos (.inl rfl)]

/-- A whole that wraps around is exact when its parts do not add up to more than fits. -/
theorem toNat {values : α → UInt64} (holds : IsWhole whole parts values)
    (fits : (parts.map fun label => (values label).toNat).sum < 2 ^ 64) :
    IsWhole whole parts fun label => (values label).toNat := by
  have sums : ∀ list : List α, (list.map fun label => (values label).toNat).sum < 2 ^ 64 →
      (list.map values).sum.toNat = (list.map fun label => (values label).toNat).sum := by
    intro list
    induction list with
    | nil => exact fun _ => rfl
    | cons label list ih =>
      intro small
      rw [List.map_cons, List.sum_cons] at small
      have rest := ih (by omega)
      rw [List.map_cons, List.sum_cons, List.map_cons, List.sum_cons, UInt64.toNat_add, rest,
        Nat.mod_eq_of_lt small]
  show (values whole).toNat = _
  rw [holds, sums parts fits]

/-- Natural numbers are a whole and its parts when they are cast, too. -/
theorem natCast {K : Type} [AddCommMonoidWithOne K] {values : α → Nat}
    (holds : IsWhole whole parts values) :
    IsWhole whole parts fun label => (values label : K) := by
  show ((values whole : Nat) : K) = _
  rw [holds, Nat.cast_list_sum, List.map_map]
  rfl

section Shares

variable {K : Type} [Field K] [LinearOrder K] [IsStrictOrderedRing K]

/-- The parts over a positive whole are between zero and one, and one in all. -/
theorem shares {values : α → K} (holds : IsWhole whole parts values)
    (nonnegative : ∀ label ∈ parts, 0 ≤ values label) (positive : 0 < values whole) :
    (∀ label ∈ parts, 0 ≤ values label / values whole ∧ values label / values whole ≤ 1) ∧
      (parts.map fun label => values label / values whole).sum = 1 := by
  constructor
  · intro label inside
    have part : values label ≤ values whole := by
      rw [holds]
      exact List.single_le_sum (by simpa using nonnegative) _ (List.mem_map_of_mem inside)
    exact ⟨div_nonneg (nonnegative label inside) positive.le, (div_le_one positive).mpr part⟩
  · have total : (parts.map fun label => values label / values whole).sum =
        (parts.map values).sum / values whole := by
      simp only [div_eq_mul_inv]
      exact List.sum_map_mul_right ..
    rw [total, ← holds, div_self positive.ne']

end Shares

end IsWhole

end ContainerAnomaly.Lib
