import Mathlib.Data.List.Sort
import Mathlib.Order.Defs.LinearOrder

/-!
# Order statistics

The item of a rank in a list, by how many items are below it and how many are not above it. It is
the item at that place of the sorted list (`isRank_insertionSort`).
-/

namespace ContainerAnomaly.Lib

variable {α : Type} [LinearOrder α]

/-- An item has a rank: at most so many items are below it, and more are not above it. -/
def IsRank (items : List α) (rank : Nat) (item : α) : Prop :=
  items.countP (· < item) ≤ rank ∧ rank < items.countP (· ≤ item)

/-- The item at a place of the sorted list has the rank of this place. -/
theorem isRank_insertionSort (items : List α) {rank : Nat} (inside : rank < items.length)
    (other : α) : IsRank items rank ((items.insertionSort (· ≤ ·)).getD rank other) := by
  have perm := List.perm_insertionSort (· ≤ ·) items
  have sorted := List.pairwise_insertionSort (· ≤ ·) items
  have long : rank < (items.insertionSort (· ≤ ·)).length := by rwa [List.length_insertionSort]
  rw [IsRank, ← perm.countP_eq, ← perm.countP_eq]
  generalize items.insertionSort (· ≤ ·) = ordered at *
  have split := List.take_append_drop rank ordered
  rw [List.drop_eq_getElem_cons long] at split
  have item : ordered.getD rank other = ordered[rank] := by
    rw [List.getD_eq_getElem?_getD, List.getElem?_eq_getElem long, Option.getD_some]
  rw [item]
  generalize ordered[rank] = middle at *
  have length : (ordered.take rank).length = rank := by
    rw [List.length_take]
    omega
  rw [← split] at sorted ⊢
  obtain ⟨_, rest, across⟩ := List.pairwise_append.mp sorted
  rw [List.pairwise_cons] at rest
  have above : (middle :: ordered.drop (rank + 1)).countP (· < middle) = 0 := by
    rw [List.countP_eq_zero]
    intro later after
    rcases List.mem_cons.mp after with rfl | after
    · simp
    · simpa using rest.1 later after
  have below : (ordered.take rank).countP (· ≤ middle) = rank := by
    refine Eq.trans ?_ length
    rw [List.countP_eq_length]
    exact fun earlier before => decide_eq_true (across earlier before middle List.mem_cons_self)
  have itself : 0 < (middle :: ordered.drop (rank + 1)).countP (· ≤ middle) :=
    List.countP_pos_iff.mpr ⟨middle, List.mem_cons_self, decide_eq_true (le_refl middle)⟩
  rw [List.countP_append, List.countP_append, above, below]
  constructor
  · exact (Nat.add_zero _).trans_le (List.countP_le_length.trans length.le)
  · exact Nat.lt_add_of_pos_right itself

end ContainerAnomaly.Lib
