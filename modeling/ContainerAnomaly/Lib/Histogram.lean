import ContainerAnomaly.Lib.GoMap
import ContainerAnomaly.Lib.Regroup

/-!
# Counting in a map

A loop that adds one under each item of a list, which starts from zero. The map has every item
once, with the number of times that it is listed, and the numbers add up to the length of the list
(`sum_histogram`).
-/

namespace ContainerAnomaly.Lib.GoMap

variable {κ : Type} [DecidableEq κ]

/-- `for _, item := range items { histogram[item]++ }`. -/
def histogram (items : List κ) : GoMap κ Nat :=
  items.foldl (fun map item => map.upsert 0 item (· + 1)) ∅

variable [BEq κ] [LawfulBEq κ] (items : List κ) (order : RangeOrder κ Nat)

/-- An item is found with the number of times that it is listed. -/
theorem lookup_histogram (key : κ) :
    (histogram items).lookup key = if key ∈ items then some (items.count key) else none := by
  have counts := lookup_foldl_upsert 0 (fun item : κ => item) (fun _ => (· + 1)) items
    (∅ : GoMap κ Nat) key
  rw [List.filter_eq] at counts
  by_cases listed : key ∈ items
  · obtain ⟨fewer, number⟩ := Nat.exists_eq_add_one.mpr (List.count_pos_iff.mpr listed)
    rw [number, List.replicate_succ] at counts
    rw [if_pos listed, number]
    refine counts.trans (congrArg some ?_)
    rw [List.foldl_add_const, List.length_cons, List.length_replicate]
    simp [getD]
  · rw [List.count_eq_zero.mpr listed, List.replicate_zero] at counts
    rw [if_neg listed]
    exact counts

/-- The keys are the items. -/
theorem mem_histogram_iff (key : κ) :
    key ∈ ((histogram items).range order).map Prod.fst ↔ key ∈ items := by
  constructor
  · intro present
    obtain ⟨entry, inside, rfl⟩ := List.mem_map.mp present
    have stored := (mem_range_iff order _ entry.1 entry.2).mp inside
    rw [lookup_histogram] at stored
    by_contra unlisted
    rw [if_neg unlisted] at stored
    cases stored
  · intro listed
    have stored := lookup_histogram items key
    rw [if_pos listed] at stored
    exact List.mem_map.mpr ⟨_, (mem_range_iff order _ _ _).mpr stored, rfl⟩

/-- The entries, by their keys. -/
theorem range_histogram :
    (histogram items).range order =
      (((histogram items).range order).map Prod.fst).map fun key => (key, items.count key) := by
  rw [List.map_map]
  refine (List.map_id _).symm.trans (List.map_congr_left fun entry inside => ?_)
  have stored := (mem_range_iff order _ entry.1 entry.2).mp inside
  have listed := (mem_histogram_iff items order entry.1).mp (List.mem_map_of_mem inside)
  rw [lookup_histogram, if_pos listed] at stored
  exact Prod.ext rfl (Option.some.inj stored).symm

/-- The numbers add up to the length of the list. -/
theorem sum_histogram : (((histogram items).range order).map Prod.snd).sum = items.length := by
  have distinct : (((histogram items).range order).map Prod.fst).Nodup :=
    range_keys_nodup order (histogram items)
  have keys : (((histogram items).range order).map Prod.fst).toFinset = items.toFinset := by
    ext key
    rw [List.mem_toFinset, List.mem_toFinset, mem_histogram_iff]
  have groups := countP_groups (fun item : κ => item) (fun _ => true)
    (fun _ => List.mem_toFinset.mpr : ∀ item ∈ items, item ∈ items.toFinset)
  simp only [List.filter_eq, List.countP_true, List.length_replicate] at groups
  rw [range_histogram, List.map_map, groups, ← keys, List.sum_toFinset _ distinct]
  rfl

end ContainerAnomaly.Lib.GoMap
