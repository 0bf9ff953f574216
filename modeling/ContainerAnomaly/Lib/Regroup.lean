import ContainerAnomaly.Lib.Incidence

/-!
# Group by group, and back

A list is split by key, each group is worked on by itself, and the results are put back in the
order of labels. No item is lost, made twice or moved when the labels of the list were increasing
(`sort_groups`). What is counted or added up group by group is so once (`count_groups`,
`countP_groups`, `sum_groups`).
-/

namespace ContainerAnomaly.Lib

variable {α β κ ι : Type} [DecidableEq κ]

/-- The groups of a list are a permutation of it. -/
theorem flatten_groups_perm (key : α → κ) (items : List α) (keys : List κ)
    (distinct : keys.Nodup) (listed : ∀ item ∈ items, key item ∈ keys) :
    (keys.map fun k => items.filter fun item => key item = k).flatten.Perm items := by
  induction keys generalizing items with
  | nil =>
    have none : items = [] := List.eq_nil_iff_forall_not_mem.mpr fun item inside =>
      (List.not_mem_nil (listed item inside))
    rw [none]
    rfl
  | cons k keys ih =>
    obtain ⟨fresh, distinct⟩ := List.nodup_cons.mp distinct
    let others := items.filter fun item => !decide (key item = k)
    have rest : (keys.map fun k => others.filter fun item => key item = k).flatten.Perm others :=
      ih others distinct fun item inside => by
        obtain ⟨member, other⟩ := List.mem_filter.mp inside
        exact (List.mem_cons.mp (listed item member)).resolve_left (by simpa using other)
    have same : ∀ other ∈ keys, (others.filter fun item => key item = other) =
        items.filter fun item => key item = other := by
      intro other later
      have apart : other ≠ k := fun same => fresh (same ▸ later)
      rw [List.filter_filter]
      refine List.filter_congr fun item _ => ?_
      by_cases own : key item = other
      · simp [own, apart]
      · simp [own]
    rw [List.map_cons, List.flatten_cons, ← List.map_congr_left same]
    exact (rest.append_left _).trans (List.filter_append_perm _ items)

/-- A value occurs as often as it does in all groups together. -/
theorem count_groups [Fintype κ] [DecidableEq β] (f : α → Option (κ × β)) (list : List α)
    (value : β) :
    (list.filterMap fun a => (f a).map Prod.snd).count value =
      ∑ key, (list.filterMap fun a =>
        (f a).bind fun item => if item.1 = key then some item.2 else none).count value := by
  induction list with
  | nil => simp
  | cons a list ih =>
    cases found : f a with
    | none => simpa [List.filterMap_cons, found] using ih
    | some item =>
      have own : ∀ key, (((a :: list).filterMap fun a =>
          (f a).bind fun item => if item.1 = key then some item.2 else none).count value) =
          (list.filterMap fun a =>
            (f a).bind fun item => if item.1 = key then some item.2 else none).count value +
            if item.1 = key then (if item.2 = value then 1 else 0) else 0 := by
        intro key
        by_cases here : item.1 = key
        · simp [found, here, List.count_cons]
        · simp [found, here]
      rw [Finset.sum_congr rfl fun key _ => own key, Finset.sum_add_distrib, ← ih,
        Finset.sum_ite_eq]
      simp [found, List.count_cons]

/-- What is added up group by group is added up once. -/
theorem sum_groups (key : α → κ) (f : α → Nat) {items : List α} {keys : Finset κ}
    (listed : ∀ item ∈ items, key item ∈ keys) :
    (items.map f).sum = ∑ k ∈ keys, ((items.filter fun item => key item = k).map f).sum := by
  induction items with
  | nil => simp
  | cons item items ih =>
    obtain ⟨own, others⟩ := List.forall_mem_cons.mp listed
    have split : ∀ k, (((item :: items).filter fun item => key item = k).map f).sum =
        ((items.filter fun item => key item = k).map f).sum +
          if key item = k then f item else 0 := by
      intro k
      by_cases same : key item = k
      · simp [same, add_comm]
      · simp [same]
    rw [List.map_cons, List.sum_cons, ih others, Finset.sum_congr rfl fun k _ => split k,
      Finset.sum_add_distrib, Finset.sum_ite_eq, if_pos own, add_comm]

/-- What is counted group by group is counted once. -/
theorem countP_groups (key : α → κ) (test : α → Bool) {items : List α} {keys : Finset κ}
    (listed : ∀ item ∈ items, key item ∈ keys) :
    items.countP test = ∑ k ∈ keys, (items.filter fun item => key item = k).countP test := by
  simp only [countP_eq_sum]
  exact sum_groups key _ listed

variable [LinearOrder ι]

/-- Positions increase along a list. -/
theorem increasing_zipIdx (items : List α) : items.zipIdx.Pairwise fun a b => a.2 < b.2 := by
  rw [← List.pairwise_map (f := Prod.snd), List.zipIdx_map_snd]
  exact List.pairwise_lt_range'

/-- What comes out of the groups, in the order of increasing labels, belongs to the items in their
order. -/
theorem sort_groups (key : α → κ) (label : α → ι) {items : List α}
    (increasing : items.Pairwise fun a b => label a < label b) {keys : List κ}
    (distinct : keys.Nodup) (listed : ∀ item ∈ items, key item ∈ keys)
    (results : κ → List (α × β))
    (own : ∀ k ∈ keys, (results k).map Prod.fst = items.filter fun item => key item = k)
    (order : α × β → α × β → Prop) [DecidableRel order]
    (ordered : ∀ left right, order left right ↔ label left.1 ≤ label right.1) :
    ((keys.map results).flatten.insertionSort order).map Prod.fst = items := by
  have total : Std.Total order :=
    ⟨fun a b => by rw [ordered, ordered]; exact le_total _ _⟩
  have transitive : IsTrans (α × β) order :=
    ⟨fun a b c => by rw [ordered, ordered, ordered]; exact le_trans⟩
  have regrouped :
      (((keys.map results).flatten.insertionSort order).map Prod.fst).Perm items := by
    refine ((List.perm_insertionSort order _).map Prod.fst).trans ?_
    have groups : keys.map (List.map Prod.fst ∘ results) =
        keys.map fun k => items.filter fun item => key item = k := List.map_congr_left own
    rw [List.map_flatten, List.map_map, groups]
    exact flatten_groups_perm key items keys distinct listed
  have sorted : (((keys.map results).flatten.insertionSort order).map Prod.fst).Pairwise
      fun a b => label a ≤ label b := by
    rw [List.pairwise_map]
    exact (List.pairwise_insertionSort order _).imp fun below => (ordered _ _).mp below
  refine regrouped.eq_of_pairwise (fun a b member inside below above => ?_) sorted
    (increasing.imp fun below => below.le)
  have labels : (items.map label).Nodup :=
    (List.pairwise_map.mpr increasing).imp fun below => below.ne
  exact List.inj_on_of_nodup_map labels (regrouped.mem_iff.mp member) inside
    (le_antisymm below above)

end ContainerAnomaly.Lib
