import ContainerAnomaly.Lib.GoMap

/-!
# Polls that report differences

A poller reads a value for each key, forgets the keys that are gone, and reports for each key
that is left how its value differs from the one it saw last. What is reported for a key is a
parameter (`row`); `poll_rows` and `poll_seen` are the specification of one poll.
-/

namespace ContainerAnomaly.Lib.DeltaPoll

variable {κ ν μ ρ : Type} [DecidableEq κ]

/-- The values read from the entries of an iteration. -/
def collect (value : ν → μ) (visited : List (κ × ν)) : GoMap κ μ :=
  visited.foldl (fun current entry => current.insert entry.1 (value entry.2)) ∅

/-- One round of the reporting loop: remember the value, report what has changed. -/
def report (zero : μ) (row : κ → μ → μ → Option ρ) (state : GoMap κ μ × List ρ)
    (entry : κ × μ) : GoMap κ μ × List ρ :=
  (state.1.insert entry.1 entry.2,
    state.2 ++ (row entry.1 (GoMap.getD state.1 entry.1 zero) entry.2).toList)

/-- One poll over the entries of an iteration. -/
def poll (order : RangeOrder κ μ) (value : ν → μ) (zero : μ) (row : κ → μ → μ → Option ρ)
    (visited : List (κ × ν)) (seen : GoMap κ μ) : GoMap κ μ × List ρ :=
  ((collect value visited).range order).foldl (report zero row)
    (seen.retain (· ∈ collect value visited), [])

/-- The values collected from distinct keys. -/
theorem lookup_collect (value : ν → μ) (visited : List (κ × ν))
    (distinct : (visited.map Prod.fst).Nodup) (key : κ) (read : μ) :
    (collect value visited).lookup key = some read ↔
      ∃ stored, (key, stored) ∈ visited ∧ value stored = read := by
  have running (entries : List (κ × ν)) (current : GoMap κ μ)
      (fresh : (entries.map Prod.fst).Nodup) :
      (entries.foldl (fun current entry => current.insert entry.1 (value entry.2))
        current).lookup key = some read ↔
      (∃ stored, (key, stored) ∈ entries ∧ value stored = read) ∨
        key ∉ entries.map Prod.fst ∧ current.lookup key = some read := by
    induction entries generalizing current with
    | nil => simp
    | cons entry entries ih =>
      obtain ⟨first, stored⟩ := entry
      rw [List.map_cons, List.nodup_cons] at fresh
      rw [List.foldl_cons, ih _ fresh.2]
      by_cases same : key = first
      · subst same
        have absent : ∀ other, (key, other) ∉ entries := by
          intro other inside
          exact fresh.1 (List.mem_map.mpr ⟨_, inside, rfl⟩)
        simp [absent]
      · simp [same, AList.lookup_insert_ne same]
  rw [collect, running visited ∅ distinct]
  simp

/-- The range loop meets the values of the iteration, in some order. -/
theorem range_collect (order : RangeOrder κ μ) (value : ν → μ) (visited : List (κ × ν))
    (distinct : (visited.map Prod.fst).Nodup) :
    ((collect value visited).range order).Perm
      (visited.map fun entry => (entry.1, value entry.2)) := by
  have keys : (visited.map fun entry => (entry.1, value entry.2)).map Prod.fst =
      visited.map Prod.fst := by
    rw [List.map_map]
    rfl
  apply (List.perm_ext_iff_of_nodup _ _).mpr
  · intro entry
    rw [GoMap.mem_range_iff, lookup_collect value visited distinct, List.mem_map]
    constructor
    · rintro ⟨stored, inside, read⟩
      exact ⟨_, inside, Prod.ext rfl read⟩
    · rintro ⟨⟨key, stored⟩, inside, rfl⟩
      exact ⟨stored, inside, rfl⟩
  · exact (GoMap.range_keys_nodup order _).of_map Prod.fst
  · exact (keys ▸ distinct).of_map Prod.fst

/-- The loop over distinct keys reports every difference to what was seen before it, and
remembers the values it met. -/
theorem foldl_report (zero : μ) (row : κ → μ → μ → Option ρ) (entries : List (κ × μ))
    (distinct : (entries.map Prod.fst).Nodup) (seen : GoMap κ μ) (rows : List ρ) :
    (entries.foldl (report zero row) (seen, rows)).2 = rows ++ entries.filterMap (fun entry =>
      row entry.1 (GoMap.getD seen entry.1 zero) entry.2) ∧
    ∀ key read, (entries.foldl (report zero row) (seen, rows)).1.lookup key = some read ↔
      (key, read) ∈ entries ∨ key ∉ entries.map Prod.fst ∧ seen.lookup key = some read := by
  induction entries generalizing seen rows with
  | nil => simp
  | cons entry entries ih =>
    obtain ⟨first, stored⟩ := entry
    rw [List.map_cons, List.nodup_cons] at distinct
    have unseen : ∀ other ∈ entries,
        row other.1 (GoMap.getD (seen.insert first stored) other.1 zero) other.2 =
          row other.1 (GoMap.getD seen other.1 zero) other.2 := by
      intro other inside
      have apart : other.1 ≠ first := by
        intro same
        exact distinct.1 (List.mem_map.mpr ⟨other, inside, same⟩)
      rw [GoMap.getD_insert_ne seen apart]
    obtain ⟨reported, remembered⟩ := ih distinct.2 (seen.insert first stored)
      (rows ++ (row first (GoMap.getD seen first zero) stored).toList)
    rw [List.foldl_cons]
    constructor
    · change (entries.foldl _ (seen.insert first stored, _)).2 = _
      rw [reported, List.filterMap_congr unseen, List.append_assoc]
      cases found : row first (GoMap.getD seen first zero) stored <;> simp [found]
    · intro key read
      change (entries.foldl _ (seen.insert first stored, _)).1.lookup key = some read ↔ _
      rw [remembered key read]
      by_cases same : key = first
      · subst same
        have absent : ∀ other, (key, other) ∉ entries := by
          intro other inside
          exact distinct.1 (List.mem_map.mpr ⟨_, inside, rfl⟩)
        have gone : key ∉ entries.map Prod.fst := distinct.1
        simp [absent, gone, eq_comm]
      · simp [same, AList.lookup_insert_ne same]

/-- Among rows made from distinct keys, those of one key are the row its entry makes. -/
theorem filter_filterMap_of_key (make : κ × ν → Option ρ) (keyOf : ρ → κ)
    (keyed : ∀ entry out, make entry = some out → keyOf out = entry.1) (entries : List (κ × ν))
    (distinct : (entries.map Prod.fst).Nodup) (key : κ) :
    (entries.filterMap make).filter (fun out => keyOf out = key) =
      ((entries.find? fun entry => entry.1 = key).bind make).toList := by
  induction entries with
  | nil => rfl
  | cons entry entries ih =>
    rw [List.map_cons, List.nodup_cons] at distinct
    have rest := ih distinct.2
    by_cases same : entry.1 = key
    · have absent : (entries.find? fun other => other.1 = key) = none := by
        rw [List.find?_eq_none]
        intro other inside
        simpa [← same] using fun equal => distinct.1 (List.mem_map.mpr ⟨other, inside, equal⟩)
      rw [absent, Option.bind_none, Option.toList_none] at rest
      rw [List.find?_cons_of_pos (by simpa using same), Option.bind_some]
      cases made : make entry with
      | none => simpa [made] using rest
      | some out => simp [made, rest, keyed entry out made, same]
    · rw [List.find?_cons_of_neg (by simpa using same), ← rest]
      cases made : make entry with
      | none => simp [made]
      | some out =>
        have other : keyOf out ≠ key := by
          rw [keyed entry out made]
          exact same
        simp [made, other]

section Poll

variable (order : RangeOrder κ μ) (value : ν → μ) (zero : μ) (row : κ → μ → μ → Option ρ)
  (visited : List (κ × ν)) (distinct : (visited.map Prod.fst).Nodup) (seen : GoMap κ μ)

include distinct in
/-- The rows of a poll, in some order: what each visited entry differs in from what was seen. -/
theorem poll_rows : (poll order value zero row visited seen).2.Perm
    (visited.filterMap fun entry =>
      row entry.1 (GoMap.getD seen entry.1 zero) (value entry.2)) := by
  have reported := (foldl_report zero row ((collect value visited).range order)
    (GoMap.range_keys_nodup order _) (seen.retain (· ∈ collect value visited)) []).1
  have kept : ∀ entry ∈ (collect value visited).range order,
      row entry.1 (GoMap.getD (seen.retain (· ∈ collect value visited)) entry.1 zero) entry.2 =
        row entry.1 (GoMap.getD seen entry.1 zero) entry.2 := by
    intro entry inside
    have present : entry.1 ∈ collect value visited :=
      AList.lookup_isSome.mp (by rw [(GoMap.mem_range_iff order _ _ _).mp inside]; rfl)
    rw [GoMap.getD, GoMap.lookup_retain, if_pos (decide_eq_true present), ← GoMap.getD]
  have differences := (range_collect order value visited distinct).filterMap
    fun entry => row entry.1 (GoMap.getD seen entry.1 zero) entry.2
  rw [List.nil_append, List.filterMap_congr kept] at reported
  rw [List.filterMap_map] at differences
  rw [poll, reported]
  exact differences

include distinct in
/-- A poll remembers the values of the visited entries, and nothing else. -/
theorem poll_seen (key : κ) (read : μ) :
    (poll order value zero row visited seen).1.lookup key = some read ↔
      ∃ stored, (key, stored) ∈ visited ∧ value stored = read := by
  have remembered := (foldl_report zero row ((collect value visited).range order)
    (GoMap.range_keys_nodup order _) (seen.retain (· ∈ collect value visited)) []).2 key read
  rw [poll, remembered, GoMap.mem_range_iff, lookup_collect value visited distinct]
  constructor
  · rintro (read | ⟨missed, kept⟩)
    · exact read
    · rw [GoMap.lookup_retain] at kept
      split at kept
      · rename_i present
        obtain ⟨other, found⟩ := Option.isSome_iff_exists.mp
          (AList.lookup_isSome.mpr (of_decide_eq_true present))
        have inside := (GoMap.mem_range_iff order _ _ _).mpr found
        exact absurd (List.mem_map.mpr ⟨_, inside, rfl⟩) missed
      · cases kept
  · exact .inl

include distinct in
/-- The rows of a poll that belong to one key: at most what its entry differs in. -/
theorem poll_rows_of_key (keyOf : ρ → κ)
    (keyed : ∀ key before now out, row key before now = some out → keyOf out = key) (key : κ) :
    (poll order value zero row visited seen).2.filter (fun out => keyOf out = key) =
      ((visited.find? fun entry => entry.1 = key).bind fun entry =>
        row key (GoMap.getD seen key zero) (value entry.2)).toList := by
  have rows := (poll_rows order value zero row visited distinct seen).filter
    fun out => keyOf out = key
  have single := filter_filterMap_of_key
    (fun entry : κ × ν => row entry.1 (GoMap.getD seen entry.1 zero) (value entry.2)) keyOf
    (fun entry out made => keyed _ _ _ out made) visited distinct key
  have own : ((visited.find? fun entry => entry.1 = key).bind fun entry =>
        row entry.1 (GoMap.getD seen entry.1 zero) (value entry.2)) =
      (visited.find? fun entry => entry.1 = key).bind fun entry =>
        row key (GoMap.getD seen key zero) (value entry.2) := by
    cases found : visited.find? fun entry => entry.1 = key with
    | none => rfl
    | some entry =>
      have same : entry.1 = key := by simpa using List.find?_some found
      rw [Option.bind_some, Option.bind_some, same]
  rw [own] at single
  rw [single] at rows
  cases found : (visited.find? fun entry => entry.1 = key).bind fun entry =>
      row key (GoMap.getD seen key zero) (value entry.2) with
  | none =>
    rw [found] at rows
    exact List.perm_nil.mp rows
  | some out =>
    rw [found] at rows
    exact List.perm_singleton.mp rows

end Poll

end ContainerAnomaly.Lib.DeltaPoll
