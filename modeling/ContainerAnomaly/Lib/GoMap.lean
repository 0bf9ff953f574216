import Mathlib.Data.List.AList

/-!
# Maps ranged over in any order

A map of distinct keys that is ranged over in an order the language leaves open. The order is a
value of its own (`RangeOrder`), a permutation of the entries, so a function that ranges over a
map takes one and every result about it holds for all of them.
-/

namespace ContainerAnomaly.Lib

/-- A finite map of distinct keys without a bound. -/
abbrev GoMap (κ ν : Type) := AList fun _ : κ => ν

/-- One order in which the entries of a map are ranged over. -/
structure RangeOrder (κ ν : Type) where
  /-- Rearrange the entries. -/
  order : List (κ × ν) → List (κ × ν)
  /-- Every entry is ranged over once. -/
  perm : ∀ entries, (order entries).Perm entries

/-- The entries in the order they are stored. -/
def RangeOrder.stored (κ ν : Type) : RangeOrder κ ν := ⟨id, fun _ => List.Perm.refl _⟩

namespace GoMap

variable {κ ν : Type}

/-- The entries as pairs. -/
def pairs (map : GoMap κ ν) : List (κ × ν) := map.entries.map fun entry => (entry.1, entry.2)

/-- The entries in the order of one range loop. -/
def range (order : RangeOrder κ ν) (map : GoMap κ ν) : List (κ × ν) := order.order map.pairs

/-- The keys of the pairs are the keys of the map. -/
theorem pairs_keys (map : GoMap κ ν) : map.pairs.map Prod.fst = map.keys := by
  simp only [pairs, List.map_map]
  rfl

/-- No key is ranged over twice. -/
theorem range_keys_nodup (order : RangeOrder κ ν) (map : GoMap κ ν) :
    ((map.range order).map Prod.fst).Nodup := by
  rw [range, ((order.perm map.pairs).map Prod.fst).nodup_iff, pairs_keys]
  exact map.keys_nodup

variable [DecidableEq κ]

/-- The pairs are exactly what lookups find. -/
theorem mem_pairs_iff (map : GoMap κ ν) (key : κ) (value : ν) :
    (key, value) ∈ map.pairs ↔ map.lookup key = some value := by
  rw [← Option.mem_def, AList.mem_lookup_iff]
  constructor
  · intro member
    obtain ⟨⟨_, _⟩, inside, same⟩ := List.mem_map.mp member
    obtain ⟨rfl, rfl⟩ := Prod.mk.inj same
    exact inside
  · exact fun inside => List.mem_map.mpr ⟨_, inside, rfl⟩

/-- A range loop meets exactly the entries. -/
theorem mem_range_iff (order : RangeOrder κ ν) (map : GoMap κ ν) (key : κ) (value : ν) :
    (key, value) ∈ map.range order ↔ map.lookup key = some value := by
  rw [range, (order.perm map.pairs).mem_iff, mem_pairs_iff]

/-- A range loop meets a key that is present once, and no other. -/
theorem filter_range (order : RangeOrder κ ν) (map : GoMap κ ν) (key : κ) :
    (map.range order).filter (fun entry => entry.1 = key) =
      ((map.lookup key).map fun value => (key, value)).toList := by
  cases found : map.lookup key with
  | none =>
    rw [Option.map_none, Option.toList_none, List.filter_eq_nil_iff]
    intro entry inside same
    have stored := (mem_range_iff order map entry.1 entry.2).mp inside
    rw [of_decide_eq_true same, found] at stored
    cases stored
  | some value =>
    apply List.perm_singleton.mp
    apply (List.perm_ext_iff_of_nodup _ (List.nodup_singleton _)).mpr
    · intro entry
      obtain ⟨other, read⟩ := entry
      rw [List.mem_filter, mem_range_iff, List.mem_singleton, Prod.mk.injEq, decide_eq_true_iff]
      constructor
      · rintro ⟨stored, rfl⟩
        exact ⟨rfl, Option.some.inj (stored.symm.trans found)⟩
      · rintro ⟨rfl, rfl⟩
        exact ⟨found, rfl⟩
    · exact ((range_keys_nodup order map).of_map Prod.fst).filter _

/-- Reading a key gives its value, or the zero value when it is absent. -/
def getD (map : GoMap κ ν) (key : κ) (zero : ν) : ν := (map.lookup key).getD zero

/-- A key just stored reads as its value. -/
@[simp] theorem getD_insert_self (map : GoMap κ ν) (key : κ) (value zero : ν) :
    GoMap.getD (map.insert key value) key zero = value := by
  simp [getD]

/-- Storing a key leaves every other key as it reads. -/
theorem getD_insert_ne (map : GoMap κ ν) {key other : κ} (apart : other ≠ key) (value zero : ν) :
    GoMap.getD (map.insert key value) other zero = GoMap.getD map other zero := by
  rw [getD, AList.lookup_insert_ne apart, getD]

/-- Update the value of a key, which starts from the zero value when it is absent. -/
def upsert (map : GoMap κ ν) (zero : ν) (key : κ) (change : ν → ν) : GoMap κ ν :=
  map.insert key (change (getD map key zero))

/-- A list of updates leaves under a key what the updates of that key make of its value. -/
theorem lookup_foldl_upsert {α : Type} (zero : ν) (keyOf : α → κ) (change : α → ν → ν)
    (items : List α) (map : GoMap κ ν) (key : κ) :
    (items.foldl (fun map item => map.upsert zero (keyOf item) (change item)) map).lookup key =
      match items.filter fun item => keyOf item = key with
      | [] => map.lookup key
      | own => some (own.foldl (fun value item => change item value) (getD map key zero)) := by
  induction items generalizing map with
  | nil => rfl
  | cons item items ih =>
    rw [List.foldl_cons, ih]
    by_cases same : keyOf item = key
    · rw [List.filter_cons_of_pos (by simpa using same)]
      subst same
      cases items.filter fun other => keyOf other = keyOf item with
      | nil => simp [upsert]
      | cons first own => simp [upsert]
    · rw [List.filter_cons_of_neg (by simpa using same)]
      have kept : (map.upsert zero (keyOf item) (change item)).lookup key = map.lookup key :=
        AList.lookup_insert_ne (Ne.symm same)
      simp only [getD, kept]

/-- A range loop that stores something new under each key and appends what it makes of the entry:
every value is replaced once, and every entry is met once. -/
theorem foldl_range_store {ρ : Type} (order : RangeOrder κ ν) (map : GoMap κ ν)
    (store : κ × ν → ν) (made : κ × ν → ρ) :
    let result := (map.range order).foldl (fun (state : GoMap κ ν × List ρ) entry =>
      (state.1.insert entry.1 (store entry), state.2 ++ [made entry])) (map, [])
    result.2 = (map.range order).map made ∧
      ∀ key, result.1.lookup key = (map.lookup key).map fun value => store (key, value) := by
  have loop (entries : List (κ × ν)) (current : GoMap κ ν) (out : List ρ)
      (distinct : (entries.map Prod.fst).Nodup) :
      let result := entries.foldl (fun (state : GoMap κ ν × List ρ) entry =>
        (state.1.insert entry.1 (store entry), state.2 ++ [made entry])) (current, out)
      result.2 = out ++ entries.map made ∧ ∀ key, result.1.lookup key =
        match entries.find? fun entry => entry.1 = key with
        | some entry => some (store entry)
        | none => current.lookup key := by
    induction entries generalizing current out with
    | nil => simp
    | cons entry entries ih =>
      rw [List.map_cons, List.nodup_cons] at distinct
      obtain ⟨emitted, stored⟩ := ih (current.insert entry.1 (store entry)) (out ++ [made entry])
        distinct.2
      rw [List.foldl_cons]
      refine ⟨by rw [emitted]; simp, fun key => ?_⟩
      rw [stored key]
      by_cases same : entry.1 = key
      · have absent : (entries.find? fun other => other.1 = key) = none := by
          rw [List.find?_eq_none]
          intro other inside
          simpa [← same] using fun equal => distinct.1 (List.mem_map.mpr ⟨other, inside, equal⟩)
        rw [absent, List.find?_cons_of_pos (by simpa using same), ← same]
        exact AList.lookup_insert current
      · rw [List.find?_cons_of_neg (by simpa using same)]
        cases entries.find? fun other => other.1 = key with
        | none => exact AList.lookup_insert_ne (Ne.symm same)
        | some other => rfl
  intro result
  obtain ⟨emitted, stored⟩ := loop (map.range order) map [] (range_keys_nodup order map)
  refine ⟨emitted, fun key => ?_⟩
  have met : ((map.range order).find? fun entry => entry.1 = key) =
      (map.lookup key).map fun value => (key, value) := by
    rw [← List.head?_filter, filter_range]
    cases map.lookup key <;> rfl
  show result.1.lookup key = _
  rw [stored key, met]
  cases found : map.lookup key <;> rfl

/-- Storing an absent key adds one key. -/
theorem length_keys_insert (map : GoMap κ ν) {key : κ} (absent : map.lookup key = none)
    (value : ν) : (map.insert key value).keys.length = map.keys.length + 1 := by
  have fresh : key ∉ map.keys := AList.lookup_eq_none.mp absent
  rw [AList.keys_insert, List.length_cons, List.erase_of_not_mem fresh]

/-- Range over the keys and delete those that fail a test. -/
def retain (keep : κ → Bool) (map : GoMap κ ν) : GoMap κ ν :=
  map.keys.foldl (fun map key => if keep key then map else map.erase key) map

/-- Deleting keys of a list that fail a test touches no other key. -/
theorem lookup_foldl_erase (keep : κ → Bool) (keys : List κ) (map : GoMap κ ν) (key : κ) :
    (keys.foldl (fun map key => if keep key then map else map.erase key) map).lookup key =
      if key ∈ keys ∧ keep key = false then none else map.lookup key := by
  induction keys generalizing map with
  | nil => simp
  | cons head keys ih =>
    rw [List.foldl_cons, ih]
    by_cases same : key = head
    · subst same
      cases keep key <;> simp
    · cases kept : keep head <;> simp [same, AList.lookup_erase_ne same]

/-- After a deleting range, exactly the keys that pass the test are left. -/
theorem lookup_retain (keep : κ → Bool) (map : GoMap κ ν) (key : κ) :
    (map.retain keep).lookup key = if keep key then map.lookup key else none := by
  rw [retain, lookup_foldl_erase]
  by_cases inside : key ∈ map.keys
  · cases kept : keep key <;> simp [inside]
  · have missed : map.lookup key = none := AList.lookup_eq_none.mpr inside
    simp [missed]

end GoMap

/-- The elements of one group among groups of different keys. -/
theorem filter_flatten_of_key {κ α : Type} [DecidableEq κ] (group : κ → List α) (keyOf : α → κ)
    (keyed : ∀ key, ∀ item ∈ group key, keyOf item = key) (keys : List κ) (distinct : keys.Nodup)
    (name : κ) :
    ((keys.map group).flatten).filter (fun item => keyOf item = name) =
      if name ∈ keys then group name else [] := by
  have single (key : κ) : (group key).filter (fun item => keyOf item = name) =
      if key = name then group name else [] := by
    by_cases same : key = name
    · subst same
      rw [if_pos rfl]
      exact List.filter_eq_self.mpr fun item inside => by simpa using keyed key item inside
    · rw [if_neg same]
      apply List.filter_eq_nil_iff.mpr
      intro item inside
      simpa [keyed key item inside] using same
  induction keys with
  | nil => rfl
  | cons key keys ih =>
    rw [List.nodup_cons] at distinct
    rw [List.map_cons, List.flatten_cons, List.filter_append, ih distinct.2, single]
    by_cases same : key = name
    · subst same
      rw [if_pos rfl, if_neg distinct.1, if_pos List.mem_cons_self, List.append_nil]
    · rw [if_neg same, List.nil_append]
      simp [Ne.symm same]

end ContainerAnomaly.Lib
