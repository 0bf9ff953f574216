import Mathlib.Data.Finset.Card
import Mathlib.Data.List.Basic
import Mathlib.Data.List.Nodup
import Mathlib.Data.List.Perm.Basic
import Mathlib.Data.List.TakeWhile

/-!
# Bounded hash tables walked by key

A kernel hash table holds a bounded number of distinct keys in the order of its buckets. The
place of a new key is chosen by the hash, so it is a parameter here (`Layout`) and every result
holds for all of them. User space walks the table by asking for the key after the last one
seen; a walk starts over from the first key when the last one is gone, and gives up when its
budget of steps is spent. Keys are characterised by membership of the entry list
(`lookup_eq_some_iff`), so each operation has one membership lemma.
-/

namespace ContainerAnomaly.Lib

/-- Where a new key lands among the present keys, in bucket order. -/
abbrev Layout (κ : Type) := κ → List κ → Nat

/-- A finite map of distinct keys that never holds more than its capacity. -/
structure HashTable (κ ν : Type) (capacity : Nat) where
  /-- Entries in bucket order. -/
  entries : List (κ × ν)
  /-- No key is stored twice. -/
  distinct : (entries.map Prod.fst).Nodup
  /-- The table never outgrows its capacity. -/
  bounded : entries.length ≤ capacity

/-- Put one element at a position of a list, or at its end when it is shorter. -/
def placed {α : Type} (position : Nat) (element : α) (list : List α) : List α :=
  list.take position ++ element :: list.drop position

/-- Placing an element only adds that element. -/
theorem placed_perm {α : Type} (position : Nat) (element : α) (list : List α) :
    (placed position element list).Perm (element :: list) := by
  have split := @List.perm_middle α element (list.take position) (list.drop position)
  rwa [List.take_append_drop] at split

/-- A placed list holds the element and the elements that were there. -/
theorem mem_placed {α : Type} (position : Nat) (element : α) (list : List α) (other : α) :
    other ∈ placed position element list ↔ other = element ∨ other ∈ list := by
  rw [(placed_perm position element list).mem_iff, List.mem_cons]

namespace HashTable

variable {κ ν : Type} {capacity : Nat}

/-- The keys in bucket order. -/
def keys (table : HashTable κ ν capacity) : List κ := table.entries.map Prod.fst

/-- The table with no entry. -/
def empty (κ ν : Type) (capacity : Nat) : HashTable κ ν capacity :=
  ⟨[], List.nodup_nil, Nat.zero_le _⟩

/-- The number of keys never exceeds the capacity. -/
theorem keys_length_le (table : HashTable κ ν capacity) : table.keys.length ≤ capacity := by
  rw [keys, List.length_map]
  exact table.bounded

/-- Two entries of one key are the same entry. -/
theorem value_unique (table : HashTable κ ν capacity) {key : κ} {left right : ν}
    (first : (key, left) ∈ table.entries) (second : (key, right) ∈ table.entries) :
    left = right := by
  have same := List.inj_on_of_nodup_map table.distinct first second rfl
  exact congrArg Prod.snd same

variable [DecidableEq κ]

/-- The value stored under a key. -/
def lookup (table : HashTable κ ν capacity) (key : κ) : Option ν :=
  (table.entries.find? fun entry => entry.1 = key).map Prod.snd

/-- A lookup finds exactly the entries. -/
theorem lookup_eq_some_iff (table : HashTable κ ν capacity) (key : κ) (value : ν) :
    table.lookup key = some value ↔ (key, value) ∈ table.entries := by
  unfold lookup
  constructor
  · intro found
    obtain ⟨entry, seen, rfl⟩ := Option.map_eq_some_iff.mp found
    have same : entry.1 = key := by simpa using List.find?_some seen
    subst same
    exact List.mem_of_find?_eq_some seen
  · intro member
    cases seen : table.entries.find? fun entry => entry.1 = key with
    | none =>
      have absent := List.find?_eq_none.mp seen (key, value) member
      simp at absent
    | some entry =>
      have same : entry.1 = key := by simpa using List.find?_some seen
      subst same
      rw [Option.map_some, table.value_unique (List.mem_of_find?_eq_some seen) member]

/-- A lookup misses exactly the keys that are not stored. -/
theorem lookup_eq_none_iff (table : HashTable κ ν capacity) (key : κ) :
    table.lookup key = none ↔ key ∉ table.keys := by
  simp only [lookup, keys, Option.map_eq_none_iff, List.find?_eq_none, List.mem_map,
    decide_eq_true_eq, not_exists, not_and]

/-- A key is stored exactly when its lookup succeeds. -/
theorem mem_keys_iff (table : HashTable κ ν capacity) (key : κ) :
    key ∈ table.keys ↔ ∃ value, table.lookup key = some value := by
  simp only [lookup_eq_some_iff, keys, List.mem_map, Prod.exists, exists_and_right, exists_eq_right]

/-- Two tables with the same entries, in any order, answer every lookup alike. -/
theorem lookup_congr {left right : HashTable κ ν capacity} {key : κ}
    (same : ∀ value, (key, value) ∈ left.entries ↔ (key, value) ∈ right.entries) :
    left.lookup key = right.lookup key := by
  apply Option.ext
  intro value
  rw [lookup_eq_some_iff, lookup_eq_some_iff]
  exact same value

@[simp] theorem lookup_empty (key : κ) : (empty κ ν capacity).lookup key = none := rfl

/-- Update one value in place, as a program holding a pointer into the table does. -/
def modify (table : HashTable κ ν capacity) (key : κ) (change : ν → ν) :
    HashTable κ ν capacity where
  entries := table.entries.map fun entry =>
    if entry.1 = key then (entry.1, change entry.2) else entry
  distinct := by
    have kept : (table.entries.map fun entry =>
        if entry.1 = key then (entry.1, change entry.2) else entry).map Prod.fst =
        table.entries.map Prod.fst := by
      rw [List.map_map]
      refine List.map_congr_left fun entry _ => ?_
      simp only [Function.comp_apply]
      split <;> rfl
    rw [kept]
    exact table.distinct
  bounded := by
    rw [List.length_map]
    exact table.bounded

/-- An update in place keeps the keys and their order. -/
@[simp] theorem keys_modify (table : HashTable κ ν capacity) (key : κ) (change : ν → ν) :
    (table.modify key change).keys = table.keys := by
  simp only [keys, modify, List.map_map]
  refine List.map_congr_left fun entry _ => ?_
  simp only [Function.comp_apply]
  split <;> rfl

/-- An update in place changes the value of its own key only. -/
theorem lookup_modify (table : HashTable κ ν capacity) (key other : κ) (change : ν → ν) :
    (table.modify key change).lookup other =
      if other = key then (table.lookup other).map change else table.lookup other := by
  change ((table.entries.map fun entry =>
      if entry.1 = key then (entry.1, change entry.2) else entry).find?
        fun entry => entry.1 = other).map Prod.snd = _
  unfold lookup
  induction table.entries with
  | nil => simp
  | cons entry rest ih =>
    by_cases here : entry.1 = other
    · by_cases target : other = key
      · subst target
        simp [here]
      · subst here
        simp [target]
    · have skip : (if entry.1 = key then (entry.1, change entry.2) else entry).1 ≠ other := by
        split <;> exact here
      rw [List.map_cons, List.find?_cons_of_neg (by simpa using skip),
        List.find?_cons_of_neg (by simpa using here)]
      exact ih

/-- Remove a key. -/
def erase (table : HashTable κ ν capacity) (key : κ) : HashTable κ ν capacity where
  entries := table.entries.filter fun entry => entry.1 ≠ key
  distinct := table.distinct.sublist (List.filter_sublist.map Prod.fst)
  bounded := Nat.le_trans (List.length_filter_le _ _) table.bounded

/-- The entries left by a removal are those of the other keys. -/
theorem mem_erase (table : HashTable κ ν capacity) (key : κ) (entry : κ × ν) :
    entry ∈ (table.erase key).entries ↔ entry ∈ table.entries ∧ entry.1 ≠ key := by
  simp [erase]

/-- A removed key is gone and no other key is touched. -/
theorem lookup_erase (table : HashTable κ ν capacity) (key other : κ) :
    (table.erase key).lookup other = if other = key then none else table.lookup other := by
  by_cases same : other = key
  · rw [if_pos same, lookup_eq_none_iff, keys]
    rintro member
    obtain ⟨entry, inside, rfl⟩ := List.mem_map.mp member
    exact ((table.mem_erase key entry).mp inside).2 same
  · rw [if_neg same]
    refine lookup_congr fun value => ?_
    rw [mem_erase]
    exact and_iff_left same

/-- Store a key that is not present, unless the table is full (`BPF_NOEXIST`). -/
def insertNew (layout : Layout κ) (table : HashTable κ ν capacity) (key : κ) (value : ν) :
    Option (HashTable κ ν capacity) :=
  if fresh : key ∉ table.keys then
    if room : table.entries.length < capacity then
      some {
        entries := placed (layout key table.keys) (key, value) table.entries
        distinct := by
          rw [((placed_perm _ (key, value) table.entries).map Prod.fst).nodup_iff]
          exact List.nodup_cons.mpr ⟨fresh, table.distinct⟩
        bounded := by
          rw [(placed_perm _ (key, value) table.entries).length_eq]
          exact room }
    else none
  else none

/-- Store a key, replacing the value it has; only a new key needs room (`BPF_ANY`). -/
def put (layout : Layout κ) (table : HashTable κ ν capacity) (key : κ) (value : ν) :
    Option (HashTable κ ν capacity) :=
  if present : key ∈ table.keys then
    some {
      entries := placed (layout key (table.erase key).keys) (key, value)
        (table.erase key).entries
      distinct := by
        rw [((placed_perm _ (key, value) (table.erase key).entries).map Prod.fst).nodup_iff]
        refine List.nodup_cons.mpr ⟨?_, (table.erase key).distinct⟩
        exact ((table.erase key).lookup_eq_none_iff key).mp (by simp [lookup_erase])
      bounded := by
        obtain ⟨entry, inside, same⟩ := List.mem_map.mp present
        have fewer : (table.erase key).entries.length < table.entries.length := by
          refine List.length_filter_lt_length_iff_exists.mpr ⟨entry, inside, ?_⟩
          simpa using same
        rw [(placed_perm _ (key, value) (table.erase key).entries).length_eq]
        exact Nat.lt_of_lt_of_le fewer table.bounded }
  else table.insertNew layout key value

/-- A new key is stored exactly when it is absent and there is room for it. -/
theorem insertNew_isSome_iff (layout : Layout κ) (table : HashTable κ ν capacity) (key : κ)
    (value : ν) : (table.insertNew layout key value).isSome ↔
      key ∉ table.keys ∧ table.entries.length < capacity := by
  unfold insertNew
  split
  · split <;> simp_all
  · simp_all

/-- A key that is stored, or for which there is room, can be put. -/
theorem put_isSome_iff (layout : Layout κ) (table : HashTable κ ν capacity) (key : κ)
    (value : ν) : (table.put layout key value).isSome ↔
      key ∈ table.keys ∨ table.entries.length < capacity := by
  unfold put
  split
  · simp_all
  · rename_i absent
    rw [insertNew_isSome_iff]
    simp [absent]

/-- The entries after a new key was stored. -/
theorem mem_insertNew {layout : Layout κ} {table next : HashTable κ ν capacity} {key : κ}
    {value : ν} (stored : table.insertNew layout key value = some next) (entry : κ × ν) :
    entry ∈ next.entries ↔ entry = (key, value) ∨ entry ∈ table.entries := by
  unfold insertNew at stored
  split at stored
  · split at stored
    · obtain rfl := Option.some.inj stored
      exact mem_placed _ _ _ _
    · cases stored
  · cases stored

/-- A stored key answers with its value and no other key is touched. -/
theorem lookup_insertNew {layout : Layout κ} {table next : HashTable κ ν capacity} {key : κ}
    {value : ν} (stored : table.insertNew layout key value = some next) (other : κ) :
    next.lookup other = if other = key then some value else table.lookup other := by
  by_cases same : other = key
  · subst same
    rw [if_pos rfl, lookup_eq_some_iff, mem_insertNew stored]
    exact .inl rfl
  · rw [if_neg same]
    refine lookup_congr fun other_value => ?_
    rw [mem_insertNew stored]
    simp [same]

/-- The keys after a new key was stored. -/
theorem mem_keys_insertNew {layout : Layout κ} {table next : HashTable κ ν capacity} {key : κ}
    {value : ν} (stored : table.insertNew layout key value = some next) (other : κ) :
    other ∈ next.keys ↔ other = key ∨ other ∈ table.keys := by
  rw [mem_keys_iff, mem_keys_iff, lookup_insertNew stored]
  by_cases same : other = key <;> simp [same]

/-- A table whose keys are among some that fit has room for another of them. -/
theorem room_of_claimed (table : HashTable κ ν capacity) (claimed : Finset κ)
    (fits : claimed.card ≤ capacity) (held : ∀ key ∈ table.keys, key ∈ claimed) {key : κ}
    (mine : key ∈ claimed) (absent : key ∉ table.keys) : table.entries.length < capacity := by
  have unique : table.keys.toFinset.card = table.keys.length :=
    List.toFinset_card_of_nodup table.distinct
  have inside : insert key table.keys.toFinset ⊆ claimed := by
    intro other member
    rcases Finset.mem_insert.mp member with rfl | old
    · exact mine
    · exact held other (List.mem_toFinset.mp old)
  have bound := Finset.card_le_card inside
  rw [Finset.card_insert_of_notMem (by simpa using absent), unique, keys, List.length_map] at bound
  omega

/-- A new key adds one entry. -/
theorem length_insertNew {layout : Layout κ} {table next : HashTable κ ν capacity} {key : κ}
    {value : ν} (stored : table.insertNew layout key value = some next) :
    next.entries.length = table.entries.length + 1 := by
  unfold insertNew at stored
  split at stored
  · split at stored
    · obtain rfl := Option.some.inj stored
      exact (placed_perm _ _ _).length_eq
    · cases stored
  · cases stored

/-- The entries after a key was put. -/
theorem mem_put {layout : Layout κ} {table next : HashTable κ ν capacity} {key : κ} {value : ν}
    (stored : table.put layout key value = some next) (entry : κ × ν) :
    entry ∈ next.entries ↔ entry = (key, value) ∨ entry ∈ table.entries ∧ entry.1 ≠ key := by
  unfold put at stored
  split at stored
  · obtain rfl := Option.some.inj stored
    rw [mem_placed, mem_erase]
  · rename_i absent
    rw [mem_insertNew stored]
    refine or_congr_right (iff_self_and.mpr fun inside same => absent ?_)
    exact List.mem_map.mpr ⟨entry, inside, same⟩

/-- A key that was put answers with its value and no other key is touched. -/
theorem lookup_put {layout : Layout κ} {table next : HashTable κ ν capacity} {key : κ} {value : ν}
    (stored : table.put layout key value = some next) (other : κ) :
    next.lookup other = if other = key then some value else table.lookup other := by
  by_cases same : other = key
  · subst same
    rw [if_pos rfl, lookup_eq_some_iff, mem_put stored]
    exact .inl rfl
  · rw [if_neg same]
    refine lookup_congr fun other_value => ?_
    rw [mem_put stored]
    simp [same]

/-- Putting a key adds it to the keys. -/
theorem mem_keys_put {layout : Layout κ} {table next : HashTable κ ν capacity} {key : κ} {value : ν}
    (stored : table.put layout key value = some next) (other : κ) :
    other ∈ next.keys ↔ other = key ∨ other ∈ table.keys := by
  have found := lookup_put stored other
  rw [← not_iff_not, not_or, ← lookup_eq_none_iff, ← lookup_eq_none_iff, found]
  by_cases same : other = key <;> simp [same]

/-- Putting a key adds an entry exactly when the key is new. -/
theorem length_put {layout : Layout κ} {table next : HashTable κ ν capacity} {key : κ} {value : ν}
    (stored : table.put layout key value = some next) :
    next.entries.length = table.entries.length + if key ∈ table.keys then 0 else 1 := by
  have member := mem_keys_put stored
  by_cases present : key ∈ table.keys
  · have same : next.keys.Perm table.keys := by
      refine (List.perm_ext_iff_of_nodup next.distinct table.distinct).mpr fun other => ?_
      rw [← keys, ← keys, member, or_iff_right_of_imp]
      rintro rfl
      exact present
    rw [if_pos present]
    simpa [keys] using same.length_eq
  · have added : next.keys.Perm (key :: table.keys) := by
      refine (List.perm_ext_iff_of_nodup next.distinct ?_).mpr fun other => ?_
      · exact List.nodup_cons.mpr ⟨present, table.distinct⟩
      · rw [← keys, member, List.mem_cons]
    rw [if_neg present]
    simpa [keys] using added.length_eq

/-- Putting a key adds at most one entry. -/
theorem length_put_le {layout : Layout κ} {table next : HashTable κ ν capacity} {key : κ}
    {value : ν} (stored : table.put layout key value = some next) :
    next.entries.length ≤ table.entries.length + 1 := by
  rw [length_put stored]
  split <;> omega

/-! ## Walking a table

`nextKey` is `get_next_key` of a hash table: the first key when the cursor is absent or gone.
`walk` is a user-space loop over it that may change the table on the way; the budget is the
number of keys after which the loop gives up. -/

/-- The key after the cursor in bucket order, or the first key when there is no cursor or the
cursor is no longer stored. -/
def nextKey (table : HashTable κ ν capacity) : Option κ → Option κ
  | none => table.keys.head?
  | some cursor =>
    match table.keys.dropWhile (· ≠ cursor) with
    | [] => table.keys.head?
    | _ :: rest => rest.head?

/-- Visit keys one after the other, handing each entry to the body with the current table. -/
def walk {σ : Type} (body : HashTable κ ν capacity → σ → κ → ν → HashTable κ ν capacity × σ) :
    Nat → Option κ → HashTable κ ν capacity → σ → HashTable κ ν capacity × σ
  | 0, _, table, state => (table, state)
  | budget + 1, cursor, table, state =>
    match table.nextKey cursor with
    | none => (table, state)
    | some key =>
      match table.lookup key with
      | none => walk body budget (some key) table state
      | some value =>
        let (table, state) := body table state key value
        walk body budget (some key) table state

/-- The key after a stored key is the next one in bucket order. -/
theorem nextKey_of_split (table : HashTable κ ν capacity) {before after : List (κ × ν)}
    {entry : κ × ν} (split : table.entries = before ++ entry :: after) :
    table.nextKey (some entry.1) = (after.map Prod.fst).head? := by
  have distinct := table.distinct
  rw [split, List.map_append, List.map_cons, List.nodup_middle, List.nodup_cons] at distinct
  have absent : ∀ key ∈ before.map Prod.fst, key ≠ entry.1 := by
    rintro key member rfl
    exact distinct.1 (List.mem_append_left _ member)
  have dropped : table.keys.dropWhile (· ≠ entry.1) = entry.1 :: after.map Prod.fst := by
    rw [keys, split, List.map_append, List.map_cons,
      List.dropWhile_append_of_pos (by simpa using absent)]
    simp
  simp only [nextKey, dropped]

/-- The entries a walk hands over when nothing changes the table. -/
def visited (budget : Nat) (table : HashTable κ ν capacity) : List (κ × ν) :=
  (table.walk (fun table seen key value => (table, seen ++ [(key, value)])) budget none []).2

/-- A walk of an unchanged table from a stored key visits the entries after it. -/
theorem walk_after (table : HashTable κ ν capacity) (budget : Nat) :
    ∀ (before after seen : List (κ × ν)) (entry : κ × ν),
      table.entries = before ++ entry :: after → after.length ≤ budget →
      (table.walk (fun table seen key value => (table, seen ++ [(key, value)])) budget
        (some entry.1) seen).2 = seen ++ after := by
  induction budget with
  | zero =>
    intro before after seen entry _ short
    obtain rfl := List.length_eq_zero_iff.mp (Nat.le_zero.mp short)
    simp [walk]
  | succ budget ih =>
    intro before after seen entry split short
    have next := table.nextKey_of_split split
    cases after with
    | nil => simp [walk, next]
    | cons found after =>
      have stored : table.lookup found.1 = some found.2 := by
        rw [lookup_eq_some_iff, split]
        simp
      simp only [walk, next, List.map_cons, List.head?_cons, stored]
      rw [ih (before ++ [entry]) after (seen ++ [found]) found (by simp [split])
        (Nat.le_of_succ_le_succ short)]
      simp

/-- A walk of an unchanged table visits every entry once, when its budget covers them. -/
theorem visited_eq (table : HashTable κ ν capacity) {budget : Nat}
    (covers : table.entries.length ≤ budget) : visited budget table = table.entries := by
  unfold visited
  cases budget with
  | zero =>
    rw [List.length_eq_zero_iff.mp (Nat.le_zero.mp covers)]
    rfl
  | succ budget =>
    cases split : table.entries with
    | nil => simp [walk, nextKey, keys, split]
    | cons found after =>
      have stored : table.lookup found.1 = some found.2 := by
        rw [lookup_eq_some_iff, split]
        exact List.mem_cons_self
      rw [split, List.length_cons] at covers
      simp only [walk, nextKey, keys, split, List.map_cons, List.head?_cons, stored,
        List.nil_append]
      rw [table.walk_after budget [] after [found] found split (Nat.le_of_succ_le_succ covers)]
      rfl

/-- Delete, on the way, the entries whose value is stale. -/
def purge (stale : ν → Bool) (budget : Nat) (table : HashTable κ ν capacity) :
    HashTable κ ν capacity :=
  (table.walk (fun table _ key value => (if stale value then table.erase key else table, ()))
    budget none ()).1

/-- A deleting walk from any cursor adds no entry and keeps every entry that is not stale. -/
theorem walk_purge (stale : ν → Bool) (budget : Nat) :
    ∀ (cursor : Option κ) (table : HashTable κ ν capacity) (entry : κ × ν),
      (entry ∈ (table.walk (fun table _ key value =>
          (if stale value then table.erase key else table, ())) budget cursor ()).1.entries →
        entry ∈ table.entries) ∧
      (entry ∈ table.entries → stale entry.2 = false →
        entry ∈ (table.walk (fun table _ key value =>
          (if stale value then table.erase key else table, ())) budget cursor ()).1.entries) := by
  induction budget with
  | zero => exact fun _ _ _ => ⟨id, fun inside _ => inside⟩
  | succ budget ih =>
    intro cursor table entry
    cases next : table.nextKey cursor with
    | none =>
      simp only [walk, next]
      exact ⟨id, fun inside _ => inside⟩
    | some key =>
      cases found : table.lookup key with
      | none =>
        simp only [walk, next, found]
        exact ih (some key) table entry
      | some value =>
        simp only [walk, next, found]
        obtain ⟨back, forth⟩ :=
          ih (some key) (if stale value then table.erase key else table) entry
        by_cases old : stale value
        · rw [if_pos old] at back forth ⊢
          refine ⟨fun inside => ((table.mem_erase key entry).mp (back inside)).1, ?_⟩
          refine fun inside fresh => forth ((table.mem_erase key entry).mpr ⟨inside, ?_⟩) fresh
          rintro rfl
          have same := table.value_unique inside ((table.lookup_eq_some_iff _ _).mp found)
          rw [same, old] at fresh
          cases fresh
        · rw [if_neg old] at back forth ⊢
          exact ⟨back, forth⟩

/-- Deleting stale entries on the way adds nothing. -/
theorem mem_of_mem_purge {stale : ν → Bool} {budget : Nat} {table : HashTable κ ν capacity}
    {entry : κ × ν} (inside : entry ∈ (table.purge stale budget).entries) :
    entry ∈ table.entries :=
  (walk_purge stale budget none table entry).1 inside

/-- Deleting stale entries on the way keeps the other entries, however it is interrupted. -/
theorem mem_purge_of_fresh {stale : ν → Bool} (budget : Nat) {table : HashTable κ ν capacity}
    {entry : κ × ν} (inside : entry ∈ table.entries) (fresh : stale entry.2 = false) :
    entry ∈ (table.purge stale budget).entries :=
  (walk_purge stale budget none table entry).2 inside fresh

/-- The entries left when a stored entry is removed. -/
theorem entries_erase_of_split (table : HashTable κ ν capacity) {before after : List (κ × ν)}
    {entry : κ × ν} (split : table.entries = before ++ entry :: after) :
    (table.erase entry.1).entries = before ++ after := by
  have distinct := table.distinct
  rw [split, List.map_append, List.map_cons, List.nodup_middle, List.nodup_cons] at distinct
  have others : ∀ other ∈ before ++ after, decide (other.1 ≠ entry.1) = true := by
    intro other member
    apply decide_eq_true
    intro same
    apply distinct.1
    rw [← List.map_append, ← same]
    exact List.mem_map_of_mem member
  show table.entries.filter (fun other => decide (other.1 ≠ entry.1)) = before ++ after
  rw [split, List.filter_append, List.filter_cons_of_neg (by simp), ← List.filter_append]
  exact List.filter_eq_self.mpr others

/-- From a cursor that is gone, a walk starts over. -/
theorem nextKey_of_absent (table : HashTable κ ν capacity) {key : κ}
    (absent : key ∉ table.keys) : table.nextKey (some key) = table.keys.head? := by
  have dropped : table.keys.dropWhile (· ≠ key) = [] := by
    rw [List.dropWhile_eq_nil_iff]
    intro other member
    simpa using ne_of_mem_of_not_mem member absent
  simp only [nextKey, dropped]

/-- How many keys a deleting walk visits up to the last stale entry, when it has passed some fresh
ones: it starts over after every deletion, so a stale entry costs itself and all fresh entries in
front of it. -/
def purgeSteps (stale : ν → Bool) : Nat → List (κ × ν) → Nat
  | _, [] => 0
  | fresh, entry :: rest =>
    if stale entry.2 then fresh + 1 + purgeSteps stale fresh rest
    else purgeSteps stale (fresh + 1) rest

omit [DecidableEq κ] in
/-- Without a stale entry there is nothing to reach. -/
theorem purgeSteps_eq_zero {stale : ν → Bool} {entries : List (κ × ν)}
    (fresh : ∀ entry ∈ entries, stale entry.2 = false) (passed : Nat) :
    purgeSteps stale passed entries = 0 := by
  induction entries generalizing passed with
  | nil => rfl
  | cons entry rest ih =>
    have first := List.forall_mem_cons.mp fresh
    rw [purgeSteps, if_neg (by simp [first.1])]
    exact ih first.2 (passed + 1)

omit [DecidableEq κ] in
/-- Any stale entry is behind the fresh ones that were passed. -/
theorem purgeSteps_le_iff (stale : ν → Bool) (passed : Nat) (entries : List (κ × ν)) :
    purgeSteps stale passed entries ≤ passed ↔ ∀ entry ∈ entries, stale entry.2 = false := by
  constructor
  · intro short
    induction entries generalizing passed with
    | nil => simp
    | cons entry rest ih =>
      unfold purgeSteps at short
      by_cases old : stale entry.2
      · rw [if_pos old] at short
        omega
      · rw [if_neg old] at short
        have first : stale entry.2 = false := by simpa using old
        exact List.forall_mem_cons.mpr ⟨first, ih (passed + 1) (Nat.le_succ_of_le short)⟩
  · intro fresh
    rw [purgeSteps_eq_zero fresh]
    exact Nat.zero_le _

omit [DecidableEq κ] in
/-- Fresh entries in front only count as passed. -/
theorem purgeSteps_append (stale : ν → Bool) (passed : Nat) (before after : List (κ × ν))
    (fresh : ∀ entry ∈ before, stale entry.2 = false) :
    purgeSteps stale passed (before ++ after) =
      purgeSteps stale (passed + before.length) after := by
  induction before generalizing passed with
  | nil => rfl
  | cons entry before ih =>
    have first := List.forall_mem_cons.mp fresh
    rw [List.cons_append, purgeSteps, if_neg (by simp [first.1]), ih _ first.2, List.length_cons]
    congr 1
    omega

omit [DecidableEq κ] in
/-- No walk is longer than a new start for each stale entry. -/
theorem purgeSteps_le (stale : ν → Bool) (fresh : Nat) (entries : List (κ × ν)) :
    purgeSteps stale fresh entries ≤
      (entries.countP fun entry => stale entry.2) * (fresh + entries.length) := by
  induction entries generalizing fresh with
  | nil => simp [purgeSteps]
  | cons entry rest ih =>
    rw [purgeSteps, List.countP_cons, List.length_cons]
    by_cases old : stale entry.2
    · rw [if_pos old, if_pos old, Nat.add_mul, Nat.one_mul]
      have wider := Nat.mul_le_mul_left (rest.countP fun entry => stale entry.2)
        (Nat.le_succ (fresh + rest.length))
      have bound := ih fresh
      rw [Nat.succ_eq_add_one, Nat.add_assoc] at wider
      omega
    · have passed : fresh + (rest.length + 1) = fresh + 1 + rest.length := by omega
      rw [if_neg old, if_neg old, Nat.add_zero, passed]
      exact ih (fresh + 1)

/-- A deleting walk whose cursor stands behind fresh entries deletes all stale ones exactly when
its budget reaches the last of them. -/
theorem walk_purge_complete_iff (stale : ν → Bool) (budget : Nat) :
    ∀ (cursor : Option κ) (table : HashTable κ ν capacity) (before after : List (κ × ν)),
      table.entries = before ++ after → (∀ entry ∈ before, stale entry.2 = false) →
      table.nextKey cursor = (after.map Prod.fst).head? →
      ((∀ entry ∈ (table.walk (fun table _ key value =>
          (if stale value then table.erase key else table, ())) budget cursor ()).1.entries,
          stale entry.2 = false) ↔
        purgeSteps stale before.length after ≤ budget + before.length) := by
  induction budget with
  | zero =>
    intro cursor table before after split fresh _
    rw [Nat.zero_add, purgeSteps_le_iff]
    simp only [walk, split, List.forall_mem_append]
    exact and_iff_right fresh
  | succ budget ih =>
    intro cursor table before after split fresh next
    cases after with
    | nil =>
      rw [List.append_nil] at split
      simp only [walk, next, List.map_nil, List.head?_nil, split]
      exact iff_of_true fresh (Nat.zero_le _)
    | cons found after =>
      have stored : table.lookup found.1 = some found.2 := by
        rw [lookup_eq_some_iff, split]
        simp
      simp only [walk, next, List.map_cons, List.head?_cons, stored]
      rw [purgeSteps]
      by_cases old : stale found.2
      · -- The cursor is gone, so the walk starts over behind no entry at all.
        rw [if_pos old, if_pos old]
        have kept := table.entries_erase_of_split split
        have gone : found.1 ∉ (table.erase found.1).keys := by
          rw [← lookup_eq_none_iff, lookup_erase, if_pos rfl]
        have restart : (table.erase found.1).nextKey (some found.1) =
            ((before ++ after).map Prod.fst).head? := by
          rw [nextKey_of_absent _ gone, keys, kept]
        rw [ih (some found.1) (table.erase found.1) [] (before ++ after) kept (by simp) restart,
          List.length_nil, purgeSteps_append stale 0 before after fresh, Nat.zero_add]
        omega
      · rw [if_neg old, if_neg old]
        have passed : ∀ entry ∈ before ++ [found], stale entry.2 = false := by
          intro entry member
          rcases List.mem_append.mp member with early | last
          · exact fresh entry early
          · rw [List.mem_singleton.mp last]
            simpa using old
        rw [ih (some found.1) table (before ++ [found]) after (by simp [split]) passed
          (table.nextKey_of_split split), List.length_append, List.length_singleton]
        omega

/-- Deleting stale entries on the way leaves none of them exactly when the budget reaches the
last. -/
theorem purge_complete_iff (stale : ν → Bool) (budget : Nat) (table : HashTable κ ν capacity) :
    (∀ entry ∈ (table.purge stale budget).entries, stale entry.2 = false) ↔
      purgeSteps stale 0 table.entries ≤ budget :=
  walk_purge_complete_iff stale budget none table [] table.entries rfl (by simp) rfl

/-- Deleting stale entries on the way leaves none of them, when the budget covers a new start
for each. -/
theorem purge_complete {stale : ν → Bool} {budget : Nat} {table : HashTable κ ν capacity}
    (covers : (table.entries.length + 1) * (table.entries.length + 1) ≤ budget)
    {entry : κ × ν} (inside : entry ∈ (table.purge stale budget).entries) :
    stale entry.2 = false := by
  refine (purge_complete_iff stale budget table).mpr ?_ entry inside
  have few : (table.entries.countP fun entry => stale entry.2) ≤ table.entries.length :=
    List.countP_le_length
  have bound := purgeSteps_le stale 0 table.entries
  rw [Nat.zero_add] at bound
  calc purgeSteps stale 0 table.entries
      ≤ _ := bound
    _ ≤ (table.entries.length + 1) * (table.entries.length + 1) :=
      Nat.mul_le_mul (Nat.le_succ_of_le few) (Nat.le_succ _)
    _ ≤ budget := covers

/-- Read and delete every entry on the way. -/
def drain (budget : Nat) (table : HashTable κ ν capacity) :
    HashTable κ ν capacity × List (κ × ν) :=
  table.walk (fun table read key value => (table.erase key, read ++ [(key, value)])) budget none []

/-- A deleting walk that starts over reads the entries in order and leaves none. -/
theorem walk_drain (budget : Nat) :
    ∀ (cursor : Option κ) (table : HashTable κ ν capacity) (read : List (κ × ν)),
      table.nextKey cursor = table.keys.head? → table.entries.length ≤ budget →
      (table.walk (fun table read key value => (table.erase key, read ++ [(key, value)])) budget
        cursor read).2 = read ++ table.entries ∧
      (table.walk (fun table read key value => (table.erase key, read ++ [(key, value)])) budget
        cursor read).1.entries = [] := by
  induction budget with
  | zero =>
    intro cursor table read _ covers
    have finished : table.entries = [] := List.length_eq_zero_iff.mp (Nat.le_zero.mp covers)
    simp [walk, finished]
  | succ budget ih =>
    intro cursor table read next covers
    cases split : table.entries with
    | nil =>
      rw [keys, split] at next
      simp only [walk, next, List.map_nil, List.head?_nil, List.append_nil, split, and_self]
    | cons found after =>
      have stored : table.lookup found.1 = some found.2 := by
        rw [lookup_eq_some_iff, split]
        exact List.mem_cons_self
      have left : (table.erase found.1).entries = after :=
        @entries_erase_of_split _ _ _ _ table [] after found split
      have gone : found.1 ∉ (table.erase found.1).keys := by
        rw [← lookup_eq_none_iff, lookup_erase, if_pos rfl]
      rw [keys, split] at next
      simp only [walk, next, List.map_cons, List.head?_cons, stored]
      have rest := ih (some found.1) (table.erase found.1) (read ++ [found])
        (nextKey_of_absent _ gone) (by
          rw [left]
          rw [split, List.length_cons] at covers
          omega)
      rw [left, List.append_assoc, List.singleton_append] at rest
      exact rest

/-- Draining reads every entry and empties the table, when its budget covers them. -/
theorem drain_eq (table : HashTable κ ν capacity) {budget : Nat}
    (covers : table.entries.length ≤ budget) :
    (table.drain budget).2 = table.entries ∧ (table.drain budget).1.entries = [] := by
  have walked := walk_drain budget none table [] rfl covers
  rw [List.nil_append] at walked
  exact walked

end HashTable

end ContainerAnomaly.Lib
