import ContainerAnomaly.Collector.Syscalls

/-!
# What `UpdateContainers` leaves in the kernel map

The writing loop overlays the map with the mappings it wrote, up to the first `Put` that fails
(`putMappings_lookup`), and the deleting walk removes the entries of unlisted indices as far as
its budget reaches. Together they leave exactly the mappings when no listed container has an entry
under another cgroup and the walk reaches the last stale entry (`synchronised_iff`).
-/

namespace ContainerAnomaly.Syscalls

open Lib Bpf

/-- How many mappings the loop writes before a `Put` fails, all of them when none does. -/
def putsDone (layout : Layout UInt64) (refuses : Nat → Bool) :
    Nat → List ContainerMapping → HashTable UInt64 UInt32 1024 → Nat
  | _, [], _ => 0
  | position, m :: mappings, table =>
    if refuses position then 0
    else
      match table.put layout m.cgroupID m.index with
      | none => 0
      | some table => putsDone layout refuses (position + 1) mappings table + 1

/-- The index in the last mapping of a cgroup. -/
def lastIndex (mappings : List ContainerMapping) (cgid : UInt64) : Option UInt32 :=
  (mappings.reverse.find? fun m => m.cgroupID = cgid).map ContainerMapping.index

/-- A mapping in front is only the last of its cgroup when no other follows. -/
theorem lastIndex_cons (m : ContainerMapping) (mappings : List ContainerMapping) (cgid : UInt64) :
    lastIndex (m :: mappings) cgid =
      (lastIndex mappings cgid).or (if cgid = m.cgroupID then some m.index else none) := by
  rw [lastIndex, List.reverse_cons, List.find?_append, lastIndex]
  cases mappings.reverse.find? fun m => m.cgroupID = cgid with
  | some other => rfl
  | none =>
    by_cases same : m.cgroupID = cgid
    · simp [same]
    · simp [same, Ne.symm same]

/-- The last index of a cgroup is in one of its mappings. -/
theorem mem_of_lastIndex {mappings : List ContainerMapping} {cgid : UInt64} {index : UInt32}
    (last : lastIndex mappings cgid = some index) :
    ∃ m ∈ mappings, m.cgroupID = cgid ∧ m.index = index := by
  obtain ⟨m, found, rfl⟩ := Option.map_eq_some_iff.mp last
  exact ⟨m, List.mem_reverse.mp (List.mem_of_find?_eq_some found),
    by simpa using List.find?_some found, rfl⟩

/-- A cgroup has no last index exactly when no mapping is for it. -/
theorem lastIndex_eq_none_iff (mappings : List ContainerMapping) (cgid : UInt64) :
    lastIndex mappings cgid = none ↔ ∀ m ∈ mappings, m.cgroupID ≠ cgid := by
  simp [lastIndex]

/-- When no cgroup is listed twice, each mapping has the last index of its cgroup. -/
theorem lastIndex_of_mem {mappings : List ContainerMapping}
    (distinct : (mappings.map ContainerMapping.cgroupID).Nodup) {m : ContainerMapping}
    (member : m ∈ mappings) : lastIndex mappings m.cgroupID = some m.index := by
  cases last : lastIndex mappings m.cgroupID with
  | none => exact absurd rfl ((lastIndex_eq_none_iff _ _).mp last m member)
  | some index =>
    obtain ⟨other, inside, same, rfl⟩ := mem_of_lastIndex last
    rw [List.inj_on_of_nodup_map distinct inside member same]

section Writing

variable (layout : Layout UInt64) (refuses : Nat → Bool)

/-- The loop overlays the map with the mappings it has written. -/
theorem putMappings_lookup (position : Nat) (mappings : List ContainerMapping)
    (table : HashTable UInt64 UInt32 1024) (newIdx : GoMap UInt32 GoString) (cgid : UInt64) :
    (putMappings layout refuses position mappings table newIdx).1.lookup cgid =
      (lastIndex (mappings.take (putsDone layout refuses position mappings table)) cgid).or
        (table.lookup cgid) := by
  induction mappings generalizing position table newIdx with
  | nil => rfl
  | cons m mappings ih =>
    unfold putMappings putsDone
    by_cases refused : refuses position
    · rw [if_pos refused, if_pos refused]
      rfl
    · rw [if_neg refused, if_neg refused]
      cases stored : table.put layout m.cgroupID m.index with
      | none => rfl
      | some next =>
        dsimp only
        rw [ih, List.take_succ_cons, lastIndex_cons, HashTable.lookup_put stored]
        by_cases same : cgid = m.cgroupID <;> simp [same]

/-- The loop returns without an error exactly when it has written every mapping. -/
theorem putMappings_error_iff (position : Nat) (mappings : List ContainerMapping)
    (table : HashTable UInt64 UInt32 1024) (newIdx : GoMap UInt32 GoString) :
    (putMappings layout refuses position mappings table newIdx).2.2 = none ↔
      putsDone layout refuses position mappings table = mappings.length := by
  induction mappings generalizing position table newIdx with
  | nil => exact iff_of_true rfl rfl
  | cons m mappings ih =>
    unfold putMappings putsDone
    by_cases refused : refuses position
    · simp [refused]
    · rw [if_neg refused, if_neg refused]
      cases stored : table.put layout m.cgroupID m.index with
      | none => simp
      | some next =>
        dsimp only
        rw [ih, List.length_cons, Nat.add_right_cancel_iff]

/-- The mappings whose cgroup is not in the map yet. -/
def newcomers (table : HashTable UInt64 UInt32 1024) (mappings : List ContainerMapping) :
    List ContainerMapping := mappings.filter fun m => m.cgroupID ∉ table.keys

/-- A mapping for a cgroup that is not in the map counts as one more. -/
theorem length_newcomers_cons (table : HashTable UInt64 UInt32 1024) (m : ContainerMapping)
    (mappings : List ContainerMapping) :
    (newcomers table (m :: mappings)).length =
      (newcomers table mappings).length + if m.cgroupID ∈ table.keys then 0 else 1 := by
  by_cases present : m.cgroupID ∈ table.keys <;> simp [newcomers, present]

/-- A `Put` makes no other cgroup less new. -/
theorem newcomers_put {table next : HashTable UInt64 UInt32 1024} {cgid : UInt64} {index : UInt32}
    (stored : table.put layout cgid index = some next) (mappings : List ContainerMapping)
    (apart : cgid ∉ mappings.map ContainerMapping.cgroupID) :
    newcomers next mappings = newcomers table mappings := by
  refine List.filter_congr fun other inside => ?_
  have different : other.cgroupID ≠ cgid := by
    rintro rfl
    exact apart (List.mem_map.mpr ⟨other, inside, rfl⟩)
  simp [HashTable.mem_keys_put stored, different]

/-- No `Put` of a list fails by itself when neither the first does nor one of the others. -/
theorem accepts_succ (position length : Nat) :
    (∀ offset < length + 1, refuses (position + offset) = false) ↔
      refuses position = false ∧ ∀ offset < length, refuses (position + 1 + offset) = false := by
  constructor
  · intro accepts
    refine ⟨accepts 0 (Nat.succ_pos _), fun offset short => ?_⟩
    have later := accepts (offset + 1) (Nat.succ_lt_succ short)
    rwa [← Nat.add_assoc, Nat.add_right_comm] at later
  · rintro ⟨first, later⟩ offset short
    cases offset with
    | zero => exact first
    | succ offset =>
      have accepted := later offset (Nat.lt_of_succ_lt_succ short)
      rwa [Nat.add_right_comm, Nat.add_assoc] at accepted

/-- When no cgroup is listed twice, the loop writes every mapping exactly when no `Put` fails by
itself and the map has room for the new cgroups. -/
theorem putsDone_eq_length_iff (position : Nat) (mappings : List ContainerMapping)
    (table : HashTable UInt64 UInt32 1024)
    (distinct : (mappings.map ContainerMapping.cgroupID).Nodup) :
    putsDone layout refuses position mappings table = mappings.length ↔
      (∀ offset < mappings.length, refuses (position + offset) = false) ∧
        table.entries.length + (newcomers table mappings).length ≤ 1024 := by
  induction mappings generalizing position table with
  | nil => simpa [putsDone, newcomers] using table.bounded
  | cons m mappings ih =>
    rw [List.map_cons, List.nodup_cons] at distinct
    unfold putsDone
    rw [List.length_cons, accepts_succ, length_newcomers_cons]
    by_cases refused : refuses position
    · simp [refused]
    · have accepted : refuses position = false := by simpa using refused
      rw [if_neg refused]
      cases stored : table.put layout m.cgroupID m.index with
      | none =>
        have full := HashTable.put_isSome_iff layout table m.cgroupID m.index
        rw [stored] at full
        have crowded : ¬ (m.cgroupID ∈ table.keys ∨ table.entries.length < 1024) := by
          rw [← full]
          simp
        rw [not_or] at crowded
        rw [if_neg crowded.1]
        dsimp only
        omega
      | some next =>
        have length := HashTable.length_put stored
        dsimp only
        rw [Nat.add_right_cancel_iff, ih (position + 1) next distinct.2,
          newcomers_put layout stored mappings distinct.1, length, accepted]
        constructor
        · rintro ⟨accepts, room⟩
          exact ⟨⟨rfl, accepts⟩, by omega⟩
        · rintro ⟨⟨_, accepts⟩, room⟩
          exact ⟨accepts, by omega⟩

/-- `cgid_map` after the writing loop. -/
def written (table : HashTable UInt64 UInt32 1024) (mappings : List ContainerMapping) :
    HashTable UInt64 UInt32 1024 := (putMappings layout refuses 0 mappings table ∅).1

end Writing

/-- No mapping has the index. -/
def unlisted (mappings : List ContainerMapping) (index : UInt32) : Bool :=
  mappings.all fun m => m.index ≠ index

/-- An index is listed when some mapping has it. -/
theorem unlisted_eq_false_iff (mappings : List ContainerMapping) (index : UInt32) :
    unlisted mappings index = false ↔ ∃ m ∈ mappings, m.index = index := by
  simp [unlisted]

section Update

variable (layout : Layout UInt64) (budget : Nat) (refuses : Nat → Bool)
  (table : HashTable UInt64 UInt32 1024) (collector : Collector)
  (mappings : List ContainerMapping)

/-- A call that returns an error leaves what was written and its own table. -/
theorem updateContainers_failed
    (failed : (updateContainers layout budget refuses table collector mappings).2.2 ≠ none) :
    (updateContainers layout budget refuses table collector mappings).1 =
        written layout refuses table mappings ∧
      (updateContainers layout budget refuses table collector mappings).2.1 = collector := by
  unfold updateContainers written at *
  generalize putMappings layout refuses 0 mappings table ∅ = result at *
  obtain ⟨next, newIdx, outcome⟩ := result
  cases outcome with
  | some error => exact ⟨rfl, rfl⟩
  | none => exact absurd rfl failed

/-- A call that succeeds walks what was written, and its table has the listed indices. -/
theorem updateContainers_done
    (succeeded : (updateContainers layout budget refuses table collector mappings).2.2 = none) :
    (updateContainers layout budget refuses table collector mappings).1 =
        (written layout refuses table mappings).purge (unlisted mappings) budget ∧
      ∀ index, index ∈ (updateContainers layout budget refuses table collector
        mappings).2.1.idxToCid ↔ unlisted mappings index = false := by
  have named := putMappings_newIdx layout refuses 0 mappings table ∅
  unfold updateContainers written at *
  generalize putMappings layout refuses 0 mappings table ∅ = result at *
  obtain ⟨next, newIdx, outcome⟩ := result
  cases outcome with
  | some error => cases succeeded
  | none =>
    have listed : ∀ index, index ∈ newIdx ↔ unlisted mappings index = false := by
      intro index
      rw [(named rfl index).2, unlisted_eq_false_iff]
      simp
    have stale : (fun index => decide (index ∉ newIdx)) = unlisted mappings := by
      funext index
      by_cases present : unlisted mappings index = false
      · simp [present, (listed index).mpr present]
      · have absent := mt (listed index).mp present
        simpa [absent] using present
    exact ⟨congrArg (fun test => next.purge test budget) stale, listed⟩

/-- A call succeeds exactly when every mapping is written. -/
theorem updateContainers_error_iff :
    (updateContainers layout budget refuses table collector mappings).2.2 = none ↔
      putsDone layout refuses 0 mappings table = mappings.length := by
  rw [← putMappings_error_iff layout refuses 0 mappings table ∅]
  unfold updateContainers
  generalize putMappings layout refuses 0 mappings table ∅ = result
  obtain ⟨next, newIdx, outcome⟩ := result
  cases outcome with
  | some error => simp
  | none => simp

/-- A successful call overlays the map with its list. -/
theorem written_lookup
    (succeeded : (updateContainers layout budget refuses table collector mappings).2.2 = none)
    (cgid : UInt64) :
    (written layout refuses table mappings).lookup cgid =
      (lastIndex mappings cgid).or (table.lookup cgid) := by
  have all := (updateContainers_error_iff layout budget refuses table collector mappings).mp
    succeeded
  rw [written, putMappings_lookup, all, List.take_length]

/-- What a successful call writes, when its list names no cgroup twice. -/
theorem mem_written
    (succeeded : (updateContainers layout budget refuses table collector mappings).2.2 = none)
    (distinct : (mappings.map ContainerMapping.cgroupID).Nodup) (entry : UInt64 × UInt32) :
    entry ∈ (written layout refuses table mappings).entries ↔
      (∃ m ∈ mappings, entry = (m.cgroupID, m.index)) ∨
        entry ∈ table.entries ∧ ∀ m ∈ mappings, entry.1 ≠ m.cgroupID := by
  obtain ⟨cgid, index⟩ := entry
  rw [← HashTable.lookup_eq_some_iff, ← HashTable.lookup_eq_some_iff,
    written_lookup layout budget refuses table collector mappings succeeded]
  cases last : lastIndex mappings cgid with
  | some other =>
    obtain ⟨m, member, same, rfl⟩ := mem_of_lastIndex last
    rw [Option.some_or]
    constructor
    · intro equal
      exact .inl ⟨m, member, by rw [same, Option.some.inj equal]⟩
    · rintro (⟨listed, inside, equal⟩ | ⟨_, others⟩)
      · obtain ⟨rfl, rfl⟩ := Prod.mk.inj equal
        rw [← last]
        exact lastIndex_of_mem distinct inside
      · exact absurd same.symm (others m member)
  | none =>
    have silent := (lastIndex_eq_none_iff mappings cgid).mp last
    rw [Option.none_or]
    constructor
    · intro old
      exact .inr ⟨old, fun m member => (silent m member).symm⟩
    · rintro (⟨m, member, equal⟩ | ⟨old, _⟩)
      · exact absurd (Prod.mk.inj equal).1.symm (silent m member)
      · exact old

/-- The walk of a successful call leaves what was written under a listed index. -/
theorem updateContainers_kept
    (succeeded : (updateContainers layout budget refuses table collector mappings).2.2 = none)
    (entry : UInt64 × UInt32) (listed : ∃ m ∈ mappings, m.index = entry.2)
    (stored : entry ∈ (written layout refuses table mappings).entries) :
    entry ∈ (updateContainers layout budget refuses table collector mappings).1.entries := by
  rw [(updateContainers_done layout budget refuses table collector mappings succeeded).1]
  exact HashTable.mem_purge_of_fresh budget stored
    ((unlisted_eq_false_iff mappings entry.2).mpr listed)

/-- After a successful call whose list names no cgroup twice, every mapping is in the map. -/
theorem updateContainers_mapped
    (succeeded : (updateContainers layout budget refuses table collector mappings).2.2 = none)
    (distinct : (mappings.map ContainerMapping.cgroupID).Nodup) (m : ContainerMapping)
    (member : m ∈ mappings) :
    (updateContainers layout budget refuses table collector mappings).1.lookup m.cgroupID =
      some m.index := by
  rw [HashTable.lookup_eq_some_iff]
  exact updateContainers_kept layout budget refuses table collector mappings succeeded
    _ ⟨m, member, rfl⟩ ((mem_written layout budget refuses table collector mappings succeeded
      distinct _).mpr (.inl ⟨m, member, rfl⟩))

/-- The kernel map after a successful call whose list names no cgroup twice and whose walk is
not cut short: the mappings, and the other entries of their indices. -/
theorem updateContainers_entries
    (succeeded : (updateContainers layout budget refuses table collector mappings).2.2 = none)
    (distinct : (mappings.map ContainerMapping.cgroupID).Nodup)
    (covers : (table.entries.length + mappings.length + 1) *
      (table.entries.length + mappings.length + 1) ≤ budget) (entry : UInt64 × UInt32) :
    entry ∈ (updateContainers layout budget refuses table collector mappings).1.entries ↔
      (∃ m ∈ mappings, entry = (m.cgroupID, m.index)) ∨
        entry ∈ table.entries ∧ (∀ m ∈ mappings, entry.1 ≠ m.cgroupID) ∧
          ∃ m ∈ mappings, m.index = entry.2 := by
  have stored := mem_written layout budget refuses table collector mappings succeeded distinct
    entry
  have kept := updateContainers_kept layout budget refuses table collector mappings succeeded
    entry
  have length : (written layout refuses table mappings).entries.length ≤ _ :=
    putMappings_length layout refuses 0 mappings table ∅
  have enough : ((written layout refuses table mappings).entries.length + 1) *
      ((written layout refuses table mappings).entries.length + 1) ≤ budget :=
    Nat.le_trans (Nat.mul_le_mul (by omega) (by omega)) covers
  constructor
  · intro inside
    rw [(updateContainers_done layout budget refuses table collector mappings succeeded).1]
      at inside
    rcases stored.mp (HashTable.mem_of_mem_purge inside) with listed | ⟨old, others⟩
    · exact .inl listed
    · exact .inr ⟨old, others, (unlisted_eq_false_iff mappings entry.2).mp
        (HashTable.purge_complete enough inside)⟩
  · rintro (⟨m, member, rfl⟩ | ⟨old, others, listed⟩)
    · exact kept ⟨m, member, rfl⟩ (stored.mpr (.inl ⟨m, member, rfl⟩))
    · exact kept listed (stored.mpr (.inr ⟨old, others⟩))

/-- Every entry left by a successful call has a listed index exactly when the walk reaches the
last one that has not. -/
theorem updateContainers_listed_iff
    (succeeded : (updateContainers layout budget refuses table collector mappings).2.2 = none) :
    (∀ cgid index, (updateContainers layout budget refuses table collector mappings).1.lookup
        cgid = some index → unlisted mappings index = false) ↔
      HashTable.purgeSteps (unlisted mappings) 0 (written layout refuses table mappings).entries ≤
        budget := by
  rw [(updateContainers_done layout budget refuses table collector mappings succeeded).1,
    ← HashTable.purge_complete_iff]
  simp only [HashTable.lookup_eq_some_iff, Prod.forall]

/-- The map holds the mappings and nothing else. -/
def Synchronised (next : HashTable UInt64 UInt32 1024) (mappings : List ContainerMapping) : Prop :=
  ∀ cgid index, next.lookup cgid = some index ↔
    ∃ m ∈ mappings, m.cgroupID = cgid ∧ m.index = index

/-- A listed container has no entry under a cgroup that is not listed. -/
def NoneMoved (table : HashTable UInt64 UInt32 1024) (mappings : List ContainerMapping) : Prop :=
  ∀ cgid index, table.lookup cgid = some index → (∃ m ∈ mappings, m.index = index) →
    ∃ m ∈ mappings, m.cgroupID = cgid

/-- A successful call whose list names no cgroup twice synchronises the map exactly when no listed
container is in it under another cgroup, and the walk, starting over after every deletion, reaches
the last entry of an unlisted index. -/
theorem synchronised_iff
    (succeeded : (updateContainers layout budget refuses table collector mappings).2.2 = none)
    (distinct : (mappings.map ContainerMapping.cgroupID).Nodup) :
    Synchronised (updateContainers layout budget refuses table collector mappings).1 mappings ↔
      NoneMoved table mappings ∧
        HashTable.purgeSteps (unlisted mappings) 0 (written layout refuses table mappings).entries ≤
          budget := by
  have overlay := written_lookup layout budget refuses table collector mappings succeeded
  have walked := (updateContainers_done layout budget refuses table collector mappings
    succeeded).1
  rw [← updateContainers_listed_iff layout budget refuses table collector mappings succeeded]
  constructor
  · intro synchronised
    constructor
    · intro cgid index old listed
      by_contra elsewhere
      have silent : lastIndex mappings cgid = none := by
        rw [lastIndex_eq_none_iff]
        exact fun m member same => elsewhere ⟨m, member, same⟩
      have stored : (written layout refuses table mappings).lookup cgid = some index := by
        rw [overlay, silent, Option.none_or, old]
      rw [HashTable.lookup_eq_some_iff] at stored
      have kept := updateContainers_kept layout budget refuses table collector mappings succeeded
        _ listed stored
      obtain ⟨m, member, same, _⟩ := (synchronised cgid index).mp
        ((HashTable.lookup_eq_some_iff _ _ _).mpr kept)
      exact elsewhere ⟨m, member, same⟩
    · intro cgid index left
      obtain ⟨m, member, _, same⟩ := (synchronised cgid index).mp left
      exact (unlisted_eq_false_iff mappings index).mpr ⟨m, member, same⟩
  · rintro ⟨noneMoved, reached⟩ cgid index
    constructor
    · intro left
      have listed := (unlisted_eq_false_iff mappings index).mp (reached cgid index left)
      rw [walked, HashTable.lookup_eq_some_iff] at left
      have stored := (HashTable.lookup_eq_some_iff _ _ _).mpr (HashTable.mem_of_mem_purge left)
      rw [overlay] at stored
      cases last : lastIndex mappings cgid with
      | some other =>
        rw [last, Option.some_or, Option.some.injEq] at stored
        exact stored ▸ mem_of_lastIndex last
      | none =>
        rw [last, Option.none_or] at stored
        obtain ⟨m, member, same⟩ := noneMoved cgid index stored listed
        exact absurd same ((lastIndex_eq_none_iff mappings cgid).mp last m member)
    · rintro ⟨m, member, rfl, rfl⟩
      exact updateContainers_mapped layout budget refuses table collector mappings succeeded
        distinct m member

end Update

/-- A map with one entry. -/
def singleEntry (cgid : UInt64) (index : UInt32) : HashTable UInt64 UInt32 1024 :=
  ⟨[(cgid, index)], List.nodup_singleton _, by simp⟩

/-- A container restarted under another cgroup keeps its index, so its old entry is not deleted:
the map has two entries for a list of one mapping. -/
theorem restarted_not_synchronised :
    (updateContainers (fun _ _ => 0) 1024 (fun _ => false) (singleEntry 7 0) .new
      [⟨8, 0, lit "a"⟩]).2.2 = none ∧
    ¬ Synchronised (updateContainers (fun _ _ => 0) 1024 (fun _ => false) (singleEntry 7 0) .new
      [⟨8, 0, lit "a"⟩]).1 [⟨8, 0, lit "a"⟩] := by
  refine ⟨by decide, fun synchronised => ?_⟩
  obtain ⟨m, member, same, _⟩ := (synchronised 7 0).mp (by decide)
  rw [List.mem_singleton.mp member] at same
  exact absurd same (by decide)

/-- A list without the container of the only entry replaces it. -/
theorem synchronised_iff_departed :
    Synchronised (updateContainers (fun _ _ => 0) 1024 (fun _ => false) (singleEntry 7 0) .new
      [⟨8, 1, lit "b"⟩]).1 [⟨8, 1, lit "b"⟩] := by
  refine (synchronised_iff (fun _ _ => 0) 1024 (fun _ => false) (singleEntry 7 0) .new
    [⟨8, 1, lit "b"⟩] (by decide) (by simp)).mpr ⟨?_, by decide⟩
  rintro cgid index stored ⟨m, member, same⟩
  rw [List.mem_singleton.mp member] at same
  rw [HashTable.lookup_eq_some_iff] at stored
  obtain ⟨rfl, rfl⟩ := Prod.mk.inj (List.mem_singleton.mp stored)
  exact absurd same (by decide)

end ContainerAnomaly.Syscalls
