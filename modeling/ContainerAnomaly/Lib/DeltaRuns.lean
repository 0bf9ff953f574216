import ContainerAnomaly.Lib.DeltaPoll
import ContainerAnomaly.Lib.HashTable
import ContainerAnomaly.Lib.Machine
import Mathlib.Algebra.GroupWithZero.Nat

/-!
# Runs of polls that report differences

Polls of a table whose values only grow, where an iteration may return any part of the entries. A
poll takes a key that it did not return for gone, so that the next poll that returns the key reports
all of its value again. What is reported never exceeds the values exactly when this happens only to
keys that have reported nothing (`neverMore_iff`).
-/

namespace ContainerAnomaly.Lib.DeltaPoll

variable {κ ν μ ρ γ F : Type} {capacity : Nat} [DecidableEq κ]

/-- One poll: the table at the moment, the entries that the iteration returns, the order of the
reporting loop, and what else the rows depend on. -/
structure Round (κ ν μ γ : Type) (capacity : Nat) where
  /-- The table at the moment. -/
  table : HashTable κ ν capacity
  /-- The entries that the iteration returns. -/
  visited : List (κ × ν)
  /-- The order of the reporting loop. -/
  order : RangeOrder κ μ
  /-- What else the rows depend on. -/
  context : γ
  /-- No key is returned twice. -/
  distinct : (visited.map Prod.fst).Nodup
  /-- What is returned is in the table. -/
  stored : ∀ entry ∈ visited, entry ∈ table.entries

/-- Polls as a machine that remembers what it saw last. -/
def polls (value : ν → μ) (zero : μ) (row : γ → κ → μ → μ → Option ρ) :
    Machine (GoMap κ μ) (Round κ ν μ γ capacity) ρ :=
  ⟨fun seen round => poll round.order value zero (row round.context) round.visited seen⟩

/-- Rows are differences: each field of a row is how far its level has risen, and there is a row
when the level of one field has. -/
structure Differences (zero : μ) (row : γ → κ → μ → μ → Option ρ) (keyOf : ρ → κ)
    (level : F → μ → Nat) (amount : F → ρ → Nat) (gate : F) : Prop where
  /-- The levels start from zero. -/
  zero : ∀ field, level field zero = 0
  /-- A row is one of its key. -/
  keyed : ∀ context key before now out, row context key before now = some out → keyOf out = key
  /-- There is no row exactly when the gate has not risen. -/
  silent : ∀ context key before now,
    row context key before now = none ↔ level gate now ≤ level gate before
  /-- A row reports the rise of each level. -/
  amount : ∀ context key before now out, row context key before now = some out →
    ∀ field, amount field out = level field now - level field before

/-- The level of a field of a key in the table, zero for a key that is not there. -/
def Round.level (value : ν → μ) (level : F → μ → Nat) (round : Round κ ν μ γ capacity) (key : κ)
    (field : F) : Nat :=
  ((round.table.lookup key).map fun stored => level field (value stored)).getD 0

/-- No key is removed and no level falls from one poll to a later one. -/
def Round.Grows (value : ν → μ) (level : F → μ → Nat)
    (earlier later : Round κ ν μ γ capacity) : Prop :=
  ∀ key stored, earlier.table.lookup key = some stored →
    ∃ now, later.table.lookup key = some now ∧
      ∀ field, level field (value stored) ≤ level field (value now)

/-- What the rows of a key report of a field. -/
def reported (keyOf : ρ → κ) (amount : F → ρ → Nat) (key : κ) (field : F) (rows : List ρ) : Nat :=
  ((rows.filter fun out => keyOf out = key).map (amount field)).sum

/-- After every poll, what the rows have reported of each field of a key is at most its level. -/
def NeverMore (rowsOf : List (Round κ ν μ γ capacity) → List ρ) (value : ν → μ) (keyOf : ρ → κ)
    (level : F → μ → Nat) (amount : F → ρ → Nat) (key : κ)
    (rounds : List (Round κ ν μ γ capacity)) : Prop :=
  ∀ past round, past ++ [round] <+: rounds → ∀ field,
    reported keyOf amount key field (rowsOf (past ++ [round])) ≤
      round.level value level key field

/-- Whenever a poll returns the key and the poll before has missed it, the level of the field that
decides on rows was zero in every earlier poll that returned the key. -/
def IdleWhenMissed (value : ν → μ) (level : μ → Nat) (key : κ)
    (rounds : List (Round κ ν μ γ capacity)) : Prop :=
  ∀ past missed returned, past ++ [missed, returned] <+: rounds →
    key ∉ missed.visited.map Prod.fst → key ∈ returned.visited.map Prod.fst →
    ∀ earlier ∈ past, ∀ stored, (key, stored) ∈ earlier.visited → level (value stored) = 0

section Runs

variable {value : ν → μ} {zero : μ} {row : γ → κ → μ → μ → Option ρ} {keyOf : ρ → κ}
  {level : F → μ → Nat} {amount : F → ρ → Nat} {gate : F}

/-- More rows report more. -/
theorem reported_append (key : κ) (field : F) (first second : List ρ) :
    reported keyOf amount key field (first ++ second) =
      reported keyOf amount key field first + reported keyOf amount key field second := by
  simp [reported]

variable (value level) in
/-- The level of a key that a poll returns is the one it reads. -/
theorem Round.level_visited (round : Round κ ν μ γ capacity) {key : κ} {stored : ν}
    (inside : (key, stored) ∈ round.visited) (field : F) :
    round.level value level key field = level field (value stored) := by
  have found := (round.table.lookup_eq_some_iff key stored).mpr (round.stored _ inside)
  rw [Round.level, found]
  rfl

/-- A level never falls. -/
theorem Round.Grows.level_le {earlier later : Round κ ν μ γ capacity}
    (grows : earlier.Grows value level later) (key : κ) (field : F) :
    earlier.level value level key field ≤ later.level value level key field := by
  unfold Round.level
  cases found : earlier.table.lookup key with
  | none => exact Nat.zero_le _
  | some stored =>
    obtain ⟨now, later_found, levels⟩ := grows key stored found
    rw [later_found]
    exact levels field

variable (value)

/-- What a poll reports and remembers of a key it does not return: nothing. -/
theorem step_missed (differences : Differences zero row keyOf level amount gate)
    (seen : GoMap κ μ) (round : Round κ ν μ γ capacity) (key : κ)
    (missed : key ∉ round.visited.map Prod.fst) :
    (∀ field, reported keyOf amount key field ((polls value zero row).step seen round).2 = 0) ∧
      ((polls value zero row).step seen round).1.lookup key = none := by
  have absent : ∀ stored, (key, stored) ∉ round.visited := by
    intro stored inside
    exact missed (List.mem_map.mpr ⟨_, inside, rfl⟩)
  have rows := poll_rows_of_key round.order value zero (row round.context) round.visited
    round.distinct seen keyOf (differences.keyed round.context) key
  have unfound : (round.visited.find? fun entry => entry.1 = key) = none := by
    rw [List.find?_eq_none]
    rintro ⟨other, stored⟩ inside same
    obtain rfl : other = key := of_decide_eq_true same
    exact absent stored inside
  rw [unfound, Option.bind_none, Option.toList_none] at rows
  constructor
  · intro field
    show ((List.filter _ (poll _ _ _ _ _ _).2).map _).sum = 0
    rw [rows]
    rfl
  · rw [Option.eq_none_iff_forall_ne_some]
    intro read found
    obtain ⟨stored, inside, _⟩ := (poll_seen round.order value zero (row round.context)
      round.visited round.distinct seen key read).mp found
    exact absent stored inside

/-- What a poll reports and remembers of a key it returns: how far its levels have risen, when the
one that decides has, and its value. -/
theorem step_returned (differences : Differences zero row keyOf level amount gate)
    (seen : GoMap κ μ) (round : Round κ ν μ γ capacity) {key : κ} {stored : ν}
    (inside : (key, stored) ∈ round.visited) :
    let before := GoMap.getD seen key zero
    (∀ field, reported keyOf amount key field ((polls value zero row).step seen round).2 =
      if level gate (value stored) ≤ level gate before then 0
      else level field (value stored) - level field before) ∧
      ((polls value zero row).step seen round).1.lookup key = some (value stored) := by
  intro before
  have rows := poll_rows_of_key round.order value zero (row round.context) round.visited
    round.distinct seen keyOf (differences.keyed round.context) key
  have found : (round.visited.find? fun entry => entry.1 = key) = some (key, stored) := by
    cases first : round.visited.find? fun entry => entry.1 = key with
    | none =>
      have none_found := List.find?_eq_none.mp first (key, stored) inside
      simp at none_found
    | some entry =>
      have same : entry.1 = key := by simpa using List.find?_some first
      have entries := List.inj_on_of_nodup_map round.distinct (List.mem_of_find?_eq_some first)
        inside same
      rw [entries]
  rw [found, Option.bind_some] at rows
  constructor
  · intro field
    show ((List.filter _ (poll _ _ _ _ _ _).2).map _).sum = _
    rw [rows]
    cases made : row round.context key before (value stored) with
    | none =>
      rw [if_pos ((differences.silent _ _ _ _).mp made)]
      rfl
    | some out =>
      have risen : ¬ level gate (value stored) ≤ level gate before := by
        rw [← differences.silent round.context key, made]
        simp
      rw [if_neg risen, Option.toList_some, List.map_singleton, List.sum_singleton]
      exact differences.amount _ _ _ _ _ made field
  · exact (poll_seen round.order value zero (row round.context) round.visited round.distinct seen
      key (value stored)).mpr ⟨stored, inside, rfl⟩

/-- What is remembered of a key was returned by the last poll. -/
theorem final_lookup (differences : Differences zero row keyOf level amount gate)
    (past : List (Round κ ν μ γ capacity)) (last : Round κ ν μ γ capacity) (key : κ) :
    (key ∉ last.visited.map Prod.fst ∧
      ((polls value zero row).final ∅ (past ++ [last])).lookup key = none) ∨
    ∃ stored, (key, stored) ∈ last.visited ∧
      ((polls value zero row).final ∅ (past ++ [last])).lookup key = some (value stored) := by
  rw [Machine.final_snoc]
  by_cases returned : key ∈ last.visited.map Prod.fst
  · obtain ⟨⟨other, stored⟩, inside, rfl⟩ := List.mem_map.mp returned
    exact .inr ⟨stored, inside, (step_returned value differences _ last inside).2⟩
  · exact .inl ⟨returned, (step_missed value differences _ last key returned).2⟩

/-- A key that is remembered has reported at least its level. -/
theorem level_le_reported (differences : Differences zero row keyOf level amount gate)
    (rounds : List (Round κ ν μ γ capacity)) (key : κ) (read : μ)
    (remembered : ((polls value zero row).final ∅ rounds).lookup key = some read) :
    level gate read ≤
      reported keyOf amount key gate ((polls value zero row).outputs ∅ rounds) := by
  induction rounds using List.reverseRecOn generalizing read with
  | nil => cases remembered
  | append_singleton past last ih =>
    rcases final_lookup value differences past last key with
      ⟨_, forgotten⟩ | ⟨stored, inside, found⟩
    · rw [forgotten] at remembered
      cases remembered
    · obtain rfl := Option.some.inj (found.symm.trans remembered)
      have rows := (step_returned value differences ((polls value zero row).final ∅ past) last
        inside).1
        gate
      rw [Machine.outputs_snoc, reported_append, rows]
      cases before : ((polls value zero row).final ∅ past).lookup key with
      | none =>
        have start : GoMap.getD ((polls value zero row).final ∅ past) key zero = zero := by
          rw [GoMap.getD, before]
          rfl
        rw [start, differences.zero]
        split <;> omega
      | some known =>
        have start : GoMap.getD ((polls value zero row).final ∅ past) key zero = known := by
          rw [GoMap.getD, before]
          rfl
        have reached := ih known before
        rw [start]
        split <;> omega

/-- A key has reported at least every level that some poll has read. -/
theorem level_le_reported_of_mem (differences : Differences zero row keyOf level amount gate)
    (rounds : List (Round κ ν μ γ capacity)) (key : κ) {earlier : Round κ ν μ γ capacity}
    (member : earlier ∈ rounds) {stored : ν} (inside : (key, stored) ∈ earlier.visited) :
    level gate (value stored) ≤
      reported keyOf amount key gate ((polls value zero row).outputs ∅ rounds) := by
  obtain ⟨before, after, rfl⟩ := List.append_of_mem member
  have remembered := (step_returned value differences ((polls value zero row).final ∅ before)
    earlier inside).2
  rw [← Machine.final_snoc] at remembered
  have reached := level_le_reported value differences (before ++ [earlier]) key _ remembered
  have whole : before ++ earlier :: after = (before ++ [earlier]) ++ after := by simp
  rw [whole, Machine.outputs_append, reported_append]
  exact Nat.le_add_right_of_le reached

/-- As long as the level that decides is zero whenever the key is returned, nothing is reported. -/
theorem reported_eq_zero (differences : Differences zero row keyOf level amount gate)
    (rounds : List (Round κ ν μ γ capacity)) (key : κ)
    (idle : ∀ round ∈ rounds, ∀ stored, (key, stored) ∈ round.visited →
      level gate (value stored) = 0) (field : F) :
    reported keyOf amount key field ((polls value zero row).outputs ∅ rounds) = 0 := by
  induction rounds using List.reverseRecOn with
  | nil => rfl
  | append_singleton past last ih =>
    have quiet := ih fun round member => idle round (List.mem_append_left _ member)
    rw [Machine.outputs_snoc, reported_append, quiet, Nat.zero_add]
    by_cases returned : key ∈ last.visited.map Prod.fst
    · obtain ⟨⟨other, stored⟩, inside, rfl⟩ := List.mem_map.mp returned
      have level := idle last (List.mem_append_right _ List.mem_cons_self) stored inside
      rw [(step_returned value differences _ last inside).1 field, level, if_pos (Nat.zero_le _)]
    · exact (step_missed value differences _ last key returned).1 field

/-- What was reported before a poll is within the level that the table has then. -/
theorem reported_le_next (past : List (Round κ ν μ γ capacity)) (last : Round κ ν μ γ capacity)
    (key : κ) (grows : (past ++ [last]).Pairwise (Round.Grows value level)) (field : F)
    (bounded : ∀ first previous, past = first ++ [previous] →
      reported keyOf amount key field ((polls value zero row).outputs ∅ past) ≤
        previous.level value level key field) :
    reported keyOf amount key field ((polls value zero row).outputs ∅ past) ≤
      last.level value level key field := by
  rcases List.eq_nil_or_concat past with rfl | ⟨first, previous, rfl⟩
  · exact Nat.zero_le _
  · rw [List.concat_eq_append] at bounded grows ⊢
    have risen := (List.pairwise_append.mp grows).2.2 previous
      (List.mem_append_right _ List.mem_cons_self) last List.mem_cons_self
    exact Nat.le_trans (bounded first previous rfl) (risen.level_le key field)

/-- A key that a poll returns for the first time, or after it was missed, has reported nothing. -/
theorem reported_forgotten (differences : Differences zero row keyOf level amount gate)
    (past : List (Round κ ν μ γ capacity)) (last : Round κ ν μ γ capacity) (key : κ)
    (idle : IdleWhenMissed value (level gate) key (past ++ [last]))
    (returned : key ∈ last.visited.map Prod.fst)
    (forgotten : ((polls value zero row).final ∅ past).lookup key = none) (field : F) :
    reported keyOf amount key field ((polls value zero row).outputs ∅ past) = 0 := by
  apply reported_eq_zero value differences
  rcases List.eq_nil_or_concat past with rfl | ⟨first, previous, rfl⟩
  · intro round member
    cases member
  · rw [List.concat_eq_append] at forgotten idle ⊢
    rcases final_lookup value differences first previous key with
      ⟨missed, _⟩ | ⟨seen, _, found⟩
    · have quiet := idle first previous last (by simp) missed returned
      intro round member seen visited
      rcases List.mem_append.mp member with early | here
      · exact quiet round early seen visited
      · rw [List.mem_singleton.mp here] at visited
        exact absurd (List.mem_map.mpr ⟨_, visited, rfl⟩) missed
    · rw [found] at forgotten
      cases forgotten

/-- What is remembered of a key is a level of the last poll that covers all that was reported, when
a key is only returned again after it has reported nothing. -/
theorem reported_le (differences : Differences zero row keyOf level amount gate)
    (rounds : List (Round κ ν μ γ capacity)) (key : κ)
    (grows : rounds.Pairwise (Round.Grows value level))
    (idle : IdleWhenMissed value (level gate) key rounds) (field : F) :
    (∀ read, ((polls value zero row).final ∅ rounds).lookup key = some read →
      reported keyOf amount key field ((polls value zero row).outputs ∅ rounds) ≤
        level field read) ∧
    ∀ past last, rounds = past ++ [last] →
      reported keyOf amount key field ((polls value zero row).outputs ∅ rounds) ≤
        last.level value level key field := by
  induction rounds using List.reverseRecOn with
  | nil => exact ⟨fun _ found => by (cases found), fun past last none_left => by simp at none_left⟩
  | append_singleton past last ih =>
    have earlier_idle : IdleWhenMissed value (level gate) key past := by
      intro first missed returned split
      exact idle first missed returned (split.trans (List.prefix_append past [last]))
    obtain ⟨covered, bounded⟩ := ih (List.pairwise_append.mp grows).1 earlier_idle
    have within := reported_le_next value past last key grows field bounded
    have after : reported keyOf amount key field
        ((polls value zero row).outputs ∅ (past ++ [last])) ≤
          last.level value level key field := by
      rw [Machine.outputs_snoc, reported_append]
      by_cases returned : key ∈ last.visited.map Prod.fst
      · obtain ⟨⟨other, stored⟩, inside, rfl⟩ := List.mem_map.mp returned
        have now := last.level_visited value level inside field
        rw [(step_returned value differences _ last inside).1 field]
        rw [now] at within ⊢
        cases remembered : ((polls value zero row).final ∅ past).lookup other with
        | some known =>
          have start : GoMap.getD ((polls value zero row).final ∅ past) other zero = known := by
            rw [GoMap.getD, remembered]
            rfl
          have reached := covered known remembered
          rw [start]
          split <;> omega
        | none =>
          rw [reported_forgotten value differences past last other idle returned remembered field,
            Nat.zero_add]
          split <;> omega
      · rw [(step_missed value differences _ last key returned).1 field]
        exact within
    refine ⟨fun read found => ?_, fun _ other split => ?_⟩
    · rcases final_lookup value differences past last key with
        ⟨_, forgotten⟩ | ⟨stored, inside, remembered⟩
      · rw [forgotten] at found
        cases found
      · obtain rfl := Option.some.inj (remembered.symm.trans found)
        rw [← last.level_visited value level inside field]
        exact after
    · obtain ⟨_, same⟩ := List.append_inj' split rfl
      rw [← List.singleton_inj.mp same]
      exact after

/-- In every run of polls of a table that only grows, what is reported of a key never exceeds its
levels exactly when the key is only ever returned again after it has reported nothing. -/
theorem neverMore_iff (differences : Differences zero row keyOf level amount gate)
    (rounds : List (Round κ ν μ γ capacity)) (key : κ)
    (grows : rounds.Pairwise (Round.Grows value level)) :
    NeverMore ((polls value zero row).outputs ∅) value keyOf level amount key rounds ↔
      IdleWhenMissed value (level gate) key rounds := by
  constructor
  · intro never past missed returned split unseen seen earlier member stored inside
    obtain ⟨⟨other, now⟩, visited, rfl⟩ := List.mem_map.mp seen
    have bound := never (past ++ [missed]) returned (by simpa using split) gate
    -- The key is forgotten, so all of its level is reported again.
    have forgotten : ((polls value zero row).final ∅ (past ++ [missed])).lookup other = none := by
      rw [Machine.final_snoc]
      exact (step_missed value differences _ missed other unseen).2
    have start : GoMap.getD ((polls value zero row).final ∅ (past ++ [missed])) other zero =
        zero := by
      rw [GoMap.getD, forgotten]
      rfl
    have reached := level_le_reported_of_mem value differences (past ++ [missed]) other
      (List.mem_append_left _ member) inside
    rw [Machine.outputs_snoc, reported_append,
      (step_returned value differences _ returned visited).1 gate, start, differences.zero,
      returned.level_visited value level visited] at bound
    have run : (past ++ [missed, returned]).Pairwise (Round.Grows value level) :=
      grows.sublist split.sublist
    have risen := (List.pairwise_append.mp run).2.2 earlier member returned (by simp)
    have rise := risen.level_le other gate
    rw [earlier.level_visited value level inside, returned.level_visited value level visited]
      at rise
    dsimp only at bound
    split at bound <;> omega
  · intro idle past round split field
    have shorter : IdleWhenMissed value (level gate) key (past ++ [round]) := by
      intro first missed returned inner
      exact idle first missed returned (inner.trans split)
    exact (reported_le value differences (past ++ [round]) key (grows.sublist split.sublist) shorter
      field).2 past round rfl

end Runs

end ContainerAnomaly.Lib.DeltaPoll
