import ContainerAnomaly.Container.Resolver
import ContainerAnomaly.Lib.Words

/-!
# The start time of a process

`/proc/<pid>/stat` gives the name of a process in parentheses, and a name can have any bytes. The
fields after it have no parenthesis, so the last one in the text ends the name, and the fields
after it are read whatever the name is (`startTimeOfStat_statText`).
-/

namespace ContainerAnomaly.Container

open Lib GoString

/-- The byte `)`. -/
def paren : UInt8 := 41

/-- A field after the name, with the white space before it. -/
structure StatField extends Spaced where
  /-- It does not end the name. -/
  no_paren : paren ∉ word

/-- The white space at the end of a text. -/
abbrev LastGap := { gap : GoString // IsGap gap }

/-- The text after the name. -/
def afterName (fields : List StatField) (last : LastGap) : GoString :=
  spacedText (fields.map StatField.toSpaced) last.1

/-- `<pid> (<comm>) <fields...>`. -/
def statText (pid : UInt32) (comm : GoString) (fields : List StatField) (last : LastGap) :
    GoString :=
  (decimal pid.toNat ++ lit " (" ++ comm) ++ paren :: afterName fields last

/-- The fields after the name are found again. -/
theorem fields_afterName (fields : List StatField) (last : LastGap) :
    (afterName fields last).fields = fields.map fun field => field.word := by
  rw [afterName, fields_spaced _ last.2, List.map_map]
  rfl

/-- There is no parenthesis after the name. -/
theorem paren_not_mem_afterName (fields : List StatField) (last : LastGap) :
    paren ∉ afterName fields last := by
  have plain : IsPlain paren := by decide
  intro inside
  rcases List.mem_append.mp inside with among | trailing
  · obtain ⟨spaced, listed, here⟩ := List.mem_flatMap.mp among
    obtain ⟨field, _, rfl⟩ := List.mem_map.mp listed
    rcases List.mem_append.mp here with white | own
    · exact field.gap_white.not_plain white plain
    · exact field.no_paren own
  · exact last.2.not_plain trailing plain

/-- The last index of a byte that does not come again. -/
theorem lastIndexByte_append {byte : UInt8} (front : GoString) {back : GoString}
    (absent : byte ∉ back) :
    (front ++ byte :: back).lastIndexByte byte = some front.length := by
  have skipped : (back.reverse).findIdx? (· = byte) = none := by
    rw [List.findIdx?_eq_none_iff]
    intro other inside
    have differs : other ≠ byte := by
      rintro rfl
      exact absent (List.mem_reverse.mp inside)
    simpa using differs
  have first : (byte :: front.reverse).findIdx? (· = byte) = some 0 := by
    simp [List.findIdx?_cons]
  rw [lastIndexByte, List.reverse_append, List.reverse_cons, List.append_assoc,
    List.singleton_append, List.findIdx?_append, skipped, first]
  simp

/-- The start time is read from the fields after the name alone: the twentieth of them, when it is
a number. -/
theorem startTimeOfStat_statText (pid : UInt32) (comm : GoString) (fields : List StatField)
    (last : LastGap) :
    startTimeOfStat (statText pid comm fields last) =
      if afterName fields last = [] then .error .malformed
      else
        match fields[19]? with
        | none => .error .tooFewFields
        | some field =>
          match field.word.parseUint with
          | (value, none) => .ok value
          | (_, some error) => .error (.number error) := by
  let front := decimal pid.toNat ++ lit " (" ++ comm
  have found : (statText pid comm fields last).lastIndexByte 41 = some front.length :=
    lastIndexByte_append front (paren_not_mem_afterName fields last)
  have rest : (statText pid comm fields last).drop (front.length + 1) = afterName fields last := by
    have split : statText pid comm fields last =
        (front ++ [paren]) ++ afterName fields last := by
      simp [statText, front]
    rw [split]
    exact List.drop_left' (by simp)
  have ends : front.length + 1 ≥ (statText pid comm fields last).length ↔
      afterName fields last = [] := by
    have length : (statText pid comm fields last).length =
        front.length + 1 + (afterName fields last).length := by
      simp [statText, front, Nat.add_assoc, Nat.add_comm, Nat.add_left_comm]
    rw [length, ← List.length_eq_zero_iff]
    omega
  unfold startTimeOfStat
  simp only [found, rest, ends, fields_afterName, List.getElem?_map]
  cases fields[19]? with
  | none => rfl
  | some field => rfl

/-- For every process name, `readStartTimeTicks` returns the value of the twentieth field after the
name when there are as many and this one is a decimal `uint64`, and an error in every other case;
the result does not depend on the name. -/
theorem readStartTimeTicks_iff (pid : UInt32) (fields : List StatField) (last : LastGap)
    (fs : ProcFs) (comm : GoString) (shown : fs.stat pid = some (statText pid comm fields last)) :
    (∀ value : UInt64, readStartTimeTicks fs pid = .ok value ↔
      ∃ field, fields[19]? = some field ∧ IsNumeral field.word value.toNat) ∧
    ∀ (other : ProcFs) (imitation : GoString),
      other.stat pid = some (statText pid imitation fields last) →
      readStartTimeTicks other pid = readStartTimeTicks fs pid := by
  have read : ∀ (fs : ProcFs) comm, fs.stat pid = some (statText pid comm fields last) →
      readStartTimeTicks fs pid = startTimeOfStat (statText pid comm fields last) := by
    intro fs comm shown
    simp [readStartTimeTicks, shown]
  constructor
  · intro value
    rw [read fs comm shown, startTimeOfStat_statText]
    by_cases nothing : afterName fields last = []
    · have none_left := fields_afterName fields last
      rw [nothing] at none_left
      have empty : fields = [] := List.map_eq_nil_iff.mp none_left.symm
      rw [if_pos nothing, empty]
      simp
    · rw [if_neg nothing]
      cases fields[19]? with
      | none => simp
      | some field =>
        have parsed := parseUint_eq_iff field.word value
        simp only [Option.some.injEq, exists_eq_left', ← parsed]
        obtain ⟨number, _ | error⟩ := field.word.parseUint
        · simp
        · simp
  · intro other imitation also
    rw [read other imitation also, read fs comm shown, startTimeOfStat_statText,
      startTimeOfStat_statText]

/-- The numeral `n` after a space, for small `n`. -/
def digitField (n : Fin 10) : StatField where
  gap := [32]
  word := [UInt8.ofNat (48 + n)]
  gap_white := isGap_space
  gap_nonempty := by simp
  word_nonempty := by simp
  word_plain := by revert n; decide +kernel
  no_paren := by revert n; decide +kernel

/-- A process that is named like the end of its own line. -/
theorem readStartTimeTicks_iff_imitation :
    readStartTimeTicks
      ⟨fun _ => some (statText 7 (lit "x) R 1 2 3 4 5 6 7 8 9 10 11 12 13 14 15 16 17 18 19 20 (y")
        (List.replicate 19 (digitField 0) ++ [digitField 4]) ⟨[], .nil⟩), fun _ => none⟩ 7 =
      .ok 4 :=
  ((readStartTimeTicks_iff 7 _ ⟨[], .nil⟩ _ _ rfl).1 4).mpr
    ⟨digitField 4, rfl, by decide +kernel, by decide +kernel, rfl⟩

end ContainerAnomaly.Container
