import ContainerAnomaly.Cgroup.Files

/-!
# Pressure files

What the kernel prints into `cpu.pressure` and `memory.pressure`: a line for the time that some
tasks are stalled and one for the time that all are, with averages in hundredths of a percent and a
total. `readPressure` reads it back, and with it the three parsers of cgroup files invert what the
kernel prints (`parsers_invert`).
-/

namespace ContainerAnomaly.Cgroup

open Lib GoString

/-- The windows that averages are taken over. -/
inductive Over where
  | avg10 | avg60 | avg300
deriving DecidableEq

/-- The key of an average. -/
def Over.name : Over → GoString
  | .avg10 => lit "avg10"
  | .avg60 => lit "avg60"
  | .avg300 => lit "avg300"

/-- The average over a window. -/
def PressureLine.average (p : PressureLine) : Over → Float
  | .avg10 => p.avg10
  | .avg60 => p.avg60
  | .avg300 => p.avg300

/-- The keys that `readPressure` knows. -/
def pressureKeys : List GoString := [lit "avg10", lit "avg60", lit "avg300", lit "total"]

/-- A number of hundredths with two decimals. -/
def fixed2 (n : Nat) : GoString :=
  decimal (n / 100) ++ 46 :: [UInt8.ofNat (48 + n / 10 % 10), UInt8.ofNat (48 + n % 10)]

/-- The floating-point number nearest to a number of hundredths. -/
def hundredths (n : Nat) : Float := OfScientific.ofScientific n true 2

/-- A field of a line. -/
inductive PressureField where
  | average (span : Over) (n : Nat)
  | total (n : UInt64)
  | unknown (pair : Pair) (foreign : pair.key ∉ pressureKeys)

/-- A number of hundredths is printed plainly. -/
theorem plain_fixed2 (n : Nat) : ∀ c ∈ fixed2 n, IsPlain c := by
  intro c inside
  rcases List.mem_append.mp inside with front | back
  · exact plain_decimal _ c front
  · simp only [List.mem_cons, List.not_mem_nil, or_false] at back
    rcases back with rfl | rfl | rfl
    · decide
    · exact isPlain_of_isDigit (isDigit_ofNat (Nat.mod_lt _ (by decide))).1
    · exact isPlain_of_isDigit (isDigit_ofNat (Nat.mod_lt _ (by decide))).1

/-- The key of the total is plain. -/
theorem plain_total : equals ∉ lit "total" ∧ ∀ c ∈ lit "total", IsPlain c := by decide +kernel

/-- A field as it is printed. -/
def PressureField.pair : PressureField → Pair
  | .average span n => .ofPlain span.name (fixed2 n) (by cases span <;> decide)
    (by cases span <;> decide +kernel) (plain_fixed2 n)
  | .total n => .ofPlain (lit "total") (decimal n.toNat) plain_total.1 plain_total.2
    (plain_uint64 n)
  | .unknown pair _ => pair

/-- The average of a window that a field gives. -/
def PressureField.averageOf (span : Over) : PressureField → Option Nat
  | .average other n => if other = span then some n else none
  | .total _ => none
  | .unknown _ _ => none

/-- The total that a field gives. -/
def PressureField.totalOf : PressureField → Option UInt64
  | .average _ _ => none
  | .total n => some n
  | .unknown _ _ => none

/-- Which tasks a line is about. -/
inductive Stalled where
  | some | full
deriving DecidableEq

/-- The word that a line begins with. -/
def Stalled.name : Stalled → GoString
  | .some => lit "some"
  | .full => lit "full"

/-- The line about these tasks. -/
def Pressure.line (p : Pressure) : Stalled → PressureLine
  | .some => p.some
  | .full => p.full

/-- The first word of a line; one that the parser does not know begins like none that it does. -/
inductive Heading where
  | known (stalled : Stalled)
  | unknown (word : Word) (foreign : ∀ known : Stalled, ¬ known.name <+: word.text)

/-- A heading as a word. -/
def Heading.word : Heading → Word
  | .known stalled => .ofPlain stalled.name (by cases stalled <;> decide)
    (by cases stalled <;> decide +kernel)
  | .unknown word _ => word

/-- A line of a pressure file. -/
structure PressureRow where
  /-- The word that it starts with. -/
  heading : Heading
  /-- Its pairs. -/
  fields : List PressureField

/-- The words of a line. -/
def PressureRow.words (row : PressureRow) : List Word :=
  row.heading.word :: row.fields.map fun field => field.pair.word

/-- The fields of a line that is about these tasks. -/
def PressureRow.about (stalled : Stalled) (row : PressureRow) : List PressureField :=
  match row.heading with
  | .known other => if other = stalled then row.fields else []
  | .unknown _ _ => []

/-- The contents of a pressure file: lines that fit the buffer, with each known key at most once
for the tasks of each kind. -/
structure PressureFile where
  /-- Its lines, in their order. -/
  rows : List PressureRow
  /-- An average is given once at most. -/
  once_average : ∀ stalled span, ((rows.flatMap (PressureRow.about stalled)).filterMap
    (PressureField.averageOf span)).length ≤ 1
  /-- A total is given once at most. -/
  once_total : ∀ stalled, ((rows.flatMap (PressureRow.about stalled)).filterMap
    PressureField.totalOf).length ≤ 1
  /-- Each line fits the buffer of a scanner. -/
  fits : ∀ row ∈ rows, (wordsText row.words).length < maxScanTokenSize

/-- The file. -/
def PressureFile.text (file : PressureFile) : GoString :=
  linesText (file.rows.map fun row => wordsText row.words) []

/-- The average that a file has, zero when it has none. -/
def PressureFile.average (file : PressureFile) (stalled : Stalled) (span : Over) : Float :=
  ((((file.rows.flatMap (PressureRow.about stalled)).filterMap
    (PressureField.averageOf span)).head?).map hundredths).getD 0

/-- The total that a file has, zero when it has none. -/
def PressureFile.total (file : PressureFile) (stalled : Stalled) : UInt64 :=
  ((file.rows.flatMap (PressureRow.about stalled)).filterMap PressureField.totalOf).head?.getD 0

/-- `ParseFloat` returns the floating-point number nearest to a decimal number. -/
def Nearest (parseFloat : GoString → Float) : Prop :=
  ∀ n, parseFloat (fixed2 n) = hundredths n

section Reading

variable {parseFloat : GoString → Float}

/-- Reading a field changes what it is about. -/
theorem PressureLine.readField_pair (nearest : Nearest parseFloat) (p : PressureLine)
    (field : PressureField) :
    (∀ span, (p.readField parseFloat field.pair.word.text).average span =
      ((field.averageOf span).map hundredths).getD (p.average span)) ∧
    (p.readField parseFloat field.pair.word.text).total = field.totalOf.getD p.total := by
  rw [PressureLine.readField, keyValue_word]
  cases field with
  | average other n =>
    have printed : parseFloat (PressureField.average other n).pair.value = hundredths n := nearest n
    dsimp only
    rw [printed]
    cases other
    all_goals exact ⟨fun span => by cases span <;> rfl, rfl⟩
  | total n =>
    have printed : number (PressureField.total n).pair.value = n := number_decimal n
    dsimp only
    rw [printed]
    exact ⟨fun span => by cases span <;> rfl, rfl⟩
  | unknown pair foreign =>
    simp only [pressureKeys, List.mem_cons, List.not_mem_nil, or_false, not_or] at foreign
    obtain ⟨ten, sixty, longest, total⟩ := foreign
    dsimp only [PressureField.pair, PressureField.averageOf, PressureField.totalOf]
    rw [if_neg ten, if_neg sixty, if_neg longest, if_neg total]
    exact ⟨fun _ => rfl, rfl⟩

/-- A name without spaces that a word does not begin with does not begin the word and what is
joined to it by a space. -/
theorem not_prefix_word {name : GoString} {word : Word} (foreign : ¬ name <+: word.text)
    (spaceless : 32 ∉ name) (rest : GoString) : ¬ name <+: word.text ++ 32 :: rest := by
  rintro ⟨tail, split⟩
  rcases List.append_eq_append_iff.mp split with ⟨more, whole, _⟩ | ⟨more, whole, behind⟩
  · exact foreign ⟨more, whole.symm⟩
  · cases more with
    | nil => exact foreign ⟨[], by rw [whole, List.append_nil, List.append_nil]⟩
    | cons c more =>
      obtain rfl := (List.cons.inj behind).1
      exact spaceless (whole ▸ List.mem_append_right _ List.mem_cons_self)

/-- A line begins with its heading, and with no other name. -/
theorem prefix_words_iff (row : PressureRow) (stalled : Stalled) :
    stalled.name.isPrefixOf (wordsText row.words) = true ↔ row.heading = .known stalled := by
  have spaceless : 32 ∉ stalled.name := by cases stalled <;> decide
  -- A line is its heading alone, or its heading and a space before the rest.
  have split : wordsText row.words = row.heading.word.text ∨
      ∃ rest, wordsText row.words = row.heading.word.text ++ 32 :: rest := by
    rw [PressureRow.words]
    cases row.fields with
    | nil => exact .inl (by simp [wordsText])
    | cons field fields =>
      rw [List.map_cons, wordsText_cons_cons]
      exact .inr ⟨_, rfl⟩
  have starts : ∀ text : GoString, text <+: row.heading.word.text →
      text <+: wordsText row.words := by
    intro text begins
    rcases split with whole | ⟨rest, whole⟩
    · rw [whole]
      exact begins
    · rw [whole]
      exact begins.trans (List.prefix_append _ _)
  have only : ¬ stalled.name <+: row.heading.word.text →
      ¬ stalled.name <+: wordsText row.words := by
    intro foreign
    rcases split with whole | ⟨rest, whole⟩
    · rw [whole]
      exact foreign
    · rw [whole]
      exact not_prefix_word foreign spaceless rest
  rw [List.isPrefixOf_iff_prefix]
  cases heading : row.heading with
  | known other =>
    rw [heading] at starts only
    by_cases same : other = stalled
    · subst same
      exact iff_of_true (starts _ List.prefix_rfl) rfl
    · refine iff_of_false (only ?_) fun agree => same (Heading.known.inj agree)
      revert same
      cases other <;> cases stalled <;> decide
  | unknown word foreign =>
    rw [heading] at only
    exact iff_of_false (only (foreign stalled)) (fun agree => by cases agree)

/-- Reading the fields of a line, one after the other. -/
def PressureLine.readFields (parseFloat : GoString → Float) (p : PressureLine)
    (fields : List PressureField) : PressureLine :=
  fields.foldl (fun p field => p.readField parseFloat field.pair.word.text) p

/-- Reading a line changes what it is about. -/
theorem Pressure.readLine_words (p : Pressure) (row : PressureRow) (stalled : Stalled) :
    (p.readLine parseFloat (wordsText row.words)).line stalled =
      (p.line stalled).readFields parseFloat (row.about stalled) := by
  have words := fields_wordsText row.words (.inl rfl)
  rw [List.append_nil] at words
  have values : (wordsText row.words).fields.drop 1 =
      row.fields.map fun field => field.pair.word.text := by
    rw [words, PressureRow.words, List.map_cons, List.map_map]
    rfl
  have some_iff : (lit "some").isPrefixOf (wordsText row.words) = true ↔
      row.heading = .known .some :=
    prefix_words_iff row .some
  have full_iff : (lit "full").isPrefixOf (wordsText row.words) = true ↔
      row.heading = .known .full :=
    prefix_words_iff row .full
  rw [Pressure.readLine, values, PressureRow.about]
  cases heading : row.heading with
  | known other =>
    cases other with
    | some =>
      rw [if_pos (some_iff.mpr heading), List.foldl_map]
      cases stalled <;> rfl
    | full =>
      have other_kind : ¬ (lit "some").isPrefixOf (wordsText row.words) = true := by
        rw [some_iff, heading]
        exact fun agree => by cases agree
      rw [if_neg other_kind, if_pos (full_iff.mpr heading), List.foldl_map]
      cases stalled <;> rfl
  | unknown word foreign =>
    have neither : ¬ (lit "some").isPrefixOf (wordsText row.words) = true ∧
        ¬ (lit "full").isPrefixOf (wordsText row.words) = true := by
      rw [some_iff, full_iff, heading]
      exact ⟨fun agree => (by cases agree), fun agree => (by cases agree)⟩
    rw [if_neg neither.1, if_neg neither.2]
    rfl

/-- `readPressure` returns the values of the file. -/
theorem readPressure_text (nearest : Nearest parseFloat) (file : PressureFile)
    (stalled : Stalled) :
    (∀ span, ((readPressure parseFloat (some file.text)).line stalled).average span =
      file.average stalled span) ∧
    ((readPressure parseFloat (some file.text)).line stalled).total = file.total stalled := by
  have each : ∀ text ∈ file.rows.map fun row => wordsText row.words, IsLine text := by
    intro text listed
    obtain ⟨row, inside, rfl⟩ := List.mem_map.mp listed
    have plain := isLine_wordsText row.words (.inl rfl)
    rw [List.append_nil] at plain
    exact plain (file.fits row inside)
  have scanned := scanLines_linesText each ⟨List.not_mem_nil, by decide, by simp⟩
  rw [if_pos rfl, List.append_nil] at scanned
  have lines : ∀ (rows : List PressureRow) (p : Pressure),
      ((rows.map fun row => wordsText row.words).foldl (Pressure.readLine parseFloat) p).line
          stalled =
        (p.line stalled).readFields parseFloat (rows.flatMap (PressureRow.about stalled)) := by
    intro rows
    induction rows with
    | nil => exact fun _ => rfl
    | cons row rows ih =>
      intro p
      rw [List.map_cons, List.foldl_cons, ih, Pressure.readLine_words, List.flatMap_cons,
        PressureLine.readFields, PressureLine.readFields, ← List.foldl_append]
      rfl
  have blank : Pressure.line {} stalled = {} := by cases stalled <;> rfl
  rw [readPressure, PressureFile.text, scanned, lines, blank, PressureLine.readFields]
  constructor
  · intro span
    have read := foldl_overwrite (PressureLine.average · span)
      (fun field => (PressureField.averageOf span field).map hundredths)
      (fun p field => p.readField parseFloat field.pair.word.text)
      (fun p field => (p.readField_pair nearest field).1 span)
      (file.rows.flatMap (PressureRow.about stalled)) {}
    have zero : PressureLine.average {} span = 0 := by cases span <;> rfl
    rw [read, ← List.map_filterMap, List.getLast?_map,
      getLast?_eq_head? (file.once_average stalled span), zero]
    rfl
  · have read := foldl_overwrite PressureLine.total PressureField.totalOf
      (fun p field => p.readField parseFloat field.pair.word.text)
      (fun p field => (p.readField_pair nearest field).2)
      (file.rows.flatMap (PressureRow.about stalled)) {}
    rw [read, getLast?_eq_head? (file.once_total stalled)]
    rfl

end Reading

/-- The parsers invert what the kernel prints: `readCPUStat` and `readPressure` return the values of
a file for the fields they know, and `readIOStat` the sums over all devices, modulo `2 ^ 64`. -/
theorem parsers_invert (parseFloat : GoString → Float) (nearest : Nearest parseFloat) :
    (∀ (file : CPUStatFile) (key : CPUKey),
      (readCPUStat (some file.text)).get key = file.value key) ∧
    (∀ (file : PressureFile) (stalled : Stalled),
      (∀ span, ((readPressure parseFloat (some file.text)).line stalled).average span =
        file.average stalled span) ∧
      ((readPressure parseFloat (some file.text)).line stalled).total = file.total stalled) ∧
    (∀ (file : IOStatFile) (key : IOKey),
      ((readIOStat (some file.text)).get key).toNat = file.total key % 2 ^ 64) :=
  ⟨readCPUStat_text, readPressure_text nearest, readIOStat_text⟩

/-- `ParseFloat` of digits with a decimal point. -/
def parseFixed (text : GoString) : Float :=
  match text.index (lit ".") with
  | none => OfScientific.ofScientific text.digitsValue false 0
  | some point =>
    let fraction := text.drop (point + 1)
    OfScientific.ofScientific (digitsValue (text.take point ++ fraction)) true fraction.length

/-- It returns the nearest floating-point number. -/
theorem nearest_parseFixed : Nearest parseFixed := by
  intro n
  have absent : (46 : UInt8) ∉ decimal (n / 100) := fun inside =>
    absurd ((isNumeral_decimal (n / 100)).digits _ inside) (by decide)
  have found : (fixed2 n).index (lit ".") = some (decimal (n / 100)).length :=
    index_append absent _
  have tens := (isDigit_ofNat (Nat.mod_lt (n / 10) (by decide : 0 < 10))).2
  have ones := (isDigit_ofNat (Nat.mod_lt n (by decide : 0 < 10))).2
  have value : digitsValue (decimal (n / 100) ++
      [UInt8.ofNat (48 + n / 10 % 10), UInt8.ofNat (48 + n % 10)]) = n := by
    rw [← List.singleton_append, ← List.append_assoc, digitsValue_snoc, digitsValue_snoc,
      (isNumeral_decimal (n / 100)).value_eq, tens, ones]
    omega
  rw [parseFixed, found]
  simp only [fixed2, List.take_left, List.drop_append, List.drop_eq_nil_of_le (Nat.le_succ _),
    Nat.add_sub_cancel_left, List.drop_succ_cons, List.drop_zero, List.nil_append]
  rw [value]
  rfl

/-- A `cpu.stat` with a key that is not known. -/
def cpuSample : CPUStatFile where
  lines := [.known .nrThrottled 7,
    .unknown (.ofPlain (lit "nice_usec") (by decide) (by decide +kernel)) (numeral 3)
      (by intro known; cases known <;> decide),
    .known .usageUsec 5]
  once key := by cases key <;> decide
  fits := by decide +kernel

/-- A pressure file with one line. -/
def pressureSample : PressureFile where
  rows := [⟨.known .full, [.total 9, .average .avg10 150]⟩]
  once_average stalled span := by cases stalled <;> cases span <;> decide
  once_total stalled := by cases stalled <;> decide
  fits := by decide +kernel

/-- An `io.stat` whose first and last devices have no statistics. -/
def ioSample : IOStatFile where
  lines := [⟨[⟨8, 0, []⟩, ⟨8, 16, [.counter .wIOS 1, .counter .rBytes 5]⟩], false⟩,
    ⟨[⟨8, 32, [.counter .rBytes 6]⟩], false⟩]
  last := ⟨[⟨7, 0, []⟩], true⟩
  fits := by decide +kernel

/-- Three files that are read. -/
theorem parsers_invert_samples :
    (readCPUStat (some cpuSample.text)).get .usageUsec = 5 ∧
    ((readPressure parseFixed (some pressureSample.text)).line .full).average .avg10 =
      hundredths 150 ∧
    ((readIOStat (some ioSample.text)).get .rBytes).toNat = 11 :=
  have inverted := parsers_invert parseFixed nearest_parseFixed
  ⟨inverted.1 cpuSample .usageUsec, (inverted.2.1 pressureSample .full).1 .avg10,
    inverted.2.2 ioSample .rBytes⟩

end ContainerAnomaly.Cgroup
