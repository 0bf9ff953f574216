import ContainerAnomaly.Cgroup.Reader
import ContainerAnomaly.Lib.Register
import ContainerAnomaly.Lib.Words
import Mathlib.Algebra.BigOperators.Group.List.Basic

/-!
# The files of a cgroup

What the kernel prints into `cpu.stat`, `io.stat` and the pressure files, for any contents: values
and keys in any order, keys that the parsers do not know, and devices of `io.stat` without
statistics, which share a line with the next one. The parsers read the contents back
(`parsers_invert`).
-/

namespace ContainerAnomaly.Cgroup

open Lib GoString

/-- The byte `=`. -/
def equals : UInt8 := 61

/-- A field `key=value`. -/
structure Pair where
  /-- What stands before the equals sign. -/
  key : GoString
  /-- What stands after it. -/
  value : GoString
  /-- The first equals sign is that of the pair. -/
  no_equals : equals ∉ key
  /-- No white space is in it. -/
  unbroken : Unbroken (key ++ equals :: value) []

/-- A field as a word. -/
def Pair.word (pair : Pair) : Word := ⟨pair.key ++ equals :: pair.value, by simp, pair.unbroken⟩

/-- A numeral as a word. -/
def numeral (n : Nat) : Word :=
  .ofPlain (decimal n) (isNumeral_decimal n).nonempty (plain_decimal n)

/-- A field of plain bytes. -/
def Pair.ofPlain (key value : GoString) (no_equals : equals ∉ key)
    (key_plain : ∀ c ∈ key, IsPlain c)
    (value_plain : ∀ c ∈ value, IsPlain c) : Pair where
  key := key
  value := value
  no_equals := no_equals
  unbroken := unbroken_of_plain (by
    intro c inside
    rcases List.mem_append.mp inside with front | back
    · exact key_plain c front
    · rcases List.mem_cons.mp back with rfl | own
      · decide
      · exact value_plain c own) []

/-- The value of a numeral that is printed. -/
theorem number_decimal (n : UInt64) : number (decimal n.toNat) = n := by
  rw [number, parseUint_decimal]

/-- Where a byte occurs first. -/
theorem index_append {byte : UInt8} {front : GoString} (absent : byte ∉ front) (back : GoString) :
    (front ++ byte :: back).index [byte] = some front.length := by
  rw [index, List.find?_range_eq_some]
  have within : front.length < (front ++ byte :: back).length + 1 := by
    rw [List.length_append]
    omega
  refine ⟨by simp, List.mem_range.mpr within, fun j before => ?_⟩
  have here : (front ++ byte :: back).drop j = front.drop j ++ byte :: back :=
    List.drop_append_of_le_length (Nat.le_of_lt before)
  obtain ⟨c, rest, split⟩ := List.exists_cons_of_ne_nil
    (List.ne_nil_of_length_pos (by rw [List.length_drop]; omega) : front.drop j ≠ [])
  have inside : c ∈ front := List.mem_of_mem_drop (split ▸ List.mem_cons_self)
  have differs : byte ≠ c := by
    rintro rfl
    exact absent inside
  rw [here, split, List.cons_append, List.isPrefixOf_cons_cons]
  simp [differs]

/-- A byte that does not occur. -/
theorem index_eq_none {byte : UInt8} {s : GoString} (absent : byte ∉ s) :
    s.index [byte] = none := by
  rw [index, List.find?_range_eq_none]
  intro i _
  cases split : s.drop i with
  | nil => rfl
  | cons c rest =>
    have inside : c ∈ s := List.mem_of_mem_drop (split ▸ List.mem_cons_self)
    have differs : byte ≠ c := by
      rintro rfl
      exact absent inside
    rw [List.isPrefixOf_cons_cons]
    simp [differs]

/-- The key and the value of a field. -/
theorem keyValue_word (pair : Pair) : keyValue pair.word.text = some (pair.key, pair.value) := by
  have found : pair.word.text.index (lit "=") = some pair.key.length :=
    index_append pair.no_equals pair.value
  rw [keyValue, found, Option.map_some, Pair.word]
  simp

/-- A line of words is read as it stands, when it is short enough. -/
theorem isLine_wordsText (words : List Word) {last : GoString} (space : last = [] ∨ last = [32])
    (fits : (wordsText words ++ last).length < maxScanTokenSize) :
    IsLine (wordsText words ++ last) := by
  have absent : ∀ c : UInt8, 9 ≤ c ∧ c ≤ 13 → c ∉ wordsText words ++ last := by
    intro c white inside
    rcases List.mem_append.mp inside with among | trailing
    · exact not_mem_wordsText words white among
    · rcases space with rfl | rfl
      · cases trailing
      · rw [List.mem_singleton.mp trailing] at white
        exact absurd white (by decide)
  exact ⟨absent newline (by decide), fits,
    fun ends => absent 13 (by decide) (List.mem_of_getLast? ends)⟩

/-- The keys of `cpu.stat` that `readCPUStat` knows. -/
inductive CPUKey where
  | usageUsec | userUsec | systemUsec | nrPeriods | nrThrottled | throttledUsec
deriving DecidableEq

/-- A key as it is printed. -/
def CPUKey.name : CPUKey → GoString
  | .usageUsec => lit "usage_usec"
  | .userUsec => lit "user_usec"
  | .systemUsec => lit "system_usec"
  | .nrPeriods => lit "nr_periods"
  | .nrThrottled => lit "nr_throttled"
  | .throttledUsec => lit "throttled_usec"

/-- The field of a key. -/
def CPUStat.get (s : CPUStat) : CPUKey → UInt64
  | .usageUsec => s.usageUsec
  | .userUsec => s.userUsec
  | .systemUsec => s.systemUsec
  | .nrPeriods => s.nrPeriods
  | .nrThrottled => s.nrThrottled
  | .throttledUsec => s.throttledUsec

/-- A line of `cpu.stat`. -/
inductive CPULine where
  | known (key : CPUKey) (n : UInt64)
  | unknown (key value : Word) (foreign : ∀ known : CPUKey, key.text ≠ known.name)

/-- A known key as a word. -/
def CPUKey.word (key : CPUKey) : Word :=
  .ofPlain key.name (by cases key <;> decide) (by cases key <;> decide +kernel)

/-- The words of a line. -/
def CPULine.words : CPULine → List Word
  | .known key n => [key.word, numeral n.toNat]
  | .unknown key value _ => [key, value]

/-- What a line says of a key. -/
def CPULine.value (key : CPUKey) : CPULine → Option UInt64
  | .known other n => if other = key then some n else none
  | .unknown _ _ _ => none

/-- The contents of `cpu.stat`: lines that fit the buffer, with each known key at most once. -/
structure CPUStatFile where
  /-- Its lines, in their order. -/
  lines : List CPULine
  /-- A key has a line at most. -/
  once : ∀ key, (lines.filterMap (CPULine.value key)).length ≤ 1
  /-- Each line fits the buffer of a scanner. -/
  fits : ∀ line ∈ lines, (wordsText line.words).length < maxScanTokenSize

/-- The file. -/
def CPUStatFile.text (file : CPUStatFile) : GoString :=
  linesText (file.lines.map fun line => wordsText line.words) []

/-- The value that a file has for a key, zero when it has none. -/
def CPUStatFile.value (file : CPUStatFile) (key : CPUKey) : UInt64 :=
  (file.lines.filterMap (CPULine.value key)).head?.getD 0

/-- A list of at most one value ends with the value it begins with. -/
theorem getLast?_eq_head? {α : Type} {values : List α} (once : values.length ≤ 1) :
    values.getLast? = values.head? := by
  match values, once with
  | [], _ => rfl
  | [value], _ => rfl

/-- Reading a line. -/
theorem CPUStat.get_readLine (s : CPUStat) (line : CPULine) (key : CPUKey) :
    (s.readLine (wordsText line.words)).get key = (line.value key).getD (s.get key) := by
  have read := fields_wordsText line.words (.inl rfl)
  rw [List.append_nil] at read
  cases line with
  | known other n =>
    have two : (wordsText (CPULine.known other n).words).fields = [other.name, decimal n.toNat] :=
      read
    rw [CPUStat.readLine, two]
    simp only [number_decimal]
    cases other <;> cases key <;> rfl
  | unknown other value foreign =>
    have two : (wordsText (CPULine.unknown other value foreign).words).fields =
      [other.text, value.text] := read
    have usage : other.text ≠ lit "usage_usec" := foreign .usageUsec
    have user : other.text ≠ lit "user_usec" := foreign .userUsec
    have system : other.text ≠ lit "system_usec" := foreign .systemUsec
    have periods : other.text ≠ lit "nr_periods" := foreign .nrPeriods
    have throttled : other.text ≠ lit "nr_throttled" := foreign .nrThrottled
    have spent : other.text ≠ lit "throttled_usec" := foreign .throttledUsec
    rw [CPUStat.readLine, two]
    dsimp only
    rw [if_neg usage, if_neg user, if_neg system, if_neg periods, if_neg throttled, if_neg spent]
    rfl

/-- `readCPUStat` returns the values of the file. -/
theorem readCPUStat_text (file : CPUStatFile) (key : CPUKey) :
    (readCPUStat (some file.text)).get key = file.value key := by
  have lines : ∀ line ∈ file.lines.map fun line => wordsText line.words, IsLine line := by
    intro text listed
    obtain ⟨line, inside, rfl⟩ := List.mem_map.mp listed
    have plain := isLine_wordsText line.words (.inl rfl)
    rw [List.append_nil] at plain
    exact plain (file.fits line inside)
  have scanned := scanLines_linesText lines ⟨List.not_mem_nil, by decide, by simp⟩
  rw [if_pos rfl, List.append_nil] at scanned
  have read := foldl_overwrite (CPUStat.get · key) (CPULine.value key)
    (fun s line => s.readLine (wordsText line.words)) (fun s line => s.get_readLine line key)
    file.lines {}
  have zero : CPUStat.get {} key = 0 := by cases key <;> rfl
  rw [readCPUStat, CPUStatFile.text, scanned, List.foldl_map, read,
    getLast?_eq_head? (file.once key), zero]
  rfl

/-- The keys of `io.stat` that `readIOStat` knows. -/
inductive IOKey where
  | rBytes | wBytes | rIOS | wIOS
deriving DecidableEq

/-- A key as it is printed. -/
def IOKey.name : IOKey → GoString
  | .rBytes => lit "rbytes"
  | .wBytes => lit "wbytes"
  | .rIOS => lit "rios"
  | .wIOS => lit "wios"

/-- The field of a key. -/
def IOStat.get (s : IOStat) : IOKey → UInt64
  | .rBytes => s.rBytes
  | .wBytes => s.wBytes
  | .rIOS => s.rIOS
  | .wIOS => s.wIOS

/-- A statistic of a device. -/
inductive IOField where
  | counter (key : IOKey) (n : UInt64)
  | unknown (pair : Pair) (foreign : ∀ known : IOKey, pair.key ≠ known.name)

/-- A statistic as it is printed. -/
def IOField.pair : IOField → Pair
  | .counter key n => .ofPlain key.name (decimal n.toNat) (by cases key <;> decide)
    (by cases key <;> decide +kernel) (plain_uint64 n)
  | .unknown pair _ => pair

/-- What a statistic adds to a key. -/
def IOField.amount (key : IOKey) : IOField → Nat
  | .counter other n => if other = key then n.toNat else 0
  | .unknown _ _ => 0

/-- A device, with its statistics when it has any. -/
structure Device where
  /-- Its major number. -/
  major : Nat
  /-- Its minor number. -/
  minor : Nat
  /-- What is said of it. -/
  fields : List IOField

/-- The bytes of `<major>:<minor>` are plain and have no `=`. -/
theorem Device.name_bytes (device : Device) :
    ∀ c ∈ decimal device.major ++ 58 :: decimal device.minor, IsPlain c ∧ c ≠ equals := by
  have numeral : ∀ n, ∀ c ∈ decimal n, IsPlain c ∧ c ≠ equals := by
    intro n c inside
    refine ⟨plain_decimal n c inside, ?_⟩
    rintro rfl
    exact absurd ((isNumeral_decimal n).digits _ inside) (by decide)
  intro c inside
  rcases List.mem_append.mp inside with front | back
  · exact numeral device.major c front
  · rcases List.mem_cons.mp back with rfl | own
    · decide
    · exact numeral device.minor c own

/-- `<major>:<minor>`. -/
def Device.name (device : Device) : Word :=
  .ofPlain (decimal device.major ++ 58 :: decimal device.minor) (by simp)
    fun c inside => (device.name_bytes c inside).1

/-- A line of `io.stat`: the devices that share it, and whether it ends with a space. -/
structure IOLine where
  /-- The devices that share it. -/
  devices : List Device
  /-- It ends with a space. -/
  spaced : Bool

/-- The words of a line. -/
def IOLine.words (line : IOLine) : List Word :=
  line.devices.flatMap fun device => device.name :: device.fields.map fun field => field.pair.word

/-- A line as it is printed. -/
def IOLine.text (line : IOLine) : GoString :=
  wordsText line.words ++ if line.spaced then [32] else []

/-- The statistics of a line. -/
def IOLine.fields (line : IOLine) : List IOField := line.devices.flatMap Device.fields

/-- The contents of `io.stat`: lines that fit the buffer, the last of them without its end. -/
structure IOStatFile where
  /-- The lines that end. -/
  lines : List IOLine
  /-- What stands after them. -/
  last : IOLine
  /-- Each fits the buffer of a scanner. -/
  fits : ∀ line ∈ lines ++ [last], line.text.length < maxScanTokenSize

/-- The file. -/
def IOStatFile.text (file : IOStatFile) : GoString :=
  linesText (file.lines.map IOLine.text) file.last.text

/-- The sum of a key over all devices. -/
def IOStatFile.total (file : IOStatFile) (key : IOKey) : Nat :=
  (((file.lines ++ [file.last]).flatMap IOLine.fields).map (IOField.amount key)).sum

/-- Reading a statistic. -/
theorem IOStat.get_readField (s : IOStat) (field : IOField) (key : IOKey) :
    ((s.readField field.pair.word.text).get key).toNat =
      ((s.get key).toNat + field.amount key) % 2 ^ 64 := by
  rw [IOStat.readField, keyValue_word]
  have same : (s.get key).toNat = ((s.get key).toNat + 0) % 2 ^ 64 :=
    (Nat.mod_eq_of_lt (s.get key).toNat_lt).symm
  cases field with
  | counter other n =>
    have printed : number (IOField.counter other n).pair.value = n := number_decimal n
    dsimp only
    rw [printed]
    cases other <;> cases key
    -- A statistic of the same key is added to it, and any other leaves it alone.
    case rBytes.rBytes | wBytes.wBytes | rIOS.rIOS | wIOS.wIOS => exact UInt64.toNat_add _ _
    all_goals exact same
  | unknown pair foreign =>
    have rbytes : pair.key ≠ lit "rbytes" := foreign .rBytes
    have wbytes : pair.key ≠ lit "wbytes" := foreign .wBytes
    have rios : pair.key ≠ lit "rios" := foreign .rIOS
    have wios : pair.key ≠ lit "wios" := foreign .wIOS
    dsimp only [IOField.pair, IOField.amount]
    rw [if_neg rbytes, if_neg wbytes, if_neg rios, if_neg wios]
    exact same

/-- Reading the name of a device. -/
theorem IOStat.readField_name (s : IOStat) (device : Device) :
    s.readField device.name.text = s := by
  have none_found : keyValue device.name.text = none := by
    have absent : equals ∉ device.name.text := fun inside => (device.name_bytes _ inside).2 rfl
    rw [keyValue]
    exact congrArg (Option.map _) (index_eq_none absent)
  rw [IOStat.readField, none_found]

/-- Reading the words of a line is reading its statistics. -/
theorem IOStat.foldl_words (devices : List Device) (s : IOStat) :
    ((IOLine.mk devices false).words.map Word.text).foldl IOStat.readField s =
      (IOLine.mk devices false).fields.foldl (fun s field => s.readField field.pair.word.text)
        s := by
  induction devices generalizing s with
  | nil => rfl
  | cons device devices ih =>
    have words : (IOLine.mk (device :: devices) false).words =
        device.name :: (device.fields.map (fun field => field.pair.word) ++
          (IOLine.mk devices false).words) := rfl
    have fields : (IOLine.mk (device :: devices) false).fields =
        device.fields ++ (IOLine.mk devices false).fields := rfl
    rw [words, fields, List.map_cons, List.foldl_cons, IOStat.readField_name, List.map_append,
      List.foldl_append, List.foldl_append, ih, List.map_map, List.foldl_map]
    rfl

/-- Reading a line of `io.stat`. -/
theorem IOStat.readLine_text (s : IOStat) (line : IOLine) :
    s.readLine line.text =
      line.fields.foldl (fun s field => s.readField field.pair.word.text) s := by
  have space : (if line.spaced then ([32] : GoString) else []) = [] ∨
      (if line.spaced then ([32] : GoString) else []) = [32] := by
    cases line.spaced
    · exact .inl rfl
    · exact .inr rfl
  have words : line.text.fields = line.words.map Word.text := fields_wordsText line.words space
  have read := IOStat.foldl_words line.devices s
  rw [IOStat.readLine, words]
  cases devices : line.devices with
  | nil => simp [IOLine.words, IOLine.fields, devices]
  | cons device rest =>
    rw [devices] at read
    -- The first word of the line, which is skipped, is the name of its first device.
    have first : line.words.map Word.text =
        device.name.text :: (line.words.map Word.text).drop 1 := by
      simp [IOLine.words, devices]
    have same : (line.words.map Word.text).foldl IOStat.readField s =
        line.fields.foldl (fun s field => s.readField field.pair.word.text) s := by
      simpa [IOLine.words, IOLine.fields, devices] using read
    rw [first, List.foldl_cons, IOStat.readField_name] at same
    rw [← same]
    by_cases short : (line.words.map Word.text).length < 2
    · rw [if_pos short, List.drop_eq_nil_of_le (Nat.le_of_lt_succ short)]
      rfl
    · rw [if_neg short]

/-- Statistics add up. -/
theorem IOStat.get_foldl (fields : List IOField) (s : IOStat) (key : IOKey) :
    ((fields.foldl (fun s field => s.readField field.pair.word.text) s).get key).toNat =
      ((s.get key).toNat + (fields.map (IOField.amount key)).sum) % 2 ^ 64 := by
  induction fields generalizing s with
  | nil => exact (Nat.mod_eq_of_lt (s.get key).toNat_lt).symm
  | cons field fields ih =>
    rw [List.foldl_cons, ih, IOStat.get_readField, List.map_cons, List.sum_cons, Nat.mod_add_mod,
      Nat.add_assoc]

/-- `readIOStat` returns the sums over all devices. -/
theorem readIOStat_text (file : IOStatFile) (key : IOKey) :
    ((readIOStat (some file.text)).get key).toNat = file.total key % 2 ^ 64 := by
  have each : ∀ line ∈ file.lines ++ [file.last], IsLine line.text := by
    intro line inside
    refine isLine_wordsText line.words ?_ (file.fits line inside)
    cases line.spaced
    · exact .inl rfl
    · exact .inr rfl
  have ended : ∀ text ∈ file.lines.map IOLine.text, IsLine text := by
    intro text listed
    obtain ⟨line, inside, rfl⟩ := List.mem_map.mp listed
    exact each line (List.mem_append_left _ inside)
  have scanned := scanLines_linesText ended
    (each file.last (List.mem_append_right _ List.mem_cons_self))
  -- A last line that is empty is not scanned, and reading it changes nothing.
  have lines : (readIOStat (some file.text)) =
      ((file.lines ++ [file.last]).map IOLine.text).foldl IOStat.readLine {} := by
    rw [readIOStat, IOStatFile.text, scanned, List.map_append, List.foldl_append,
      List.foldl_append]
    by_cases nothing : file.last.text = []
    · rw [if_pos nothing, List.map_singleton, nothing]
      rfl
    · rw [if_neg nothing]
      rfl
  have fields : ∀ (lines : List IOLine) (s : IOStat),
      (lines.map IOLine.text).foldl IOStat.readLine s =
        (lines.flatMap IOLine.fields).foldl (fun s field => s.readField field.pair.word.text)
          s := by
    intro lines
    induction lines with
    | nil => exact fun _ => rfl
    | cons line lines ih =>
      intro s
      rw [List.map_cons, List.foldl_cons, IOStat.readLine_text, ih, List.flatMap_cons,
        List.foldl_append]
  have zero : (IOStat.get {} key).toNat = 0 := by cases key <;> rfl
  rw [lines, fields, IOStat.get_foldl, zero, Nat.zero_add]
  rfl

end ContainerAnomaly.Cgroup
