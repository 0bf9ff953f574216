import ContainerAnomaly.Cgroup.Hierarchy
import ContainerAnomaly.Cgroup.PressureFile

/-!
# The directory of a cgroup

The files of a cgroup together: `memory.current`, `memory.max` and `memory.events` beside the files
of the CPU, of IO and of pressure. A controller that is off has no files. `Read` returns what the
directory holds (`read_directory`).
-/

namespace ContainerAnomaly.Cgroup

open Lib GoString

/-- A file with one number. -/
def numberText (n : UInt64) : GoString := decimal n.toNat ++ [newline]

/-- What is in such a file is trimmed to the numeral. -/
theorem trimSpace_line {word : GoString} (present : word ≠ []) (plain : ∀ c ∈ word, IsPlain c) :
    (word ++ [newline]).trimSpace = word :=
  trimSpace_word present (unbroken_of_plain plain [newline]) (.cons (.ascii (by decide)) .nil)

/-- The number of a file is read back. -/
theorem number_numberText (n : UInt64) : number (numberText n).trimSpace = n := by
  rw [numberText, trimSpace_line (isNumeral_decimal _).nonempty (plain_uint64 n), number_decimal]

/-- A limit of memory. -/
inductive Limit where
  | unlimited
  | bytes (n : UInt64)

/-- `memory.max`. -/
def Limit.text : Limit → GoString
  | .unlimited => lit "max" ++ [newline]
  | .bytes n => numberText n

/-- How `MemoryStat` has it. -/
def Limit.shown : Limit → UInt64
  | .unlimited => 0
  | .bytes n => n

/-- A line of `memory.events`. -/
inductive EventLine where
  | oomKill (n : UInt64)
  | other (words : List Word) (foreign : (words.head?).map Word.text ≠ some (lit "oom_kill"))

/-- The words of a line. -/
def EventLine.words : EventLine → List Word
  | .oomKill n => [.ofPlain (lit "oom_kill") (by decide) (by decide +kernel), numeral n.toNat]
  | .other words _ => words

/-- The kills that a line tells of. -/
def EventLine.kills : EventLine → Option UInt64
  | .oomKill n => some n
  | .other _ _ => none

/-- The contents of `memory.events`: lines that fit the buffer, with the kills at most once. -/
structure EventsFile where
  /-- Its lines, in their order. -/
  lines : List EventLine
  /-- One of them tells of kills at most. -/
  once : (lines.filterMap EventLine.kills).length ≤ 1
  /-- Each fits the buffer of a scanner. -/
  fits : ∀ line ∈ lines, (wordsText line.words).length < maxScanTokenSize

/-- The file. -/
def EventsFile.text (file : EventsFile) : GoString :=
  linesText (file.lines.map fun line => wordsText line.words) []

/-- The kills of a file, zero when it has none. -/
def EventsFile.kills (file : EventsFile) : UInt64 :=
  (file.lines.filterMap EventLine.kills).head?.getD 0

/-- Reading a line of `memory.events`. -/
theorem readOOMKill_words (kills : UInt64) (line : EventLine) :
    readOOMKill kills (wordsText line.words) = line.kills.getD kills := by
  have read := fields_wordsText line.words (.inl rfl)
  rw [List.append_nil] at read
  cases line with
  | oomKill n =>
    have two : (wordsText (EventLine.oomKill n).words).fields = [lit "oom_kill", decimal n.toNat] :=
      read
    rw [readOOMKill, two]
    dsimp only
    rw [if_pos rfl, number_decimal]
    rfl
  | other words foreign =>
    have fields : (wordsText (EventLine.other words foreign).words).fields =
      words.map Word.text := read
    rw [readOOMKill, fields]
    match words, foreign with
    | [], _ => rfl
    | [_], _ => rfl
    | [key, value], foreign =>
      have differs : key.text ≠ lit "oom_kill" := fun same => foreign (congrArg some same)
      exact if_neg differs
    | _ :: _ :: _ :: _, _ => rfl

/-- The kills of `memory.events` are read back. -/
theorem readOOMKill_text (file : EventsFile) :
    file.text.scanLines.foldl readOOMKill 0 = file.kills := by
  have each : ∀ text ∈ file.lines.map fun line => wordsText line.words, IsLine text := by
    intro text listed
    obtain ⟨line, inside, rfl⟩ := List.mem_map.mp listed
    have plain := isLine_wordsText line.words (.inl rfl)
    rw [List.append_nil] at plain
    exact plain (file.fits line inside)
  have scanned := scanLines_linesText each ⟨List.not_mem_nil, by decide, by simp⟩
  rw [if_pos rfl, List.append_nil] at scanned
  have read := foldl_overwrite id EventLine.kills
    (fun kills line => readOOMKill kills (wordsText line.words)) readOOMKill_words file.lines 0
  rw [EventsFile.text, scanned, List.foldl_map]
  exact read.trans (by rw [getLast?_eq_head? file.once]; rfl)

/-- What a cgroup directory holds; a file that is not there is `none`. -/
structure Directory where
  /-- `cpu.stat`. -/
  cpuStat : Option CPUStatFile
  /-- `cpu.pressure`. -/
  cpuPressure : Option PressureFile
  /-- `memory.current`. -/
  memoryCurrent : Option UInt64
  /-- `memory.max`. -/
  memoryMax : Option Limit
  /-- `memory.events`. -/
  memoryEvents : Option EventsFile
  /-- `memory.pressure`. -/
  memoryPressure : Option PressureFile
  /-- `io.stat`. -/
  ioStat : Option IOStatFile

/-- What `cpu.stat` says. -/
def CPUStatFile.stat (file : CPUStatFile) : CPUStat where
  usageUsec := file.value .usageUsec
  userUsec := file.value .userUsec
  systemUsec := file.value .systemUsec
  nrPeriods := file.value .nrPeriods
  nrThrottled := file.value .nrThrottled
  throttledUsec := file.value .throttledUsec

/-- What a pressure file says of some tasks. -/
def PressureFile.line (file : PressureFile) (stalled : Stalled) : PressureLine where
  avg10 := file.average stalled .avg10
  avg60 := file.average stalled .avg60
  avg300 := file.average stalled .avg300
  total := file.total stalled

/-- What a pressure file says. -/
def PressureFile.pressure (file : PressureFile) : Pressure := ⟨file.line .some, file.line .full⟩

/-- What `io.stat` says; a sum that does not fit wraps. -/
def IOStatFile.stat (file : IOStatFile) : IOStat where
  rBytes := UInt64.ofNat (file.total .rBytes)
  wBytes := UInt64.ofNat (file.total .wBytes)
  rIOS := UInt64.ofNat (file.total .rIOS)
  wIOS := UInt64.ofNat (file.total .wIOS)

/-- What a directory says, with zeros for what is not there. -/
def Directory.stats (dir : Directory) : Stats where
  cpu := (dir.cpuStat.map CPUStatFile.stat).getD {}
  cpuPressure := (dir.cpuPressure.map PressureFile.pressure).getD {}
  memory :=
    { current := dir.memoryCurrent.getD 0
      max := (dir.memoryMax.map Limit.shown).getD 0
      oomKill := (dir.memoryEvents.map EventsFile.kills).getD 0
      pressure := (dir.memoryPressure.map PressureFile.pressure).getD {} }
  io := (dir.ioStat.map IOStatFile.stat).getD {}

/-- A directory is at a path. -/
structure CgroupFiles.Holds (files : CgroupFiles) (names : List GoString) (dir : Directory) :
    Prop where
  /-- The directory exists. -/
  there : files.stat (path names) = true
  /-- `cpu.stat` has the text of its contents, and so on. -/
  cpuStat : files.openFile (path (names ++ [lit "cpu.stat"])) =
    dir.cpuStat.map CPUStatFile.text
  /-- `cpu.pressure`. -/
  cpuPressure : files.openFile (path (names ++ [lit "cpu.pressure"])) =
    dir.cpuPressure.map PressureFile.text
  /-- `memory.current`. -/
  memoryCurrent : files.readFile (path (names ++ [lit "memory.current"])) =
    dir.memoryCurrent.map numberText
  /-- `memory.max`. -/
  memoryMax : files.readFile (path (names ++ [lit "memory.max"])) = dir.memoryMax.map Limit.text
  /-- `memory.events`. -/
  memoryEvents : files.openFile (path (names ++ [lit "memory.events"])) =
    dir.memoryEvents.map EventsFile.text
  /-- `memory.pressure`. -/
  memoryPressure : files.openFile (path (names ++ [lit "memory.pressure"])) =
    dir.memoryPressure.map PressureFile.text
  /-- `io.stat`. -/
  ioStat : files.openFile (path (names ++ [lit "io.stat"])) = dir.ioStat.map IOStatFile.text

/-- `readCPUStat` returns what the file says. -/
theorem readCPUStat_stat (file : Option CPUStatFile) :
    readCPUStat (file.map CPUStatFile.text) = (file.map CPUStatFile.stat).getD {} := by
  cases file with
  | none => rfl
  | some file =>
    have read := readCPUStat_text file
    show readCPUStat (some file.text) = file.stat
    simp only [CPUStatFile.stat, ← read]
    generalize readCPUStat (some file.text) = s
    rfl

/-- `readIOStat` returns what the file says. -/
theorem readIOStat_stat (file : Option IOStatFile) :
    readIOStat (file.map IOStatFile.text) = (file.map IOStatFile.stat).getD {} := by
  cases file with
  | none => rfl
  | some file =>
    have read : ∀ key, (readIOStat (some file.text)).get key = UInt64.ofNat (file.total key) := by
      intro key
      rw [← UInt64.toNat_inj, readIOStat_text, UInt64.toNat_ofNat']
    show readIOStat (some file.text) = file.stat
    simp only [IOStatFile.stat, ← read]
    generalize readIOStat (some file.text) = s
    rfl

section Reading

variable {parseFloat : GoString → Float} (nearest : Nearest parseFloat)

include nearest in
/-- `readPressure` returns what the file says. -/
theorem readPressure_pressure (file : Option PressureFile) :
    readPressure parseFloat (file.map PressureFile.text) =
      (file.map PressureFile.pressure).getD {} := by
  cases file with
  | none => rfl
  | some file =>
    have averages : ∀ stalled span, ((readPressure parseFloat (some file.text)).line
        stalled).average span = file.average stalled span :=
      fun stalled => (readPressure_text nearest file stalled).1
    have totals : ∀ stalled, ((readPressure parseFloat (some file.text)).line stalled).total =
        file.total stalled := fun stalled => (readPressure_text nearest file stalled).2
    show readPressure parseFloat (some file.text) = file.pressure
    simp only [PressureFile.pressure, PressureFile.line, ← averages, ← totals]
    generalize readPressure parseFloat (some file.text) = p
    rfl

/-- The path of a file of a directory. -/
theorem joinPath_file {names : List GoString} (present : names ≠ [])
    (valid : ∀ name ∈ names, ValidName name) {file : GoString} (own : ValidName file) :
    joinPath [path names, file] = path (names ++ [file]) := by
  refine joinPath_names names [file] present fun name inside => ?_
  rcases List.mem_append.mp inside with above | last
  · exact valid name above
  · exact List.mem_singleton.mp last ▸ own

/-- `memory.max` is read as it is shown. -/
theorem readLimit (limit : Limit) :
    (if limit.text.trimSpace = lit "max" then 0 else number limit.text.trimSpace) =
      limit.shown := by
  cases limit with
  | unlimited => exact if_pos (trimSpace_line (by decide) (by decide +kernel))
  | bytes n =>
    have digits : (numberText n).trimSpace ≠ lit "max" := by
      rw [numberText, trimSpace_line (isNumeral_decimal _).nonempty (plain_uint64 n)]
      intro same
      have inside : (109 : UInt8) ∈ decimal n.toNat := same ▸ (by decide)
      exact absurd ((isNumeral_decimal _).digits _ inside) (by decide)
    rw [Limit.text, if_neg digits]
    exact number_numberText n

include nearest in
/-- `readMemory` returns what the directory says. -/
theorem readMemory_directory {files : CgroupFiles} {names : List GoString} {dir : Directory}
    (present : names ≠ []) (valid : ∀ name ∈ names, ValidName name)
    (holds : files.Holds names dir) :
    readMemory parseFloat files (path names) = dir.stats.memory := by
  have file : ∀ {name : GoString}, ValidName name →
      joinPath [path names, name] = path (names ++ [name]) := joinPath_file present valid
  have current : ValidName (lit "memory.current") := by constructor <;> decide
  have limit : ValidName (lit "memory.max") := by constructor <;> decide
  have events : ValidName (lit "memory.events") := by constructor <;> decide
  have pressure : ValidName (lit "memory.pressure") := by constructor <;> decide
  rw [readMemory, file current, file limit, file events, file pressure, holds.memoryCurrent,
    holds.memoryMax, holds.memoryEvents, holds.memoryPressure, readPressure_pressure nearest]
  show MemoryStat.mk _ _ _ _ = MemoryStat.mk _ _ _ _
  congr 1
  · cases dir.memoryCurrent with
    | none => rfl
    | some n => exact number_numberText n
  · cases dir.memoryMax with
    | none => rfl
    | some limit => exact readLimit limit
  · cases dir.memoryEvents with
    | none => rfl
    | some file => exact readOOMKill_text file

include nearest in
/-- `Read` returns what the directory holds. -/
theorem read_directory {files : CgroupFiles} {names : List GoString} {dir : Directory}
    (present : names ≠ []) (valid : ∀ name ∈ names, ValidName name)
    (holds : files.Holds names dir) : read parseFloat files (path names) = some dir.stats := by
  have file : ∀ {name : GoString}, ValidName name →
      joinPath [path names, name] = path (names ++ [name]) := joinPath_file present valid
  have cpu : ValidName (lit "cpu.stat") := by constructor <;> decide
  have pressure : ValidName (lit "cpu.pressure") := by constructor <;> decide
  have io : ValidName (lit "io.stat") := by constructor <;> decide
  rw [read, if_pos holds.there, file cpu, file pressure, file io, holds.cpuStat,
    holds.cpuPressure, holds.ioStat, readCPUStat_stat, readPressure_pressure nearest,
    readIOStat_stat, readMemory_directory nearest present valid holds]
  rfl

end Reading

end ContainerAnomaly.Cgroup
