import ContainerAnomaly.Feature.RoundTrip
import ContainerAnomaly.Lib.Lines
import ContainerAnomaly.Lib.Machine
import ContainerAnomaly.Lib.Words

/-!
# The feature file

Agents that run one after another over one file, system call by system call: `NewEncoder` looks
whether the file exists, opens it, and writes the header when it did not; `Encoder.Write` writes a
row; a run may end between any two calls. The kernel takes as many bytes of a write as it likes, and
after a write that fails nothing more is written in the run.
-/

namespace ContainerAnomaly.Feature

open Lib

/-- The text that the headers are written as. -/
def headerText : GoString := [Csv.comma].intercalate (headers.map Csv.writeField)

/-- The line that `NewEncoder` writes. -/
def headerLine : GoString := Csv.writeRecord headers

/-- What happens next: a system call and its outcome, or a call of the agent that leads to some. -/
inductive Call where
  /-- `os.Stat`, which may fail for a reason of its own. -/
  | stat (fails : Bool)
  /-- `os.OpenFile`. -/
  | openFile (fails : Bool)
  /-- `write`, of as many bytes; of none when it fails. -/
  | write (taken : Nat)
  /-- `Encoder.Write`. -/
  | row (v : Vector)
  /-- `Encoder.Close`. -/
  | close
  | crash

/-- Where the running agent is, when there is one. -/
inductive Phase where
  | idle
  /-- In `NewEncoder`, before the file is opened. -/
  | statted (newFile : Bool)
  /-- In `NewEncoder`, with as many bytes of the header written. -/
  | header (written : Nat)
  | ready
  /-- After a write that failed: the buffer keeps the error. -/
  | failed
  /-- In `Encoder.Write`, with as many bytes of the row written. -/
  | row (v : Vector) (written : Nat)

/-- What `Encoder.Write` returns. -/
inductive Answer where
  | written | refused
deriving DecidableEq

/-- The file, when it exists, and the running agent. -/
structure World where
  /-- The text of the file, `none` when there is none. -/
  content : Option GoString
  /-- What the agent is doing. -/
  phase : Phase

variable (location : Int → Int)

/-- The line of a vector, as an agent in a location writes it. -/
def rowLine (v : Vector) : GoString := v.line (formatsIn location)

/-- A write at the end of the file. -/
def World.append (world : World) (bytes : GoString) (phase : Phase) : World :=
  ⟨world.content.map (· ++ bytes), phase⟩

/-- One step of the agents. -/
def World.step (world : World) : Call → World × List Answer
  | .stat fails =>
    match world.phase with
    | .idle => ({ world with phase := .statted (!fails && world.content.isNone) }, [])
    | _ => (world, [])
  | .openFile fails =>
    match world.phase with
    | .statted newFile =>
      if fails then ({ world with phase := .idle }, [])
      else (⟨some (world.content.getD []), if newFile then .header 0 else .ready⟩, [])
    | _ => (world, [])
  | .write taken =>
    match world.phase with
    | .header written =>
      if taken = 0 then ({ world with phase := .failed }, [])
      else (world.append ((headerLine.drop written).take taken)
        (if headerLine.length ≤ written + taken then .ready else .header (written + taken)), [])
    | .row v written =>
      let line := rowLine location v
      if taken = 0 then ({ world with phase := .failed }, [.refused])
      else if line.length ≤ written + taken then
        (world.append ((line.drop written).take taken) .ready, [.written])
      else (world.append ((line.drop written).take taken) (.row v (written + taken)), [])
    | _ => (world, [])
  | .row v =>
    match world.phase with
    | .ready => ({ world with phase := .row v 0 }, [])
    | .failed => (world, [.refused])
    | _ => (world, [])
  | .close =>
    match world.phase with
    | .ready | .failed => ({ world with phase := .idle }, [])
    | _ => (world, [])
  | .crash => ({ world with phase := .idle }, [])

/-- The agents over one file. -/
def agents : Machine World Call Answer where
  step := World.step location

/-- The first line of the file is the header, and no later line is. -/
def Headed (content : Option GoString) : Prop :=
  ∃ text, content = some text ∧ text.lines.head? = some headerText ∧
    headerText ∉ text.lines.tail

/-- A step that spoils the file: the header is cut short, by the end of the run or by a write that
fails; or the file is made by an agent that takes it for an old one; or a row, as far as it is
written, has the header as one of its own lines. -/
def Spoils (moment : World × Call) : Prop :=
  match moment.1.phase, moment.2 with
  | .header _, .crash => True
  | .header _, .write taken => taken = 0
  | .statted false, .openFile false => moment.1.content = none
  | .row v written, .write taken =>
    GoString.newline :: headerLine <:+: (rowLine location v).take (written + taken)
  | _, _ => False

instance : DecidablePred (Spoils location) := fun moment => by
  unfold Spoils
  split <;> infer_instance

/-- The header ends with its line feed. -/
theorem headerLine_eq : headerLine = headerText ++ [GoString.newline] := rfl

/-- The header has a line feed. -/
theorem newline_mem_headerLine : GoString.newline ∈ headerLine := by
  rw [headerLine_eq]
  exact List.mem_append_right headerText List.mem_cons_self

/-- The header is not empty. -/
theorem headerLine_pos : 0 < headerLine.length :=
  List.length_pos_of_mem newline_mem_headerLine

/-- The header is one line. -/
theorem newline_not_mem_headerText : GoString.newline ∉ headerText := by decide +kernel

/-- A file has its header when it starts with the line of the headers and has it nowhere else. -/
theorem headed_iff_infix (text : GoString) :
    Headed (some text) ↔ headerLine <+: text ∧ ¬ GoString.newline :: headerLine <:+: text := by
  have first := GoString.head?_lines_eq_some_iff newline_not_mem_headerText text
  have later := GoString.mem_tail_lines_iff newline_not_mem_headerText text
  rw [← headerLine_eq] at first later
  simp [Headed, first, later]

/-- The header has no digit and no hyphen. -/
theorem no_mark_headerLine {c : UInt8} (inside : c ∈ headerLine) :
    ¬ (c = 45 ∨ GoString.IsDigit c) := by
  have all : (headerLine.all fun c => ¬ (c = 45 ∨ GoString.IsDigit c)) = true := by
    decide +kernel
  simpa using List.all_eq_true.mp all c inside

/-- A time stamp needs no quotes. -/
theorem stamp_plain (seconds : Int) : ¬ Csv.FieldNeedsQuotes (Calendar.stamp seconds) := by
  obtain ⟨c, first, mark⟩ := Calendar.head?_stamp seconds
  obtain ⟨rest, start⟩ : ∃ rest, Calendar.stamp seconds = c :: rest :=
    ⟨_, List.eq_cons_of_mem_head? first⟩
  rintro ⟨_, dot | ⟨d, inside, special⟩ | white⟩
  · rw [start] at dot
    obtain rfl := (List.cons.inj dot).1
    exact absurd mark (by decide)
  · have high := Calendar.le_of_mem_stamp inside
    rcases special with rfl | rfl | rfl | rfl <;> exact absurd high (by decide)
  · rcases GoString.spaceLength_cases (Calendar.stamp seconds) with zero | ⟨w, after, space, split⟩
    · exact white zero
    · obtain ⟨d, back, rfl⟩ := List.exists_cons_of_ne_nil space.nonempty
      rw [start, List.cons_append] at split
      obtain rfl := (List.cons.inj split).1
      refine space.not_plain List.mem_cons_self ?_
      rcases mark with rfl | digit
      · decide
      · exact GoString.isPlain_of_isDigit digit

/-- A row starts with a byte that the header does not have. -/
theorem rowLine_cons (v : Vector) :
    ∃ c rest, rowLine location v = c :: rest ∧ c ∉ headerLine := by
  obtain ⟨c, first, mark⟩ := Calendar.head?_stamp (wallClock location v.windowStart)
  have nonempty : Calendar.stamp (wallClock location v.windowStart) ≠ [] := by
    intro empty
    rw [empty] at first
    cases first
  have head := Csv.head?_writeRecord nonempty (stamp_plain _) (v.record (formatsIn location)).tail
  exact ⟨c, (rowLine location v).tail, List.eq_cons_of_mem_head? (head.trans first),
    fun inside => no_mark_headerLine inside mark⟩

end ContainerAnomaly.Feature
