import ContainerAnomaly.Detect.Features
import ContainerAnomaly.Lib.Fallible
import ContainerAnomaly.Lib.Numeral

/-!
# The detection report

`tests/report_clean.py`: for each attack of a schedule, the scored windows that end while it runs
or in the five seconds after it are counted, those that are flagged too, and the attack is detected
when there is one of these. A report prints a line for each attack, as far as it gets, and a
summary. Time stamps are given as `ts` reads them, in seconds.
-/

namespace ContainerAnomaly.Report

open Lib Detect

/-- The exceptions of the report. -/
inductive ReportFailure where
  /-- `ValueError: cannot convert float NaN to integer`. -/
  | intOfNaN
  /-- `KeyError: 'sys_total'`. -/
  | noTotal
  /-- `ZeroDivisionError: division by zero`. -/
  | noAttacks
deriving DecidableEq

/-- A row of the scored table; `dt` is its `window_end`. -/
structure ScoredWindow (ν : Type) where
  /-- `window_end`, as a number of seconds. -/
  dt : Int
  /-- The other columns. -/
  row : Row ν
  /-- `anomaly`. -/
  anomaly : Int

/-- The scored table. -/
structure ScoredTable (ν : Type) where
  /-- The names of the columns. -/
  columns : List GoString
  /-- The windows, in their order. -/
  windows : List (ScoredWindow ν)

/-- A row of the schedule. -/
structure Label where
  /-- `attack_type`. -/
  attackType : GoString
  /-- `container_name`. -/
  containerName : GoString
  /-- When the attack starts. -/
  start : Int
  /-- When it ends. -/
  stop : Int

/-- `SENSITIVE`. -/
def sensitive : List GoString :=
  [lit "sys_priv_escalate", lit "sys_escape_attempt", lit "sys_file_unlink", lit "sys_file_perm"]

variable {ν : Type} [LinearOrder ν] (np : Numpy ν)

/-- `during`: the windows that an attack is judged by, with their indices. -/
def during (scored : ScoredTable ν) (label : Label) : List (ScoredWindow ν × Nat) :=
  scored.windows.zipIdx.filter fun entry =>
    label.start ≤ entry.1.dt ∧ entry.1.dt ≤ label.stop + 5

/-- A window with actual data. -/
def HasData (window : ScoredWindow ν) : Prop :=
  ∃ total ∈ window.row.cell (lit "sys_total"), np.zero < total

instance (window : ScoredWindow ν) : Decidable (HasData np window) :=
  inferInstanceAs (Decidable (∃ total ∈ window.row.cell (lit "sys_total"), np.zero < total))

/-- `data_rows`. -/
def dataRows (scored : ScoredTable ν) (label : Label) : List (ScoredWindow ν × Nat) :=
  (during scored label).filter fun entry => HasData np entry.1

/-- `anom_data`. -/
def anomData (scored : ScoredTable ν) (label : Label) : List (ScoredWindow ν × Nat) :=
  (dataRows np scored label).filter fun entry => entry.1.anomaly = -1

/-- The rows of nginx and redis. -/
def IsBaseline (window : ScoredWindow ν) : Prop :=
  window.row.name = some (lit "nginx") ∨ window.row.name = some (lit "redis")

instance (window : ScoredWindow ν) : Decidable (IsBaseline window) :=
  inferInstanceAs (Decidable (_ ∨ _))

/-- An entry of `base_max`. -/
def baseMax (scored : ScoredTable ν) (c : GoString) : Except ReportFailure (GoString × Int) :=
  if c ∈ scored.columns then
    let base := scored.windows.filter fun window => IsBaseline window
    match (base.filterMap fun window => window.row.cell c).max? with
    | some most => .ok (c, np.int most)
    | none => .error .intOfNaN
  else .ok (c, 0)

/-- `int(row.get(c, 0))`. -/
def cellInt (scored : ScoredTable ν) (window : ScoredWindow ν) (c : GoString) :
    Except ReportFailure Int :=
  if c ∈ scored.columns then
    match window.row.cell c with
    | some x => .ok (np.int x)
    | none => .error .intOfNaN
  else .ok 0

/-- A number with a comma after every three digits. -/
def thousands (v : Int) : GoString :=
  let digits := (GoString.decimal v.natAbs).reverse.zipIdx.flatMap fun digit =>
    if digit.2 ≠ 0 ∧ digit.2 % 3 = 0 then [44, digit.1] else [digit.1]
  (if v < 0 then lit "-" else []) ++ digits.reverse

/-- The signal of the first flagged window. -/
def signal (scored : ScoredTable ν) (maxima : List (GoString × Int)) (window : ScoredWindow ν) :
    Except ReportFailure GoString := do
  let values ← sensitive.mapM (cellInt np scored window)
  let sig := (sensitive.zip values).filterMap fun (c, v) =>
    if v > (maxima.lookup c).getD 0 then some (c.drop 4 ++ lit "=" ++ thousands v) else none
  pure (if sig = [] then lit "behavioral" else (lit ", ").intercalate (sig.take 2))

/-- What the line of an attack tells. -/
structure AttackLine where
  /-- The kind of the attack. -/
  attackType : GoString
  /-- Some window is flagged. -/
  detected : Bool
  /-- The number of windows with data. -/
  dataWins : Nat
  /-- The number of flagged windows among them. -/
  flagged : Nat
  /-- `src`. -/
  source : GoString

/-- `src`. -/
def source (scored : ScoredTable ν) (maxima : List (GoString × Int)) (label : Label) :
    Except ReportFailure GoString :=
  match (anomData np scored label).head? with
  | some first => signal np scored maxima first.1
  | none => pure (lit "(missed)")

/-- The body of the loop over the schedule. -/
def attackLine (scored : ScoredTable ν) (maxima : List (GoString × Int)) (label : Label) :
    Except ReportFailure AttackLine :=
  if lit "sys_total" ∉ scored.columns then .error .noTotal
  else do
    let src ← source np scored maxima label
    pure
      { attackType := label.attackType
        detected := 0 < (anomData np scored label).length
        dataWins := (dataRows np scored label).length
        flagged := (anomData np scored label).length
        source := src }

/-- The lines that are printed before an exception ends the loop. -/
def attackLines (scored : ScoredTable ν) (maxima : List (GoString × Int)) :
    List Label → List AttackLine × Option ReportFailure
  | [] => ([], none)
  | label :: rest =>
    match attackLine np scored maxima label with
    | .error failure => ([], some failure)
    | .ok line =>
      let later := attackLines scored maxima rest
      (line :: later.1, later.2)

/-- What follows the lines: the attacks detected and all of them, and the flagged windows of the
baselines and all of theirs before the first attack. -/
structure Summary where
  /-- The number of detected attacks. -/
  detected : Nat
  /-- The number of attacks. -/
  attacks : Nat
  /-- The flagged windows of the baselines before the first attack. -/
  falsePositives : Nat
  /-- All windows of the baselines before it. -/
  baseRows : Nat

/-- What a report prints. -/
structure Printed where
  /-- The lines of the attacks, up to one that fails. -/
  lines : List AttackLine
  /-- What follows them, or the exception that ends the report. -/
  summary : Except ReportFailure Summary

/-- The summary of the lines. -/
def summarize (scored : ScoredTable ν) (lines : List AttackLine) :
    List Label → Except ReportFailure Summary
  | [] => .error .noAttacks
  | first :: rest =>
    let baseRows := scored.windows.filter fun window => window.dt < first.start ∧ IsBaseline window
    .ok {
      detected := (lines.filter AttackLine.detected).length
      attacks := (first :: rest).length
      falsePositives := (baseRows.filter fun window => window.anomaly = -1).length
      baseRows := baseRows.length }

/-- `main`. -/
def report (scored : ScoredTable ν) (labels : List Label) : Printed :=
  match sensitive.mapM (baseMax np scored) with
  | .error failure => ⟨[], .error failure⟩
  | .ok maxima =>
    match attackLines np scored maxima labels with
    | (lines, some failure) => ⟨lines, .error failure⟩
    | (lines, none) => ⟨lines, summarize scored lines labels⟩

end ContainerAnomaly.Report
