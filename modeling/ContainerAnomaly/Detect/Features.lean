import ContainerAnomaly.Lib.GoString
import Mathlib.Order.Defs.LinearOrder
import Mathlib.Data.List.Dedup
import Mathlib.Data.List.Sort

/-!
# The features of the detector

`engineer_features` of `detect/detect.py`, on tables of feature vectors. Column names and
container names are byte strings. Every feature is a function of one row, so a matrix is made
row by row from the columns that are kept (`frame`).
-/

namespace ContainerAnomaly.Detect

open Lib

/-- The numbers of a table and what numpy computes with them; a missing cell is no number. -/
structure Numpy (ν : Type) where
  /-- 0. -/
  zero : ν
  /-- 1. -/
  one : ν
  /-- `1e6`. -/
  million : ν
  /-- `-0.01`. -/
  minusHundredth : ν
  /-- The sum. -/
  add : ν → ν → ν
  /-- The difference. -/
  sub : ν → ν → ν
  /-- The quotient. -/
  div : ν → ν → ν
  /-- `np.log1p`. -/
  log1p : ν → ν
  /-- `np.linalg.norm` of a row. -/
  norm : List ν → ν
  /-- `int()`, which drops what follows the point. -/
  int : ν → Int

/-- The exceptions of the detector. -/
inductive Failure where
  /-- `AttributeError: 'int' object has no attribute 'where'`. -/
  | noWhere
  /-- `ValueError: cannot convert float NaN to integer`. -/
  | intOfNaN
  /-- `ValueError: The feature names should match those that were passed during fit.` -/
  | featureNames
  /-- `TypeError: 'NoneType' object is not subscriptable`. -/
  | noModel
  /-- `ValueError: No objects to concatenate`. -/
  | noObjects
deriving DecidableEq

/-- A row: the name, when it is not missing, and the cells of the feature columns. -/
structure Row (ν : Type) where
  /-- The cell of the column `name`, `none` when it is NaN. -/
  name : Option GoString
  /-- The cells of the other columns. -/
  cell : GoString → Option ν

/-- `DataFrame`, with the feature columns; the other columns are read by nothing. -/
structure Table (ν : Type) where
  /-- The names of the columns but those of identities. -/
  columns : List GoString
  /-- The rows, in their order. -/
  rows : List (Row ν)

/-- A feature matrix, row by row. -/
abbrev Matrix (ν : Type) := List (List ν)

/-- A column of features: its name, and its value in a row. -/
abbrev Column (ν : Type) := GoString × (Row ν → ν)

variable {ν : Type}

/-- `df["name"].fillna("host")`. -/
def Row.key (row : Row ν) : GoString := row.name.getD (lit "host")

/-- The keys of `groupby`, in order. -/
def Table.keys (table : Table ν) : List GoString :=
  (table.rows.map Row.key).dedup.insertionSort (· ≤ ·)

/-- The group of a key. -/
def Table.group (table : Table ν) (name : GoString) : Table ν :=
  ⟨table.columns, table.rows.filter fun row => row.key = name⟩

/-- `X[name] = column`: replace the column of that name, or append one. -/
def assign (frame : List (Column ν)) (name : GoString) (column : Row ν → ν) : List (Column ν) :=
  if name ∈ frame.map Prod.fst then
    frame.map fun old => if old.1 = name then (name, column) else old
  else frame ++ [(name, column)]

/-- `SENSITIVE`. -/
def sensitive : List GoString :=
  [lit "sys_priv_escalate", lit "sys_escape_attempt", lit "sys_file_unlink",
    lit "sys_file_rename", lit "sys_file_perm", lit "sys_proc_kill"]

/-- `sys_cols`. -/
def sysCols (columns : List GoString) : List GoString :=
  columns.filter fun c => (lit "sys_").isPrefixOf c ∧ c ≠ lit "sys_total"

variable [LinearOrder ν] (np : Numpy ν)

/-- A cell after `fillna(0)`. -/
def raw (c : GoString) (row : Row ν) : ν := (row.cell c).getD np.zero

/-- `raw.get(c, 0)`. -/
def get (columns : List GoString) (c : GoString) (row : Row ν) : ν :=
  if c ∈ columns then raw np c row else np.zero

/-- `x.where(x > 0, 1)`. -/
def orOne (x : ν) : ν := if np.zero < x then x else np.one

/-- The columns that `engineer_features` keeps of a table with the given columns. -/
def frame (columns : List GoString) : Except Failure (List (Column ν)) :=
  let tx := lit "tcp_bytes_tx"
  let rx := lit "tcp_bytes_rx"
  let retrans := lit "tcp_retrans"
  if tx ∉ columns ∧ rx ∉ columns then .error .noWhere
  else
    let safeTotal row := orOne np (get np columns (lit "sys_total") row)
    let totalBytes row := orOne np (np.add (get np columns tx row) (get np columns rx row))
    let X := columns.map fun c => (c, raw np c)
    let X := (sysCols columns).foldl (fun X c =>
      assign X (c ++ lit "_ratio") fun row => np.div (raw np c row) (safeTotal row)) X
    let X := if tx ∈ columns then
        assign X (lit "tcp_tx_ratio") fun row => np.div (raw np tx row) (totalBytes row)
      else X
    let X := if retrans ∈ columns ∧ tx ∈ columns then
        assign X (lit "tcp_retrans_rate") fun row =>
          np.div (raw np retrans row) (np.add (np.div (raw np tx row) np.million) np.one)
      else X
    let X := [tx, rx, lit "cpu_runtime_ns", lit "sys_total"].foldl (fun X c =>
      if c ∈ columns then
        assign X (c ++ lit "_log") fun row => np.log1p (max (raw np c row) np.zero)
      else X) X
    let X := sensitive.foldl (fun X c =>
      if c ∈ columns then
        assign X (c ++ lit "_flag") fun row => if np.zero < raw np c row then np.one else np.zero
      else X) X
    .ok (X.filter fun column =>
      column.1 ∉ sysCols columns ++ [tx, rx, lit "cpu_runtime_ns"])

/-- `engineer_features`: the matrix and the names of its columns. -/
def engineerFeatures (table : Table ν) : Except Failure (Matrix ν × List GoString) := do
  let X ← frame np table.columns
  pure (table.rows.map fun row => X.map fun column => column.2 row, X.map Prod.fst)

end ContainerAnomaly.Detect
