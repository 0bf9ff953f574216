import ContainerAnomaly.Detect.Features
import ContainerAnomaly.Feature.Encoder

/-!
# Reading a feature file

What `pd.read_csv` makes of the records of a feature file: a table with a cell for each feature
column, and the name of each row. A cell that is one of the default NA strings is missing, and a
column whose other cells are all numbers, or all truth values, is converted as a whole; how is a
parameter (`Pandas`).
-/

namespace ContainerAnomaly.Detect

open Lib Feature

/-- `IDENTITY_COLS`. -/
def identityCols : List GoString :=
  [lit "window_start", lit "window_end", lit "container_id", lit "name", lit "image"]

/-- The default NA strings of `read_csv`. -/
def naValues : List GoString :=
  [lit "", lit "#N/A", lit "#N/A N/A", lit "#NA", lit "-1.#IND", lit "-1.#QNAN", lit "-NaN",
    lit "-nan", lit "1.#IND", lit "1.#QNAN", lit "<NA>", lit "N/A", lit "NA", lit "NULL",
    lit "NaN", lit "None", lit "n/a", lit "nan", lit "null"]

/-- How `read_csv` converts columns. -/
structure Pandas (ν : Type) where
  /-- The number in a cell of a column of numbers. -/
  number : GoString → Option ν
  /-- What the cells of a column become, given those that are not missing: `none` when they stay
  strings, and otherwise the text by which the value of a cell is told from every other value. -/
  convert : List GoString → Option (GoString → GoString)

variable {ν : Type} (pandas : Pandas ν)

/-- A cell of a column, `none` when it is missing. -/
def Pandas.value (cells : List GoString) (cell : GoString) : Option GoString :=
  if cell ∈ naValues then none
  else
    match pandas.convert (cells.filter (· ∉ naValues)) with
    | none => some cell
    | some value => some (value cell)

/-- `read_csv` of a file with the columns of the encoder. -/
def Pandas.readCsv (records : List (List GoString)) : Table ν where
  columns := headers.filter (· ∉ identityCols)
  rows := records.map fun record =>
    { name := pandas.value (records.map fun other => (cellOf other (lit "name")).getD [])
        ((cellOf record (lit "name")).getD [])
      cell := fun c => (cellOf record c).bind pandas.number }

/-- The names of vectors, as the detector reads them. -/
theorem readCsv_rows (formats : Formats) (vectors : List Vector) :
    (pandas.readCsv (vectors.map (Vector.record formats))).rows = vectors.map fun v =>
      { name := pandas.value (vectors.map Vector.name) v.name
        cell := fun c => (cellOf (v.record formats) c).bind pandas.number } := by
  have names : (vectors.map (Vector.record formats)).map
      (fun record => (cellOf record (lit "name")).getD []) = vectors.map Vector.name := by
    rw [List.map_map]
    apply List.map_congr_left
    intro v _
    rw [Function.comp_apply, cellOf_name, Option.getD_some]
  rw [Pandas.readCsv]
  dsimp only
  rw [names, List.map_map]
  apply List.map_congr_left
  intro v _
  rw [Function.comp_apply, cellOf_name, Option.getD_some]

end ContainerAnomaly.Detect
