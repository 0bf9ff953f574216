import ContainerAnomaly.Detect.Models
import Mathlib.Order.MinMax
import Mathlib.Algebra.Order.Ring.Rat

/-!
# Verdicts and the baselines of other containers

A container with three baseline rows is scored by a model of its own, so the second layer reads
nothing of its neighbours (`scoreAll_cases`). The thresholds of the first layer are maxima over
the whole baseline (`rules_cases`). `verdicts_isolated_iff` says when that makes no difference.
-/

namespace ContainerAnomaly.Detect

open Lib

variable {ν : Type} [LinearOrder ν] (np : Numpy ν) (sk : Sklearn ν)
  (contamination : Contamination ν)

omit [LinearOrder ν] in
/-- The rows of a container are its group. -/
theorem ownRows_rows (score : Table ν) (name : GoString) :
    (ownRows score name).map Prod.fst = (score.group name).rows := by
  have rows : score.rows.zipIdx.map Prod.fst = score.rows := List.zipIdx_map_fst _ _
  show (score.rows.zipIdx.filter ((fun row => decide (row.key = name)) ∘ Prod.fst)).map Prod.fst =
    score.rows.filter fun row => decide (row.key = name)
  rw [← List.filter_map, rows]

omit [LinearOrder ν] in
/-- Every row of a container has one scored row. -/
theorem ownScored_rows (model : Model sk) (Y : List (Column ν)) (score : Table ν)
    (name : GoString) :
    (ownScored np sk model Y score name).map Prod.fst = ownRows score name := by
  apply List.map_fst_zip
  simp [scoredBy]

omit [LinearOrder ν] in
/-- The indices of a container's rows are distinct. -/
theorem ownRows_distinct (score : Table ν) (name : GoString) :
    ((ownRows score name).map Prod.snd).Nodup := by
  have all : (score.rows.zipIdx.map Prod.snd).Nodup := by
    rw [List.zipIdx_map_snd]
    exact List.nodup_range'
  exact all.sublist ((List.filter_sublist).map Prod.snd)

omit [LinearOrder ν] in
/-- A group holds rows of its container only. -/
theorem key_of_groupScored (X Y : List (Column ν)) (train score : Table ν) (name : GoString)
    (scored : ScoredRow ν)
    (inside : scored ∈ groupScored np sk contamination X Y train score name) :
    scored.1.1.key = name := by
  have member : scored.1 ∈ ownRows score name := by
    unfold groupScored at inside
    split at inside
    · exact (List.of_mem_zip inside).1
    · cases inside
  exact of_decide_eq_true (List.mem_filter.mp member).2

omit [LinearOrder ν] in
/-- The rows of a container, scored by its own model. -/
theorem filter_allScored (X Y : List (Column ν)) (train score : Table ν) (name : GoString)
    (enough : (train.group name).rows.length ≥ 3) :
    (allScored np sk contamination X Y train score).flatten.filter
        (fun scored => scored.1.1.key = name) =
      ownScored np sk (fitted sk contamination X (train.group name).rows) Y score name := by
  have own : groupScored np sk contamination X Y train score name =
      ownScored np sk (fitted sk contamination X (train.group name).rows) Y score name := by
    simp only [groupScored, modelFor, lookup_modelsOf sk contamination X train name enough,
      Option.getD_some]
  have keyed := key_of_groupScored np sk contamination X Y train score
  have grouped := filter_flatten_of_key (groupScored np sk contamination X Y train score)
    (fun scored : ScoredRow ν => scored.1.1.key) keyed score.keys (nodup_keys score) name
  rw [own] at grouped
  refine grouped.trans ?_
  by_cases present : name ∈ score.keys
  · rw [if_pos present]
  · have empty : ownRows score name = [] := by
      have rows := present
      rw [mem_keys_iff, not_not, ← ownRows_rows] at rows
      exact List.map_eq_nil_iff.mp rows
    rw [if_neg present, ownScored, empty]
    rfl

omit [LinearOrder ν] in
/-- Rows sorted by distinct indices are determined by which rows they are. -/
theorem filter_sort_eq {left right : List (ScoredRow ν)} (keep : ScoredRow ν → Bool)
    (same : left.filter keep = right.filter keep)
    (distinct : ((left.filter keep).map fun scored => scored.1.2).Nodup) :
    (left.insertionSort byIndex).filter keep = (right.insertionSort byIndex).filter keep := by
  have total : Std.Total (byIndex (ν := ν)) := ⟨fun a b => Nat.le_total a.1.2 b.1.2⟩
  have transitive : IsTrans (ScoredRow ν) byIndex := ⟨fun _ _ _ => Nat.le_trans⟩
  have sorted (list : List (ScoredRow ν)) :
      ((list.insertionSort byIndex).filter keep).Pairwise byIndex :=
    (List.pairwise_insertionSort byIndex list).filter keep
  have kept (list : List (ScoredRow ν)) :
      ((list.insertionSort byIndex).filter keep).Perm (list.filter keep) :=
    (List.perm_insertionSort byIndex list).filter keep
  apply List.Perm.eq_of_pairwise _ (sorted left) (sorted right)
  · exact (kept left).trans (same ▸ (kept right).symm)
  · intro a b inLeft inRight below above
    have first := (kept left).mem_iff.mp inLeft
    have second := (kept right).mem_iff.mp inRight
    rw [← same] at second
    exact List.inj_on_of_nodup_map distinct first second (Nat.le_antisymm below above)

/-- A sensitive column of the scored table has no cell in the baseline. -/
def NaNThreshold (train score : Table ν) : Prop :=
  ∃ col ∈ sensitiveCols, col ∈ score.columns ∧ col ∈ train.columns ∧
    ∀ base ∈ train.rows, base.cell col = none

/-- A value is above every cell that the baseline has in a column, or above zero where the
baseline has no such column. -/
def Above (train : Table ν) (col : GoString) (x : ν) : Prop :=
  if col ∈ train.columns then ∀ base ∈ train.rows, ∀ y, base.cell col = some y → y < x
  else np.zero < x

/-- A row is above the whole baseline in some sensitive column. -/
def Alarming (train score : Table ν) (row : Row ν) : Prop :=
  ∃ col ∈ sensitiveCols, col ∈ score.columns ∧ ∃ x, row.cell col = some x ∧ Above np train col x

/-- Whether a threshold is NaN, and what is above it when it is not. -/
theorem threshold_cases (train : Table ν) (col : GoString) :
    (threshold np train col = none ∧ col ∈ train.columns ∧
      ∀ base ∈ train.rows, base.cell col = none) ∨
    ∃ t, threshold np train col = some t ∧ (∀ x, t < x ↔ Above np train col x) ∧
      ¬ (col ∈ train.columns ∧ ∀ base ∈ train.rows, base.cell col = none) := by
  unfold threshold Above
  by_cases present : col ∈ train.columns
  · simp only [if_pos present]
    cases found : (train.rows.filterMap fun row => row.cell col).max? with
    | none =>
      left
      rw [List.max?_eq_none_iff, List.filterMap_eq_nil_iff] at found
      exact ⟨rfl, present, found⟩
    | some t =>
      right
      obtain ⟨inside, most⟩ := List.max?_eq_some_iff.mp found
      refine ⟨t, rfl, fun x => ?_, fun missing => ?_⟩
      · constructor
        · intro above base member y cell
          exact lt_of_le_of_lt (most y (List.mem_filterMap.mpr ⟨base, member, cell⟩)) above
        · intro above
          obtain ⟨base, member, cell⟩ := List.mem_filterMap.mp inside
          exact above base member t cell
      · obtain ⟨base, member, cell⟩ := List.mem_filterMap.mp inside
        rw [missing.2 base member] at cell
        cases cell
  · simp only [if_neg present]
    exact .inr ⟨np.zero, rfl, fun x => Iff.rfl, fun both => present both.1⟩

/-- A rule fires on a value above its threshold. -/
theorem triggered_iff (rule : GoString × ν) (row : Row ν) :
    triggered rule row = true ↔ ∃ x, row.cell rule.1 = some x ∧ rule.2 < x := by
  unfold triggered
  cases row.cell rule.1 <;> simp

/-- The rules of some columns: one of them has a NaN threshold, or each has its threshold. -/
theorem mapM_rule_cases (train : Table ν) (cols : List GoString) :
    ((∃ col ∈ cols, threshold np train col = none) ∧
      cols.mapM (rule np train) = .error .intOfNaN) ∨
    (¬ ∃ col ∈ cols, threshold np train col = none) ∧ ∃ layer,
      cols.mapM (rule np train) = .ok layer ∧
      ∀ rule, rule ∈ layer ↔ rule.1 ∈ cols ∧ threshold np train rule.1 = some rule.2 := by
  induction cols with
  | nil => exact .inr ⟨by simp, [], rfl, by simp⟩
  | cons col cols ih =>
    rw [List.mapM_cons]
    cases found : threshold np train col with
    | none =>
      left
      refine ⟨⟨col, List.mem_cons_self, found⟩, ?_⟩
      simp only [rule, found]
      rfl
    | some t =>
      have made : rule np train col = .ok (col, t) := by simp only [rule, found]
      rw [made]
      rcases ih with ⟨missing, failed⟩ | ⟨complete, layer, passed, listed⟩
      · left
        rw [failed]
        obtain ⟨other, inside, nan⟩ := missing
        exact ⟨⟨other, List.mem_cons_of_mem _ inside, nan⟩, rfl⟩
      · right
        rw [passed]
        constructor
        · rintro ⟨other, inside, nan⟩
          rcases List.mem_cons.mp inside with rfl | later
          · rw [found] at nan
            cases nan
          · exact complete ⟨other, later, nan⟩
        · refine ⟨(col, t) :: layer, rfl, fun candidate => ?_⟩
          obtain ⟨name, value⟩ := candidate
          rw [List.mem_cons, List.mem_cons, listed, Prod.mk.injEq]
          constructor
          · rintro (⟨rfl, rfl⟩ | ⟨later, same⟩)
            · exact ⟨.inl rfl, found⟩
            · exact ⟨.inr later, same⟩
          · rintro ⟨rfl | later, same⟩
            · exact .inl ⟨rfl, Option.some.inj (same.symm.trans found)⟩
            · exact .inr ⟨later, same⟩

/-- A threshold is NaN exactly when the column is in the baseline without a cell. -/
theorem threshold_eq_none_iff (train : Table ν) (col : GoString) :
    threshold np train col = none ↔
      col ∈ train.columns ∧ ∀ base ∈ train.rows, base.cell col = none := by
  rcases threshold_cases np train col with ⟨nan, missing⟩ | ⟨t, found, _, cells⟩
  · exact ⟨fun _ => missing, fun _ => nan⟩
  · rw [found]
    exact ⟨fun nan => (by cases nan), fun missing => absurd missing cells⟩

/-- The rule layer fails on a NaN threshold, and otherwise flags the alarming rows. -/
theorem rules_cases (train score : Table ν) :
    (NaNThreshold train score ∧ rules np train score = .error .intOfNaN) ∨
    ¬ NaNThreshold train score ∧ ∃ layer, rules np train score = .ok layer ∧
      ∀ row, ruleFlag layer row = true ↔ Alarming np train score row := by
  have nan_iff : (∃ col ∈ sensitiveCols.filter fun col => col ∈ score.columns,
      threshold np train col = none) ↔ NaNThreshold train score := by
    simp only [List.mem_filter, decide_eq_true_eq, NaNThreshold, threshold_eq_none_iff,
      and_assoc]
  rcases mapM_rule_cases np train (sensitiveCols.filter fun col => col ∈ score.columns) with
    ⟨missing, failed⟩ | ⟨complete, layer, passed, listed⟩
  · exact .inl ⟨nan_iff.mp missing, failed⟩
  · refine .inr ⟨fun missing => complete (nan_iff.mpr missing), layer, passed, fun row => ?_⟩
    unfold ruleFlag
    rw [List.any_eq_true]
    constructor
    · rintro ⟨⟨col, t⟩, inside, fires⟩
      obtain ⟨member, found⟩ := (listed _).mp inside
      rw [List.mem_filter, decide_eq_true_eq] at member
      obtain ⟨x, cell, exceeds⟩ := (triggered_iff _ row).mp fires
      refine ⟨col, member.1, member.2, x, cell, ?_⟩
      rcases threshold_cases np train col with ⟨nan, _⟩ | ⟨other, same, above, _⟩
      · rw [nan] at found
        cases found
      · obtain rfl := Option.some.inj (same.symm.trans found)
        exact (above x).mp exceeds
    · rintro ⟨col, sensitive, scored, x, cell, exceeds⟩
      have member : col ∈ sensitiveCols.filter fun col => col ∈ score.columns :=
        List.mem_filter.mpr ⟨sensitive, decide_eq_true scored⟩
      rcases threshold_cases np train col with ⟨nan, _⟩ | ⟨t, found, above, _⟩
      · exact absurd ⟨col, member, nan⟩ complete
      · exact ⟨(col, t), (listed _).mpr ⟨member, found⟩,
          (triggered_iff _ row).mpr ⟨x, cell, (above x).mpr exceeds⟩⟩

/-- The verdict on a row: its label, its score and its flag, under its index. -/
def Result.verdict (result : Result ν) : Nat × Int × ν × Bool :=
  (result.index, result.scores.anomaly, result.scores.score, result.ruleFlag)

/-- The verdicts on the rows of a container. -/
def verdicts (name : GoString) (results : List (Result ν)) : List (Nat × Int × ν × Bool) :=
  (results.filter fun result => result.row.key = name).map Result.verdict

/-- Exchanging the baselines of the neighbours does not disturb a container: either both
baselines have a NaN threshold or none has, and the scored rows of the container that are above
the whole of one baseline in some sensitive column are above the whole of the other in some. -/
def Undisturbed (name : GoString) (first second score : Table ν) : Prop :=
  (NaNThreshold first score ↔ NaNThreshold second score) ∧
    (¬ NaNThreshold first score → Fits np first score → ∀ row ∈ score.rows, row.key = name →
      (Alarming np first score row ↔ Alarming np second score row))

/-- The verdict on a scored row depends on the rules through its flag only. -/
theorem verdict_merge_iff (first second : List (GoString × ν)) (scored : ScoredRow ν) :
    (merge np first scored).verdict = (merge np second scored).verdict ↔
      ruleFlag first scored.1.1 = ruleFlag second scored.1.1 := by
  constructor
  · intro same
    exact congrArg (fun verdict => verdict.2.2.2) same
  · intro same
    simp only [Result.verdict, merge, same]

/-- The verdicts on a container are those on its scored rows. -/
theorem verdicts_merge (name : GoString) (layer : List (GoString × ν))
    (scored : List (ScoredRow ν)) :
    verdicts name (scored.map (merge np layer)) =
      (scored.filter fun scored => scored.1.1.key = name).map
        fun scored => (merge np layer scored).verdict := by
  unfold verdicts
  rw [List.filter_map, List.map_map]
  rfl

omit [LinearOrder ν] in
/-- A group is a part of the table. -/
theorem group_le (table : Table ν) (name : GoString) :
    (table.group name).rows.length ≤ table.rows.length := List.length_filter_le _ _

/-- The second layer under two baselines with the same rows for a container: it fails in the
same way, or the rows of the container get the same scores. -/
theorem scoreAll_cases (name : GoString) {first second : Table ν} (score : Table ν)
    (columns : first.columns = second.columns)
    (own : (first.group name).rows = (second.group name).rows)
    (enough : (first.group name).rows.length ≥ 3) :
    (∃ failure, failure ≠ .intOfNaN ∧
      scoreAll np sk contamination first score = .error failure ∧
      scoreAll np sk contamination second score = .error failure ∧
      (Fits np first score → score.rows = [])) ∨
    Fits np first score ∧ ∃ left right, scoreAll np sk contamination first score = .ok left ∧
      scoreAll np sk contamination second score = .ok right ∧
      left.filter (fun scored => scored.1.1.key = name) =
        right.filter (fun scored => scored.1.1.key = name) ∧
      ∀ row, (∃ scored ∈ left.filter fun scored => scored.1.1.key = name, scored.1.1 = row) ↔
        row ∈ score.rows ∧ row.key = name := by
  have rowsFirst : 2 ≤ first.rows.length := by
    have := group_le first name
    omega
  have rowsSecond : 2 ≤ second.rows.length := by
    have := group_le second name
    rw [← own] at this
    omega
  by_cases fits : Fits np first score
  · obtain ⟨X, Y, made, scored, features⟩ := fits
    have alike : frame np second.columns = .ok X := by rw [← columns, made]
    rw [scoreAll_eq np sk contamination made scored features rowsFirst,
      scoreAll_eq np sk contamination alike scored features rowsSecond]
    by_cases empty : score.keys = []
    · left
      rw [if_pos empty, if_pos empty]
      refine ⟨.noObjects, by decide, rfl, rfl, fun _ => ?_⟩
      apply List.eq_nil_iff_forall_not_mem.mpr
      intro row inside
      have key : row.key ∈ score.keys := by
        rw [mem_keys_iff]
        exact List.ne_nil_of_mem (List.mem_filter.mpr ⟨inside, by simp⟩)
      rw [empty] at key
      cases key
    · right
      rw [if_neg empty, if_neg empty]
      have left := filter_allScored np sk contamination X Y first score name enough
      have right := filter_allScored np sk contamination X Y second score name (own ▸ enough)
      rw [← own] at right
      have rows := ownScored_rows np sk
        (fitted sk contamination X (first.group name).rows) Y score name
      refine ⟨⟨X, Y, made, scored, features⟩, _, _, rfl, rfl, ?_, fun row => ?_⟩
      · apply filter_sort_eq _ (left.trans right.symm)
        have indices := ownRows_distinct score name
        rw [← rows, List.map_map] at indices
        rw [left]
        exact indices
      · have kept := (List.perm_insertionSort byIndex
          (allScored np sk contamination X Y first score).flatten).filter
            fun scored => scored.1.1.key = name
        rw [left] at kept
        have inGroup : row ∈ score.rows ∧ row.key = name ↔ row ∈ (score.group name).rows := by
          simp [Table.group]
        rw [inGroup, ← ownRows_rows, ← rows, List.map_map]
        simp only [kept.mem_iff, List.mem_map, Function.comp]
  · left
    obtain ⟨failure, known, failed, also⟩ := scoreAll_misfit np sk contamination columns fits
      rowsFirst rowsSecond
    exact ⟨failure, known, failed, also, fun fitting => absurd fitting fits⟩

/-- The verdicts on a container with three baseline rows or more are the same under two baselines
that differ in the rows of others exactly when exchanging them does not disturb it. -/
theorem verdicts_isolated_iff (name : GoString) (first second score : Table ν)
    (columns : first.columns = second.columns)
    (own : (first.group name).rows = (second.group name).rows)
    (enough : (first.group name).rows.length ≥ 3) :
    (fitAndScore np sk contamination first score).map (verdicts name) =
        (fitAndScore np sk contamination second score).map (verdicts name) ↔
      Undisturbed np name first second score := by
  unfold fitAndScore Undisturbed
  have layers := scoreAll_cases np sk contamination name score columns own enough
  rcases rules_cases np first score with ⟨nan, failed⟩ | ⟨fine, layer, passed, flags⟩ <;>
    rcases rules_cases np second score with ⟨nan', failed'⟩ | ⟨fine', layer', passed', flags'⟩
  · rw [failed, failed']
    exact ⟨fun _ => ⟨iff_of_true nan nan', fun fine => absurd nan fine⟩, fun _ => rfl⟩
  · rw [failed, passed']
    apply iff_of_false
    · rcases layers with ⟨failure, known, _, error, _⟩ | ⟨_, _, right, _, ok, _⟩
      · rw [error]
        exact fun same => known (Except.error.inj same).symm
      · rw [ok]
        exact fun same => by cases same
    · exact fun both => fine' (both.1.mp nan)
  · rw [passed, failed']
    apply iff_of_false
    · rcases layers with ⟨failure, known, error, _, _⟩ | ⟨_, left, _, ok, _, _⟩
      · rw [error]
        exact fun same => known (Except.error.inj same)
      · rw [ok]
        exact fun same => by cases same
    · exact fun both => fine (both.1.mpr nan')
  · rw [passed, passed']
    rcases layers with ⟨failure, _, error, error', empty⟩ |
      ⟨fits, left, right, ok, ok', same, covers⟩
    · rw [error, error']
      refine iff_of_true rfl ⟨iff_of_false fine fine', fun _ fits row inside => ?_⟩
      rw [empty fits] at inside
      cases inside
    · rw [ok, ok']
      show Except.ok (verdicts name (left.map (merge np layer))) =
        Except.ok (verdicts name (right.map (merge np layer'))) ↔ _
      rw [Except.ok.injEq, verdicts_merge, verdicts_merge, ← same, List.map_inj_left]
      simp only [verdict_merge_iff]
      constructor
      · intro agree
        refine ⟨iff_of_false fine fine', fun _ _ row inside key => ?_⟩
        obtain ⟨scored, member, rfl⟩ := (covers row).mpr ⟨inside, key⟩
        rw [← flags, ← flags', agree scored member]
      · intro undisturbed scored member
        obtain ⟨inside, key⟩ := (covers scored.1.1).mp ⟨scored, member, rfl⟩
        rw [Bool.eq_iff_iff, flags, flags']
        exact undisturbed.2 fine fits scored.1.1 inside key

/-- Exact fractions; the functions of numpy are given where they are exact too. -/
def fractions : Numpy ℚ where
  zero := 0
  one := 1
  million := 1000000
  minusHundredth := -1 / 100
  add := (· + ·)
  sub := (· - ·)
  div := (· / ·)
  log1p := id
  norm := fun row => (row.map abs).sum
  int := Rat.floor

/-- What is fitted to identical rows: the scaler subtracts them, the trees do not split, and the
first axes are as principal as any. -/
def fitIdentical : Sklearn ℚ where
  Scaler := List ℚ
  Forest := Unit
  Projection := Nat × Nat
  fitScaler := fun X => X.headD []
  transform := fun mean X => X.map fun row => List.zipWith (· - ·) row mean
  fitForest := fun _ _ _ => ()
  decisionFunction := fun _ X => X.map fun _ => 0
  predict := fun _ X => X.map fun _ => 1
  fitPCA := fun components X => (components, (X.headD []).length)
  project := fun axes X => X.map fun row => row.take axes.1
  inverse := fun axes X => X.map fun row => row ++ List.replicate (axes.2 - axes.1) 0

/-- A window of a container that used `setuid` or `ptrace` a number of times. -/
def escalating (name : GoString) (calls : ℚ) : Row ℚ where
  name := some name
  cell := fun c => if c = lit "sys_priv_escalate" then some calls else some 0

/-- A table of such windows. -/
def tableOf (rows : List (Row ℚ)) : Table ℚ := ⟨[lit "tcp_bytes_tx", lit "sys_priv_escalate"], rows⟩

/-- Three quiet windows of `web`. -/
def quietWeb : List (Row ℚ) := List.replicate 3 (escalating (lit "web") 0)

/-- The verdicts on a window of `web` with five calls, under a baseline. -/
def webVerdicts (others : List (Row ℚ)) : Except Failure (List (Nat × Int × ℚ × Bool)) :=
  (fitAndScore fractions fitIdentical .auto (tableOf (quietWeb ++ others))
    (tableOf [escalating (lit "web") 5])).map (verdicts (lit "web"))

/-- With a quiet neighbour the window is flagged; with one that used ten such calls in its
baseline it is not, though the baseline of `web` is the same. -/
theorem noisy_neighbour :
    ((tableOf (quietWeb ++ [escalating (lit "db") 0])).group (lit "web")).rows =
      ((tableOf (quietWeb ++ [escalating (lit "db") 10])).group (lit "web")).rows ∧
    ((tableOf (quietWeb ++ [escalating (lit "db") 0])).group (lit "web")).rows.length = 3 ∧
    webVerdicts [escalating (lit "db") 0] = .ok [(0, -1, -1 / 100, true)] ∧
    webVerdicts [escalating (lit "db") 10] = .ok [(0, 1, 0, false)] := by
  refine ⟨rfl, rfl, ?_, ?_⟩ <;> decide +kernel

/-- A neighbour with fewer calls than the window does not disturb it. -/
theorem verdicts_isolated_iff_quiet :
    webVerdicts [escalating (lit "db") 0] = webVerdicts [escalating (lit "db") 3] := by
  have complete (calls : ℚ) : ¬ NaNThreshold (tableOf (quietWeb ++ [escalating (lit "db") calls]))
      (tableOf [escalating (lit "web") 5]) := by
    rintro ⟨col, _, _, _, missing⟩
    have cell := missing (escalating (lit "db") calls) (by simp [tableOf])
    unfold escalating at cell
    dsimp only at cell
    split at cell <;> cases cell
  have alarming (calls : ℚ) (fewer : calls < 5) :
      Alarming fractions (tableOf (quietWeb ++ [escalating (lit "db") calls]))
        (tableOf [escalating (lit "web") 5]) (escalating (lit "web") 5) := by
    refine ⟨lit "sys_priv_escalate", by decide, by decide, 5, rfl, ?_⟩
    have present : lit "sys_priv_escalate" ∈
        (tableOf (quietWeb ++ [escalating (lit "db") calls])).columns := by simp [tableOf]
    unfold Above
    rw [if_pos present]
    intro base inside y cell
    rcases List.mem_append.mp inside with web | db
    · obtain rfl := List.eq_of_mem_replicate web
      obtain rfl : 0 = y := Option.some.inj cell
      decide +kernel
    · obtain rfl := List.mem_singleton.mp db
      obtain rfl : calls = y := Option.some.inj cell
      exact fewer
  apply (verdicts_isolated_iff fractions fitIdentical .auto (lit "web")
    (tableOf (quietWeb ++ [escalating (lit "db") 0]))
    (tableOf (quietWeb ++ [escalating (lit "db") 3])) (tableOf [escalating (lit "web") 5])
    rfl rfl (by decide)).mpr
  refine ⟨iff_of_false (complete 0) (complete 3), fun _ _ row inside _ => ?_⟩
  obtain rfl := List.mem_singleton.mp inside
  exact iff_of_true (alarming 0 (by decide +kernel)) (alarming 3 (by decide +kernel))

end ContainerAnomaly.Detect
