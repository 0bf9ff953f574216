import ContainerAnomaly.Detect.Alignment
import ContainerAnomaly.Lib.Lines
import ContainerAnomaly.Lib.Numeral

/-!
# What a verdict depends on

What scikit-learn computes of a sample once it is fitted is a function of that sample, so the
verdict on a window is a function of the baseline and of that window alone (`verdicts_rowwise`). A
baseline that grows has fewer windows flagged by the rules, and none of its own
(`rules_antitone`). And the reason in the output names the rules that have fired, each with its
threshold (`reasons_read_back`).
-/

namespace ContainerAnomaly.Detect

open Lib

variable {ν : Type} [LinearOrder ν] (np : Numpy ν) (sk : Sklearn ν)
  (contamination : Contamination ν)

/-- A scaler, a forest and a projection that work row by row. -/
structure PerSample (sk : Sklearn ν) extends ByRow sk where
  /-- The projection of a row. -/
  project : sk.Projection → List ν → List ν
  /-- What it is projected back to. -/
  inverse : sk.Projection → List ν → List ν
  /-- A matrix is projected row by row. -/
  project_eq : ∀ pca X, sk.project pca X = X.map (project pca)
  /-- It is projected back row by row. -/
  inverse_eq : ∀ pca X, sk.inverse pca X = X.map (inverse pca)

variable {sk} (per : PerSample sk)

/-- The scores of a row. -/
def scoreRow (model : Model sk) (X : List (Column ν)) (row : Row ν) : Scores ν :=
  let x := per.scaled model X row
  let p := per.project model.pca x
  { score := per.decision model.iso x
    anomaly := per.label model.iso x
    reconErr := np.norm (List.zipWith np.sub x (per.inverse model.pca p))
    pca1 := p.getD 0 np.zero
    pca2 := p.getD 1 np.zero }

omit [LinearOrder ν] in
/-- Rows are scored one by one. -/
theorem scoredBy_eq (model : Model sk) (X : List (Column ν)) (rows : List (Row ν)) :
    scoredBy np sk model X rows = rows.map (scoreRow np per model X) := by
  refine List.ext_getElem (by simp [scoredBy]) fun i below inside => ?_
  have there : i < rows.length := by simpa using inside
  simp [scoredBy, scoreRow, ByRow.scaled, matrixOf, per.transform_eq, per.decisionFunction_eq,
    per.predict_eq, per.project_eq, per.inverse_eq, there]

/-- The scores of a row under the model of its container. -/
def scoreAlone (X Y : List (Column ν)) (train : Table ν) (row : Row ν) : Option (Scores ν) :=
  (modelFor sk (modelsOf sk contamination X train) (globalOf sk contamination X train)
    row.key).map fun model => scoreRow np per model Y row

omit [LinearOrder ν] in
/-- What a group is scored to is what each of its rows is scored to. -/
theorem scores_of_groupScored (X Y : List (Column ν)) (train score : Table ν) (name : GoString)
    {scored : ScoredRow ν}
    (inside : scored ∈ groupScored np sk contamination X Y train score name) :
    scoreAlone np contamination per X Y train scored.1.1 = some scored.2 := by
  have own := key_of_groupScored np sk contamination X Y train score name scored inside
  unfold groupScored at inside
  unfold scoreAlone
  rw [own]
  cases chosen : modelFor sk (modelsOf sk contamination X train)
      (globalOf sk contamination X train) name with
  | none => simp [chosen] at inside
  | some model =>
    rw [chosen] at inside
    dsimp only at inside
    rw [ownScored, scoredBy_eq np per, List.map_map, ← List.map_prod_left_eq_zip] at inside
    obtain ⟨entry, _, rfl⟩ := List.mem_map.mp inside
    rfl

/-- What is said of a row. -/
structure Judgement (ν : Type) where
  /-- What the models say. -/
  scores : Scores ν
  /-- `rule_flag`. -/
  ruleFlag : Bool
  /-- `rule_reason`. -/
  ruleReason : GoString

/-- What is said of a row, in its place. -/
def Judgement.result (judgement : Judgement ν) (entry : Row ν × Nat) : Result ν where
  row := entry.1
  index := entry.2
  scores := judgement.scores
  ruleFlag := judgement.ruleFlag
  ruleReason := judgement.ruleReason

include per in
/-- The second layer scores every row by itself. -/
theorem scoreAll_rowwise (train : Table ν) (columns : List GoString) :
    ∃ judge : Row ν → Scores ν, ∀ rows scored,
      scoreAll np sk contamination train ⟨columns, rows⟩ = .ok scored →
        scored = rows.zipIdx.map fun entry => (entry, judge entry.1) := by
  classical
  cases made : frame np train.columns with
  | error failure =>
    refine ⟨fun _ => ⟨np.zero, 0, np.zero, np.zero, np.zero⟩, fun rows scored returned => ?_⟩
    unfold scoreAll at returned
    rw [trainOneModel_error sk contamination made] at returned
    cases returned
  | ok X =>
    cases also : frame np columns with
    | error failure =>
      refine ⟨fun _ => ⟨np.zero, 0, np.zero, np.zero, np.zero⟩, fun rows scored returned => ?_⟩
      obtain ⟨same, _, _⟩ :=
        (scoreAll_isOk_iff np sk contamination train ⟨columns, rows⟩).mp ⟨scored, returned⟩
      obtain ⟨_, Y, _, fine, _⟩ := (fits_iff np train ⟨columns, rows⟩).mpr same
      rw [show frame np columns = _ from fine] at also
      cases also
    | ok Y =>
      refine ⟨fun row => (scoreAlone np contamination per X Y train row).getD
        ⟨np.zero, 0, np.zero, np.zero, np.zero⟩, fun rows scored returned => ?_⟩
      obtain ⟨same, enough, some_rows⟩ :=
        (scoreAll_isOk_iff np sk contamination train ⟨columns, rows⟩).mp ⟨scored, returned⟩
      obtain ⟨X', Y', made', also', names⟩ := (fits_iff np train ⟨columns, rows⟩).mpr same
      obtain rfl := Except.ok.inj (made.symm.trans made')
      obtain rfl := Except.ok.inj (also.symm.trans also')
      have whole := scoreAll_rows np sk contamination returned
      rw [scoreAll_eq np sk contamination made also names enough,
        if_neg fun none => some_rows ((keys_eq_nil_iff _).mp none)] at returned
      have each : ∀ item ∈ scored, item = (item.1, (scoreAlone np contamination per X Y train
          item.1.1).getD ⟨np.zero, 0, np.zero, np.zero, np.zero⟩) := by
        intro item inside
        rw [← Except.ok.inj returned, List.mem_insertionSort] at inside
        obtain ⟨group, listed, member⟩ := List.mem_flatten.mp inside
        obtain ⟨name, _, rfl⟩ := List.mem_map.mp listed
        rw [scores_of_groupScored np contamination per X Y train _ name member]
        rfl
      rw [← whole, List.map_map]
      exact (List.map_id' scored).symm.trans (List.map_congr_left each)

include per in
/-- For every baseline and every set of columns, either no table with these columns is scored, or
what is said of a row of any such table is what is said of it by itself, whatever the other rows
are. -/
theorem verdicts_rowwise (train : Table ν) (columns : List GoString) :
    (∀ rows results, fitAndScore np sk contamination train ⟨columns, rows⟩ ≠ .ok results) ∨
      ∃ judge : Row ν → Judgement ν, ∀ rows, rows ≠ [] →
        fitAndScore np sk contamination train ⟨columns, rows⟩ =
          .ok (rows.zipIdx.map fun entry => (judge entry.1).result entry) := by
  by_cases returns : ∃ rows results,
      fitAndScore np sk contamination train ⟨columns, rows⟩ = .ok results
  · right
    obtain ⟨before, results, returned⟩ := returns
    obtain ⟨fine, same, enough, _⟩ := (fitAndScore_isOk_iff np sk contamination train _).mp
      ⟨results, returned⟩
    obtain ⟨layer, passed, _⟩ := (bind_eq_ok_iff _ _ _).mp returned
    obtain ⟨judge, alone⟩ := scoreAll_rowwise np contamination per train columns
    refine ⟨fun row =>
      let merged := merge np layer ((row, 0), judge row)
      ⟨merged.scores, merged.ruleFlag, merged.ruleReason⟩, fun rows some_rows => ?_⟩
    obtain ⟨others, also⟩ := (fitAndScore_isOk_iff np sk contamination train ⟨columns, rows⟩).mpr
      ⟨fine, same, enough, some_rows⟩
    obtain ⟨layer', passed', rest⟩ := (bind_eq_ok_iff _ _ _).mp also
    have layers : rules np train ⟨columns, rows⟩ = rules np train ⟨columns, before⟩ := rfl
    obtain rfl := Except.ok.inj (passed.symm.trans (layers.symm.trans passed'))
    obtain ⟨scored, second, merged⟩ := (bind_eq_ok_iff _ _ _).mp rest
    rw [also, ← Except.ok.inj merged, alone rows scored second, List.map_map]
    rfl
  · left
    intro rows results returned
    exact returns ⟨rows, results, returned⟩

/-- What is fitted to identical rows works row by row. -/
def identicalPerSample : PerSample fitIdentical where
  toByRow := identicalByRow
  project axes row := row.take axes.1
  inverse axes row := row ++ List.replicate (axes.2 - axes.1) 0
  project_eq _ _ := rfl
  inverse_eq _ _ := rfl

/-- A baseline with more rows has fewer alarming rows. -/
theorem alarming_antitone {train other : Table ν} (columns : train.columns = other.columns)
    (more : train.rows ⊆ other.rows) (score : Table ν) {row : Row ν}
    (alarming : Alarming np other score row) : Alarming np train score row := by
  obtain ⟨col, sensitive, present, x, cell, above⟩ := alarming
  refine ⟨col, sensitive, present, x, cell, ?_⟩
  unfold Above at above ⊢
  rw [columns]
  split
  · rename_i listed
    rw [if_pos listed] at above
    exact fun base inside => above base (more inside)
  · rename_i unlisted
    rwa [if_neg unlisted] at above

/-- A row of the baseline is not alarming, when the scored table has no other columns. -/
theorem not_alarming_own {train score : Table ν} (columns : score.columns ⊆ train.columns)
    {row : Row ν} (own : row ∈ train.rows) : ¬ Alarming np train score row := by
  rintro ⟨col, _, present, x, cell, above⟩
  rw [Above, if_pos (columns present)] at above
  exact lt_irrefl x (above row own x cell)

/-- No rule fires on a row that has no reason. -/
theorem ruleReason_eq_nil_iff (layer : List (GoString × ν)) (row : Row ν) :
    ruleReason np layer row = [] ↔ ruleFlag layer row = false := by
  have text : ∀ rule : GoString × ν,
      rule.1.drop 4 ++ lit ">" ++ lit (toString (np.int rule.2)) ++ lit " " ≠ [] := by
    intro rule
    simp [lit]
  rw [ruleReason, List.flatMap_eq_nil_iff, ruleFlag, List.any_eq_false]
  constructor
  · intro none rule listed fires
    exact text rule (none rule (List.mem_filter.mpr ⟨listed, fires⟩))
  · intro silent rule kept
    obtain ⟨listed, fires⟩ := List.mem_filter.mp kept
    exact absurd fires (silent rule listed)

/-- When a baseline grows, every window that the rules still flag was flagged before, and the
windows that have become part of the baseline are not: as when a table is scored against itself. -/
theorem rules_antitone {train other score : Table ν} (columns : train.columns = other.columns)
    (more : train.rows ⊆ other.rows) {results later : List (Result ν)}
    (returned : fitAndScore np sk contamination train score = .ok results)
    (again : fitAndScore np sk contamination other score = .ok later) :
    (∀ before ∈ results, ∀ after ∈ later, after.index = before.index →
      after.ruleFlag = true → before.ruleFlag = true) ∧
    (score.columns ⊆ other.columns → ∀ after ∈ later, after.row ∈ other.rows →
      after.ruleFlag = false ∧ after.ruleReason = []) := by
  have places := fitAndScore_rows np sk contamination returned
  have same_places := fitAndScore_rows np sk contamination again
  obtain ⟨layer, scored, rfl, _, flags⟩ := fitAndScore_cases np sk contamination returned
  obtain ⟨layer', scored', rfl, _, flags'⟩ := fitAndScore_cases np sk contamination again
  constructor
  · intro before inside after member index flagged
    have first : (before.row, before.index) ∈ score.rows.zipIdx :=
      places ▸ List.mem_map_of_mem inside
    have second : (after.row, after.index) ∈ score.rows.zipIdx :=
      same_places ▸ List.mem_map_of_mem member
    have rows : before.row = after.row := by
      rw [List.mk_mem_zipIdx_iff_getElem?] at first second
      rw [index, first] at second
      exact Option.some.inj second
    obtain ⟨entry, _, rfl⟩ := List.mem_map.mp inside
    obtain ⟨entry', _, rfl⟩ := List.mem_map.mp member
    have fires := (flags' entry'.1.1).mp flagged
    rw [show entry'.1.1 = entry.1.1 from rows.symm] at fires
    exact (flags entry.1.1).mpr (alarming_antitone np columns more score fires)
  · intro covers after member own
    obtain ⟨entry, _, rfl⟩ := List.mem_map.mp member
    have quiet : ruleFlag layer' entry.1.1 = false := by
      rw [← Bool.not_eq_true, flags']
      exact not_alarming_own np covers own
    exact ⟨quiet, (ruleReason_eq_nil_iff np layer' _).mpr quiet⟩

/-- The byte between a column and its threshold. -/
def greater : UInt8 := 62

/-- What a reason says: the columns it names, with the text of what each is above. -/
def readReason (text : GoString) : List (GoString × GoString) :=
  (GoString.pieces 32 text).map fun piece =>
    (piece.takeWhile (· ≠ greater), (piece.dropWhile (· ≠ greater)).tail)

/-- A rule, as a reason names it. -/
def reasonOf (rule : GoString × ν) : GoString × GoString :=
  (rule.1.drop 4, lit (toString (np.int rule.2)))

/-- There is no blank in an integer. -/
theorem blank_not_mem_int (z : Int) : (32 : UInt8) ∉ lit (toString z) := by
  have numeral (n : Nat) : (32 : UInt8) ∉ GoString.decimal n := fun inside =>
    absurd ((GoString.isNumeral_decimal n).digits 32 inside) (by decide)
  cases z with
  | ofNat n => exact numeral n
  | negSucc n =>
    change (32 : UInt8) ∉ lit ("-" ++ Nat.repr (n + 1))
    rw [lit, String.toList_append, List.map_append, List.mem_append, not_or]
    exact ⟨by decide, numeral (n + 1)⟩

omit [LinearOrder ν] in
/-- A reason that names rules for sensitive columns is read back. -/
theorem readReason_eq {fired : List (GoString × ν)}
    (sensitive : ∀ rule ∈ fired, rule.1 ∈ sensitiveCols) :
    readReason (fired.flatMap fun rule =>
      rule.1.drop 4 ++ lit ">" ++ lit (toString (np.int rule.2)) ++ lit " ") =
      fired.map (reasonOf np) := by
  have plain : ∀ col ∈ sensitiveCols, (32 : UInt8) ∉ col.drop 4 ∧ greater ∉ col.drop 4 := by decide
  let piece (rule : GoString × ν) : GoString :=
    rule.1.drop 4 ++ greater :: lit (toString (np.int rule.2))
  have pieces : (fired.flatMap fun rule =>
      rule.1.drop 4 ++ lit ">" ++ lit (toString (np.int rule.2)) ++ lit " ") =
      (fired.map piece).flatMap fun part => part ++ [32] := by
    rw [List.flatMap_map]
    refine congrArg (fired.flatMap ·) (funext fun rule => ?_)
    simp only [piece, List.append_assoc, List.cons_append]
    rfl
  rw [readReason, pieces, GoString.pieces_flatMap 32, List.map_map]
  · refine List.map_congr_left fun rule listed => ?_
    have column : ∀ c ∈ rule.1.drop 4, decide (c ≠ greater) = true := fun c inside =>
      decide_eq_true fun same => (plain rule.1 (sensitive rule listed)).2 (same ▸ inside)
    simp only [Function.comp_apply, piece, reasonOf]
    rw [List.takeWhile_append_of_pos column, List.dropWhile_append_of_pos column,
      List.takeWhile_cons_of_neg (by simp), List.dropWhile_cons_of_neg (by simp),
      List.append_nil, List.tail_cons]
  · intro part inside
    obtain ⟨rule, listed, rfl⟩ := List.mem_map.mp inside
    rw [List.mem_append, List.mem_cons, not_or, not_or]
    exact ⟨(plain rule.1 (sensitive rule listed)).1, by decide, blank_not_mem_int _⟩

/-- The rules of some columns, in their order. -/
theorem mapM_rule_eq {train : Table ν} {cols : List GoString} {layer : List (GoString × ν)}
    (passed : cols.mapM (rule np train) = .ok layer) :
    layer = cols.filterMap fun col => (threshold np train col).map fun t => (col, t) := by
  induction cols generalizing layer with
  | nil => exact (Except.ok.inj passed).symm
  | cons col cols ih =>
    rw [List.mapM_cons] at passed
    obtain ⟨first, made, rest⟩ := (bind_eq_ok_iff _ _ _).mp passed
    obtain ⟨others, later, same⟩ := (bind_eq_ok_iff _ _ _).mp rest
    rw [← Except.ok.inj same, ih later, List.filterMap_cons]
    unfold rule at made
    cases found : threshold np train col with
    | none =>
      rw [found] at made
      cases made
    | some t =>
      rw [found] at made
      rw [← Except.ok.inj made]
      rfl

/-- The rules that a row breaks, each with the threshold that the row is above, in the order of the
sensitive columns. -/
def broken (train score : Table ν) (row : Row ν) : List (GoString × ν) :=
  (sensitiveCols.filter fun col => col ∈ score.columns).filterMap fun col =>
    match row.cell col, threshold np train col with
    | some x, some t => if t < x then some (col, t) else none
    | _, _ => none

/-- The rules that fire on a row are the ones it breaks. -/
theorem filter_rules_eq {train score : Table ν} {layer : List (GoString × ν)}
    (passed : rules np train score = .ok layer) (row : Row ν) :
    (layer.filter fun rule => triggered rule row) = broken np train score row := by
  rw [mapM_rule_eq np passed, List.filter_filterMap, broken]
  refine List.filterMap_congr fun col _ => ?_
  cases threshold np train col with
  | none => cases row.cell col <;> rfl
  | some t =>
    cases cell : row.cell col with
    | none => simp [triggered, cell]
    | some x => by_cases exceeds : t < x <;> simp [triggered, cell, exceeds]

/-- The reason of every window can be read: it names the sensitive columns in which the window is
above the baseline, once each and in their order, with the thresholds; and the flag of a window is
set when there are any. -/
theorem reasons_read_back {train score : Table ν} {results : List (Result ν)}
    (returned : fitAndScore np sk contamination train score = .ok results) :
    ∀ result ∈ results,
      readReason result.ruleReason = (broken np train score result.row).map (reasonOf np) ∧
      (result.ruleFlag = true ↔ broken np train score result.row ≠ []) := by
  obtain ⟨layer, passed, rest⟩ := (bind_eq_ok_iff _ _ _).mp returned
  obtain ⟨scored, _, same⟩ := (bind_eq_ok_iff _ _ _).mp rest
  rw [← Except.ok.inj same]
  intro result inside
  obtain ⟨entry, _, rfl⟩ := List.mem_map.mp inside
  have fired := filter_rules_eq np passed entry.1.1
  constructor
  · change readReason (ruleReason np layer entry.1.1) = _
    rw [ruleReason, fired]
    refine readReason_eq np fun rule listed => ?_
    obtain ⟨col, sensitive, found⟩ := List.mem_filterMap.mp listed
    have own : rule.1 = col := by
      split at found
      · split at found
        · rw [← Option.some.inj found]
        · cases found
      · cases found
    exact own ▸ List.mem_of_mem_filter sensitive
  · change ruleFlag layer entry.1.1 = true ↔ broken np train score entry.1.1 ≠ []
    rw [← fired, ne_eq, List.filter_eq_nil_iff, ruleFlag, List.any_eq_true]
    push Not
    rfl

/-- Two windows of `web`: the second used `setuid` or `ptrace` seven times. -/
def twoWindows : List (Row ℚ) := [escalating (lit "web") 0, escalating (lit "web") 7]

/-- What is scored of them, under a baseline. -/
def twoResults (baseline : List (Row ℚ)) : Except Failure (List (Result ℚ)) :=
  fitAndScore fractions fitIdentical .auto (tableOf baseline) (tableOf twoWindows)

/-- Whatever windows are taken as a baseline after three quiet ones, the two are scored. -/
theorem twoResults_ok (more : List (Row ℚ)) :
    ∃ results, twoResults (quietWeb ++ more) = .ok results := by
  refine (fitAndScore_isOk_iff fractions fitIdentical .auto _ _).mpr
    ⟨?_, ?_, by simp [tableOf, quietWeb], by simp [tableOf, twoWindows]⟩
  · rintro ⟨col, _, _, _, missing⟩
    have cell := missing (escalating (lit "web") 0) (by simp [tableOf, quietWeb])
    unfold escalating at cell
    dsimp only at cell
    split at cell <;> cases cell
  · change SameFeatures (tableOf []).columns (tableOf []).columns
    decide

/-- Under the quiet baseline every window is judged by itself. -/
theorem verdicts_rowwise_quiet :
    ∃ judge : Row ℚ → Judgement ℚ, ∀ rows, rows ≠ [] →
      fitAndScore fractions fitIdentical .auto (tableOf quietWeb) (tableOf rows) =
        .ok (rows.zipIdx.map fun entry => (judge entry.1).result entry) := by
  obtain ⟨results, returned⟩ : ∃ results, twoResults quietWeb = .ok results := twoResults_ok []
  rcases verdicts_rowwise fractions .auto identicalPerSample (tableOf quietWeb)
    (tableOf twoWindows).columns with never | judged
  · exact absurd returned (never twoWindows results)
  · exact judged

/-- When a window with five such calls joins the baseline, the window with seven is still flagged:
it was before. The quiet window, which is in the baseline, is not flagged. -/
theorem rules_antitone_twoWindows :
    ∃ results later, twoResults quietWeb = .ok results ∧
      twoResults (quietWeb ++ [escalating (lit "web") 5]) = .ok later ∧
      (∃ after ∈ later, after.index = 1 ∧ after.ruleFlag = true) ∧
      (∀ before ∈ results, before.index = 1 → before.ruleFlag = true) ∧
      ∀ after ∈ later, after.row = escalating (lit "web") 0 →
        after.ruleFlag = false ∧ after.ruleReason = [] := by
  obtain ⟨results, returned⟩ : ∃ results, twoResults quietWeb = .ok results := twoResults_ok []
  obtain ⟨later, again⟩ := twoResults_ok [escalating (lit "web") 5]
  have more : (tableOf quietWeb).rows ⊆
      (tableOf (quietWeb ++ [escalating (lit "web") 5])).rows := List.subset_append_left _ _
  have columns : (tableOf quietWeb).columns =
      (tableOf (quietWeb ++ [escalating (lit "web") 5])).columns := rfl
  obtain ⟨antitone, quiet⟩ := rules_antitone fractions .auto columns more returned again
  obtain ⟨after, still, second, flagged⟩ :
      ∃ after ∈ later, after.index = 1 ∧ after.ruleFlag = true := by
    have flags : (twoResults (quietWeb ++ [escalating (lit "web") 5])).map
        (List.map fun after => (after.index, after.ruleFlag)) = .ok [(0, false), (1, true)] := by
      decide +kernel
    rw [again] at flags
    have listed : (1, true) ∈ later.map fun after => (after.index, after.ruleFlag) := by
      rw [Except.ok.inj flags]
      exact List.mem_cons_of_mem _ List.mem_cons_self
    obtain ⟨after, still, same⟩ := List.mem_map.mp listed
    exact ⟨after, still, Prod.mk.inj same⟩
  refine ⟨results, later, returned, again, ⟨after, still, second, flagged⟩, ?_, ?_⟩
  · intro before inside index
    exact antitone before inside after still (second.trans index.symm) flagged
  · intro other inside own
    exact quiet (List.Subset.refl _) other inside (own ▸ by simp [tableOf, quietWeb])

/-- The reasons of the two windows. -/
theorem reasons_read_back_twoWindows :
    ∃ results, twoResults quietWeb = .ok results ∧ ∀ result ∈ results,
      readReason result.ruleReason =
        (broken fractions (tableOf quietWeb) (tableOf twoWindows) result.row).map
          (reasonOf fractions) := by
  obtain ⟨results, returned⟩ := twoResults_ok []
  exact ⟨results, returned, fun result inside =>
    (reasons_read_back fractions .auto returned result inside).1⟩

end ContainerAnomaly.Detect
