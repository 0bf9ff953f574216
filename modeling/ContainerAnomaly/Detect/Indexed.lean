import ContainerAnomaly.Detect.Layers

/-!
# Tables with an index

A `DataFrame` has an index, and pandas puts columns together by its labels, not by position: the
scores of a group into the group, the flags of the rules into the result. `fit_and_score` is
modelled here with this in view. A unique index loses nothing (`assignScores_eq`), so the result
has the scored rows in their order (`IndexedTable.scoreAll_rows`), and on the index that `read_csv`
makes it is what `fitAndScore` computes from the rows (`fitAndScore_indexed`).
-/

namespace ContainerAnomaly.Detect

open Lib

/-- A row under its label: the cells that are read, and all others. -/
structure Entry (ι κ ν : Type) where
  /-- Its label in the index. -/
  label : ι
  /-- What the detector reads. -/
  row : Row ν
  /-- What it copies. -/
  other : κ

/-- A `DataFrame` with a unique sorted index. -/
structure IndexedTable (ι κ ν : Type) [LinearOrder ι] where
  /-- The columns that the detector reads. -/
  columns : List GoString
  /-- The rows with their labels. -/
  entries : List (Entry ι κ ν)
  /-- The index is sorted, and no label is there twice. -/
  increasing : entries.Pairwise fun a b => a.label < b.label

/-- `Series`: values under labels. -/
abbrev Series (ι α : Type) := List (ι × α)

/-- The columns that scoring adds to a row; `none` is a NaN, for a label that has no scores. -/
structure Added (ν : Type) where
  /-- `score`. -/
  score : Option ν
  /-- `anomaly`. -/
  anomaly : Option Int
  /-- `recon_err`. -/
  reconErr : Option ν
  /-- `pca1`. -/
  pca1 : Option ν
  /-- `pca2`. -/
  pca2 : Option ν

/-- A row of the result. -/
structure Merged (ι κ ν : Type) where
  /-- The row of the scored table. -/
  entry : Entry ι κ ν
  /-- The columns that are joined to it. -/
  added : Added ν
  /-- `rule_flag`. -/
  ruleFlag : Option Bool
  /-- `rule_reason`. -/
  ruleReason : Option GoString

variable {ι κ ν : Type} [LinearOrder ι]

/-- The cells that are read. -/
def IndexedTable.table (score : IndexedTable ι κ ν) : Table ν :=
  ⟨score.columns, score.entries.map Entry.row⟩

/-- The rows of a container. -/
def IndexedTable.group (score : IndexedTable ι κ ν) (name : GoString) : List (Entry ι κ ν) :=
  score.entries.filter fun entry => entry.row.key = name

/-- The loop `grp = grp.assign(**{col: scored[col]})`: each column is put under the labels of the
group. -/
def assignScores (group : List (Entry ι κ ν)) (scored : Series ι (Scores ν)) :
    List (Entry ι κ ν × Added ν) :=
  group.map fun entry => (entry,
    { score := (scored.lookup entry.label).map Scores.score
      anomaly := (scored.lookup entry.label).map Scores.anomaly
      reconErr := (scored.lookup entry.label).map Scores.reconErr
      pca1 := (scored.lookup entry.label).map Scores.pca1
      pca2 := (scored.lookup entry.label).map Scores.pca2 })

/-- The order of `sort_index`. -/
def byLabel (left right : Entry ι κ ν × Added ν) : Prop := left.1.label ≤ right.1.label

instance : DecidableRel (byLabel (ι := ι) (κ := κ) (ν := ν)) := fun left right =>
  inferInstanceAs (Decidable (left.1.label ≤ right.1.label))

section Run

variable [LinearOrder ν] (np : Numpy ν) (sk : Sklearn ν) (contamination : Contamination ν)

/-- Score the group of a container; `score_one` gives its scores the index of the group. -/
def IndexedTable.scoreGroup (score : IndexedTable ι κ ν) (model : Option (Model sk))
    (name : GoString) : Except Failure (List (Entry ι κ ν × Added ν)) :=
  let group := score.group name
  let rows : Table ν := ⟨score.columns, group.map Entry.row⟩
  match model with
  | none => do
    let _ ← engineerFeatures np rows
    .error .noModel
  | some model => do
    let scored ← scoreOne np sk model rows
    pure (assignScores group ((group.map Entry.label).zip scored))

/-- `rule_flags`. -/
def IndexedTable.ruleFlags (score : IndexedTable ι κ ν) (layer : List (GoString × ν)) :
    Series ι Bool :=
  score.entries.map fun entry => (entry.label, ruleFlag layer entry.row)

/-- `rule_reasons`. -/
def IndexedTable.ruleReasons (score : IndexedTable ι κ ν) (layer : List (GoString × ν)) :
    Series ι GoString :=
  score.entries.map fun entry => (entry.label, ruleReason np layer entry.row)

/-- Merge the layers in a row of the result, under its label. -/
def mergeAt (flags : Series ι Bool) (reasons : Series ι GoString)
    (scored : Entry ι κ ν × Added ν) : Merged ι κ ν :=
  let flag := flags.lookup scored.1.label
  { entry := scored.1
    added :=
      if flag = some true then { scored.2 with
        anomaly := some (-1)
        score := scored.2.score.map (min · np.minusHundredth) }
      else scored.2
    ruleFlag := flag
    ruleReason := reasons.lookup scored.1.label }

/-- The second layer. -/
def IndexedTable.scoreAll (score : IndexedTable ι κ ν) (train : Table ν) :
    Except Failure (List (Entry ι κ ν × Added ν)) := do
  let globalModel ← trainOneModel np sk contamination train
  let models ← train.keys.foldlM (trainGroup np sk contamination train)
    (AList.insert globalName globalModel ∅)
  let results ← score.table.keys.mapM fun name =>
    score.scoreGroup np sk (modelFor sk models globalModel name) name
  if results.isEmpty then .error .noObjects
  else pure (results.flatten.insertionSort byLabel)

/-- `fit_and_score`, for a table with an index. -/
def IndexedTable.fitAndScore (score : IndexedTable ι κ ν) (train : Table ν) :
    Except Failure (List (Merged ι κ ν)) := do
  let layer ← rules np train score.table
  let result ← score.scoreAll np sk contamination train
  pure (result.map (mergeAt np (score.ruleFlags layer) (score.ruleReasons np layer)))

end Run

/-- The scores of a row under its own label. -/
def Scores.added (scores : Scores ν) : Added ν :=
  ⟨some scores.score, some scores.anomaly, some scores.reconErr, some scores.pca1,
    some scores.pca2⟩

/-- Under a unique index, a group gets its own scores, in order. -/
theorem assignScores_eq {group : List (Entry ι κ ν)}
    (increasing : group.Pairwise fun a b => a.label < b.label) (scored : List (Scores ν))
    (length : scored.length = group.length) :
    assignScores group ((group.map Entry.label).zip scored) =
      (group.zip scored).map fun pair => (pair.1, pair.2.added) := by
  induction group generalizing scored with
  | nil => rfl
  | cons entry group ih =>
    cases scored with
    | nil => cases length
    | cons scores scored =>
      obtain ⟨first, increasing⟩ := List.pairwise_cons.mp increasing
      have rest := ih increasing scored (Nat.succ.inj length)
      have skips : assignScores group ((entry.label, scores) ::
          (group.map Entry.label).zip scored) =
          assignScores group ((group.map Entry.label).zip scored) := by
        refine List.map_congr_left fun later inside => ?_
        have apart : (later.label == entry.label) = false := by
          simpa using (first later inside).ne'
        simp only [List.lookup_cons, apart]
      rw [List.map_cons, List.zip_cons_cons, List.zip_cons_cons, List.map_cons, ← rest, ← skips]
      simp [assignScores, Scores.added]

/-- Under a unique index, a row finds its own value. -/
theorem lookup_entries {α : Type} {entries : List (Entry ι κ ν)}
    (increasing : entries.Pairwise fun a b => a.label < b.label) (value : Entry ι κ ν → α)
    {entry : Entry ι κ ν} (inside : entry ∈ entries) :
    (entries.map fun entry => (entry.label, value entry)).lookup entry.label =
      some (value entry) := by
  induction entries with
  | nil => cases inside
  | cons first entries ih =>
    obtain ⟨below, increasing⟩ := List.pairwise_cons.mp increasing
    rw [List.map_cons, List.lookup_cons]
    rcases List.mem_cons.mp inside with rfl | later
    · simp
    · have apart : (entry.label == first.label) = false := by
        simpa using (below entry later).ne'
      rw [apart]
      exact ih increasing later

section Returns

variable [LinearOrder ν] (np : Numpy ν) (sk : Sklearn ν) (contamination : Contamination ν)

/-- A group is scored whatever the index. -/
theorem IndexedTable.scoreGroup_isOk_iff (score : IndexedTable ι κ ν) (model : Option (Model sk))
    (name : GoString) :
    (∃ scored, score.scoreGroup np sk model name = .ok scored) ↔
      ∃ chosen Y, model = some chosen ∧ frame np score.columns = .ok Y ∧
        Y.map Prod.fst = chosen.feat := by
  cases model with
  | none =>
    unfold IndexedTable.scoreGroup
    simp [bind_isOk_iff]
  | some chosen =>
    unfold IndexedTable.scoreGroup
    simp only [bind_pure_isOk_iff, scoreOne_isOk_iff, passesTrained_iff, Option.some.injEq,
      exists_and_left, exists_eq_left']

/-- The detector returns whatever the index. -/
theorem IndexedTable.fitAndScore_isOk_iff (score : IndexedTable ι κ ν) (train : Table ν) :
    (∃ results, score.fitAndScore np sk contamination train = .ok results) ↔
      ¬ NaNThreshold train score.table ∧ SameFeatures train.columns score.columns ∧
        2 ≤ train.rows.length ∧ score.entries ≠ [] := by
  have second : (∃ scored, score.scoreAll np sk contamination train = .ok scored) ↔
      SameFeatures train.columns score.columns ∧ 2 ≤ train.rows.length ∧
        score.entries.map Entry.row ≠ [] :=
    second_layer_isOk_iff np sk contamination train score.table
      (fun model name => score.scoreGroup np sk model name)
      (fun model name => score.scoreGroup_isOk_iff np sk model name)
      fun results => results.flatten.insertionSort byLabel
  unfold IndexedTable.fitAndScore
  rw [bind_isOk_iff]
  simp only [bind_pure_isOk_iff, exists_and_right, rules_isOk_iff, second, ne_eq,
    List.map_eq_nil_iff]

/-- The rows of a group with their scores under a model. -/
def IndexedTable.scoredGroup (score : IndexedTable ι κ ν) (model : Model sk)
    (Y : List (Column ν)) (name : GoString) : List (Entry ι κ ν × Added ν) :=
  ((score.group name).zip (scoredBy np sk model Y ((score.group name).map Entry.row))).map
    fun pair => (pair.1, pair.2.added)

/-- Scoring a group with a model that has the features. -/
theorem IndexedTable.scoreGroup_eq (score : IndexedTable ι κ ν) {Y : List (Column ν)}
    (made : frame np score.columns = .ok Y) {model : Model sk}
    (fits : Y.map Prod.fst = model.feat) (name : GoString) :
    score.scoreGroup np sk (some model) name = .ok (score.scoredGroup np sk model Y name) := by
  have increasing : (score.group name).Pairwise fun a b => a.label < b.label :=
    score.increasing.filter _
  unfold IndexedTable.scoreGroup
  simp only [scoreOne_eq, made]
  rw [if_neg (not_not.mpr fits)]
  exact congrArg Except.ok (assignScores_eq increasing _ (by simp [scoredBy]))

/-- The rows of a container under the model it is scored with. -/
def IndexedTable.groupResult (score : IndexedTable ι κ ν) (X Y : List (Column ν))
    (train : Table ν) (name : GoString) : List (Entry ι κ ν × Added ν) :=
  match modelFor sk (modelsOf sk contamination X train)
    (globalOf sk contamination X train) name with
  | some model => score.scoredGroup np sk model Y name
  | none => []

variable {np sk contamination}

/-- The second layer, when the scored table has the features of the baseline. -/
theorem IndexedTable.scoreAll_eq {score : IndexedTable ι κ ν} {train : Table ν}
    {X Y : List (Column ν)} (made : frame np train.columns = .ok X)
    (also : frame np score.columns = .ok Y) (names : Y.map Prod.fst = X.map Prod.fst)
    (enough : 2 ≤ train.rows.length) {scored : List (Entry ι κ ν × Added ν)}
    (returned : score.scoreAll np sk contamination train = .ok scored) :
    scored = (score.table.keys.map (score.groupResult np sk contamination X Y
      train)).flatten.insertionSort byLabel := by
  have group : (fun name => score.scoreGroup np sk (modelFor sk
      (modelsOf sk contamination X train) (globalOf sk contamination X train) name) name) =
      fun name => pure (score.groupResult np sk contamination X Y train name) := by
    funext name
    obtain ⟨model, chosen, feat⟩ := modelFor_feat sk contamination X train enough name
    rw [IndexedTable.groupResult, chosen]
    exact score.scoreGroup_eq np sk also (names.trans feat.symm) name
  have groups := trainGroups_eq sk contamination made
    (AList.insert globalName (globalOf sk contamination X train) ∅)
  rw [← modelsOf] at groups
  unfold IndexedTable.scoreAll at returned
  rw [trainOneModel_eq sk contamination made, ← globalOf] at returned
  simp only [bind, Except.bind, groups] at returned
  rw [group, List.mapM_pure] at returned
  change (if _ then _ else _) = _ at returned
  split at returned
  · cases returned
  · exact (Except.ok.inj returned).symm

/-- The second layer has the rows of the scored table in their order, and each has its scores under
the model of its container. -/
theorem IndexedTable.scoreAll_rows {score : IndexedTable ι κ ν} {train : Table ν}
    {X Y : List (Column ν)} (made : frame np train.columns = .ok X)
    (also : frame np score.columns = .ok Y) (names : Y.map Prod.fst = X.map Prod.fst)
    (enough : 2 ≤ train.rows.length) {scored : List (Entry ι κ ν × Added ν)}
    (returned : score.scoreAll np sk contamination train = .ok scored) :
    scored.map Prod.fst = score.entries ∧
    ∀ pair ∈ scored, ∃ model, modelFor sk (modelsOf sk contamination X train)
        (globalOf sk contamination X train) pair.1.row.key = some model ∧
      pair ∈ score.scoredGroup np sk model Y pair.1.row.key := by
  have whole := scoreAll_eq made also names enough returned
  have own : ∀ name, (score.groupResult np sk contamination X Y train name).map Prod.fst =
      score.entries.filter fun entry => entry.row.key = name := by
    intro name
    obtain ⟨model, chosen, _⟩ := modelFor_feat sk contamination X train enough name
    rw [IndexedTable.groupResult, chosen]
    show List.map Prod.fst (List.map _ (List.zip _ _)) = _
    rw [List.map_map]
    exact List.map_fst_zip (by simp [scoredBy])
  constructor
  · rw [whole]
    refine sort_groups (fun entry => entry.row.key) Entry.label score.increasing
      (nodup_keys score.table) (fun entry inside => key_mem_keys score.table ?_) _
      (fun name _ => own name) byLabel fun left right => Iff.rfl
    exact List.mem_map_of_mem inside
  · intro pair inside
    rw [whole, List.mem_insertionSort, List.mem_flatten] at inside
    obtain ⟨_, listed, member⟩ := inside
    obtain ⟨name, _, rfl⟩ := List.mem_map.mp listed
    have key : pair.1.row.key = name := by
      have first := List.mem_map_of_mem (f := Prod.fst) member
      rw [own, List.mem_filter] at first
      exact of_decide_eq_true first.2
    obtain ⟨model, chosen, _⟩ := modelFor_feat sk contamination X train enough name
    rw [IndexedTable.groupResult, chosen] at member
    exact ⟨model, by rw [key, chosen], by rw [key]; exact member⟩

/-- What a returned result is: the scored rows, each merged with the rules under its label. -/
theorem IndexedTable.fitAndScore_cases {score : IndexedTable ι κ ν} {train : Table ν}
    {results : List (Merged ι κ ν)}
    (returned : score.fitAndScore np sk contamination train = .ok results) :
    ∃ layer scored, score.scoreAll np sk contamination train = .ok scored ∧
      results = scored.map
        (mergeAt np (score.ruleFlags layer) (score.ruleReasons np layer)) ∧
      ∀ row, ruleFlag layer row = true ↔ Alarming np train score.table row := by
  obtain ⟨layer, passed, rest⟩ := (bind_eq_ok_iff _ _ _).mp returned
  obtain ⟨scored, second, same⟩ := (bind_eq_ok_iff _ _ _).mp rest
  exact ⟨layer, scored, second, (Except.ok.inj same).symm, rules_spec np passed⟩

/-- A row of the result has the flag of its own rules. -/
theorem mergeAt_ruleFlag {score : IndexedTable ι κ ν} (layer : List (GoString × ν))
    (reasons : Series ι GoString) {pair : Entry ι κ ν × Added ν} (inside : pair.1 ∈ score.entries) :
    (mergeAt np (score.ruleFlags layer) reasons pair).ruleFlag =
      some (ruleFlag layer pair.1.row) :=
  lookup_entries score.increasing (fun entry => ruleFlag layer entry.row) inside

/-- A row whose rules fire is an anomaly with a score cut off below zero; any other keeps what its
model says. -/
theorem mergeAt_added {flags : Series ι Bool} {reasons : Series ι GoString}
    {pair : Entry ι κ ν × Added ν} {flag : Bool}
    (found : (mergeAt np flags reasons pair).ruleFlag = some flag) :
    (mergeAt np flags reasons pair).added = if flag = true then { pair.2 with
        anomaly := some (-1)
        score := pair.2.score.map (min · np.minusHundredth) }
      else pair.2 := by
  have looked : flags.lookup pair.1.label = some flag := found
  simp only [mergeAt, looked, Option.some.injEq]

end Returns

section RangeIndex

variable [LinearOrder ν] {np : Numpy ν} {sk : Sklearn ν} {contamination : Contamination ν}

/-- A row under its position. -/
def atPosition (row : Row ν × Nat) : Entry Nat Unit ν := ⟨row.2, row.1, ()⟩

/-- A table with the index that `read_csv` gives it. -/
def Table.indexed (score : Table ν) : IndexedTable Nat Unit ν where
  columns := score.columns
  entries := score.rows.zipIdx.map atPosition
  increasing := by
    rw [List.pairwise_map]
    exact increasing_zipIdx score.rows

/-- A row of the result under its position. -/
def Result.merged (result : Result ν) : Merged Nat Unit ν :=
  ⟨atPosition (result.row, result.index), result.scores.added, some result.ruleFlag,
    some result.ruleReason⟩

/-- A scored row under its position. -/
def scoredAt (scored : ScoredRow ν) : Entry Nat Unit ν × Added ν :=
  (atPosition scored.1, scored.2.added)

omit [LinearOrder ν] in
/-- The cells that are read of an indexed table are those of the table. -/
theorem table_indexed (score : Table ν) : score.indexed.table = score := by
  have rows : (score.rows.zipIdx.map atPosition).map Entry.row = score.rows := by
    rw [List.map_map]
    exact List.zipIdx_map_fst _ _
  simp only [IndexedTable.table, Table.indexed, rows]

/-- `score_one` scores every row. -/
theorem length_scoreOne {model : Model sk} {table : Table ν} {scored : List (Scores ν)}
    (returned : scoreOne np sk model table = .ok scored) :
    scored.length = table.rows.length := by
  rw [scoreOne_eq] at returned
  cases made : frame np table.columns with
  | error failure =>
    rw [made] at returned
    cases returned
  | ok X =>
    simp only [made] at returned
    split at returned
    · cases returned
    · rw [← Except.ok.inj returned]
      simp [scoredBy]

/-- Scoring a group under positions. -/
theorem scoreGroup_indexed (score : Table ν) (model : Option (Model sk)) (name : GoString) :
    score.indexed.scoreGroup np sk model name =
      (scoreGroup np sk model score name).map (List.map scoredAt) := by
  have group : score.indexed.group name = (ownRows score name).map atPosition := by
    rw [IndexedTable.group, Table.indexed, List.filter_map]
    rfl
  have columns : score.indexed.columns = score.columns := rfl
  have rows : (score.indexed.group name).map Entry.row = (ownRows score name).map Prod.fst := by
    rw [group, List.map_map]
    rfl
  cases model with
  | none =>
    simp only [IndexedTable.scoreGroup, scoreGroup, rows, columns, ← ownRows.eq_def]
    cases engineerFeatures np ⟨score.columns, (ownRows score name).map Prod.fst⟩ with
    | error failure => rfl
    | ok features => rfl
  | some model =>
    simp only [IndexedTable.scoreGroup, scoreGroup, rows, columns, ← ownRows.eq_def]
    cases returned : scoreOne np sk model
        ⟨score.columns, (ownRows score name).map Prod.fst⟩ with
    | error failure => rfl
    | ok scored =>
      have length : scored.length = (score.indexed.group name).length := by
        rw [length_scoreOne returned, group]
        simp
      have increasing : (score.indexed.group name).Pairwise fun a b => a.label < b.label :=
        score.indexed.increasing.filter _
      have aligned := assignScores_eq increasing scored length
      refine congrArg Except.ok (aligned.trans ?_)
      rw [group, List.zip_map_left, List.map_map]
      rfl

/-- The second layer under positions. -/
theorem scoreAll_indexed (train score : Table ν) :
    score.indexed.scoreAll np sk contamination train =
      (scoreAll np sk contamination train score).map (List.map scoredAt) := by
  have sorted (results : List (List (ScoredRow ν))) :
      (results.map (List.map scoredAt)).flatten.insertionSort byLabel =
        (results.flatten.insertionSort byIndex).map scoredAt := by
    rw [← List.map_flatten]
    exact (List.map_insertionSort byIndex byLabel scoredAt _ fun _ _ _ _ => Iff.rfl).symm
  unfold IndexedTable.scoreAll scoreAll
  simp only [table_indexed, scoreGroup_indexed, mapM_map]
  cases trainOneModel np sk contamination train with
  | error failure => rfl
  | ok globalModel =>
    simp only [bind, Except.bind]
    cases train.keys.foldlM (trainGroup np sk contamination train)
        (AList.insert globalName globalModel ∅) with
    | error failure => rfl
    | ok models =>
      dsimp only
      cases score.keys.mapM fun name =>
          scoreGroup np sk (modelFor sk models globalModel name) score name with
      | error failure => rfl
      | ok results =>
        cases results with
        | nil => rfl
        | cons first rest => exact congrArg Except.ok (sorted (first :: rest))

/-- A file is scored as a table with the index that `read_csv` gives it. -/
theorem fitAndScore_indexed (train score : Table ν) :
    score.indexed.fitAndScore np sk contamination train =
      (fitAndScore np sk contamination train score).map (List.map Result.merged) := by
  unfold IndexedTable.fitAndScore fitAndScore
  rw [table_indexed, scoreAll_indexed]
  cases rules np train score with
  | error failure => rfl
  | ok layer =>
    cases returned : scoreAll np sk contamination train score with
    | error failure => rfl
    | ok scored =>
      refine congrArg Except.ok ?_
      rw [List.map_map, List.map_map]
      refine List.map_congr_left fun entry inside => ?_
      have listed : (scoredAt entry).1 ∈ score.indexed.entries := by
        refine List.mem_map_of_mem ?_
        rw [← scoreAll_rows np sk contamination returned]
        exact List.mem_map_of_mem inside
      have flag := lookup_entries score.indexed.increasing
        (fun entry => ruleFlag layer entry.row) listed
      have reason := lookup_entries score.indexed.increasing
        (fun entry => ruleReason np layer entry.row) listed
      show mergeAt np _ _ (scoredAt entry) = (merge np layer entry).merged
      unfold mergeAt IndexedTable.ruleFlags IndexedTable.ruleReasons
      have own : (scoredAt entry).1.row = entry.1.1 := rfl
      simp only [flag, reason, own, Option.some.injEq, merge, Result.merged]
      cases ruleFlag layer entry.1.1 with
      | true => rfl
      | false => rfl

end RangeIndex

end ContainerAnomaly.Detect
