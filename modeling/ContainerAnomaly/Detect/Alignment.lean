import ContainerAnomaly.Detect.Indexed

/-!
# Verdicts under their labels

With a scaler and a forest that work row by row, a result is coherent: each row has the flag of its
rules and the verdict of its model, under its own label, and its score agrees with its verdict. It
is so whenever there is a result (`merges_coherently_iff`).
-/

namespace ContainerAnomaly.Detect

open Lib

variable {ι κ ν : Type} [LinearOrder ι]

/-- A scaler and a forest that work row by row. -/
structure ByRow (sk : Sklearn ν) where
  /-- What the scaler makes of a row. -/
  scale : sk.Scaler → List ν → List ν
  /-- The score of a row. -/
  decision : sk.Forest → List ν → ν
  /-- The prediction for a row. -/
  label : sk.Forest → List ν → Int
  /-- A matrix is scaled row by row. -/
  transform_eq : ∀ scaler X, sk.transform scaler X = X.map (scale scaler)
  /-- It is scored row by row. -/
  decisionFunction_eq : ∀ forest X, sk.decisionFunction forest X = X.map (decision forest)
  /-- It is predicted row by row. -/
  predict_eq : ∀ forest X, sk.predict forest X = X.map (label forest)

section Verdicts

variable [LinearOrder ν] {np : Numpy ν} {sk : Sklearn ν} {contamination : Contamination ν}

/-- A row as the forest of a model sees it. -/
def ByRow.scaled (byRow : ByRow sk) (model : Model sk) (Y : List (Column ν)) (row : Row ν) :
    List ν :=
  byRow.scale model.scaler (Y.map fun column => column.2 row)

omit [LinearOrder ν] in
/-- The score and the label of a row are those of its features. -/
theorem ByRow.scoredBy_eq (byRow : ByRow sk) (model : Model sk) (Y : List (Column ν))
    (rows : List (Row ν)) :
    (scoredBy np sk model Y rows).map (fun scores => (scores.score, scores.anomaly)) =
      rows.map fun row => (byRow.decision model.iso (byRow.scaled model Y row),
        byRow.label model.iso (byRow.scaled model Y row)) := by
  apply List.ext_getElem
  · simp [scoredBy]
  · intro i below _
    have inside : i < rows.length := by simpa [scoredBy] using below
    simp [scoredBy, byRow.transform_eq, byRow.decisionFunction_eq, byRow.predict_eq, matrixOf,
      ByRow.scaled, inside]

omit [LinearOrder ν] in
/-- So are those of every row of a group. -/
theorem ByRow.scoredGroup_spec (byRow : ByRow sk) {score : IndexedTable ι κ ν} {model : Model sk}
    {Y : List (Column ν)} {name : GoString} {pair : Entry ι κ ν × Added ν}
    (inside : pair ∈ score.scoredGroup np sk model Y name) :
    pair.2.score = some (byRow.decision model.iso (byRow.scaled model Y pair.1.row)) ∧
      pair.2.anomaly = some (byRow.label model.iso (byRow.scaled model Y pair.1.row)) := by
  obtain ⟨⟨entry, scores⟩, member, rfl⟩ := List.mem_map.mp inside
  let rows := (score.group name).map Entry.row
  have length : (score.group name).length = (scoredBy np sk model Y rows).length := by
    simp [scoredBy, rows]
  have aligned : ((score.group name).zip (scoredBy np sk model Y rows)).map
      (fun pair => (pair.2.score, pair.2.anomaly)) =
      ((score.group name).zip (scoredBy np sk model Y rows)).map fun pair =>
        (byRow.decision model.iso (byRow.scaled model Y pair.1.row),
          byRow.label model.iso (byRow.scaled model Y pair.1.row)) := by
    show List.map ((fun scores : Scores ν => (scores.score, scores.anomaly)) ∘ Prod.snd) _ =
      List.map ((fun entry : Entry ι κ ν =>
        (byRow.decision model.iso (byRow.scaled model Y entry.row),
          byRow.label model.iso (byRow.scaled model Y entry.row))) ∘ Prod.fst) _
    rw [← List.map_map, ← List.map_map, List.map_snd_zip length.ge, List.map_fst_zip length.le,
      byRow.scoredBy_eq, List.map_map]
    rfl
  have same := List.map_inj_left.mp aligned _ member
  obtain ⟨decision, label⟩ := Prod.mk.inj same
  exact ⟨congrArg some decision, congrArg some label⟩

/-- The model of a row, fitted to the baseline, predicts that the row is an anomaly. -/
def ByRow.Predicts (byRow : ByRow sk) (np : Numpy ν) (contamination : Contamination ν)
    (train : Table ν) (columns : List GoString) (row : Row ν) : Prop :=
  ∃ X Y model, frame np train.columns = .ok X ∧ frame np columns = .ok Y ∧
    modelFor sk (modelsOf sk contamination X train) (globalOf sk contamination X train) row.key =
      some model ∧
    byRow.label model.iso (byRow.scaled model Y row) = -1

/-- A result has the index, the order and the columns of the scored table; the flag of a row says
whether it triggers a rule; the row is an anomaly when it is flagged or its model predicts so; and
its score is negative when it is an anomaly. -/
structure Coherent (byRow : ByRow sk) (np : Numpy ν) (contamination : Contamination ν)
    (train : Table ν) (score : IndexedTable ι κ ν) (results : List (Merged ι κ ν)) : Prop where
  /-- The index, the order and the columns are those of the scored table. -/
  entries : results.map Merged.entry = score.entries
  /-- The flag of a row says whether it triggers a rule. -/
  flag : ∀ result ∈ results, ∃ flag, result.ruleFlag = some flag ∧
    (flag = true ↔ Triggers np train score.table result.entry.row)
  /-- A row is an anomaly when it is flagged or its model predicts so. -/
  anomaly : ∀ result ∈ results, result.added.anomaly = some (-1) ↔
    result.ruleFlag = some true ∨
      byRow.Predicts np contamination train score.columns result.entry.row
  /-- Its score is negative when it is an anomaly. -/
  score : ∀ result ∈ results, (∃ x, result.added.score = some x ∧ x < np.zero) ↔
    result.added.anomaly = some (-1)

/-- For every baseline with two rows and every scored table with a unique sorted index, with
predictions that agree with decisions, the result is coherent exactly when no threshold is NaN and
the scored table has rows and the features of the baseline. -/
theorem merges_coherently_iff (byRow : ByRow sk)
    (agrees : ∀ forest x, byRow.label forest x = -1 ↔ byRow.decision forest x < np.zero)
    (negative : np.minusHundredth < np.zero) (contamination : Contamination ν) (train : Table ν)
    (enough : 2 ≤ train.rows.length) (score : IndexedTable ι κ ν) :
    (∃ results, score.fitAndScore np sk contamination train = .ok results ∧
      Coherent byRow np contamination train score results) ↔
      ¬ NaNThreshold train score.table ∧ SameFeatures train.columns score.columns ∧
        score.entries ≠ [] := by
  have returns := score.fitAndScore_isOk_iff np sk contamination train
  constructor
  · rintro ⟨results, returned, _⟩
    obtain ⟨fine, same, _, some_rows⟩ := returns.mp ⟨results, returned⟩
    exact ⟨fine, same, some_rows⟩
  · rintro ⟨fine, same, some_rows⟩
    obtain ⟨results, returned⟩ := returns.mpr ⟨fine, same, enough, some_rows⟩
    refine ⟨results, returned, ?_⟩
    obtain ⟨X, Y, made, also, names⟩ := (fits_iff np train score.table).mpr same
    obtain ⟨layer, scored, second, rfl, flags⟩ := IndexedTable.fitAndScore_cases returned
    obtain ⟨rows, verdicts⟩ := IndexedTable.scoreAll_rows made also names enough second
    have member : ∀ pair ∈ scored, pair.1 ∈ score.entries := fun pair inside =>
      rows ▸ List.mem_map_of_mem inside
    have flagged : ∀ pair ∈ scored, (mergeAt np (score.ruleFlags layer)
        (score.ruleReasons np layer) pair).ruleFlag = some (ruleFlag layer pair.1.row) :=
      fun pair inside => mergeAt_ruleFlag layer _ (member pair inside)
    constructor
    · rw [List.map_map]
      exact rows
    · rw [List.forall_mem_map]
      intro pair inside
      refine ⟨_, flagged pair inside, ?_⟩
      rw [flags]
      exact (triggers_iff_alarming np fine pair.1.row).symm
    · rw [List.forall_mem_map]
      intro pair inside
      obtain ⟨model, chosen, own⟩ := verdicts pair inside
      have anomaly := (byRow.scoredGroup_spec own).2
      have predicts : byRow.Predicts np contamination train score.columns pair.1.row ↔
          byRow.label model.iso (byRow.scaled model Y pair.1.row) = -1 := by
        constructor
        · rintro ⟨X', Y', model', made', also', chosen', label⟩
          obtain rfl := Except.ok.inj (made.symm.trans made')
          obtain rfl := Except.ok.inj (also.symm.trans also')
          obtain rfl := Option.some.inj (chosen.symm.trans chosen')
          exact label
        · exact fun label => ⟨X, Y, model, made, also, chosen, label⟩
      rw [mergeAt_added (flagged pair inside), flagged pair inside]
      show _ ↔ _ ∨ byRow.Predicts np contamination train score.columns pair.1.row
      cases ruleFlag layer pair.1.row with
      | true => simp
      | false => simp [anomaly, predicts]
    · rw [List.forall_mem_map]
      intro pair inside
      obtain ⟨model, _, own⟩ := verdicts pair inside
      obtain ⟨decision, anomaly⟩ := byRow.scoredGroup_spec own
      rw [mergeAt_added (flagged pair inside)]
      cases ruleFlag layer pair.1.row with
      | true => simp [decision, negative]
      | false => simp [decision, anomaly, agrees]

end Verdicts

/-- What is fitted to identical rows works row by row. -/
def identicalByRow : ByRow fitIdentical where
  scale := fun mean row => List.zipWith (· - ·) row mean
  decision := fun _ _ => 0
  label := fun _ _ => 1
  transform_eq := fun _ _ => rfl
  decisionFunction_eq := fun _ _ => rfl
  predict_eq := fun _ _ => rfl

/-- Two windows with an index, under columns of their own. -/
def indexedWindows (columns : List GoString) : IndexedTable Nat GoString ℚ where
  columns := columns
  entries := [⟨3, ⟨none, fun _ => some 0⟩, lit "10:00:30"⟩,
    ⟨5, escalating (lit "web") 5, lit "10:01:00"⟩]
  increasing := by decide

/-- Windows without the column `sys_priv_escalate` of the baseline have no result. -/
theorem column_missing_no_result :
    ((indexedWindows [lit "tcp_bytes_tx"]).fitAndScore fractions fitIdentical .auto
      (tableOf quietWeb)).map List.length = .error .featureNames ∧
    ¬ ∃ results, (indexedWindows [lit "tcp_bytes_tx"]).fitAndScore fractions fitIdentical .auto
        (tableOf quietWeb) = .ok results ∧
      Coherent identicalByRow fractions .auto (tableOf quietWeb)
        (indexedWindows [lit "tcp_bytes_tx"]) results := by
  have failed : ((indexedWindows [lit "tcp_bytes_tx"]).fitAndScore fractions fitIdentical .auto
      (tableOf quietWeb)).map List.length = .error .featureNames := by decide +kernel
  refine ⟨failed, ?_⟩
  rintro ⟨results, returned, _⟩
  rw [returned] at failed
  cases failed

/-- An unnamed window and one of `web`, with the columns of the baseline. -/
theorem merges_coherently_iff_mixed :
    ∃ results, (indexedWindows [lit "tcp_bytes_tx", lit "sys_priv_escalate"]).fitAndScore
        fractions fitIdentical .auto (tableOf quietWeb) = .ok results ∧
      Coherent identicalByRow fractions .auto (tableOf quietWeb)
        (indexedWindows [lit "tcp_bytes_tx", lit "sys_priv_escalate"]) results := by
  have positive : (1 : Int) ≠ -1 := by decide
  have agrees : ∀ forest x, identicalByRow.label forest x = -1 ↔
      identicalByRow.decision forest x < fractions.zero :=
    fun _ _ => iff_of_false positive (lt_irrefl (0 : ℚ))
  refine (merges_coherently_iff identicalByRow agrees (by decide +kernel) .auto
    (tableOf quietWeb) (by decide) _).mpr ⟨?_, by decide, by decide⟩
  rintro ⟨col, _, _, _, missing⟩
  have cell := missing (escalating (lit "web") 0) List.mem_cons_self
  unfold escalating at cell
  dsimp only at cell
  split at cell <;> cases cell

end ContainerAnomaly.Detect
