import ContainerAnomaly.Detect.Schema
import ContainerAnomaly.Lib.Fallible
import ContainerAnomaly.Lib.Regroup

/-!
# When the detector returns

The rule layer needs no model, but `fit_and_score` has only one way to a result, and that way leads
through the threshold of every rule, a model and the scores of every group. It returns exactly when
all of them are there (`fitAndScore_isOk_iff`), and then no row is lost or moved
(`fitAndScore_rows`) and every row that triggers a rule is an anomaly (`rules_hold_iff`).
-/

namespace ContainerAnomaly.Detect

open Lib

variable {ν : Type} [LinearOrder ν] (np : Numpy ν) (sk : Sklearn ν)
  (contamination : Contamination ν)

omit [LinearOrder ν] in
/-- A baseline of fewer than two rows gives no container a model. -/
theorem modelFor_none (X : List (Column ν)) (train : Table ν) (few : train.rows.length < 2)
    (name : GoString) : modelFor sk (modelsOf sk contamination X train)
      (globalOf sk contamination X train) name = none := by
  have global : globalOf sk contamination X train = none := if_pos few
  have idle : addModel sk contamination X train = fun models _ => models := by
    funext models name
    have part := group_le train name
    rw [addModel, if_neg (by omega)]
  have only : modelsOf sk contamination X train = AList.insert globalName none ∅ := by
    rw [modelsOf, global, idle]
    exact List.foldl_fixed _
  rw [only, global]
  unfold modelFor
  rw [AList.lookup_insert]
  by_cases same : name = globalName
  · subst same
    rw [AList.lookup_insert]
    rfl
  · rw [AList.lookup_insert_ne same]
    rfl

/-- Scoring a group returns exactly when there is a model, with the features of the table. -/
theorem scoreGroup_isOk_iff (model : Option (Model sk)) (score : Table ν) (name : GoString) :
    (∃ scored, scoreGroup np sk model score name = .ok scored) ↔
      ∃ chosen Y, model = some chosen ∧ frame np score.columns = .ok Y ∧
        Y.map Prod.fst = chosen.feat := by
  cases model with
  | none =>
    unfold scoreGroup
    simp [bind_isOk_iff]
  | some chosen =>
    unfold scoreGroup
    simp only [bind_pure_isOk_iff, scoreOne_isOk_iff, passesTrained_iff, Option.some.injEq,
      exists_and_left, exists_eq_left']

/-- Putting groups together returns exactly when there are some and each is scored. -/
theorem concat_isOk_iff {β γ : Type} (keys : List GoString) (scoring : GoString → Except Failure β)
    (finish : List β → γ) :
    (∃ result, (do
      let results ← keys.mapM scoring
      if results.isEmpty then .error .noObjects
      else pure (finish results) : Except Failure γ) = .ok result) ↔
      keys ≠ [] ∧ ∀ name ∈ keys, ∃ scored, scoring name = .ok scored := by
  rw [bind_isOk_iff, ← mapM_isOk_iff, ← exists_and_left]
  refine exists_congr fun results => ?_
  rw [and_comm]
  refine and_congr_left fun returned => ?_
  have length := length_of_mapM returned
  cases keys with
  | nil =>
    obtain rfl := List.length_eq_zero_iff.mp length
    exact iff_of_false (fun ⟨_, ok⟩ => by cases ok) (fun some => some rfl)
  | cons first rest =>
    have some_results : results.isEmpty = false := by
      cases results with
      | nil => cases length
      | cons _ _ => rfl
    rw [some_results]
    exact iff_of_true ⟨_, rfl⟩ (List.cons_ne_nil first rest)

/-- A second layer that scores its groups in some way returns exactly when there are rows to score,
a model to score them with, and the features it was fitted on. -/
theorem second_layer_isOk_iff {β γ : Type} (train score : Table ν)
    (scoring : Option (Model sk) → GoString → Except Failure β)
    (returns : ∀ model name, (∃ scored, scoring model name = .ok scored) ↔
      ∃ chosen Y, model = some chosen ∧ frame np score.columns = .ok Y ∧
        Y.map Prod.fst = chosen.feat)
    (finish : List β → γ) :
    (∃ result, (do
      let globalModel ← trainOneModel np sk contamination train
      let models ← train.keys.foldlM (trainGroup np sk contamination train)
        (AList.insert globalName globalModel ∅)
      let results ← score.keys.mapM fun name =>
        scoring (modelFor sk models globalModel name) name
      if results.isEmpty then .error .noObjects
      else pure (finish results) : Except Failure γ) = .ok result) ↔
      SameFeatures train.columns score.columns ∧ 2 ≤ train.rows.length ∧ score.rows ≠ [] := by
  rw [← fits_iff np, ne_eq, ← keys_eq_nil_iff]
  cases made : frame np train.columns with
  | error failure =>
    rw [trainOneModel_error sk contamination made]
    refine iff_of_false (fun ⟨_, ok⟩ => by cases ok) ?_
    rintro ⟨⟨X, _, trained, _⟩, _⟩
    rw [made] at trained
    cases trained
  | ok X =>
    have groups := trainGroups_eq sk contamination made
      (AList.insert globalName (globalOf sk contamination X train) ∅)
    rw [← modelsOf] at groups
    rw [trainOneModel_eq sk contamination made, ← globalOf]
    simp only [bind, Except.bind, groups]
    refine (concat_isOk_iff score.keys (fun name => scoring (modelFor sk
      (modelsOf sk contamination X train) (globalOf sk contamination X train) name) name)
      finish).trans ?_
    simp only [returns]
    by_cases enough : 2 ≤ train.rows.length
    · have fits (name : GoString) : (∃ chosen Y, modelFor sk (modelsOf sk contamination X train)
          (globalOf sk contamination X train) name = some chosen ∧
          frame np score.columns = .ok Y ∧ Y.map Prod.fst = chosen.feat) ↔ Fits np train score := by
        obtain ⟨model, found, feat⟩ := modelFor_feat sk contamination X train enough name
        simp [Fits, found, made, feat]
      simp only [fits]
      constructor
      · rintro ⟨some_keys, all⟩
        obtain ⟨name, listed⟩ := List.exists_mem_of_ne_nil _ some_keys
        exact ⟨all name listed, enough, some_keys⟩
      · rintro ⟨fitting, _, some_keys⟩
        exact ⟨some_keys, fun _ _ => fitting⟩
    · refine iff_of_false ?_ (fun all => enough all.2.1)
      rintro ⟨some_keys, all⟩
      obtain ⟨name, listed⟩ := List.exists_mem_of_ne_nil _ some_keys
      obtain ⟨_, _, found, _⟩ := all name listed
      rw [modelFor_none sk contamination X train (Nat.lt_of_not_le enough)] at found
      cases found

/-- The second layer returns exactly when there are rows to score, a model to score them with, and
the features it was fitted on. -/
theorem scoreAll_isOk_iff (train score : Table ν) :
    (∃ scored, scoreAll np sk contamination train score = .ok scored) ↔
      SameFeatures train.columns score.columns ∧ 2 ≤ train.rows.length ∧ score.rows ≠ [] :=
  second_layer_isOk_iff np sk contamination train score
    (fun model name => scoreGroup np sk model score name)
    (fun model name => scoreGroup_isOk_iff np sk model score name)
    fun results => results.flatten.insertionSort byIndex

/-- The rule layer returns exactly when every threshold is there. -/
theorem rules_isOk_iff (train score : Table ν) :
    (∃ layer, rules np train score = .ok layer) ↔ ¬ NaNThreshold train score := by
  rcases rules_cases np train score with ⟨nan, failed⟩ | ⟨fine, layer, passed, _⟩
  · rw [failed]
    exact iff_of_false (fun ⟨_, ok⟩ => by cases ok) (not_not.mpr nan)
  · exact iff_of_true ⟨layer, passed⟩ fine

/-- The rules flag the alarming rows. -/
theorem rules_spec {train score : Table ν} {layer : List (GoString × ν)}
    (passed : rules np train score = .ok layer) (row : Row ν) :
    ruleFlag layer row = true ↔ Alarming np train score row := by
  rcases rules_cases np train score with ⟨_, failed⟩ | ⟨_, other, also, flags⟩
  · rw [failed] at passed
    cases passed
  · obtain rfl := Except.ok.inj (also.symm.trans passed)
    exact flags row

/-- `fit_and_score` returns exactly when both layers do. -/
theorem fitAndScore_isOk_iff (train score : Table ν) :
    (∃ results, fitAndScore np sk contamination train score = .ok results) ↔
      ¬ NaNThreshold train score ∧ SameFeatures train.columns score.columns ∧
        2 ≤ train.rows.length ∧ score.rows ≠ [] := by
  unfold fitAndScore
  rw [bind_isOk_iff]
  simp only [bind_pure_isOk_iff, exists_and_right, rules_isOk_iff, scoreAll_isOk_iff]

/-- The second layer scores every row once, and puts the rows back in their order. -/
theorem scoreAll_rows {train score : Table ν} {scored : List (ScoredRow ν)}
    (returned : scoreAll np sk contamination train score = .ok scored) :
    scored.map Prod.fst = score.rows.zipIdx := by
  obtain ⟨same, enough, some_rows⟩ :=
    (scoreAll_isOk_iff np sk contamination train score).mp ⟨scored, returned⟩
  obtain ⟨X, Y, made, also, names⟩ := (fits_iff np train score).mpr same
  rw [scoreAll_eq np sk contamination made also names enough,
    if_neg fun none => some_rows ((keys_eq_nil_iff score).mp none)] at returned
  rw [← Except.ok.inj returned]
  refine sort_groups (fun entry => entry.1.key) Prod.snd (increasing_zipIdx _) (nodup_keys score)
    (fun entry inside => key_mem_keys score (List.fst_mem_of_mem_zipIdx inside))
    (groupScored np sk contamination X Y train score) (fun name _ => ?_) byIndex
    fun left right => Iff.rfl
  obtain ⟨model, chosen, _⟩ := modelFor_feat sk contamination X train enough name
  rw [groupScored, chosen]
  exact ownScored_rows np sk model Y score name

/-- What a returned result is: the scored rows, each merged with the rules, which flag the alarming
rows. -/
theorem fitAndScore_cases {train score : Table ν} {results : List (Result ν)}
    (returned : fitAndScore np sk contamination train score = .ok results) :
    ∃ layer scored, results = scored.map (merge np layer) ∧
      scoreAll np sk contamination train score = .ok scored ∧
      (∀ row, ruleFlag layer row = true ↔ Alarming np train score row) := by
  obtain ⟨layer, passed, rest⟩ := (bind_eq_ok_iff _ _ _).mp returned
  obtain ⟨scored, second, same⟩ := (bind_eq_ok_iff _ _ _).mp rest
  exact ⟨layer, scored, (Except.ok.inj same).symm, second, rules_spec np passed⟩

/-- The result has the rows of the scored table, in their order. -/
theorem fitAndScore_rows {train score : Table ν} {results : List (Result ν)}
    (returned : fitAndScore np sk contamination train score = .ok results) :
    (results.map fun result => (result.row, result.index)) = score.rows.zipIdx := by
  obtain ⟨layer, scored, rfl, second, _⟩ := fitAndScore_cases np sk contamination returned
  rw [List.map_map]
  exact scoreAll_rows np sk contamination second

/-- The maximum of a column of the baseline, if it gives one. -/
def baselineMax (train : Table ν) (col : GoString) : Option ν :=
  if col ∈ train.columns then (train.rows.filterMap fun row => row.cell col).max? else none

/-- A row triggers a rule: in some sensitive column its value is greater than the maximum of the
baseline, or greater than zero when the baseline gives none. -/
def Triggers (train score : Table ν) (row : Row ν) : Prop :=
  ∃ col ∈ sensitiveCols, col ∈ score.columns ∧
    ∃ x, row.cell col = some x ∧ (baselineMax train col).getD np.zero < x

/-- Where no threshold is NaN, these are the alarming rows. -/
theorem triggers_iff_alarming {train score : Table ν} (fine : ¬ NaNThreshold train score)
    (row : Row ν) : Triggers np train score row ↔ Alarming np train score row := by
  refine exists_congr fun col => and_congr_right fun sensitive => and_congr_right fun present =>
    exists_congr fun x => and_congr_right fun _ => ?_
  rcases threshold_cases np train col with ⟨_, missing⟩ | ⟨t, found, above, _⟩
  · exact absurd ⟨col, sensitive, present, missing⟩ fine
  · have same : (baselineMax train col).getD np.zero = t := by
      unfold threshold at found
      unfold baselineMax
      by_cases listed : col ∈ train.columns
      · rw [if_pos listed] at found ⊢
        rw [found, Option.getD_some]
      · rw [if_neg listed] at found ⊢
        exact Option.some.inj found
    rw [same]
    exact above x

/-- For every baseline and every scored table, `fit_and_score` returns a result in which every row
that triggers a rule is an anomaly exactly when it returns at all: no threshold is NaN, the scored
table has rows and the features of the baseline, and the baseline has two rows. -/
theorem rules_hold_iff (train score : Table ν) :
    (∃ results, fitAndScore np sk contamination train score = .ok results ∧
      ∀ index row, score.rows[index]? = some row → Triggers np train score row →
        ∃ result ∈ results, result.index = index ∧ result.row = row ∧
          result.scores.anomaly = -1) ↔
      ¬ NaNThreshold train score ∧ SameFeatures train.columns score.columns ∧
        2 ≤ train.rows.length ∧ score.rows ≠ [] := by
  rw [← fitAndScore_isOk_iff np sk contamination]
  constructor
  · rintro ⟨results, returned, _⟩
    exact ⟨results, returned⟩
  · rintro ⟨results, returned⟩
    have fine := ((fitAndScore_isOk_iff np sk contamination train score).mp
      ⟨results, returned⟩).1
    refine ⟨results, returned, fun index row at_index triggers => ?_⟩
    have listed : (row, index) ∈ results.map fun result => (result.row, result.index) := by
      rw [fitAndScore_rows np sk contamination returned]
      exact List.mk_mem_zipIdx_iff_getElem?.mpr at_index
    obtain ⟨result, inside, same⟩ := List.mem_map.mp listed
    obtain ⟨own, place⟩ := Prod.mk.inj same
    refine ⟨result, inside, place, own, ?_⟩
    obtain ⟨layer, scored, rfl, _, flags⟩ := fitAndScore_cases np sk contamination returned
    obtain ⟨entry, _, rfl⟩ := List.mem_map.mp inside
    have flagged : ruleFlag layer entry.1.1 = true := by
      rw [flags, show entry.1.1 = row from own]
      exact (triggers_iff_alarming np fine row).mp triggers
    simp only [merge, flagged, if_true]

/-- The verdicts on a window of `web` with five calls, under a baseline of some windows. -/
def fiveCalls (baseline : List (Row ℚ)) : Except Failure (List (Nat × Int × ℚ × Bool)) :=
  (fitAndScore fractions fitIdentical .auto (tableOf baseline)
    (tableOf [escalating (lit "web") 5])).map (verdicts (lit "web"))

/-- The window triggers a rule, but with one baseline window there is no model to score it with,
and with none there is no threshold: no result flags it. -/
theorem no_model_no_rules :
    Triggers fractions (tableOf [escalating (lit "web") 0]) (tableOf [escalating (lit "web") 5])
      (escalating (lit "web") 5) ∧
    fiveCalls [escalating (lit "web") 0] = .error .noModel ∧
    Triggers fractions (tableOf []) (tableOf [escalating (lit "web") 5])
      (escalating (lit "web") 5) ∧
    fiveCalls [] = .error .intOfNaN := by
  refine ⟨⟨lit "sys_priv_escalate", by decide, by decide, 5, rfl, by decide +kernel⟩,
    by decide +kernel,
    ⟨lit "sys_priv_escalate", by decide, by decide, 5, rfl, by decide +kernel⟩,
    by decide +kernel⟩

end ContainerAnomaly.Detect
