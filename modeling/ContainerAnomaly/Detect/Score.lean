import ContainerAnomaly.Detect.Features
import ContainerAnomaly.Lib.GoMap

/-!
# Two-layer detection

`fit_and_score` of `detect/detect.py`. The first layer compares the security-sensitive columns
with their baseline maxima; the second scores each container with a model of its own, or with
the global one. What scikit-learn fits and computes is a parameter (`Sklearn`): functions of the
matrices they are given.
-/

namespace ContainerAnomaly.Detect

open Lib

/-- The `contamination` of a forest. -/
inductive Contamination (ν : Type) where
  | auto
  | share (x : ν)

/-- `StandardScaler`, `IsolationForest` with its fixed random state, and `PCA`. -/
structure Sklearn (ν : Type) where
  /-- `StandardScaler`. -/
  Scaler : Type
  /-- `IsolationForest`. -/
  Forest : Type
  /-- `PCA`. -/
  Projection : Type
  /-- `StandardScaler.fit`. -/
  fitScaler : Matrix ν → Scaler
  /-- `StandardScaler.transform`. -/
  transform : Scaler → Matrix ν → Matrix ν
  /-- With `n_estimators`. -/
  fitForest : Nat → Contamination ν → Matrix ν → Forest
  /-- `IsolationForest.decision_function`. -/
  decisionFunction : Forest → Matrix ν → List ν
  /-- `IsolationForest.predict`. -/
  predict : Forest → Matrix ν → List Int
  /-- With `n_components`. -/
  fitPCA : Nat → Matrix ν → Projection
  /-- `PCA.transform`. -/
  project : Projection → Matrix ν → Matrix ν
  /-- `PCA.inverse_transform`. -/
  inverse : Projection → Matrix ν → Matrix ν

variable {ν : Type} [LinearOrder ν] (np : Numpy ν) (sk : Sklearn ν)

/-- The dictionary that `train_one_model` returns. -/
structure Model where
  /-- The scaler. -/
  scaler : sk.Scaler
  /-- The forest. -/
  iso : sk.Forest
  /-- The projection. -/
  pca : sk.Projection
  /-- The names of the features that it was fitted to. -/
  feat : List GoString

/-- `train_one_model`. -/
def trainOneModel (contamination : Contamination ν) (table : Table ν) :
    Except Failure (Option (Model sk)) := do
  let (X, feat) ← engineerFeatures np table
  if X.length < 2 then pure none
  else
    let scaler := sk.fitScaler X
    let Xs := sk.transform scaler X
    let nEst := max 50 (min 300 (X.length * 20))
    pure (some
      { scaler := scaler
        iso := sk.fitForest nEst contamination Xs
        pca := sk.fitPCA (min 2 feat.length) Xs
        feat := feat })

/-- The columns that scoring adds to a row. -/
structure Scores (ν : Type) where
  /-- `score`. -/
  score : ν
  /-- `anomaly`, which is -1 or 1. -/
  anomaly : Int
  /-- `recon_err`. -/
  reconErr : ν
  /-- `pca1`. -/
  pca1 : ν
  /-- `pca2`. -/
  pca2 : ν

/-- `score_one`, for each row of the table. -/
def scoreOne (model : Model sk) (table : Table ν) : Except Failure (List (Scores ν)) := do
  let (X, feat) ← engineerFeatures np table
  if feat ≠ model.feat then .error .featureNames
  else
    let Xs := sk.transform model.scaler X
    let proj := sk.project model.pca Xs
    let back := sk.inverse model.pca proj
    pure ((List.range X.length).map fun i =>
      { score := (sk.decisionFunction model.iso Xs).getD i np.zero
        anomaly := (sk.predict model.iso Xs).getD i 0
        reconErr := np.norm (List.zipWith np.sub (Xs.getD i []) (back.getD i []))
        pca1 := (proj.getD i []).getD 0 np.zero
        pca2 := (proj.getD i []).getD 1 np.zero })

/-- `sensitive_cols`. -/
def sensitiveCols : List GoString :=
  [lit "sys_priv_escalate", lit "sys_escape_attempt", lit "sys_file_unlink",
    lit "sys_file_perm"]

/-- The threshold of a column, `none` when it is NaN: the maximum of the cells that are not
missing, or zero for a column the baseline does not have. -/
def threshold (train : Table ν) (col : GoString) : Option ν :=
  if col ∈ train.columns then (train.rows.filterMap fun row => row.cell col).max?
  else some np.zero

/-- A column with its threshold, which must convert to an integer for the text of the reason. -/
def rule (train : Table ν) (col : GoString) : Except Failure (GoString × ν) :=
  match threshold np train col with
  | some t => .ok (col, t)
  | none => .error .intOfNaN

/-- The rules that apply to a scored table: the sensitive columns it has and their thresholds. -/
def rules (train score : Table ν) : Except Failure (List (GoString × ν)) :=
  (sensitiveCols.filter fun col => col ∈ score.columns).mapM (rule np train)

/-- A row is above the threshold of a rule. -/
def triggered (rule : GoString × ν) (row : Row ν) : Bool :=
  match row.cell rule.1 with
  | some x => rule.2 < x
  | none => false

/-- `rule_flag`. -/
def ruleFlag (layer : List (GoString × ν)) (row : Row ν) : Bool :=
  layer.any fun rule => triggered rule row

/-- `rule_reason`. -/
def ruleReason (layer : List (GoString × ν)) (row : Row ν) : GoString :=
  (layer.filter fun rule => triggered rule row).flatMap fun rule =>
    rule.1.drop 4 ++ lit ">" ++ lit (toString (np.int rule.2)) ++ lit " "

/-- The name of the fallback. -/
def globalName : GoString := lit "__global__"

/-- One round of the training loop: a container with three rows or more gets a model. -/
def trainGroup (contamination : Contamination ν) (train : Table ν)
    (models : GoMap GoString (Option (Model sk))) (name : GoString) :
    Except Failure (GoMap GoString (Option (Model sk))) :=
  if (train.group name).rows.length ≥ 3 then do
    match ← trainOneModel np sk contamination (train.group name) with
    | some m => pure (models.insert name (some m))
    | none => pure models
  else pure models

/-- The model a container is scored with. -/
def modelFor (models : GoMap GoString (Option (Model sk))) (globalModel : Option (Model sk))
    (name : GoString) : Option (Model sk) :=
  match (models.lookup name).getD ((models.lookup globalName).getD none) with
  | some model => some model
  | none => globalModel

/-- A scored row: its index and its scores. -/
abbrev ScoredRow (ν : Type) := (Row ν × Nat) × Scores ν

/-- The order of `sort_index`. -/
def byIndex (left right : ScoredRow ν) : Prop := left.1.2 ≤ right.1.2

instance : DecidableRel (byIndex (ν := ν)) := fun left right =>
  inferInstanceAs (Decidable (left.1.2 ≤ right.1.2))

/-- Score the group of a container. -/
def scoreGroup (model : Option (Model sk)) (score : Table ν) (name : GoString) :
    Except Failure (List (ScoredRow ν)) :=
  let group := score.rows.zipIdx.filter fun entry => entry.1.key = name
  match model with
  | none => do
    let _ ← engineerFeatures np ⟨score.columns, group.map Prod.fst⟩
    .error .noModel
  | some model => do
    let scored ← scoreOne np sk model ⟨score.columns, group.map Prod.fst⟩
    pure (group.zip scored)

/-- A row of the result. -/
structure Result (ν : Type) where
  /-- The row of the scored table. -/
  row : Row ν
  /-- Its place there. -/
  index : Nat
  /-- What the models say of it. -/
  scores : Scores ν
  /-- `rule_flag`. -/
  ruleFlag : Bool
  /-- `rule_reason`. -/
  ruleReason : GoString

/-- Merge the layers: a rule that fires forces an anomaly. -/
def merge (layer : List (GoString × ν)) (scored : ScoredRow ν) : Result ν :=
  let flag := Detect.ruleFlag layer scored.1.1
  { row := scored.1.1
    index := scored.1.2
    scores :=
      if flag then { scored.2 with
        anomaly := -1
        score := min scored.2.score np.minusHundredth }
      else scored.2
    ruleFlag := flag
    ruleReason := Detect.ruleReason np layer scored.1.1 }

/-- The second layer of `fit_and_score`: fit the models, score every group, and put the rows back
in the order of their indices. -/
def scoreAll (contamination : Contamination ν) (train score : Table ν) :
    Except Failure (List (ScoredRow ν)) := do
  let globalModel ← trainOneModel np sk contamination train
  let models ← train.keys.foldlM (trainGroup np sk contamination train)
    (AList.insert globalName globalModel ∅)
  let results ← score.keys.mapM fun name =>
    scoreGroup np sk (modelFor sk models globalModel name) score name
  if results.isEmpty then .error .noObjects
  else pure (results.flatten.insertionSort byIndex)

/-- `fit_and_score`. -/
def fitAndScore (contamination : Contamination ν) (train score : Table ν) :
    Except Failure (List (Result ν)) := do
  let layer ← rules np train score
  let scored ← scoreAll np sk contamination train score
  pure (scored.map (merge np layer))

end ContainerAnomaly.Detect
