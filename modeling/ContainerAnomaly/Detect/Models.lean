import ContainerAnomaly.Detect.Score

/-!
# The second layer, computed

Features, models and scores as functions, when nothing fails: the model of a container with three
baseline rows is fitted to its own rows (`lookup_modelsOf`), and the second layer scores every
group with its model (`scoreAll_eq`). It fails only for the columns of the tables
(`scoreAll_misfit`).
-/

namespace ContainerAnomaly.Detect

open Lib

variable {ν : Type} [LinearOrder ν] (np : Numpy ν) (sk : Sklearn ν)
  (contamination : Contamination ν)

/-- The matrix of some rows. -/
def matrixOf (X : List (Column ν)) (rows : List (Row ν)) : Matrix ν :=
  rows.map fun row => X.map fun column => column.2 row

/-- The model fitted to some rows. -/
def fitted (X : List (Column ν)) (rows : List (Row ν)) : Model sk :=
  let scaler := sk.fitScaler (matrixOf X rows)
  let Xs := sk.transform scaler (matrixOf X rows)
  { scaler := scaler
    iso := sk.fitForest (max 50 (min 300 (rows.length * 20))) contamination Xs
    pca := sk.fitPCA (min 2 X.length) Xs
    feat := X.map Prod.fst }

variable {np} in
/-- Training on a table whose features can be made. -/
theorem trainOneModel_eq {table : Table ν} {X : List (Column ν)}
    (made : frame np table.columns = .ok X) :
    trainOneModel np sk contamination table =
      .ok (if table.rows.length < 2 then none
        else some (fitted sk contamination X table.rows)) := by
  unfold trainOneModel engineerFeatures
  rw [made]
  simp only [bind, Except.bind, pure, Except.pure, List.length_map]
  split <;> simp [fitted, matrixOf]

variable {np} in
/-- Training on a table whose features cannot be made. -/
theorem trainOneModel_error {table : Table ν} {failure : Failure}
    (failed : frame np table.columns = .error failure) :
    trainOneModel np sk contamination table = .error failure := by
  unfold trainOneModel engineerFeatures
  rw [failed]
  rfl

/-- The global model, when its training succeeds. -/
def globalOf (X : List (Column ν)) (train : Table ν) : Option (Model sk) :=
  if train.rows.length < 2 then none else some (fitted sk contamination X train.rows)

/-- One round of the training loop, when the training succeeds. -/
def addModel (X : List (Column ν)) (train : Table ν)
    (models : GoMap GoString (Option (Model sk))) (name : GoString) :
    GoMap GoString (Option (Model sk)) :=
  if (train.group name).rows.length ≥ 3 then
    models.insert name (some (fitted sk contamination X (train.group name).rows))
  else models

/-- The models of the containers, when every training succeeds. -/
def modelsOf (X : List (Column ν)) (train : Table ν) : GoMap GoString (Option (Model sk)) :=
  train.keys.foldl (addModel sk contamination X train)
    (AList.insert globalName (globalOf sk contamination X train) ∅)

variable {np} in
/-- Training every group. -/
theorem trainGroups_eq {train : Table ν} {X : List (Column ν)}
    (made : frame np train.columns = .ok X) (models : GoMap GoString (Option (Model sk))) :
    train.keys.foldlM (trainGroup np sk contamination train) models =
      .ok (train.keys.foldl (addModel sk contamination X train) models) := by
  have single : trainGroup np sk contamination train = fun models name =>
      pure (addModel sk contamination X train models name) := by
    funext models name
    have same : frame np (train.group name).columns = .ok X := made
    unfold trainGroup addModel
    by_cases enough : (train.group name).rows.length ≥ 3
    · rw [if_pos enough, if_pos enough, trainOneModel_eq sk contamination same,
        if_neg (by omega)]
      rfl
    · rw [if_neg enough, if_neg enough]
  rw [single]
  exact List.foldlM_pure

omit [LinearOrder ν] in
/-- A container is a group exactly when it has a row. -/
theorem mem_keys_iff (table : Table ν) (name : GoString) :
    name ∈ table.keys ↔ (table.group name).rows ≠ [] := by
  rw [Table.keys, List.mem_insertionSort, List.mem_dedup, List.mem_map, Table.group, ne_eq,
    List.filter_eq_nil_iff]
  simp

omit [LinearOrder ν] in
/-- Every row belongs to a group. -/
theorem key_mem_keys (table : Table ν) {row : Row ν} (inside : row ∈ table.rows) :
    row.key ∈ table.keys :=
  (List.mem_insertionSort _).mpr (List.mem_dedup.mpr (List.mem_map_of_mem inside))

omit [LinearOrder ν] in
/-- The groups of a table are different. -/
theorem nodup_keys (table : Table ν) : table.keys.Nodup :=
  (List.perm_insertionSort _ _).nodup_iff.mpr (List.nodup_dedup _)

omit [LinearOrder ν] in
/-- A table without groups has no rows. -/
theorem keys_eq_nil_iff (table : Table ν) : table.keys = [] ↔ table.rows = [] := by
  constructor
  · intro none
    refine List.eq_nil_iff_forall_not_mem.mpr fun row inside => ?_
    have listed := key_mem_keys table inside
    rw [none] at listed
    cases listed
  · intro none
    rw [Table.keys, none]
    rfl

omit [LinearOrder ν] in
/-- The model of a container with three baseline rows is fitted to its own rows. -/
theorem lookup_modelsOf (X : List (Column ν)) (train : Table ν) (name : GoString)
    (enough : (train.group name).rows.length ≥ 3) :
    (modelsOf sk contamination X train).lookup name =
      some (some (fitted sk contamination X (train.group name).rows)) := by
  have loop (keys : List GoString) (models : GoMap GoString (Option (Model sk))) :
      (keys.foldl (addModel sk contamination X train) models).lookup name =
      if name ∈ keys then some (some (fitted sk contamination X (train.group name).rows))
      else models.lookup name := by
    induction keys generalizing models with
    | nil => rfl
    | cons first keys ih =>
      rw [List.foldl_cons, ih]
      by_cases later : name ∈ keys
      · rw [if_pos later, if_pos (List.mem_cons_of_mem _ later)]
      · rw [if_neg later]
        unfold addModel
        by_cases same : name = first
        · subst same
          rw [if_pos List.mem_cons_self, if_pos enough]
          exact AList.lookup_insert _
        · have other : name ∉ first :: keys := by simp [same, later]
          rw [if_neg other]
          split
          · exact AList.lookup_insert_ne same
          · rfl
  have present : name ∈ train.keys := by
    rw [mem_keys_iff]
    intro empty
    simp [empty] at enough
  rw [modelsOf, loop, if_pos present]

omit [LinearOrder ν] in
/-- Every container is scored with some model, and every model has the features of the
baseline. -/
theorem modelFor_feat (X : List (Column ν)) (train : Table ν) (enough : 2 ≤ train.rows.length)
    (name : GoString) : ∃ model, modelFor sk (modelsOf sk contamination X train)
      (globalOf sk contamination X train) name = some model ∧ model.feat = X.map Prod.fst := by
  have global : globalOf sk contamination X train =
      some (fitted sk contamination X train.rows) := if_neg (by omega)
  have loop (keys : List GoString) (models : GoMap GoString (Option (Model sk)))
      (before : ∀ key value, models.lookup key = some value →
        ∃ model, value = some model ∧ model.feat = X.map Prod.fst) :
      ∀ key value, (keys.foldl (addModel sk contamination X train) models).lookup key =
        some value → ∃ model, value = some model ∧ model.feat = X.map Prod.fst := by
    induction keys generalizing models with
    | nil => exact before
    | cons first keys ih =>
      apply ih
      intro key value found
      unfold addModel at found
      split at found
      · by_cases same : key = first
        · subst same
          rw [AList.lookup_insert] at found
          obtain rfl := Option.some.inj found
          exact ⟨_, rfl, rfl⟩
        · rw [AList.lookup_insert_ne same] at found
          exact before key value found
      · exact before key value found
  have all : ∀ key value, (modelsOf sk contamination X train).lookup key = some value →
      ∃ model, value = some model ∧ model.feat = X.map Prod.fst := by
    apply loop
    intro key value found
    by_cases same : key = globalName
    · subst same
      rw [AList.lookup_insert, global] at found
      obtain rfl := Option.some.inj found
      exact ⟨_, rfl, rfl⟩
    · rw [AList.lookup_insert_ne same] at found
      cases found
  unfold modelFor
  rw [global]
  cases own : (modelsOf sk contamination X train).lookup name with
  | some value =>
    obtain ⟨model, rfl, feat⟩ := all name value own
    exact ⟨model, rfl, feat⟩
  | none =>
    cases fallback : (modelsOf sk contamination X train).lookup globalName with
    | some value =>
      obtain ⟨model, rfl, feat⟩ := all globalName value fallback
      exact ⟨model, rfl, feat⟩
    | none => exact ⟨_, rfl, rfl⟩

/-- The scores of some rows. -/
def scoredBy (model : Model sk) (X : List (Column ν)) (rows : List (Row ν)) :
    List (Scores ν) :=
  let Xs := sk.transform model.scaler (matrixOf X rows)
  let proj := sk.project model.pca Xs
  let back := sk.inverse model.pca proj
  (List.range rows.length).map fun i =>
    { score := (sk.decisionFunction model.iso Xs).getD i np.zero
      anomaly := (sk.predict model.iso Xs).getD i 0
      reconErr := np.norm (List.zipWith np.sub (Xs.getD i []) (back.getD i []))
      pca1 := (proj.getD i []).getD 0 np.zero
      pca2 := (proj.getD i []).getD 1 np.zero }

/-- What scoring can do: the features cannot be made, they are not the model's, or every row is
scored. -/
theorem scoreOne_eq (model : Model sk) (table : Table ν) : scoreOne np sk model table =
    match frame np table.columns with
    | .error failure => .error failure
    | .ok X =>
      if X.map Prod.fst ≠ model.feat then .error .featureNames
      else .ok (scoredBy np sk model X table.rows) := by
  unfold scoreOne engineerFeatures
  cases made : frame np table.columns with
  | error failure => rfl
  | ok X =>
    by_cases mismatch : X.map Prod.fst ≠ model.feat
    · simp [bind, Except.bind, pure, Except.pure, mismatch]
    · simp [bind, Except.bind, pure, Except.pure, mismatch, scoredBy, matrixOf]

/-- The scored table has the features of the baseline. -/
def Fits (train score : Table ν) : Prop :=
  ∃ X Y, frame np train.columns = .ok X ∧ frame np score.columns = .ok Y ∧
    Y.map Prod.fst = X.map Prod.fst

/-- The rows of a container, with their indices. -/
def ownRows (score : Table ν) (name : GoString) : List (Row ν × Nat) :=
  score.rows.zipIdx.filter fun entry => entry.1.key = name

/-- The scored rows of a container under a model. -/
def ownScored (model : Model sk) (Y : List (Column ν)) (score : Table ν) (name : GoString) :
    List (ScoredRow ν) :=
  (ownRows score name).zip (scoredBy np sk model Y ((ownRows score name).map Prod.fst))

/-- Scoring a group with a model that has the features. -/
theorem scoreGroup_eq {score : Table ν} {Y : List (Column ν)}
    (made : frame np score.columns = .ok Y) {model : Model sk}
    (fits : Y.map Prod.fst = model.feat) (name : GoString) :
    scoreGroup np sk (some model) score name = .ok (ownScored np sk model Y score name) := by
  unfold scoreGroup
  simp only [scoreOne_eq, made]
  rw [if_neg (not_not.mpr fits)]
  rfl

/-- Features that cannot be made fail for want of a column. -/
theorem frame_error {columns : List GoString} {failure : Failure}
    (failed : frame np columns = .error failure) : failure ≠ .intOfNaN := by
  unfold frame at failed
  dsimp only at failed
  split at failed
  · obtain rfl := Except.error.inj failed
    decide
  · cases failed

/-- Without the features, scoring a group fails in the same way under every model. -/
theorem scoreGroup_misfit {train score : Table ν} {X : List (Column ν)}
    (made : frame np train.columns = .ok X) (misfit : ¬ Fits np train score) :
    ∃ failure, failure ≠ .intOfNaN ∧ ∀ model : Model sk, model.feat = X.map Prod.fst →
      ∀ name, scoreGroup np sk (some model) score name = .error failure := by
  cases scored : frame np score.columns with
  | error failure =>
    refine ⟨failure, frame_error np scored, fun model _ name => ?_⟩
    unfold scoreGroup
    simp only [scoreOne_eq, scored]
    rfl
  | ok Y =>
    refine ⟨.featureNames, by decide, fun model feat name => ?_⟩
    have different : Y.map Prod.fst ≠ model.feat := by
      intro same
      exact misfit ⟨X, Y, made, scored, same.trans feat⟩
    unfold scoreGroup
    simp only [scoreOne_eq, scored]
    rw [if_pos different]
    rfl

/-- The scored rows of a container under the model it is scored with. -/
def groupScored (X Y : List (Column ν)) (train score : Table ν) (name : GoString) :
    List (ScoredRow ν) :=
  match modelFor sk (modelsOf sk contamination X train)
    (globalOf sk contamination X train) name with
  | some model => ownScored np sk model Y score name
  | none => []

/-- Everything that a run scores, in the order of the groups. -/
def allScored (X Y : List (Column ν)) (train score : Table ν) : List (List (ScoredRow ν)) :=
  score.keys.map (groupScored np sk contamination X Y train score)

/-- The second layer, once all training has succeeded. -/
theorem scoreAll_made {train : Table ν} {X : List (Column ν)}
    (made : frame np train.columns = .ok X) (score : Table ν) :
    scoreAll np sk contamination train score = (do
      let results ← score.keys.mapM fun name =>
        scoreGroup np sk (modelFor sk (modelsOf sk contamination X train)
          (globalOf sk contamination X train) name) score name
      if results.isEmpty then .error .noObjects
      else pure (results.flatten.insertionSort byIndex)) := by
  unfold scoreAll
  rw [trainOneModel_eq sk contamination made, ← globalOf]
  have groups := trainGroups_eq sk contamination made
    (AList.insert globalName (globalOf sk contamination X train) ∅)
  rw [← modelsOf] at groups
  simp only [bind, Except.bind, groups]

/-- The scored rows, when the scored table has the features of the baseline. -/
theorem scoreAll_eq {train score : Table ν} {X Y : List (Column ν)}
    (made : frame np train.columns = .ok X) (scored : frame np score.columns = .ok Y)
    (fits : Y.map Prod.fst = X.map Prod.fst) (enough : 2 ≤ train.rows.length) :
    scoreAll np sk contamination train score =
      if score.keys = [] then .error .noObjects
      else .ok ((allScored np sk contamination X Y train score).flatten.insertionSort
        byIndex) := by
  have group : (fun name => scoreGroup np sk (modelFor sk (modelsOf sk contamination X train)
      (globalOf sk contamination X train) name) score name) = fun name =>
        pure (groupScored np sk contamination X Y train score name) := by
    funext name
    obtain ⟨model, chosen, feat⟩ := modelFor_feat sk contamination X train enough name
    rw [groupScored, chosen]
    exact scoreGroup_eq np sk scored (fits.trans feat.symm) name
  rw [scoreAll_made np sk contamination made, group, List.mapM_pure]
  show (if (List.map _ score.keys).isEmpty then _ else _) = _
  unfold allScored
  cases score.keys with
  | nil => rfl
  | cons first rest =>
    rw [if_neg (by simp), if_neg (by simp)]
    rfl

/-- Without the features, the second layer fails, whatever the rows of the baseline. -/
theorem scoreAll_misfit {first second score : Table ν} (columns : first.columns = second.columns)
    (misfit : ¬ Fits np first score) (enough : 2 ≤ first.rows.length)
    (also : 2 ≤ second.rows.length) :
    ∃ failure, failure ≠ .intOfNaN ∧
      scoreAll np sk contamination first score = .error failure ∧
      scoreAll np sk contamination second score = .error failure := by
  cases made : frame np first.columns with
  | error failure =>
    have failed : frame np second.columns = .error failure := by rw [← columns, made]
    unfold scoreAll
    rw [trainOneModel_error sk contamination made, trainOneModel_error sk contamination failed]
    exact ⟨failure, frame_error np made, rfl, rfl⟩
  | ok X =>
    have alike : frame np second.columns = .ok X := by rw [← columns, made]
    obtain ⟨failure, known, fails⟩ := scoreGroup_misfit np sk made misfit
    have every (train : Table ν) (rows : 2 ≤ train.rows.length) :
        (fun name => scoreGroup np sk (modelFor sk (modelsOf sk contamination X train)
          (globalOf sk contamination X train) name) score name) = fun _ => .error failure := by
      funext name
      obtain ⟨model, chosen, feat⟩ := modelFor_feat sk contamination X train rows name
      rw [chosen]
      exact fails model feat name
    rw [scoreAll_made np sk contamination made, scoreAll_made np sk contamination alike,
      every first enough, every second also]
    cases score.keys with
    | nil => exact ⟨.noObjects, by decide, rfl, rfl⟩
    | cons name rest => exact ⟨failure, known, rfl, rfl⟩

end ContainerAnomaly.Detect
