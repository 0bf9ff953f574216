import ContainerAnomaly.Detect.FeatureNames
import ContainerAnomaly.Detect.Neighbours

/-!
# Scoring on the trained columns

`score_one` fills absent columns and reorders, but over the features it has just made itself, so
this changes nothing (`passed_eq`): the scaler is passed the columns it was fitted on exactly when
the table makes the same features as the baseline (`passes_trained_iff`).
-/

namespace ContainerAnomaly.Detect

open Lib

variable {ν : Type}

/-- The loop of `score_one` that fills the columns of a list of features that a frame does not
have. -/
def fillAbsent [LinearOrder ν] (np : Numpy ν) (feat : List GoString) (X : List (Column ν)) :
    List (Column ν) :=
  feat.foldl (fun X c => if c ∉ X.map Prod.fst then assign X c fun _ => np.zero else X) X

/-- `X[feat]`. -/
def select (feat : List GoString) (X : List (Column ν)) : List (Column ν) :=
  feat.filterMap fun c => (X.lookup c).map fun column => (c, column)

section Passed

variable [LinearOrder ν] (np : Numpy ν) (sk : Sklearn ν) (contamination : Contamination ν)

/-- What `score_one` passes to the scaler of a model: a matrix and the names of its columns. -/
def passed (table : Table ν) : Except Failure (Matrix ν × List GoString) := do
  let X ← frame np table.columns
  let feat := X.map Prod.fst
  let X := select feat (fillAbsent np feat X)
  pure (table.rows.map fun row => X.map fun column => column.2 row, X.map Prod.fst)

/-- The features of a table, or zero, under the names of a list. -/
def onColumns (feat : List GoString) (X : List (Column ν)) (row : Row ν) : List ν :=
  feat.map fun c => ((X.lookup c).map fun column => column row).getD np.zero

/-- The scaler of a model is passed the columns it was fitted on, in their order, with zeros for
those that the table does not give. -/
def PassesTrained {sk : Sklearn ν} (model : Model sk) (table : Table ν) : Prop :=
  ∃ X, frame np table.columns = .ok X ∧
    passed np table = .ok (table.rows.map (onColumns np model.feat X), model.feat)

/-- A frame has one column under each name. -/
def Keyed (X : List (Column ν)) : Prop := ∀ entry ∈ X, X.lookup entry.1 = some entry.2

omit [LinearOrder ν] in
/-- An assignment keeps one column under each name. -/
theorem Keyed.assign {X : List (Column ν)} (keyed : Keyed X) (name : GoString)
    (column : Row ν → ν) : Keyed (assign X name column) := by
  have inside : ∀ entry ∈ Detect.assign X name column,
      entry = (name, column) ∨ entry ∈ X ∧ entry.1 ≠ name := by
    intro entry member
    unfold Detect.assign at member
    split at member
    · obtain ⟨old, old_inside, rfl⟩ := List.mem_map.mp member
      by_cases same : old.1 = name
      · exact .inl (if_pos same)
      · rw [if_neg same]
        exact .inr ⟨old_inside, same⟩
    · next absent =>
      rcases List.mem_append.mp member with old | new
      · exact .inr ⟨old, fun same => absent (List.mem_map.mpr ⟨entry, old, same⟩)⟩
      · exact .inl (List.mem_singleton.mp new)
  intro entry member
  rw [lookup_assign]
  rcases inside entry member with rfl | ⟨old, apart⟩
  · rw [if_pos rfl]
  · rw [if_neg apart]
    exact keyed entry old

omit [LinearOrder ν] in
/-- So does an assignment that is made on a condition. -/
theorem Keyed.assign_if {X : List (Column ν)} (keyed : Keyed X) (name : GoString)
    (column : Row ν → ν) (condition : Prop) [Decidable condition] :
    Keyed (if condition then Detect.assign X name column else X) := by
  by_cases taken : condition
  · rw [if_pos taken]
    exact keyed.assign name column
  · rw [if_neg taken]
    exact keyed

omit [LinearOrder ν] in
/-- Dropping columns keeps one under each name that is left. -/
theorem Keyed.filter {X : List (Column ν)} (keyed : Keyed X) (names : List GoString) :
    Keyed (X.filter fun column => column.1 ∉ names) := by
  intro entry member
  obtain ⟨inside, kept⟩ := List.mem_filter.mp member
  rw [lookup_filter _ _ _ (of_decide_eq_true kept)]
  exact keyed entry inside

omit [LinearOrder ν] in
/-- The columns of a table are one under each name. -/
theorem keyed_raw (columns : List GoString) : Keyed (columns.map fun c => (c, raw np c)) := by
  intro entry member
  obtain ⟨c, listed, rfl⟩ := List.mem_map.mp member
  clear member
  induction columns with
  | nil => cases listed
  | cons first columns ih =>
    rw [List.map_cons, List.lookup_cons]
    by_cases same : c = first
    · simp [same]
    · have differs : (c == first) = false := by simpa using same
      rw [differs]
      exact ih ((List.mem_cons.mp listed).resolve_left same)

/-- The features of a table have one column under each name. -/
theorem keyed_frame {columns : List GoString} {X : List (Column ν)}
    (made : frame np columns = .ok X) : Keyed X := by
  by_cases neither : lit "tcp_bytes_tx" ∉ columns ∧ lit "tcp_bytes_rx" ∉ columns
  · rw [frame, if_pos neither] at made
    cases made
  · simp only [frame, if_neg neither, Except.ok.injEq] at made
    have loop (names : List GoString) {step : List (Column ν) → GoString → List (Column ν)}
        {X : List (Column ν)} (keyed : Keyed X) (kept : ∀ X c, Keyed X → Keyed (step X c)) :
        Keyed (names.foldl step X) :=
      List.foldlRecOn names step keyed fun X keyed c _ => kept X c keyed
    have ratios := loop (sysCols columns) (keyed_raw np columns) fun X c keyed =>
      keyed.assign (c ++ lit "_ratio") (ratio np columns c)
    rw [← made]
    refine Keyed.filter (loop sensitive (loop _ (Keyed.assign_if (ratios.assign_if _ _ _) _ _ _)
      fun X c keyed => ?_) fun X c keyed => ?_) _
    · exact keyed.assign_if _ _ _
    · exact keyed.assign_if _ _ _

/-- The loop of `score_one` has nothing to fill. -/
theorem fillAbsent_own (X : List (Column ν)) : fillAbsent np (X.map Prod.fst) X = X := by
  have listed : ∀ names : List GoString, (∀ c ∈ names, c ∈ X.map Prod.fst) →
      fillAbsent np names X = X := by
    intro names
    induction names with
    | nil => exact fun _ => rfl
    | cons c names ih =>
      intro all
      rw [fillAbsent, List.foldl_cons, if_neg (not_not.mpr (all c List.mem_cons_self))]
      exact ih fun other later => all other (List.mem_cons_of_mem _ later)
  exact listed _ fun c => id

omit [LinearOrder ν] in
/-- A frame is its own selection. -/
theorem select_own {X : List (Column ν)} (keyed : Keyed X) : select (X.map Prod.fst) X = X := by
  rw [select, List.filterMap_map]
  have each : ∀ entry ∈ X, ((fun c => (X.lookup c).map fun column => (c, column)) ∘ Prod.fst)
      entry = some entry := by
    intro entry inside
    show (X.lookup entry.1).map (fun column => (entry.1, column)) = some entry
    rw [keyed entry inside]
    rfl
  rw [List.filterMap_congr each, List.filterMap_some]

/-- The scaler is passed the features of the table, whatever the model. -/
theorem passed_eq (table : Table ν) : passed np table = engineerFeatures np table := by
  unfold passed engineerFeatures
  cases made : frame np table.columns with
  | error failure => rfl
  | ok X =>
    simp only [bind, Except.bind, fillAbsent_own, select_own (keyed_frame np made)]

/-- The scaler is passed the trained columns exactly when the features of the table are those of
the model. -/
theorem passesTrained_iff (model : Model sk) (table : Table ν) :
    PassesTrained np model table ↔
      ∃ X, frame np table.columns = .ok X ∧ X.map Prod.fst = model.feat := by
  refine exists_congr fun X => and_congr_right fun made => ?_
  rw [passed_eq, engineerFeatures, made]
  constructor
  · intro same
    exact congrArg Prod.snd (Except.ok.inj same)
  · intro names
    have each : ∀ row, (X.map fun column => column.2 row) = onColumns np model.feat X row := by
      intro row
      rw [onColumns, ← names, List.map_map]
      refine List.map_congr_left fun entry inside => ?_
      simp [keyed_frame np made entry inside]
    simp only [bind, Except.bind, pure, Except.pure, each, names]

/-- `score_one` returns exactly when it passes the trained columns. -/
theorem scoreOne_isOk_iff (model : Model sk) (table : Table ν) :
    (∃ scores, scoreOne np sk model table = .ok scores) ↔ PassesTrained np model table := by
  rw [passesTrained_iff, scoreOne_eq]
  cases made : frame np table.columns with
  | error failure => simp
  | ok X =>
    by_cases same : X.map Prod.fst = model.feat
    · simp [same]
    · simp [same]

/-- For every trained model and every table, the scaler is passed the columns it was fitted on
exactly when the table makes the same features as the baseline. -/
theorem passes_trained_iff {train : Table ν} {model : Model sk}
    (trained : trainOneModel np sk contamination train = .ok (some model)) (table : Table ν) :
    PassesTrained np model table ↔ SameFeatures train.columns table.columns := by
  rw [passesTrained_iff, ← fits_iff np train table]
  cases made : frame np train.columns with
  | error failure =>
    rw [trainOneModel_error sk contamination made] at trained
    cases trained
  | ok X =>
    rw [trainOneModel_eq sk contamination made] at trained
    have feat : model.feat = X.map Prod.fst := by
      split at trained
      · cases trained
      · obtain rfl := Option.some.inj (Except.ok.inj trained)
        rfl
    rw [feat]
    constructor
    · rintro ⟨Y, scored, same⟩
      exact ⟨X, Y, made, scored, same⟩
    · rintro ⟨X', Y, made', scored, same⟩
      obtain rfl := Except.ok.inj (made.symm.trans made')
      exact ⟨Y, scored, same⟩

end Passed

/-- Two windows that sent bytes and opened files. -/
def opening (columns : List GoString) : Table ℚ :=
  ⟨columns, List.replicate 2 ⟨none, fun _ => some 3⟩⟩

/-- The baseline has `sys_file_open` and the scored table has not: the scaler is passed two columns
where it was fitted on three. -/
theorem missing_column_not_filled :
    ∃ model : Model fitIdentical,
      trainOneModel fractions fitIdentical .auto
        (opening [lit "tcp_bytes_tx", lit "sys_file_open"]) = .ok (some model) ∧
      model.feat =
        [lit "sys_file_open_ratio", lit "tcp_tx_ratio", lit "tcp_bytes_tx_log"] ∧
      (passed fractions (opening [lit "tcp_bytes_tx"])).map Prod.snd =
        .ok [lit "tcp_tx_ratio", lit "tcp_bytes_tx_log"] ∧
      ¬ PassesTrained fractions model (opening [lit "tcp_bytes_tx"]) := by
  obtain ⟨X, made⟩ := (frame_isOk_iff fractions
    [lit "tcp_bytes_tx", lit "sys_file_open"]).mpr (by decide)
  have feat : X.map Prod.fst =
      [lit "sys_file_open_ratio", lit "tcp_tx_ratio", lit "tcp_bytes_tx_log"] := by
    rw [names_frame fractions made]
    decide
  have names : (passed fractions (opening [lit "tcp_bytes_tx"])).map Prod.snd =
      .ok [lit "tcp_tx_ratio", lit "tcp_bytes_tx_log"] := by decide +kernel
  refine ⟨_, trainOneModel_eq fitIdentical .auto made, feat, names, ?_⟩
  rintro ⟨Y, _, same⟩
  rw [same] at names
  have wrong := (Except.ok.inj names).symm.trans feat
  exact absurd wrong (by decide)

/-- The order of columns that only make other features does not matter. -/
theorem passes_trained_iff_swapped :
    ∃ model : Model fitIdentical,
      trainOneModel fractions fitIdentical .auto
        (opening [lit "tcp_bytes_tx", lit "sys_file_open"]) = .ok (some model) ∧
      PassesTrained fractions model (opening [lit "sys_file_open", lit "tcp_bytes_tx"]) := by
  obtain ⟨X, made⟩ := (frame_isOk_iff fractions
    [lit "tcp_bytes_tx", lit "sys_file_open"]).mpr (by decide)
  have trained : trainOneModel fractions fitIdentical .auto
      (opening [lit "tcp_bytes_tx", lit "sys_file_open"]) = _ :=
    trainOneModel_eq fitIdentical .auto made
  exact ⟨_, trained, (passes_trained_iff fractions fitIdentical .auto trained _).mpr (by decide)⟩

end ContainerAnomaly.Detect
