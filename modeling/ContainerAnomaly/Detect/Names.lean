import ContainerAnomaly.Detect.Ratios

/-!
# The names of containers

The encoder writes an empty name for the host, the detector fills missing names in with `host`, and
`read_csv` takes the default NA strings for missing and converts a column of numbers as a whole. As
long as the values of a name column tell its names apart and at most one name is missing or `host`,
the groups of the detector are the containers (`groupedByName_iff`), and one with three baseline
rows that is read alike in both tables is scored with the model trained on them
(`groups_are_containers`).
-/

namespace ContainerAnomaly.Detect

open Lib Feature

section Tables

variable {ν : Type} (pandas : Pandas ν) (formats : Formats)

/-- The table that the detector reads from a file of vectors. -/
def vectorTable (vectors : List Vector) : Table ν :=
  pandas.readCsv (vectors.map (Vector.record formats))

/-- The row that the detector reads for a vector. -/
def rowOf (vectors : List Vector) (v : Vector) : Row ν where
  name := pandas.value (vectors.map Vector.name) v.name
  cell := fun c => (cellOf (v.record formats) c).bind pandas.number

/-- The rows of a table that were written under a name. -/
def ownTable (vectors : List Vector) (name : GoString) : Table ν :=
  ⟨featureColumns, (vectors.filter fun v => v.name = name).map (rowOf pandas formats vectors)⟩

/-- What a name that is not missing becomes: the column is converted as a whole, or stays as it
is. -/
def nameValue (vectors : List Vector) (name : GoString) : GoString :=
  match pandas.convert ((vectors.map Vector.name).filter (· ∉ naValues)) with
  | none => name
  | some value => value name

/-- A name that the detector takes for that of the host. -/
def Nameless (vectors : List Vector) (name : GoString) : Prop :=
  name ∈ naValues ∨ nameValue pandas vectors name = lit "host"

instance (vectors : List Vector) (name : GoString) : Decidable (Nameless pandas vectors name) :=
  inferInstanceAs (Decidable (_ ∨ _))

/-- The names of vectors are told apart when they are read. -/
structure Told (vectors : List Vector) : Prop where
  /-- Names that are not missing keep different values. -/
  values : ∀ v ∈ vectors, ∀ w ∈ vectors, v.name ∉ naValues → w.name ∉ naValues →
    nameValue pandas vectors v.name = nameValue pandas vectors w.name → v.name = w.name
  /-- At most one name is missing or `host`. -/
  apart : ∀ v ∈ vectors, ∀ w ∈ vectors, Nameless pandas vectors v.name →
    Nameless pandas vectors w.name → v.name = w.name

/-- Two rows fall into the same group exactly when their names are equal. -/
def GroupedByName (vectors : List Vector) : Prop :=
  ∀ (i j : Nat) v w left right, vectors[i]? = some v → vectors[j]? = some w →
    (vectorTable pandas formats vectors).rows[i]? = some left →
    (vectorTable pandas formats vectors).rows[j]? = some right →
    (left.key = right.key ↔ v.name = w.name)

/-- The key of the rows with a name. -/
def keyOf (vectors : List Vector) (name : GoString) : GoString :=
  if name ∈ naValues then lit "host" else nameValue pandas vectors name

variable {pandas formats}

/-- The rows of a table of vectors. -/
theorem vectorTable_rows (vectors : List Vector) :
    (vectorTable pandas formats vectors).rows = vectors.map (rowOf pandas formats vectors) :=
  readCsv_rows pandas formats vectors

/-- The key of the row of a vector. -/
theorem rowOf_key (vectors : List Vector) (v : Vector) :
    (rowOf pandas formats vectors v).key = keyOf pandas vectors v.name := by
  unfold Row.key rowOf Pandas.value keyOf nameValue
  dsimp only
  by_cases missing : v.name ∈ naValues
  · rw [if_pos missing, if_pos missing]
    rfl
  · rw [if_neg missing, if_neg missing]
    cases pandas.convert ((vectors.map Vector.name).filter (· ∉ naValues)) <;> rfl

/-- Names that are told apart have different keys. -/
theorem keyOf_inj {vectors : List Vector} (told : Told pandas vectors) {v w : Vector}
    (left : v ∈ vectors) (right : w ∈ vectors) :
    keyOf pandas vectors v.name = keyOf pandas vectors w.name ↔ v.name = w.name := by
  refine ⟨fun same => ?_, fun same => congrArg _ same⟩
  unfold keyOf at same
  by_cases first : v.name ∈ naValues
  · by_cases second : w.name ∈ naValues
    · exact told.apart v left w right (.inl first) (.inl second)
    · rw [if_pos first, if_neg second] at same
      exact told.apart v left w right (.inl first) (.inr same.symm)
  · by_cases second : w.name ∈ naValues
    · rw [if_neg first, if_pos second] at same
      exact told.apart v left w right (.inr same) (.inl second)
    · rw [if_neg first, if_neg second] at same
      exact told.values v left w right first second same

/-- Rows are grouped by the names of their vectors exactly when their keys tell them apart. -/
theorem groupedByName_iff_keyOf (vectors : List Vector) :
    GroupedByName pandas formats vectors ↔ ∀ v ∈ vectors, ∀ w ∈ vectors,
      (keyOf pandas vectors v.name = keyOf pandas vectors w.name ↔ v.name = w.name) := by
  constructor
  · intro grouped v first w second
    obtain ⟨i, at_v⟩ := List.mem_iff_getElem?.mp first
    obtain ⟨j, at_w⟩ := List.mem_iff_getElem?.mp second
    have key : ∀ v, (rowOf pandas formats vectors v).key = keyOf pandas vectors v.name :=
      rowOf_key vectors
    rw [← key v, ← key w]
    apply grouped i j v w _ _ at_v at_w
    · rw [vectorTable_rows, List.getElem?_map, at_v]
      rfl
    · rw [vectorTable_rows, List.getElem?_map, at_w]
      rfl
  · intro apart i j v w left right at_v at_w at_left at_right
    rw [vectorTable_rows, List.getElem?_map] at at_left at_right
    rw [at_v] at at_left
    rw [at_w] at at_right
    obtain rfl := Option.some.inj at_left
    obtain rfl := Option.some.inj at_right
    rw [rowOf_key, rowOf_key]
    exact apart v (List.mem_of_getElem? at_v) w (List.mem_of_getElem? at_w)

/-- Rows are grouped by the names of their vectors exactly when these are told apart. -/
theorem groupedByName_iff (vectors : List Vector) :
    GroupedByName pandas formats vectors ↔ Told pandas vectors := by
  rw [groupedByName_iff_keyOf]
  constructor
  · intro apart
    constructor
    · intro v first w second left right same
      refine (apart v first w second).mp ?_
      rw [keyOf, keyOf, if_neg left, if_neg right]
      exact same
    · have host : ∀ name, Nameless pandas vectors name →
          keyOf pandas vectors name = lit "host" := by
        intro name nameless
        unfold keyOf
        split
        · rfl
        · rename_i present
          exact nameless.resolve_left present
      intro v first w second left right
      exact (apart v first w second).mp ((host _ left).trans (host _ right).symm)
  · intro told v first w second
    exact keyOf_inj told first second

/-- The group of a name is what was written under it. -/
theorem group_eq_own {vectors : List Vector} (told : Told pandas vectors) {w : Vector}
    (member : w ∈ vectors) :
    (vectorTable pandas formats vectors).group (keyOf pandas vectors w.name) =
      ownTable pandas formats vectors w.name := by
  have own : ∀ v ∈ vectors,
      decide ((rowOf pandas formats vectors v).key = keyOf pandas vectors w.name) =
        decide (v.name = w.name) := by
    intro v inside
    rw [rowOf_key, decide_eq_decide]
    exact keyOf_inj told inside member
  rw [Table.group, vectorTable_rows, List.filter_map, ownTable]
  exact congrArg (fun kept => Table.mk featureColumns (kept.map (rowOf pandas formats vectors)))
    (List.filter_congr own)

end Tables

section Models

variable {ν : Type} [LinearOrder ν] (np : Numpy ν) (sk : Sklearn ν)
  (contamination : Contamination ν) (pandas : Pandas ν) (formats : Formats)

/-- Rows are grouped by the names of their vectors in both tables, and a name with enough baseline
rows is scored with the model trained on these rows. -/
structure GroupsAreContainers (least : Nat) (train score : List Vector) : Prop where
  /-- The rows of the baseline are grouped by the names. -/
  baseline : GroupedByName pandas formats train
  /-- So are those of the scored table. -/
  scored : GroupedByName pandas formats score
  /-- A name with enough baseline rows is scored with the model trained on these rows. -/
  models : ∃ globalModel models,
    trainOneModel np sk contamination (vectorTable pandas formats train) = .ok globalModel ∧
    (vectorTable pandas formats train).keys.foldlM
      (trainGroup np sk contamination (vectorTable pandas formats train))
      (AList.insert globalName globalModel ∅) = .ok models ∧
    ∀ (i : Nat) v row, score[i]? = some v →
      (vectorTable pandas formats score).rows[i]? = some row →
      least ≤ (ownTable pandas formats train v.name).rows.length →
      ∃ model, trainOneModel np sk contamination (ownTable pandas formats train v.name) =
          .ok (some model) ∧
        modelFor sk models globalModel row.key = some model

omit [LinearOrder ν] in
/-- A key with fewer than three baseline rows gets the global model. -/
theorem modelFor_few (X : List (Column ν)) (train : Table ν) (name : GoString)
    (few : (train.group name).rows.length < 3) (other : name ≠ globalName)
    (local_few : (train.group globalName).rows.length < 3) :
    modelFor sk (modelsOf sk contamination X train) (globalOf sk contamination X train) name =
      globalOf sk contamination X train := by
  have loop (keys : List GoString) (models : GoMap GoString (Option (Model sk)))
      (key : GoString) (few : (train.group key).rows.length < 3) :
      (keys.foldl (addModel sk contamination X train) models).lookup key = models.lookup key := by
    induction keys generalizing models with
    | nil => rfl
    | cons first keys ih =>
      rw [List.foldl_cons, ih, addModel]
      by_cases same : key = first
      · subst same
        rw [if_neg (by omega)]
      · split
        · exact AList.lookup_insert_ne same
        · rfl
  have missed : (modelsOf sk contamination X train).lookup name = none := by
    rw [modelsOf, loop _ _ _ few, AList.lookup_insert_ne other]
    rfl
  have global : (modelsOf sk contamination X train).lookup globalName =
      some (globalOf sk contamination X train) := by
    rw [modelsOf, loop _ _ _ local_few, AList.lookup_insert]
  rw [modelFor, missed, global]
  cases globalOf sk contamination X train <;> rfl

/-- For tables whose names are told apart, the groups are the containers, and three baseline rows
are enough for one whose name is read alike in both. -/
theorem groups_are_containers (train score : List Vector) (told_train : Told pandas train)
    (told_score : Told pandas score)
    (alike : ∀ v ∈ score, v.name ∉ naValues →
      3 ≤ (ownTable pandas formats train v.name).rows.length →
      nameValue pandas score v.name = nameValue pandas train v.name) :
    GroupsAreContainers np sk contamination pandas formats 3 train score where
  baseline := (groupedByName_iff train).mpr told_train
  scored := (groupedByName_iff score).mpr told_score
  models := by
    obtain ⟨X, made⟩ := frame_features np
    refine ⟨_, _, trainOneModel_eq sk contamination made,
      trainGroups_eq sk contamination made _, fun i v row at_v at_row enough => ?_⟩
    rw [vectorTable_rows, List.getElem?_map, at_v] at at_row
    obtain rfl := Option.some.inj at_row
    refine ⟨fitted sk contamination X (ownTable pandas formats train v.name).rows, ?_, ?_⟩
    · rw [trainOneModel_eq sk contamination made, if_neg (by omega)]
    · have some_row : 0 < (train.filter fun w => w.name = v.name).length := by
        rw [ownTable, List.length_map] at enough
        omega
      obtain ⟨w, kept⟩ := List.exists_mem_of_length_pos some_row
      have inside := (List.mem_filter.mp kept).1
      have same : w.name = v.name := by simpa using (List.mem_filter.mp kept).2
      have group : (vectorTable pandas formats train).group (keyOf pandas train v.name) =
          ownTable pandas formats train v.name := by
        rw [← same]
        exact group_eq_own told_train inside
      have found := lookup_modelsOf sk contamination X (vectorTable pandas formats train)
        (keyOf pandas train v.name) (by rw [group]; exact enough)
      have same_key : keyOf pandas score v.name = keyOf pandas train v.name := by
        unfold keyOf
        by_cases missing : v.name ∈ naValues
        · rw [if_pos missing, if_pos missing]
        · rw [if_neg missing, if_neg missing]
          exact alike v (List.mem_of_getElem? at_v) missing enough
      rw [group] at found
      rw [rowOf_key, same_key, modelFor]
      unfold modelsOf globalOf at found
      rw [found]
      rfl

end Models

/-- A letter, a digit, or a character that may follow one in the name of a container. -/
def nameByte (c : UInt8) : Bool :=
  (48 ≤ c ∧ c ≤ 57) ∨ (65 ≤ c ∧ c ≤ 90) ∨ (97 ≤ c ∧ c ≤ 122)

/-- The names that docker admits: `[a-zA-Z0-9][a-zA-Z0-9_.-]+`. -/
def legalName : GoString → Bool
  | [] => false
  | c :: rest => nameByte c && !rest.isEmpty && rest.all fun c => nameByte c || c ∈ lit "_.-"

/-- A column of digits becomes a column of numbers, and any other stays strings. -/
def digitPandas : Pandas ℚ where
  number := fun cell => some cell.parseUint.1.toNat
  convert := fun cells =>
    if cells.all fun cell => cell.all (fun c => 48 ≤ c ∧ c ≤ 57) then
      some fun cell => GoString.decimal (GoString.digitsValue cell)
    else none

/-- Models that remember how many rows they were fitted to. -/
def fitLength : Sklearn ℚ where
  Scaler := Nat
  Forest := Unit
  Projection := Unit
  fitScaler := List.length
  transform := fun _ X => X
  fitForest := fun _ _ _ => ()
  decisionFunction := fun _ X => X.map fun _ => 0
  predict := fun _ X => X.map fun _ => 1
  fitPCA := fun _ _ => ()
  project := fun _ X => X
  inverse := fun _ X => X

/-- A quiet window under a name. -/
def named (name : String) : Vector := { name := lit name }

/-- A container whose key has fewer than three baseline rows is scored with the model of all
baseline rows. -/
theorem scored_globally {pandas : Pandas ℚ} {formats : Formats} {least : Nat}
    {train score : List Vector}
    (grouped : GroupsAreContainers fractions fitLength .auto pandas formats least train score)
    {i : Nat} {v : Vector} (at_v : score[i]? = some v)
    (few : ∀ name ∈ [keyOf pandas score v.name, globalName],
      ((vectorTable pandas formats train).group name).rows.length < 3)
    (other : keyOf pandas score v.name ≠ globalName)
    (enough : least ≤ (ownTable pandas formats train v.name).rows.length) :
    (ownTable pandas formats train v.name).rows.length = train.length := by
  obtain ⟨globalModel, models, made, trained, own⟩ := grouped.models
  obtain ⟨X, features⟩ := frame_features fractions
  rw [trainOneModel_eq fitLength .auto features] at made
  obtain rfl := Except.ok.inj made
  rw [trainGroups_eq fitLength .auto features] at trained
  obtain rfl := Except.ok.inj trained
  obtain ⟨model, fits, chosen⟩ := own i v (rowOf pandas formats score v) at_v
    (by rw [vectorTable_rows, List.getElem?_map, at_v]; rfl) enough
  have global := modelFor_few fitLength .auto X (vectorTable pandas formats train)
    (keyOf pandas score v.name) (few _ (by simp)) other (few _ (by simp))
  rw [rowOf_key] at chosen
  unfold modelsOf globalOf at global
  rw [global] at chosen
  rw [trainOneModel_eq fitLength .auto features] at fits
  split at chosen
  · cases chosen
  · split at fits
    · cases fits
    · -- Both models are fitted, and the scaler tells to how many rows.
      have lengths := congrArg Model.scaler
        ((Option.some.inj chosen).trans (Option.some.inj (Except.ok.inj fits)).symm)
      have rows : (vectorTable pandas formats train).rows.length =
          (ownTable pandas formats train v.name).rows.length :=
        (List.length_map _).symm.trans (lengths.trans (List.length_map _))
      rw [← rows, vectorTable_rows, List.length_map]

/-- The windows of a container `null` fall into the group of the host, and those of `007` and `07`
into one group. The rows of `007` in a baseline of numbers are those of `7`, for which a table with
other names has no model. A container with two baseline rows beside one of another container is
scored with the model of all three. -/
theorem names_lost :
    (legalName (lit "null") ∧
      ¬ GroupedByName plainPandas blankFormats [named "", named "null"]) ∧
    (legalName (lit "007") ∧ legalName (lit "07") ∧
      ¬ GroupedByName digitPandas blankFormats [named "007", named "07"]) ∧
    (legalName (lit "08") ∧ legalName (lit "web") ∧
      ¬ GroupsAreContainers fractions fitLength .auto digitPandas blankFormats 3
        [named "007", named "007", named "007", named "08"] [named "007", named "web"]) ∧
    (legalName (lit "db") ∧
      ¬ GroupsAreContainers fractions fitLength .auto plainPandas blankFormats 1
        [named "db", named "web", named "web"] [named "web"]) := by
  refine ⟨⟨by decide, fun grouped => ?_⟩, ⟨by decide, by decide, fun grouped => ?_⟩,
    ⟨by decide, by decide, fun grouped => ?_⟩, by decide, fun grouped => ?_⟩
  · have same := grouped 0 1 (named "") (named "null") _ _ rfl rfl rfl rfl
    exact absurd (same.mp (by decide +kernel)) (by decide)
  · have same := grouped 0 1 (named "007") (named "07") _ _ rfl rfl rfl rfl
    exact absurd (same.mp (by decide +kernel)) (by decide)
  · have rows := scored_globally grouped (i := 0) (v := named "007") rfl (by decide +kernel)
      (by decide +kernel) (by decide +kernel)
    exact absurd rows (by decide +kernel)
  · have rows := scored_globally grouped (i := 0) (v := named "web") rfl (by decide +kernel)
      (by decide +kernel) (by decide +kernel)
    exact absurd rows (by decide +kernel)

/-- Three windows of a container beside one of the host, and beside one of another container when
all names are numbers. -/
theorem groups_are_containers_web :
    GroupsAreContainers fractions fitLength .auto plainPandas blankFormats 3
      [named "", named "web", named "web", named "web"] [named "web", named ""] ∧
    GroupsAreContainers fractions fitLength .auto digitPandas blankFormats 3
      [named "101", named "101", named "101", named "102"] [named "101", named "", named "103"] :=
  ⟨groups_are_containers fractions fitLength .auto plainPandas blankFormats
      [named "", named "web", named "web", named "web"] [named "web", named ""]
      ⟨by decide +kernel, by decide +kernel⟩ ⟨by decide +kernel, by decide +kernel⟩
      (by decide +kernel),
    groups_are_containers fractions fitLength .auto digitPandas blankFormats
      [named "101", named "101", named "101", named "102"] [named "101", named "", named "103"]
      ⟨by decide +kernel, by decide +kernel⟩ ⟨by decide +kernel, by decide +kernel⟩
      (by decide +kernel)⟩

end ContainerAnomaly.Detect
