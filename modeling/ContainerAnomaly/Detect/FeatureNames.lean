import ContainerAnomaly.Detect.Models
import ContainerAnomaly.Detect.Ratios

/-!
# The names of the features

The names of the features follow from the names of the columns alone (`names_frame`). For tables
without columns that are named like features they say which columns there were, up to the order
between those that are features themselves and those that are not (`featureNames_eq_iff`).
-/

namespace ContainerAnomaly.Detect

open Lib

/-- A name at the end of a list that does not have it yet. -/
def addName (names : List GoString) (name : GoString) : List GoString :=
  if name ∈ names then names else names ++ [name]

/-- The features made of a table with the given columns, in order. -/
def derived (columns : List GoString) : List GoString :=
  (sysCols columns).map (· ++ lit "_ratio") ++
  (if lit "tcp_bytes_tx" ∈ columns then [lit "tcp_tx_ratio"] else []) ++
  (if lit "tcp_retrans" ∈ columns ∧ lit "tcp_bytes_tx" ∈ columns then [lit "tcp_retrans_rate"]
    else []) ++
  ([lit "tcp_bytes_tx", lit "tcp_bytes_rx", lit "cpu_runtime_ns", lit "sys_total"].filter
    (· ∈ columns)).map (· ++ lit "_log") ++
  (sensitive.filter (· ∈ columns)).map (· ++ lit "_flag")

/-- The columns that are not features themselves. -/
def dropped (columns : List GoString) : List GoString :=
  sysCols columns ++ [lit "tcp_bytes_tx", lit "tcp_bytes_rx", lit "cpu_runtime_ns"]

/-- The names of the features: the other columns, then what is made. -/
def featureNames (columns : List GoString) : List GoString :=
  ((derived columns).foldl addName columns).filter (· ∉ dropped columns)

/-- A table has a column for the bytes of some direction. -/
def HasVolume (columns : List GoString) : Prop :=
  lit "tcp_bytes_tx" ∈ columns ∨ lit "tcp_bytes_rx" ∈ columns

instance (columns : List GoString) : Decidable (HasVolume columns) :=
  inferInstanceAs (Decidable (_ ∨ _))

/-- Two tables have the same features, in the same order. -/
def SameFeatures (trained scored : List GoString) : Prop :=
  HasVolume trained ∧ HasVolume scored ∧ featureNames scored = featureNames trained

instance (trained scored : List GoString) : Decidable (SameFeatures trained scored) :=
  inferInstanceAs (Decidable (_ ∧ _))

section Names

variable {ν : Type}

/-- An assignment adds its name. -/
theorem names_assign (X : List (Column ν)) (name : GoString) (column : Row ν → ν) :
    (assign X name column).map Prod.fst = addName (X.map Prod.fst) name := by
  unfold assign addName
  by_cases present : name ∈ X.map Prod.fst
  · rw [if_pos present, if_pos present, List.map_map]
    refine List.map_congr_left fun old _ => ?_
    by_cases same : old.1 = name
    · simp [same]
    · simp [same]
  · rw [if_neg present, if_neg present, List.map_append]
    rfl

/-- An assignment that is made on a condition adds its name on that condition. -/
theorem names_assign_if (X : List (Column ν)) (name : GoString) (column : Row ν → ν)
    (condition : Prop) [Decidable condition] :
    (if condition then assign X name column else X).map Prod.fst =
      (if condition then [name] else []).foldl addName (X.map Prod.fst) := by
  by_cases taken : condition
  · rw [if_pos taken, if_pos taken, names_assign]
    rfl
  · rw [if_neg taken, if_neg taken]
    rfl

/-- A loop of assignments adds its names. -/
theorem names_foldl (names : List GoString) (name : GoString → GoString)
    (column : GoString → Row ν → ν) (X : List (Column ν)) :
    (names.foldl (fun X c => assign X (name c) (column c)) X).map Prod.fst =
      (names.map name).foldl addName (X.map Prod.fst) := by
  induction names generalizing X with
  | nil => rfl
  | cons c names ih => rw [List.foldl_cons, ih, names_assign, List.map_cons, List.foldl_cons]

/-- A loop of assignments for the columns that are there adds their names. -/
theorem names_foldl_if (columns names : List GoString) (name : GoString → GoString)
    (column : GoString → Row ν → ν) (X : List (Column ν)) :
    (names.foldl (fun X c => if c ∈ columns then assign X (name c) (column c) else X) X).map
        Prod.fst =
      ((names.filter (· ∈ columns)).map name).foldl addName (X.map Prod.fst) := by
  induction names generalizing X with
  | nil => rfl
  | cons c names ih =>
    rw [List.foldl_cons, ih]
    by_cases present : c ∈ columns
    · rw [if_pos present, names_assign, List.filter_cons_of_pos (by simpa using present),
        List.map_cons, List.foldl_cons]
    · rw [if_neg present, List.filter_cons_of_neg (by simpa using present)]

variable [LinearOrder ν] (np : Numpy ν)

/-- The features of a table have the names that follow from its columns. -/
theorem names_frame {columns : List GoString} {X : List (Column ν)}
    (made : frame np columns = .ok X) : X.map Prod.fst = featureNames columns := by
  by_cases neither : lit "tcp_bytes_tx" ∉ columns ∧ lit "tcp_bytes_rx" ∉ columns
  · rw [frame, if_pos neither] at made
    cases made
  · simp only [frame, if_neg neither, Except.ok.injEq] at made
    have plain : (columns.map fun c => (c, raw np c)).map Prod.fst = columns := by
      rw [List.map_map]
      exact List.map_id columns
    rw [← made, featureNames, derived, List.foldl_append, List.foldl_append, List.foldl_append,
      List.foldl_append]
    show List.map Prod.fst (List.filter ((fun name => decide (name ∉ dropped columns)) ∘ Prod.fst)
      _) = _
    rw [← List.filter_map, names_foldl_if, names_foldl_if, names_assign_if, names_assign_if,
      names_foldl, plain]

/-- The features of a table can be made exactly when it has a column for bytes. -/
theorem frame_isOk_iff (columns : List GoString) :
    (∃ X, frame np columns = .ok X) ↔ HasVolume columns := by
  unfold HasVolume
  by_cases neither : lit "tcp_bytes_tx" ∉ columns ∧ lit "tcp_bytes_rx" ∉ columns
  · rw [frame, if_pos neither]
    refine iff_of_false ?_ (fun some => some.elim neither.1 neither.2)
    rintro ⟨X, made⟩
    cases made
  · rw [frame, if_neg neither]
    exact iff_of_true ⟨_, rfl⟩ (Decidable.not_not.mp fun none => neither (not_or.mp none))

/-- A scored table has the features of a baseline exactly when its columns make the same ones. -/
theorem fits_iff (train score : Table ν) :
    Fits np train score ↔ SameFeatures train.columns score.columns := by
  constructor
  · rintro ⟨X, Y, made, scored, same⟩
    refine ⟨(frame_isOk_iff np _).mp ⟨X, made⟩, (frame_isOk_iff np _).mp ⟨Y, scored⟩, ?_⟩
    rw [← names_frame np made, ← names_frame np scored, same]
  · rintro ⟨trained, scored, same⟩
    obtain ⟨X, made⟩ := (frame_isOk_iff np _).mpr trained
    obtain ⟨Y, also⟩ := (frame_isOk_iff np _).mpr scored
    exact ⟨X, Y, made, also, by rw [names_frame np made, names_frame np also, same]⟩

end Names

/-- Filtering passes through added names. -/
theorem filter_addNames (keep : GoString → Bool) (more names : List GoString) :
    (more.foldl addName names).filter keep =
      (more.filter keep).foldl addName (names.filter keep) := by
  induction more generalizing names with
  | nil => rfl
  | cons name more ih =>
    rw [List.foldl_cons, ih]
    by_cases kept : keep name = true
    · have same : (addName names name).filter keep = addName (names.filter keep) name := by
        unfold addName
        by_cases present : name ∈ names
        · rw [if_pos present, if_pos (List.mem_filter.mpr ⟨present, kept⟩)]
        · rw [if_neg present, if_neg fun inside => present (List.mem_filter.mp inside).1,
            List.filter_append, List.filter_cons_of_pos kept, List.filter_nil]
      rw [List.filter_cons_of_pos kept, List.foldl_cons, same]
    · have same : (addName names name).filter keep = names.filter keep := by
        unfold addName
        by_cases present : name ∈ names
        · rw [if_pos present]
        · rw [if_neg present, List.filter_append, List.filter_cons_of_neg kept, List.filter_nil,
            List.append_nil]
      rw [List.filter_cons_of_neg kept, same]

/-- Different names are all added. -/
theorem addNames_nil {names : List GoString} (distinct : names.Nodup) :
    names.foldl addName [] = names := by
  induction names using List.reverseRecOn with
  | nil => rfl
  | append_singleton names name ih =>
    obtain ⟨before, _, apart⟩ := List.nodup_append.mp distinct
    rw [List.foldl_append, ih before, List.foldl_cons, List.foldl_nil, addName, if_neg]
    exact fun inside => apart name inside name List.mem_cons_self rfl

/-- The columns that are features themselves. -/
def ownFeatures (columns : List GoString) : List GoString :=
  columns.filter (· ∉ dropped columns)

/-- Two tables have the same columns up to the order between those that are features and those
that are not. -/
def SameColumns (trained scored : List GoString) : Prop :=
  ownFeatures scored = ownFeatures trained ∧ sysCols scored = sysCols trained ∧
    ∀ c ∈ [lit "tcp_bytes_tx", lit "tcp_bytes_rx", lit "cpu_runtime_ns"],
      c ∈ scored ↔ c ∈ trained

/-- A column that is not dropped is there exactly when it is a feature itself. -/
theorem mem_ownFeatures_iff {columns : List GoString} {c : GoString}
    (kept : c ∉ dropped columns) : c ∈ ownFeatures columns ↔ c ∈ columns := by
  rw [ownFeatures, List.mem_filter]
  exact and_iff_left (decide_eq_true kept)

/-- Neither the total nor the retransmits are dropped. -/
theorem kept_of_table (columns : List GoString) :
    lit "tcp_retrans" ∉ dropped columns ∧ lit "sys_total" ∉ dropped columns := by
  unfold dropped sysCols
  constructor
  · intro inside
    rcases List.mem_append.mp inside with own | fixed
    · exact absurd (List.mem_filter.mp own).2 (by decide)
    · exact absurd fixed (by decide)
  · intro inside
    rcases List.mem_append.mp inside with own | fixed
    · exact absurd (List.mem_filter.mp own).2 (by decide)
    · exact absurd fixed (by decide)

/-- The same columns make the same features. -/
theorem SameColumns.features {trained scored : List GoString}
    (same : SameColumns trained scored) : featureNames scored = featureNames trained := by
  obtain ⟨own, sys, volumes⟩ := same
  have drops : dropped scored = dropped trained := by rw [dropped, dropped, sys]
  have tx := volumes (lit "tcp_bytes_tx") (by decide)
  have rx := volumes (lit "tcp_bytes_rx") (by decide)
  have cpu := volumes (lit "cpu_runtime_ns") (by decide)
  have retrans : lit "tcp_retrans" ∈ scored ↔ lit "tcp_retrans" ∈ trained := by
    rw [← mem_ownFeatures_iff (kept_of_table scored).1, own,
      mem_ownFeatures_iff (kept_of_table trained).1]
  have total : lit "sys_total" ∈ scored ↔ lit "sys_total" ∈ trained := by
    rw [← mem_ownFeatures_iff (kept_of_table scored).2, own,
      mem_ownFeatures_iff (kept_of_table trained).2]
  have flags : ∀ c ∈ sensitive, decide (c ∈ scored) = decide (c ∈ trained) := by
    intro c listed
    have syscall : (lit "sys_").isPrefixOf c ∧ c ≠ lit "sys_total" := by
      revert c
      decide
    have through (columns : List GoString) : c ∈ sysCols columns ↔ c ∈ columns := by
      rw [sysCols, List.mem_filter]
      exact and_iff_left (decide_eq_true syscall)
    rw [decide_eq_decide, ← through scored, sys, through trained]
  have made : derived scored = derived trained := by
    unfold derived
    rw [List.filter_congr flags]
    simp only [sys, tx, rx, cpu, retrans, total, List.filter_cons, List.filter_nil]
  rw [featureNames, featureNames, filter_addNames, filter_addNames, ← ownFeatures, ← ownFeatures,
    made, own, drops]

/-- A name of the kind that features are given. -/
def Given (name : GoString) : Prop :=
  lit "_ratio" <:+ name ∨ lit "_log" <:+ name ∨ lit "_flag" <:+ name ∨
    name = lit "tcp_retrans_rate"

instance (name : GoString) : Decidable (Given name) := inferInstanceAs (Decidable (_ ∨ _))

/-- The name of a share of the syscalls. -/
def IsShare (name : GoString) : Prop := lit "sys_" <+: name ∧ lit "_ratio" <:+ name

instance (name : GoString) : Decidable (IsShare name) := inferInstanceAs (Decidable (_ ∧ _))

/-- The columns of a table are different, and none is named like a feature that is made. -/
structure Plain (columns : List GoString) : Prop where
  /-- The columns are different. -/
  distinct : columns.Nodup
  /-- None is named like a feature that is made. -/
  plain : ∀ c ∈ columns, ¬ Given c

/-- What is made has the names that features are given. -/
theorem given_of_mem_derived {columns : List GoString} {name : GoString}
    (made : name ∈ derived columns) : Given name := by
  unfold derived at made
  simp only [List.mem_append] at made
  rcases made with (((ratio | tx) | retrans) | log) | flag
  · obtain ⟨c, _, rfl⟩ := List.mem_map.mp ratio
    exact .inl (List.suffix_append _ _)
  · split at tx
    · rw [List.mem_singleton.mp tx]
      decide
    · cases tx
  · split at retrans
    · rw [List.mem_singleton.mp retrans]
      decide
    · cases retrans
  · obtain ⟨c, _, rfl⟩ := List.mem_map.mp log
    exact .inr (.inl (List.suffix_append _ _))
  · obtain ⟨c, _, rfl⟩ := List.mem_map.mp flag
    exact .inr (.inr (.inl (List.suffix_append _ _)))

/-- What is made and named like a share of the syscalls is one. -/
theorem filter_isShare_derived (columns : List GoString) :
    (derived columns).filter (IsShare ·) = (sysCols columns).map (· ++ lit "_ratio") := by
  have shares : ((sysCols columns).map (· ++ lit "_ratio")).filter (IsShare ·) =
      (sysCols columns).map (· ++ lit "_ratio") := by
    refine List.filter_eq_self.mpr fun name inside => ?_
    obtain ⟨c, listed, rfl⟩ := List.mem_map.mp inside
    have syscall := (of_decide_eq_true (List.mem_filter.mp listed).2).1
    exact decide_eq_true ⟨(List.isPrefixOf_iff_prefix.mp syscall).trans (List.prefix_append _ _),
      List.suffix_append _ _⟩
  have others (items : List GoString) (name : GoString → GoString)
      (none : ∀ c ∈ items, ¬ IsShare (name c)) :
      (((items.filter (· ∈ columns)).map name).filter (IsShare ·)) = [] := by
    refine List.filter_eq_nil_iff.mpr fun made inside => ?_
    obtain ⟨c, listed, rfl⟩ := List.mem_map.mp inside
    rw [decide_eq_true_eq]
    exact none c (List.mem_filter.mp listed).1
  have tx : ¬ IsShare (lit "tcp_tx_ratio") := by decide
  have retrans : ¬ IsShare (lit "tcp_retrans_rate") := by decide
  rw [derived, List.filter_append, List.filter_append, List.filter_append, List.filter_append,
    shares, others _ _ (by decide), others _ _ (by decide), List.append_nil, List.append_nil]
  split <;> split <;> simp [tx, retrans]

/-- A column that is dropped is one of the table, or a volume. -/
theorem not_given_of_dropped {columns : List GoString} (plain : Plain columns) {c : GoString}
    (inside : c ∈ dropped columns) : ¬ Given c := by
  rcases List.mem_append.mp inside with own | fixed
  · exact plain.plain c (List.mem_filter.mp own).1
  · have volumes : ∀ c ∈ [lit "tcp_bytes_tx", lit "tcp_bytes_rx", lit "cpu_runtime_ns"],
        ¬ Given c := by decide
    exact volumes c fixed

/-- The features that are columns themselves. -/
theorem filter_featureNames {columns : List GoString} (plain : Plain columns) :
    (featureNames columns).filter (¬ Given ·) = ownFeatures columns := by
  have made : (derived columns).filter (¬ Given ·) = [] :=
    List.filter_eq_nil_iff.mpr fun name inside => by
      simpa using given_of_mem_derived inside
  have own : columns.filter (¬ Given ·) = columns :=
    List.filter_eq_self.mpr fun c inside => decide_eq_true (plain.plain c inside)
  rw [featureNames, List.filter_comm, filter_addNames, made, own]
  rfl

/-- The features that are shares of the syscalls. -/
theorem filter_isShare_featureNames {columns : List GoString} (plain : Plain columns) :
    (featureNames columns).filter (IsShare ·) = (sysCols columns).map (· ++ lit "_ratio") := by
  have none : columns.filter (IsShare ·) = [] :=
    List.filter_eq_nil_iff.mpr fun c inside => by
      rw [decide_eq_true_eq]
      exact fun share => plain.plain c inside (.inl share.2)
  have distinct : ((sysCols columns).map (· ++ lit "_ratio")).Nodup :=
    (plain.distinct.filter _).map (List.append_left_injective _)
  rw [featureNames, List.filter_comm, filter_addNames, filter_isShare_derived, none,
    addNames_nil distinct]
  refine List.filter_eq_self.mpr fun name inside => decide_eq_true fun drops => ?_
  obtain ⟨c, _, rfl⟩ := List.mem_map.mp inside
  exact not_given_of_dropped plain drops (.inl (List.suffix_append _ _))

/-- What is added is there afterwards, and what was there before. -/
theorem mem_addNames (more names : List GoString) (name : GoString) :
    name ∈ more.foldl addName names ↔ name ∈ names ∨ name ∈ more := by
  induction more generalizing names with
  | nil => simp
  | cons first more ih =>
    have one : name ∈ addName names first ↔ name ∈ names ∨ name = first := by
      unfold addName
      by_cases present : first ∈ names
      · rw [if_pos present]
        exact ⟨.inl, fun either => either.elim id fun same => same ▸ present⟩
      · rw [if_neg present, List.mem_append, List.mem_singleton]
    rw [List.foldl_cons, ih, one, List.mem_cons, or_assoc]

/-- A volume is a feature under its logarithm exactly when the table has it. -/
theorem mem_featureNames_log {columns : List GoString} (plain : Plain columns) {c : GoString}
    (volume : c ∈ [lit "tcp_bytes_tx", lit "tcp_bytes_rx", lit "cpu_runtime_ns"]) :
    c ++ lit "_log" ∈ featureNames columns ↔ c ∈ columns := by
  have given : Given (c ++ lit "_log") := .inr (.inl (List.suffix_append _ _))
  have kept : c ++ lit "_log" ∉ dropped columns := fun drops =>
    not_given_of_dropped plain drops given
  have absent : c ++ lit "_log" ∉ columns := fun inside => plain.plain _ inside given
  have fixed : ∀ c ∈ [lit "tcp_bytes_tx", lit "tcp_bytes_rx", lit "cpu_runtime_ns"],
      c ++ lit "_log" ≠ lit "tcp_tx_ratio" ∧ c ++ lit "_log" ≠ lit "tcp_retrans_rate" ∧
        (∀ other ∈ sensitive, c ++ lit "_log" ≠ other ++ lit "_flag") ∧
        c ∈ [lit "tcp_bytes_tx", lit "tcp_bytes_rx", lit "cpu_runtime_ns", lit "sys_total"] := by
    decide
  obtain ⟨tx, retrans, flags, listed⟩ := fixed c volume
  rw [featureNames, List.mem_filter, mem_addNames, decide_eq_true_eq, and_iff_left kept,
    or_iff_right absent]
  constructor
  · intro made
    unfold derived at made
    simp only [List.mem_append] at made
    rcases made with (((ratio | tx') | retrans') | log) | flag
    · obtain ⟨other, _, same⟩ := List.mem_map.mp ratio
      exact absurd same (ratio_ne_of_ending (by decide) (by decide))
    · split at tx'
      · exact absurd (List.mem_singleton.mp tx') tx
      · cases tx'
    · split at retrans'
      · exact absurd (List.mem_singleton.mp retrans') retrans
      · cases retrans'
    · obtain ⟨other, inside, same⟩ := List.mem_map.mp log
      obtain rfl := List.append_left_injective _ same
      exact of_decide_eq_true (List.mem_filter.mp inside).2
    · obtain ⟨other, inside, same⟩ := List.mem_map.mp flag
      exact absurd same.symm (flags other (List.mem_filter.mp inside).1)
  · intro present
    unfold derived
    refine List.mem_append_left _ (List.mem_append_right _ (List.mem_map.mpr ⟨c, ?_, rfl⟩))
    exact List.mem_filter.mpr ⟨listed, decide_eq_true present⟩

/-- Plain tables make the same features exactly when they have the same columns, up to the order
between those that are features and those that are not. -/
theorem featureNames_eq_iff {trained scored : List GoString} (plain : Plain trained)
    (plain' : Plain scored) :
    featureNames scored = featureNames trained ↔ SameColumns trained scored := by
  refine ⟨fun same => ⟨?_, ?_, fun c volume => ?_⟩, SameColumns.features⟩
  · rw [← filter_featureNames plain, ← filter_featureNames plain', same]
  · have shares := congrArg (List.filter (IsShare ·)) same
    rw [filter_isShare_featureNames plain, filter_isShare_featureNames plain'] at shares
    exact List.map_injective_iff.mpr (List.append_left_injective _) shares
  · rw [← mem_featureNames_log plain volume, ← mem_featureNames_log plain' volume, same]

/-- A feature file is plain. -/
theorem plain_features : Plain featureColumns :=
  ⟨by decide +kernel, by decide +kernel⟩

end ContainerAnomaly.Detect
