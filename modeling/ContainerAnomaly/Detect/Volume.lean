import ContainerAnomaly.Detect.FeatureNames

/-!
# The volume of system calls

The features are meant to say what kind of system calls a container makes, and only logarithms how
many. Over exact rational numbers, multiplying all syscall counters of a row by a factor leaves the
ratios and flags alone when the total is positive, but the column `sys_total` is a feature itself.
So the other features stay the same exactly when the factor is one or the counters are all zero
(`volume_free_iff`).
-/

namespace ContainerAnomaly.Detect

open Lib

/-- Exact rational arithmetic, with any logarithm and norm. -/
def rational (log1p : ℚ → ℚ) (norm : List ℚ → ℚ) : Numpy ℚ where
  zero := 0
  one := 1
  million := 1000000
  minusHundredth := -1 / 100
  add := (· + ·)
  sub := (· - ·)
  div := (· / ·)
  log1p := log1p
  norm := norm
  int x := x.num.tdiv x.den

/-- A column of a syscall counter, `sys_total` included. -/
def IsCounter (c : GoString) : Prop := lit "sys_" <+: c

instance (c : GoString) : Decidable (IsCounter c) :=
  decidable_of_iff _ List.isPrefixOf_iff_prefix

/-- A row with all its syscall counters multiplied. -/
def Row.scale (k : ℕ) (row : Row ℚ) : Row ℚ :=
  { row with cell := fun c => if IsCounter c then (row.cell c).map (k * ·) else row.cell c }

/-- A table with the syscall counters of one row multiplied. -/
def Table.scale (i k : ℕ) (table : Table ℚ) : Table ℚ :=
  { table with rows := table.rows.modify i (Row.scale k) }

/-- A feature that is a logarithm by its name. -/
def IsLog (name : GoString) : Prop := lit "_log" <:+ name

instance (name : GoString) : Decidable (IsLog name) := inferInstanceAs (Decidable (_ <:+ _))

/-- Multiplying the syscall counters of a row changes no feature but logarithms. -/
def VolumeFree (np : Numpy ℚ) (table : Table ℚ) (i k : ℕ) : Prop :=
  ∀ matrix names scaled also, engineerFeatures np table = .ok (matrix, names) →
    engineerFeatures np (table.scale i k) = .ok (scaled, also) →
    also = names ∧ ∀ (r j : ℕ) name, names[j]? = some name → ¬ IsLog name →
      (scaled[r]?.bind fun row => row[j]?) = matrix[r]?.bind fun row => row[j]?

/-- The counters of a row are all zero; one whose ratio is a column of the table itself makes no
feature but a flag. -/
def Still (columns : List GoString) (row : Row ℚ) : Prop :=
  ∀ c ∈ columns, c = lit "sys_total" ∨ IsCounter c ∧ c ++ lit "_ratio" ∉ columns →
    row.cell c = none ∨ row.cell c = some 0

section Scale

variable {log1p : ℚ → ℚ} {norm : List ℚ → ℚ}

/-- A counter in a row that is multiplied. -/
theorem raw_scale_counter {c : GoString} (counter : IsCounter c) (k : ℕ) (row : Row ℚ) :
    raw (rational log1p norm) c (row.scale k) = k * raw (rational log1p norm) c row := by
  rw [raw, raw, Row.scale]
  dsimp only
  rw [if_pos counter]
  cases row.cell c with
  | none => exact (mul_zero (k : ℚ)).symm
  | some x => rfl

/-- Any other cell of such a row. -/
theorem raw_scale_other {c : GoString} (other : ¬ IsCounter c) (k : ℕ) (row : Row ℚ) :
    raw (rational log1p norm) c (row.scale k) = raw (rational log1p norm) c row := by
  rw [raw, raw, Row.scale]
  dsimp only
  rw [if_neg other]

/-- A cell that is not there reads as zero. -/
theorem raw_eq_zero_iff (c : GoString) (row : Row ℚ) :
    raw (rational log1p norm) c row = 0 ↔ row.cell c = none ∨ row.cell c = some 0 := by
  rw [raw]
  cases row.cell c with
  | none => exact iff_of_true rfl (.inl rfl)
  | some x => simp

/-- A number that a factor of two or more leaves alone is zero. -/
theorem eq_zero_of_scaled {k : ℕ} (more : k ≠ 1) {x : ℚ} (same : k * x = x) : x = 0 := by
  have differs : (k : ℚ) - 1 ≠ 0 := by
    rw [sub_ne_zero]
    exact_mod_cast more
  have product : ((k : ℚ) - 1) * x = 0 := by rw [sub_mul, same, one_mul, sub_self]
  exact (mul_eq_zero.mp product).resolve_left differs

end Scale

/-- What holds of every column, and of one that is assigned, holds of every column after the
assignment. -/
theorem forall_mem_assign {ν : Type} {holds : Column ν → Prop} {X : List (Column ν)}
    {name : GoString} {column : Row ν → ν} (each : ∀ old ∈ X, holds old)
    (new : holds (name, column)) : ∀ found ∈ assign X name column, holds found := by
  unfold assign
  split
  · intro found inside
    obtain ⟨old, listed, rfl⟩ := List.mem_map.mp inside
    split
    · exact new
    · exact each old listed
  · intro found inside
    rcases List.mem_append.mp inside with before | last
    · exact each found before
    · rw [List.mem_singleton.mp last]
      exact new

/-- The same for an assignment that is made on a condition. -/
theorem forall_mem_assign_if {ν : Type} {holds : Column ν → Prop} {X : List (Column ν)}
    {name : GoString} {column : Row ν → ν} {condition : Prop} [Decidable condition]
    (each : ∀ old ∈ X, holds old) (new : condition → holds (name, column)) :
    ∀ found ∈ if condition then assign X name column else X, holds found := by
  split
  · exact forall_mem_assign each (new ‹_›)
  · exact each

/-- The same for a loop of assignments. -/
theorem forall_mem_foldl {ν : Type} {holds : Column ν → Prop}
    {body : List (Column ν) → GoString → List (Column ν)} (names : List GoString)
    (step : ∀ c ∈ names, ∀ X, (∀ old ∈ X, holds old) → ∀ found ∈ body X c, holds found)
    {X : List (Column ν)} (each : ∀ old ∈ X, holds old) :
    ∀ found ∈ names.foldl body X, holds found := by
  induction names generalizing X with
  | nil => exact each
  | cons c names ih =>
    rw [List.foldl_cons]
    exact ih (fun other inside => step other (List.mem_cons_of_mem _ inside))
      (step c List.mem_cons_self X each)

/-- What holds of the columns of a table and of all that are made of them holds of every feature,
and no feature is a column that is dropped. -/
theorem forall_mem_frame {ν : Type} [LinearOrder ν] {np : Numpy ν} {columns : List GoString}
    {X : List (Column ν)} (made : frame np columns = .ok X) {holds : Column ν → Prop}
    (own : ∀ c ∈ columns, holds (c, raw np c))
    (ratios : ∀ c ∈ sysCols columns, holds (c ++ lit "_ratio", ratio np columns c))
    (sent : holds (lit "tcp_tx_ratio", fun row => np.div (raw np (lit "tcp_bytes_tx") row)
      (orOne np (np.add (get np columns (lit "tcp_bytes_tx") row)
        (get np columns (lit "tcp_bytes_rx") row)))))
    (lost : holds (lit "tcp_retrans_rate", fun row => np.div (raw np (lit "tcp_retrans") row)
      (np.add (np.div (raw np (lit "tcp_bytes_tx") row) np.million) np.one)))
    (logs : ∀ c, holds (c ++ lit "_log", fun row => np.log1p (max (raw np c row) np.zero)))
    (flags : ∀ c, holds (c ++ lit "_flag",
      fun row => if np.zero < raw np c row then np.one else np.zero)) :
    ∀ column ∈ X, column.1 ∉ dropped columns ∧ holds column := by
  by_cases neither : lit "tcp_bytes_tx" ∉ columns ∧ lit "tcp_bytes_rx" ∉ columns
  · rw [frame, if_pos neither] at made
    cases made
  · simp only [frame, if_neg neither, Except.ok.injEq] at made
    rw [← made]
    intro column inside
    obtain ⟨among, kept⟩ := List.mem_filter.mp inside
    refine ⟨of_decide_eq_true kept, ?_⟩
    refine forall_mem_foldl sensitive (fun c _ X each => ?_) ?_ column among
    · exact forall_mem_assign_if each fun _ => flags c
    refine forall_mem_foldl _ (fun c _ X each => ?_) ?_
    · exact forall_mem_assign_if each fun _ => logs c
    refine forall_mem_assign_if (forall_mem_assign_if ?_ fun _ => sent) fun _ => lost
    refine forall_mem_foldl (sysCols columns) (fun c listed X each => ?_) ?_
    · exact forall_mem_assign each (ratios c listed)
    · intro old listed
      obtain ⟨c, present, rfl⟩ := List.mem_map.mp listed
      exact own c present

/-- Assignments under other names leave a column alone. -/
theorem lookup_foldl_assign {ν : Type} (names : List GoString) (name : GoString → GoString)
    (column : GoString → Row ν → ν) {other : GoString} (apart : ∀ c ∈ names, other ≠ name c)
    (X : List (Column ν)) :
    (names.foldl (fun X c => assign X (name c) (column c)) X).lookup other = X.lookup other := by
  induction names generalizing X with
  | nil => rfl
  | cons c names ih =>
    obtain ⟨first, rest⟩ := List.forall_mem_cons.mp apart
    rw [List.foldl_cons, ih rest, lookup_assign, if_neg first]

/-- A column of a list of names is found under its name. -/
theorem lookup_map_names {α : Type} (value : GoString → α) {names : List GoString} {c : GoString}
    (present : c ∈ names) : (names.map fun c => (c, value c)).lookup c = some (value c) := by
  induction names with
  | nil => cases present
  | cons first names ih =>
    rw [List.map_cons, List.lookup_cons]
    by_cases same : c = first
    · rw [← same, beq_self_eq_true]
    · have differs : (c == first) = false := by simpa using same
      rw [differs]
      exact ih (List.mem_of_ne_of_mem same present)

/-- The total is a feature as it stands. -/
theorem frame_total {ν : Type} [LinearOrder ν] {np : Numpy ν} {columns : List GoString}
    {X : List (Column ν)} (made : frame np columns = .ok X) (present : lit "sys_total" ∈ columns) :
    X.lookup (lit "sys_total") = some (raw np (lit "sys_total")) := by
  have total : lit "sys_total" = lit "sys_tota" ++ lit "l" := rfl
  have apart : ∀ (c ending : GoString), ending ≠ [] → ending.getLast? ≠ some 108 →
      lit "sys_total" ≠ c ++ ending := by
    intro c ending some_bytes differs same
    have last := congrArg List.getLast? same
    rw [List.getLast?_append_of_ne_nil _ some_bytes] at last
    exact differs (last.symm.trans (by decide))
  by_cases neither : lit "tcp_bytes_tx" ∉ columns ∧ lit "tcp_bytes_rx" ∉ columns
  · rw [frame, if_pos neither] at made
    cases made
  · simp only [frame, if_neg neither, Except.ok.injEq] at made
    have kept : lit "sys_total" ∉ sysCols columns ++
        [lit "tcp_bytes_tx", lit "tcp_bytes_rx", lit "cpu_runtime_ns"] := by
      intro dropped
      rcases List.mem_append.mp dropped with own | fixed
      · exact (of_decide_eq_true (List.mem_filter.mp own).2).2 rfl
      · exact absurd fixed (by decide)
    rw [← made, lookup_filter _ _ _ kept,
      lookup_foldl_other columns sensitive (· ++ lit "_flag") _ _
        fun c _ => apart c _ (by decide) (by decide),
      lookup_foldl_other columns _ (· ++ lit "_log") _ _
        fun c _ => apart c _ (by decide) (by decide),
      lookup_assign_other _ _ (by decide), lookup_assign_other _ _ (by decide),
      lookup_foldl_assign _ (· ++ lit "_ratio") _ fun c _ => apart c _ (by decide) (by decide)]
    exact lookup_map_names (raw np) present

/-- A column that is found is there. -/
theorem mem_of_lookup {ν : Type} {X : List (Column ν)} {name : GoString} {column : Row ν → ν}
    (found : X.lookup name = some column) : (name, column) ∈ X := by
  obtain ⟨front, back, rfl, _⟩ := List.lookup_eq_some_iff.mp found
  exact List.mem_append_right _ List.mem_cons_self

section Steady

variable {log1p : ℚ → ℚ} {norm : List ℚ → ℚ}

/-- A feature has the same value in a row and in the row with its counters multiplied. -/
def Steady (k : ℕ) (row : Row ℚ) (column : Column ℚ) : Prop :=
  column.2 (row.scale k) = column.2 row

/-- A counter other than the total gets a ratio. -/
theorem mem_sysCols {columns : List GoString} {c : GoString} (present : c ∈ columns)
    (counter : IsCounter c) (part : c ≠ lit "sys_total") : c ∈ sysCols columns :=
  List.mem_filter.mpr ⟨present, decide_eq_true ⟨List.isPrefixOf_iff_prefix.mpr counter, part⟩⟩

/-- The ratio of a counter is not a column that is dropped, unless the table has a column of that
name itself. -/
theorem ratio_mem_dropped {columns : List GoString} {c : GoString} (counter : IsCounter c)
    (taken : c ++ lit "_ratio" ∈ columns) : c ++ lit "_ratio" ∈ dropped columns := by
  refine List.mem_append_left _ (List.mem_filter.mpr ⟨taken, decide_eq_true ⟨?_, ?_⟩⟩)
  · exact List.isPrefixOf_iff_prefix.mpr (counter.trans (List.prefix_append _ _))
  · have total : lit "sys_total" = lit "sys_t" ++ lit "otal" := rfl
    rw [total]
    exact ratio_ne_of_ending (by decide) (by decide)

/-- A counter of a row whose counters are all zero stays zero. -/
theorem raw_of_still {columns : List GoString} {row : Row ℚ} (still : Still columns row) (k : ℕ)
    {c : GoString} (present : c ∈ columns)
    (quiet : c = lit "sys_total" ∨ IsCounter c ∧ c ++ lit "_ratio" ∉ columns) :
    raw (rational log1p norm) c row = 0 ∧ raw (rational log1p norm) c (row.scale k) = 0 := by
  have counter : IsCounter c := by
    rcases quiet with rfl | own
    · decide
    · exact own.1
  have here : raw (rational log1p norm) c row = 0 :=
    (raw_eq_zero_iff c row).mpr (still c present quiet)
  exact ⟨here, (raw_scale_counter counter k row).trans (by rw [here, mul_zero])⟩

/-- So does its total, also when it is no column. -/
theorem total_of_still {columns : List GoString} {row : Row ℚ} (still : Still columns row) (k : ℕ) :
    get (rational log1p norm) columns (lit "sys_total") (row.scale k) =
      get (rational log1p norm) columns (lit "sys_total") row := by
  by_cases present : lit "sys_total" ∈ columns
  · obtain ⟨here, scaled⟩ := raw_of_still still k present (.inl rfl)
    rw [get, get, if_pos present, if_pos present, here, scaled]
  · rw [get, get, if_neg present, if_neg present]

/-- A row whose counters are all zero keeps every feature but logarithms. -/
theorem steady_of_still {columns : List GoString} {X : List (Column ℚ)}
    (made : frame (rational log1p norm) columns = .ok X) {row : Row ℚ} (still : Still columns row)
    {k : ℕ} (positive : 1 ≤ k) :
    ∀ column ∈ X, ¬ IsLog column.1 → Steady k row column := by
  let np := rational log1p norm
  have other : ∀ c, ¬ IsCounter c → raw np c (row.scale k) = raw np c row :=
    fun c foreign => raw_scale_other foreign k row
  have tx := other (lit "tcp_bytes_tx") (by decide)
  have rx := other (lit "tcp_bytes_rx") (by decide)
  have retrans := other (lit "tcp_retrans") (by decide)
  have all : ∀ column ∈ X, column.1 ∉ dropped columns ∧
      (column.1 ∉ dropped columns → ¬ IsLog column.1 → Steady k row column) := by
    refine forall_mem_frame made ?own ?ratios ?sent ?lost ?logs ?flags
    case own =>
      intro c present kept _
      by_cases counter : IsCounter c
      · by_cases whole : c = lit "sys_total"
        · obtain ⟨here, scaled⟩ := raw_of_still still k present (.inl whole)
          exact scaled.trans here.symm
        · exact absurd (List.mem_append_left _ (mem_sysCols present counter whole)) kept
      · exact other c counter
    case ratios =>
      intro c listed kept _
      obtain ⟨present, named⟩ := List.mem_filter.mp listed
      have counter : IsCounter c := List.isPrefixOf_iff_prefix.mp (of_decide_eq_true named).1
      have free : c ++ lit "_ratio" ∉ columns := fun taken => kept (ratio_mem_dropped counter taken)
      obtain ⟨here, scaled⟩ := raw_of_still still k present (.inr ⟨counter, free⟩)
      show np.div _ _ = np.div _ _
      rw [here, scaled, total_of_still still]
    case sent =>
      intro _ _
      show np.div _ _ = np.div _ _
      rw [get, get, get, get, tx, rx]
    case lost =>
      intro _ _
      show np.div _ _ = np.div _ _
      rw [tx, retrans]
    case logs =>
      intro c _ other
      exact absurd ⟨c, rfl⟩ other
    case flags =>
      intro c _ _
      have same : 0 < raw np c (row.scale k) ↔ 0 < raw np c row := by
        by_cases counter : IsCounter c
        · have factor : (0 : ℚ) < k := by exact_mod_cast positive
          rw [raw_scale_counter counter]
          exact mul_pos_iff_of_pos_left factor
        · rw [other c counter]
      exact if_congr same rfl rfl
  intro column inside
  exact (all column inside).2 (all column inside).1

/-- A ratio to a total of zero is the counter itself. -/
theorem ratio_of_no_total {columns : List GoString} (c : GoString) {row : Row ℚ}
    (nothing : lit "sys_total" ∈ columns → raw (rational log1p norm) (lit "sys_total") row = 0) :
    ratio (rational log1p norm) columns c row = raw (rational log1p norm) c row := by
  have empty : get (rational log1p norm) columns (lit "sys_total") row = 0 := by
    rw [get]
    split
    · exact nothing ‹_›
    · rfl
  have one : orOne (rational log1p norm) 0 = 1 := if_neg (lt_irrefl (0 : ℚ))
  rw [ratio, empty, one]
  exact div_one _

/-- A row that keeps every feature but logarithms under a factor has counters that are all zero. -/
theorem still_of_steady {columns : List GoString} {X : List (Column ℚ)}
    (made : frame (rational log1p norm) columns = .ok X) {row : Row ℚ} {k : ℕ} (more : k ≠ 1)
    (steady : ∀ column ∈ X, ¬ IsLog column.1 → Steady k row column) : Still columns row := by
  let np := rational log1p norm
  have counted : IsCounter (lit "sys_total") := by decide
  have total : lit "sys_total" ∈ columns → raw np (lit "sys_total") row = 0 := by
    intro present
    have plain : ¬ IsLog (lit "sys_total") := by decide
    have same : raw np (lit "sys_total") (row.scale k) = raw np (lit "sys_total") row :=
      steady _ (mem_of_lookup (frame_total made present)) plain
    rw [raw_scale_counter counted] at same
    exact eq_zero_of_scaled more same
  intro c present quiet
  have read : raw np c row = 0 ↔ _ := raw_eq_zero_iff c row
  rw [← read]
  rcases quiet with rfl | ⟨counter, free⟩
  · exact total present
  · by_cases whole : c = lit "sys_total"
    · subst whole
      exact total present
    · have plain : ¬ IsLog (c ++ lit "_ratio") := by
        rintro ⟨front, same⟩
        exact ratio_ne_of_ending (by decide) (by decide) same.symm
      have same : ratio np columns c (row.scale k) = ratio np columns c row :=
        have bucket := mem_sysCols present counter whole
        steady _ (mem_of_lookup (frame_ratio np made bucket free)) plain
      have scaled : lit "sys_total" ∈ columns → raw np (lit "sys_total") (row.scale k) = 0 :=
        fun listed => (raw_scale_counter counted k row).trans (by rw [total listed, mul_zero])
      rw [ratio_of_no_total c scaled, ratio_of_no_total c total, raw_scale_counter counter] at same
      exact eq_zero_of_scaled more same

/-- A factor of one changes nothing. -/
theorem scale_one (row : Row ℚ) : row.scale 1 = row := by
  have cells : (row.scale 1).cell = row.cell := by
    funext c
    rw [Row.scale]
    dsimp only
    split
    · cases row.cell c <;> simp
    · rfl
  exact congrArg (Row.mk row.name) cells

/-- The features of a table, when they can be made. -/
theorem engineerFeatures_eq {table : Table ℚ} {X : List (Column ℚ)}
    (made : frame (rational log1p norm) table.columns = .ok X) :
    engineerFeatures (rational log1p norm) table = .ok
      (table.rows.map fun row => X.map fun column => column.2 row, X.map Prod.fst) := by
  rw [engineerFeatures, made]
  rfl

/-- Multiplying the counters of a row changes features of this row alone. -/
theorem volumeFree_iff_steady {table : Table ℚ} {X : List (Column ℚ)}
    (made : frame (rational log1p norm) table.columns = .ok X) {i : ℕ} {row : Row ℚ}
    (at_row : table.rows[i]? = some row) (k : ℕ) :
    VolumeFree (rational log1p norm) table i k ↔
      ∀ column ∈ X, ¬ IsLog column.1 → Steady k row column := by
  have before := engineerFeatures_eq made
  have after : engineerFeatures (rational log1p norm) (table.scale i k) = _ :=
    engineerFeatures_eq made
  have scaled_row : (table.scale i k).rows[i]? = some (row.scale k) := by
    rw [Table.scale, List.getElem?_modify, at_row]
    simp
  constructor
  · intro free column inside other
    obtain ⟨j, at_column⟩ := List.getElem?_of_mem inside
    have named : (X.map Prod.fst)[j]? = some column.1 := by
      rw [List.getElem?_map, at_column]
      rfl
    have cell := (free _ _ _ _ before after).2 i j column.1 named other
    simp only [List.getElem?_map, scaled_row, at_row, Option.map_some, Option.bind_some,
      at_column, Option.some.injEq] at cell
    exact cell
  · intro steady matrix names scaled also first second
    rw [before, Except.ok.injEq, Prod.mk.injEq] at first
    rw [after, Except.ok.injEq, Prod.mk.injEq] at second
    obtain ⟨rfl, rfl⟩ := first
    obtain ⟨rfl, rfl⟩ := second
    refine ⟨rfl, fun r j name named other => ?_⟩
    rw [List.getElem?_map, Option.map_eq_some_iff] at named
    obtain ⟨column, at_column, rfl⟩ := named
    have inside := List.mem_of_getElem? at_column
    by_cases here : r = i
    · subst here
      simp only [List.getElem?_map, scaled_row, at_row, Option.map_some, Option.bind_some,
        at_column, Option.some.injEq]
      exact steady column inside other
    · have same : (table.scale i k).rows[r]? = table.rows[r]? := by
        rw [Table.scale]
        exact List.getElem?_modify_ne _ _ (Ne.symm here)
      rw [List.getElem?_map, List.getElem?_map, same]

end Steady

/-- Multiplying the syscall counters of a row by a factor changes no feature but logarithms exactly
when the factor is one, the counters are all zero, or the table has no features because it has no
column for bytes. -/
theorem volume_free_iff (log1p : ℚ → ℚ) (norm : List ℚ → ℚ) (table : Table ℚ) {i k : ℕ}
    {row : Row ℚ} (at_row : table.rows[i]? = some row) (positive : 1 ≤ k) :
    VolumeFree (rational log1p norm) table i k ↔
      k = 1 ∨ Still table.columns row ∨ ¬ HasVolume table.columns := by
  let np := rational log1p norm
  by_cases volume : HasVolume table.columns
  · obtain ⟨X, made⟩ := (frame_isOk_iff np table.columns).mpr volume
    rw [volumeFree_iff_steady made at_row]
    constructor
    · intro steady
      by_cases more : k = 1
      · exact .inl more
      · exact .inr (.inl (still_of_steady made more steady))
    · rintro (rfl | still | none)
      · intro column _ _
        rw [Steady, scale_one]
      · exact steady_of_still made still positive
      · exact absurd volume none
  · refine iff_of_true ?_ (.inr (.inr volume))
    intro matrix names scaled also first
    rw [engineerFeatures] at first
    cases made : frame np table.columns with
    | error failure =>
      rw [made] at first
      cases first
    | ok X => exact absurd ((frame_isOk_iff np table.columns).mp ⟨X, made⟩) volume

/-- A window of a container that made the given numbers of system calls and opened files. -/
def window (total opened : ℚ) : Table ℚ where
  columns := [lit "tcp_bytes_tx", lit "sys_total", lit "sys_file_open"]
  rows := [{
    name := some (lit "web")
    cell := fun c =>
      if c = lit "tcp_bytes_tx" then some 100
      else if c = lit "sys_total" then some total
      else if c = lit "sys_file_open" then some opened
      else none }]

/-- Its counters are zero when it made none. -/
theorem still_window (row : Row ℚ) (only : (window 0 0).rows = [row]) :
    Still (window 0 0).columns row := by
  obtain rfl := (List.cons.inj only).1
  intro c present quiet
  simp only [window, List.mem_cons, List.not_mem_nil, or_false] at present
  rcases present with rfl | rfl | rfl
  · exact absurd quiet (by decide)
  · exact .inr rfl
  · exact .inr rfl

/-- A window without system calls keeps its features. -/
theorem volume_free_iff_quiet : VolumeFree (rational id List.sum) (window 0 0) 0 3 :=
  (volume_free_iff id List.sum (window 0 0) rfl (by decide)).mpr (.inr (.inl (still_window _ rfl)))

/-- A window with ten system calls does not: the feature `sys_total` doubles with them. -/
theorem total_is_feature : ¬ VolumeFree (rational id List.sum) (window 10 5) 0 2 := by
  intro free
  obtain ⟨X, made⟩ :=
    (frame_isOk_iff (rational id List.sum) (window 10 5).columns).mpr (.inl List.mem_cons_self)
  have still := still_of_steady made (by decide) ((volumeFree_iff_steady made rfl 2).mp free)
  have zero := still (lit "sys_total") (by decide) (.inl rfl)
  have ten : (if lit "sys_total" = lit "tcp_bytes_tx" then some (100 : ℚ)
      else if lit "sys_total" = lit "sys_total" then some 10
      else if lit "sys_total" = lit "sys_file_open" then some 5 else none) = some 10 := by
    rw [if_neg (by decide), if_pos rfl]
  rcases zero with absent | nothing
  · cases ten.symm.trans absent
  · have same : (10 : ℚ) = 0 := Option.some.inj (ten.symm.trans nothing)
    norm_num at same

end ContainerAnomaly.Detect
