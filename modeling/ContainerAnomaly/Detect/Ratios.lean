import ContainerAnomaly.Detect.Neighbours
import ContainerAnomaly.Detect.ReadCsv
import ContainerAnomaly.Feature.Partition
import ContainerAnomaly.Lib.Numeral
import Mathlib.Algebra.Order.Field.Rat

/-!
# Shares of the syscall histogram

`engineer_features` divides every syscall column by the total. Each of these features is found
under its name (`frame_ratio`), so for a vector whose total is the sum of its buckets they are
shares: between zero and one, and one in all. The law of the histogram is carried from the slots
of the program to these shares by `partition_at_every_stage`.
-/

namespace ContainerAnomaly.Detect

open Lib Bpf Feature Syscalls
open Attribution (AddsUp EmittedUnwrapped)

section Frame

variable {ν : Type}

/-- The column under a name after the column of a name is replaced. -/
theorem lookup_replace (frame : List (Column ν)) (name other : GoString) (column : Row ν → ν) :
    (frame.map fun old => if old.1 = name then (name, column) else old).lookup other =
      if other = name then (frame.lookup name).map fun _ => column else frame.lookup other := by
  induction frame with
  | nil => simp
  | cons first frame ih =>
    obtain ⟨key, old⟩ := first
    rw [List.map_cons, List.lookup_cons, List.lookup_cons]
    by_cases here : key = name
    · subst here
      by_cases same : other = key
      · simp [same]
      · have differs : (other == key) = false := by simpa using same
        rw [if_pos rfl, if_neg same, List.lookup_cons, differs]
        rw [if_neg same] at ih
        exact ih
    · have differs : (name == key) = false := by simpa using Ne.symm here
      rw [if_neg here, List.lookup_cons, differs, ih]
      by_cases same : other = name
      · subst same
        rw [differs]
      · rw [if_neg same, if_neg same]

/-- The column that a frame has under a name after an assignment. -/
theorem lookup_assign (frame : List (Column ν)) (name other : GoString) (column : Row ν → ν) :
    (assign frame name column).lookup other =
      if other = name then some column else frame.lookup other := by
  unfold assign
  by_cases present : name ∈ frame.map Prod.fst
  · rw [if_pos present, lookup_replace]
    obtain ⟨⟨key, old⟩, inside, rfl⟩ := List.mem_map.mp present
    cases found : frame.lookup key with
    | none =>
      have apart := List.lookup_eq_none_iff.mp found _ inside
      simp at apart
    | some value => rfl
  · rw [if_neg present, List.lookup_append]
    by_cases same : other = name
    · have missed : frame.lookup name = none := by
        rw [List.lookup_eq_none_iff]
        intro entry inside
        have differs : name ≠ entry.1 := fun same => present
          (List.mem_map.mpr ⟨entry, inside, same.symm⟩)
        simpa using differs
      simp [same, missed]
    · have differs : (other == name) = false := by simpa using same
      simp [same, List.lookup_cons, differs]

/-- An assignment under another name, if it is made, leaves a column alone. -/
theorem lookup_assign_other (frame : List (Column ν)) {name other : GoString}
    (column : Row ν → ν) (apart : other ≠ name) (condition : Prop) [Decidable condition] :
    (if condition then assign frame name column else frame).lookup other =
      frame.lookup other := by
  by_cases taken : condition
  · rw [if_pos taken, lookup_assign, if_neg apart]
  · rw [if_neg taken]

/-- A loop of assignments under other names leaves a column alone. -/
theorem lookup_foldl_other (columns names : List GoString) (name : GoString → GoString)
    (column : GoString → Row ν → ν) (other : GoString) (apart : ∀ c ∈ names, other ≠ name c)
    (frame : List (Column ν)) :
    (names.foldl (fun X c => if c ∈ columns then assign X (name c) (column c) else X)
      frame).lookup other = frame.lookup other := by
  induction names generalizing frame with
  | nil => rfl
  | cons c names ih =>
    obtain ⟨first, rest⟩ := List.forall_mem_cons.mp apart
    rw [List.foldl_cons, ih rest, lookup_assign_other _ _ first]

/-- A loop of assignments under different names makes the columns it is told to. -/
theorem lookup_foldl_own (names : List GoString) (name : GoString → GoString)
    (column : GoString → Row ν → ν) (injective : Function.Injective name) (c : GoString)
    (member : c ∈ names) (frame : List (Column ν)) :
    (names.foldl (fun X c => assign X (name c) (column c)) frame).lookup (name c) =
      some (column c) := by
  induction names using List.reverseRecOn with
  | nil => cases member
  | append_singleton names last ih =>
    rw [List.foldl_append, List.foldl_cons, List.foldl_nil, lookup_assign]
    by_cases same : c = last
    · rw [if_pos (congrArg name same), same]
    · rw [if_neg (injective.ne same)]
      have before := (List.mem_append.mp member).resolve_right (by simpa using same)
      exact ih before

/-- The column that is left under a name when columns are dropped. -/
theorem lookup_filter (frame : List (Column ν)) (dropped : List GoString) (name : GoString)
    (kept : name ∉ dropped) :
    (frame.filter fun column => column.1 ∉ dropped).lookup name = frame.lookup name := by
  induction frame with
  | nil => rfl
  | cons first frame ih =>
    obtain ⟨key, old⟩ := first
    by_cases here : key ∈ dropped
    · have differs : (name == key) = false := by
        have apart : name ≠ key := fun same => kept (same ▸ here)
        simpa using apart
      rw [List.filter_cons_of_neg (by simpa using here), ih, List.lookup_cons, differs]
    · rw [List.filter_cons_of_pos (by simpa using here), List.lookup_cons, List.lookup_cons, ih]

variable [LinearOrder ν] (np : Numpy ν)

/-- The feature `f"{c}_ratio"` of a row. -/
def ratio (columns : List GoString) (c : GoString) (row : Row ν) : ν :=
  np.div (raw np c row) (orOne np (get np columns (lit "sys_total") row))

/-- Names that end differently are different. -/
theorem ratio_ne_of_ending {c other ending : GoString} (present : ending ≠ [])
    (differs : ending.getLast? ≠ some 111) : c ++ lit "_ratio" ≠ other ++ ending := by
  intro same
  have last := congrArg List.getLast? same
  rw [List.getLast?_append_of_ne_nil _ (by decide), List.getLast?_append_of_ne_nil _ present]
    at last
  exact differs (last.symm.trans (by decide))

/-- Every syscall column has its ratio under its name, unless the table has a column of that name
itself. -/
theorem frame_ratio {columns : List GoString} {X : List (Column ν)}
    (made : frame np columns = .ok X) {c : GoString} (listed : c ∈ sysCols columns)
    (free : c ++ lit "_ratio" ∉ columns) :
    X.lookup (c ++ lit "_ratio") = some (ratio np columns c) := by
  have starts : lit "sys_" <+: c := by
    have both := (List.mem_filter.mp listed).2
    rw [decide_eq_true_eq] at both
    exact List.isPrefixOf_iff_prefix.mp both.1
  have foreign : ∀ other : GoString, ¬ lit "sys_" <+: other → c ++ lit "_ratio" ≠ other := by
    rintro other different rfl
    exact different (starts.trans (List.prefix_append _ _))
  by_cases neither : lit "tcp_bytes_tx" ∉ columns ∧ lit "tcp_bytes_rx" ∉ columns
  · rw [frame, if_pos neither] at made
    cases made
  · simp only [frame, if_neg neither, Except.ok.injEq] at made
    have kept : c ++ lit "_ratio" ∉ sysCols columns ++
        [lit "tcp_bytes_tx", lit "tcp_bytes_rx", lit "cpu_runtime_ns"] := by
      intro dropped
      rcases List.mem_append.mp dropped with own | fixed
      · exact free (List.mem_filter.mp own).1
      · simp only [List.mem_cons, List.not_mem_nil, or_false] at fixed
        rcases fixed with same | same | same
        · exact foreign _ (by decide) same
        · exact foreign _ (by decide) same
        · exact foreign _ (by decide) same
    rw [← made, lookup_filter _ _ _ kept,
      lookup_foldl_other columns sensitive (· ++ lit "_flag") _ _
        fun other _ => ratio_ne_of_ending (by decide) (by decide),
      lookup_foldl_other columns _ (· ++ lit "_log") _ _
        fun other _ => ratio_ne_of_ending (by decide) (by decide),
      lookup_assign_other _ _ (foreign _ (by decide)),
      lookup_assign_other _ _ (foreign _ (by decide))]
    exact lookup_foldl_own (sysCols columns) (· ++ lit "_ratio") (ratio np columns)
      (List.append_left_injective _) c listed _

omit [LinearOrder ν] in
/-- A value of a row of features, found by its name. -/
theorem lookup_zip_frame (X : List (Column ν)) (row : Row ν) (name : GoString) :
    ((X.map Prod.fst).zip (X.map fun column => column.2 row)).lookup name =
      (X.lookup name).map fun column => column row := by
  induction X with
  | nil => rfl
  | cons first X ih =>
    rw [List.map_cons, List.map_cons, List.zip_cons_cons, List.lookup_cons, List.lookup_cons, ih]
    split <;> rfl

end Frame

/-- The feature columns of a feature file. -/
def featureColumns : List GoString := headers.filter (· ∉ identityCols)

/-- Its syscall columns are those of the buckets. -/
theorem sysCols_features : sysCols featureColumns = buckets.map sysColumn := by
  decide +kernel

/-- It has columns for the total and for the bytes sent, and none for a ratio. -/
theorem featureColumns_spec : lit "sys_total" ∈ featureColumns ∧
    lit "tcp_bytes_tx" ∈ featureColumns ∧
    ∀ bucket ∈ buckets, sysColumn bucket ++ lit "_ratio" ∉ featureColumns := by
  decide +kernel

/-- The features of a feature file can be made. -/
theorem frame_features {ν : Type} [LinearOrder ν] (np : Numpy ν) :
    ∃ X, frame np featureColumns = .ok X := by
  rw [frame, if_neg fun neither => neither.1 featureColumns_spec.2.1]
  exact ⟨_, rfl⟩

/-- Rational arithmetic is exact. -/
structure Numpy.Exact (np : Numpy ℚ) : Prop where
  /-- Its zero is zero. -/
  zero : np.zero = 0
  /-- Its quotients are those of fractions. -/
  div : ∀ x y, np.div x y = x / y

/-- What the encoder prints for a number is read as that number. -/
def Pandas.Reads (pandas : Pandas ℚ) : Prop :=
  ∀ n : UInt64, pandas.number (utoa n) = some (n.toNat : ℚ)

/-- The `sys_*_ratio` columns of a row of features lie between zero and one, and sum to one. -/
def RatiosPartition (names : List GoString) (values : List ℚ) : Prop :=
  ∃ share : Field → ℚ,
    (∀ bucket ∈ buckets,
      (names.zip values).lookup (sysColumn bucket ++ lit "_ratio") = some (share bucket) ∧
        0 ≤ share bucket ∧ share bucket ≤ 1) ∧
    (buckets.map share).sum = 1

section Shares

variable {np : Numpy ℚ} {pandas : Pandas ℚ}

/-- The row of a vector has its counters under their columns. -/
theorem raw_sys (reads : pandas.Reads) (formats : Formats) (v : Vector) (field : Field)
    (name : Option GoString) :
    raw np (sysColumn field)
        ⟨name, fun c => (cellOf (v.record formats) c).bind pandas.number⟩ =
      ((v.histogram field).toNat : ℚ) := by
  rw [raw]
  dsimp only
  rw [cellOf_sys, Option.bind_some, reads, Option.getD_some]
  rfl

/-- The ratios of a vector that is a partition are shares, when its total is positive and its
buckets have not wrapped around. -/
theorem ratios_partition (exact : np.Exact) (reads : pandas.Reads) (formats : Formats)
    {X : List (Column ℚ)} (made : frame np featureColumns = .ok X) {v : Vector}
    (holds : AddsUp v.histogram) (positive : 0 < v.sysTotal)
    (fits : (buckets.map fun bucket => (v.histogram bucket).toNat).sum < 2 ^ 64)
    (name : Option GoString) :
    RatiosPartition (X.map Prod.fst) (X.map fun column => column.2
      ⟨name, fun c => (cellOf (v.record formats) c).bind pandas.number⟩) := by
  let amount (field : Field) : ℚ := ((v.histogram field).toNat : ℚ)
  obtain ⟨total_listed, _, free⟩ := featureColumns_spec
  have some_total : 0 < amount .total := by
    have counted : 0 < (v.histogram .total).toNat := UInt64.lt_iff_toNat_lt.mp positive
    exact Nat.cast_pos.mpr counted
  have whole : IsWhole Field.total buckets amount := (holds.toNat fits).natCast
  obtain ⟨between, one⟩ := whole.shares (fun _ _ => Nat.cast_nonneg _) some_total
  refine ⟨fun field => amount field / amount .total, fun bucket inside => ?_, one⟩
  have listed : sysColumn bucket ∈ sysCols featureColumns := by
    rw [sysCols_features]
    exact List.mem_map_of_mem inside
  have divisor : orOne np (get np featureColumns (lit "sys_total")
      ⟨name, fun c => (cellOf (v.record formats) c).bind pandas.number⟩) = amount .total := by
    have total : raw np (lit "sys_total") _ = amount .total :=
      raw_sys reads formats v .total name
    rw [get, if_pos total_listed]
    exact (congrArg (orOne np) total).trans (if_pos (exact.zero ▸ some_total))
  refine ⟨?_, between bucket inside⟩
  rw [lookup_zip_frame, frame_ratio np made listed (free bucket inside), Option.map_some, ratio,
    divisor, exact.div, raw_sys reads]

/-- The features of vectors can be made, and the ratios of each are shares, when it is a partition
whose total is positive and whose buckets have not wrapped around. -/
theorem engineerFeatures_partition (exact : np.Exact) (reads : pandas.Reads) (formats : Formats)
    (vectors : List Vector) :
    ∃ matrix names, engineerFeatures np (pandas.readCsv (vectors.map (Vector.record formats))) =
        .ok (matrix, names) ∧
      matrix.length = vectors.length ∧
      ∀ (i : Nat) v values, vectors[i]? = some v → matrix[i]? = some values →
        AddsUp v.histogram → 0 < v.sysTotal →
        (buckets.map fun bucket => (v.histogram bucket).toNat).sum < 2 ^ 64 →
        RatiosPartition names values := by
  obtain ⟨X, made⟩ := frame_features np
  have columns : (pandas.readCsv (vectors.map (Vector.record formats))).columns =
    featureColumns := rfl
  refine ⟨_, _, by rw [engineerFeatures, columns, made]; rfl, ?_, ?_⟩
  · rw [readCsv_rows, List.length_map, List.length_map]
  · intro i v values at_vector at_matrix holds positive fits
    rw [readCsv_rows, List.map_map, List.getElem?_map, at_vector] at at_matrix
    obtain rfl := Option.some.inj at_matrix
    exact ratios_partition exact reads formats made holds positive fits _

end Shares

/-- The histogram is a partition at every stage. In every run, the total of every slot is the sum
of its buckets, and so is that of every row that a poll emits for an index of which no counter has
fallen since its last poll. Then the same holds of every vector of an aggregator that is given
such rows, in every run; and of the features made of such vectors, with exact arithmetic, the
ratios of each vector with a positive total that has not wrapped around lie between zero and one
and sum to one. -/
theorem partition_at_every_stage {cpus : Nat} (kernel : Attribution.Kernel)
    (inputs : List (Attribution.Input cpus)) :
    (∀ index cpu, AddsUp
      (((Attribution.system cpus kernel).final (.initial cpus) inputs).maps.slots index cpu).get) ∧
    (∀ row, EmittedUnwrapped kernel inputs row → AddsUp row.counts.get) ∧
    ∀ (window : Duration) (feeds : List Feature.Input),
      (∀ snapshot, .syscalls snapshot ∈ feeds → ∀ row ∈ snapshot,
        EmittedUnwrapped kernel inputs row) →
      (∀ v ∈ aggregator.outputs (.new window) feeds, AddsUp v.histogram) ∧
      ∀ (np : Numpy ℚ) (pandas : Pandas ℚ) (formats : Formats) (vectors : List Vector),
        np.Exact → pandas.Reads → vectors ⊆ aggregator.outputs (.new window) feeds →
        ∃ matrix names,
          engineerFeatures np (pandas.readCsv (vectors.map (Vector.record formats))) =
            .ok (matrix, names) ∧
          matrix.length = vectors.length ∧
          ∀ (i : Nat) v values, vectors[i]? = some v → matrix[i]? = some values →
            0 < v.sysTotal →
            (buckets.map fun bucket => (v.histogram bucket).toNat).sum < 2 ^ 64 →
            RatiosPartition names values := by
  refine ⟨(Attribution.partitioned_run kernel inputs).slots,
    fun row => Attribution.row_partition kernel inputs, fun window feeds rows => ?_⟩
  have merged := vector_partition window feeds fun snapshot given row inside =>
    Attribution.row_partition kernel inputs (rows snapshot given row inside)
  refine ⟨merged, fun np pandas formats vectors exact reads some_sent => ?_⟩
  obtain ⟨matrix, names, made, length, shares⟩ :=
    engineerFeatures_partition exact reads formats vectors
  refine ⟨matrix, names, made, length, fun i v values at_vector at_matrix => ?_⟩
  have sent := some_sent (List.mem_of_getElem? at_vector)
  exact shares i v values at_vector at_matrix (merged v sent)

/-- Unsigned integers are read as numbers, and names as strings. -/
def plainPandas : Pandas ℚ := ⟨fun cell => some cell.parseUint.1.toNat, fun _ => none⟩

/-- What the encoder prints for a number is read as it. -/
theorem plainPandas_prints : plainPandas.Reads := by
  intro n
  have read : (utoa n).parseUint = (n, none) := GoString.parseUint_decimal n
  show some (((utoa n).parseUint.1.toNat : ℕ) : ℚ) = _
  rw [read]

/-- Time stamps and percentages that say nothing. -/
def blankFormats : Formats := ⟨fun _ => lit "-", fun _ => lit "0"⟩

/-- A container makes two writes and a read, and a poll reports them. -/
def threeCalls : List (Attribution.Input 1) :=
  [.refresh (.single (lit "a") 7), .sysEnter (Fin.last 0) 7 nrWrite,
    .sysEnter (Fin.last 0) 7 nrRead, .sysEnter (Fin.last 0) 7 nrWrite, .poll (.stored _ _)]

/-- The row of the poll. -/
def threeRow : Syscalls.Row := ⟨lit "a", { total := 3, fileRead := 1, fileWrite := 2 }⟩

/-- The poll emits it, and no counter has fallen. -/
theorem threeRow_emitted : EmittedUnwrapped .plain threeCalls threeRow := by
  refine ⟨threeCalls.dropLast, .stored _ _, [], 0, rfl, by decide, fun field => ?_⟩
  cases field <;> decide

/-- The window that has the row is handed to the detector, and its ratios are shares. -/
theorem partition_at_every_stage_threeCalls :
    let feeds : List Feature.Input :=
      [.syscalls [threeRow], .tick ⟨30, by decide, .stored _ _, none⟩]
    ∃ v, aggregator.outputs (.new 30) feeds = [v] ∧ v.sysTotal = 3 ∧ ∃ values names,
      engineerFeatures fractions (plainPandas.readCsv [v.record blankFormats]) =
        .ok ([values], names) ∧ RatiosPartition names values := by
  intro feeds
  have given : ∀ snapshot, .syscalls snapshot ∈ feeds → ∀ row ∈ snapshot,
      EmittedUnwrapped .plain threeCalls row := by
    intro snapshot handed row inside
    simp only [feeds, List.mem_cons, List.not_mem_nil, or_false, reduceCtorEq,
      Feature.Input.syscalls.injEq] at handed
    subst handed
    exact List.mem_singleton.mp inside ▸ threeRow_emitted
  obtain ⟨v, sent, total, fits⟩ : ∃ v, aggregator.outputs (.new 30) feeds = [v] ∧
      v.sysTotal = 3 ∧
      (buckets.map fun bucket => (v.histogram bucket).toNat).sum < 2 ^ 64 :=
    ⟨_, rfl, rfl, by decide⟩
  obtain ⟨_, stages⟩ := (partition_at_every_stage .plain threeCalls).2.2 30 feeds given
  obtain ⟨matrix, names, made, length, shares⟩ := stages fractions plainPandas blankFormats [v]
    ⟨rfl, fun _ _ => rfl⟩ plainPandas_prints (sent ▸ List.Subset.refl _)
  obtain ⟨values, rfl⟩ := List.length_eq_one_iff.mp length
  have positive : 0 < v.sysTotal := by
    rw [total]
    decide
  exact ⟨v, sent, total, values, names, made, shares 0 v values rfl rfl positive fits⟩

end ContainerAnomaly.Detect
