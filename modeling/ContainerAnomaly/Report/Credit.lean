import ContainerAnomaly.Detect.Volume
import ContainerAnomaly.Report.Clean

/-!
# Credit for attacks

Whose windows make an attack detected, and whether a window counts for two attacks. The report asks
for neither the container of a window nor the attack before it, so both depend on the table and
the schedule alone (`credits_own_iff`).
-/

namespace ContainerAnomaly.Report

open Lib Detect

variable {ν : Type} [LinearOrder ν] (np : Numpy ν)

/-- A window of the container of an attack, or of the host. -/
def Belongs (label : Label) (window : ScoredWindow ν) : Prop :=
  window.row.key = label.containerName ∨ window.row.key = lit "host"

instance (label : Label) (window : ScoredWindow ν) : Decidable (Belongs label window) :=
  inferInstanceAs (Decidable (_ ∨ _))

/-- The report credits each attack with evidence of its own. -/
structure CreditsOwn (scored : ScoredTable ν) (labels : List Label) : Prop where
  /-- A detected attack has a flagged window of its container or of the host. -/
  own : ∀ (i : Nat) label line, labels[i]? = some label →
    (report np scored labels).lines[i]? = some line → line.detected = true →
    ∃ entry ∈ anomData np scored label, Belongs label entry.1
  /-- No window is data for two attacks. -/
  separate : ∀ (i j : Nat) first second, i < j → labels[i]? = some first →
    labels[j]? = some second → j < (report np scored labels).lines.length →
    ∀ entry ∈ dataRows np scored first, entry ∉ dataRows np scored second

/-- Intervals that do not overlap, in the order of time. -/
structure InOrder (labels : List Label) : Prop where
  /-- No attack starts before the end of an earlier one. -/
  apart : labels.Pairwise fun first second => first.stop ≤ second.start
  /-- None ends before it starts. -/
  forward : ∀ label ∈ labels, label.start ≤ label.stop

/-- A flagged window with data that ends while an attack runs or in the five seconds after it. -/
def Flags (label : Label) (window : ScoredWindow ν) : Prop :=
  HasData np window ∧ window.anomaly = -1 ∧ label.start ≤ window.dt ∧ window.dt ≤ label.stop + 5

instance (label : Label) (window : ScoredWindow ν) : Decidable (Flags np label window) :=
  inferInstanceAs (Decidable (_ ∧ _ ∧ _ ∧ _))

/-- The first flagged window of an attack, if there is one, has a number in each sensitive column
of the table. -/
def Readable (scored : ScoredTable ν) (label : Label) : Prop :=
  ∀ first, (scored.windows.find? fun window => Flags np label window) = some first →
    ∀ c ∈ sensitive, c ∈ scored.columns → ∃ x, first.row.cell c = some x

/-- The report gets as far as an attack: the baselines have a number in each sensitive column of the
table, which has totals, and no earlier line ends it. -/
structure Reached (scored : ScoredTable ν) (labels : List Label) (i : Nat) : Prop where
  /-- The baselines have a number in each sensitive column. -/
  base : ∀ c ∈ sensitive, c ∈ scored.columns →
    ∃ window ∈ scored.windows, IsBaseline window ∧ ∃ x, window.row.cell c = some x
  /-- The table has totals. -/
  totals : lit "sys_total" ∈ scored.columns
  /-- No earlier line ends the report, and its own does not. -/
  readable : ∀ label ∈ labels.take (i + 1), Readable np scored label

/-- The flagged windows of an attack, among the indexed windows of the table. -/
theorem anomData_eq (scored : ScoredTable ν) (label : Label) :
    anomData np scored label =
      scored.windows.zipIdx.filter fun entry => Flags np label entry.1 := by
  unfold anomData dataRows during
  rw [List.filter_filter, List.filter_filter]
  refine List.filter_congr fun entry _ => ?_
  rw [Bool.eq_iff_iff]
  simp only [Bool.and_eq_true, decide_eq_true_eq]
  unfold Flags
  tauto

/-- The first flagged window of an attack. -/
theorem anomData_head? (scored : ScoredTable ν) (label : Label) :
    (anomData np scored label).head?.map Prod.fst =
      scored.windows.find? fun window => Flags np label window := by
  rw [anomData_eq, List.head?_filter]
  conv_rhs => rw [← List.zipIdx_map_fst 0 scored.windows, List.find?_map]
  rfl

/-- A window is among those of an attack, under its index. -/
theorem mem_dataRows_iff (scored : ScoredTable ν) (label : Label) (entry : ScoredWindow ν × Nat) :
    entry ∈ dataRows np scored label ↔ entry ∈ scored.windows.zipIdx ∧ HasData np entry.1 ∧
      label.start ≤ entry.1.dt ∧ entry.1.dt ≤ label.stop + 5 := by
  unfold dataRows during
  rw [List.mem_filter, List.mem_filter, decide_eq_true_iff, decide_eq_true_iff]
  tauto

/-- An attack has a flagged window of some kind when the table has one. -/
theorem exists_anomData_iff (scored : ScoredTable ν) (label : Label)
    (P : ScoredWindow ν → Prop) :
    (∃ entry ∈ anomData np scored label, P entry.1) ↔
      ∃ window ∈ scored.windows, Flags np label window ∧ P window := by
  rw [anomData_eq]
  constructor
  · rintro ⟨entry, inside, holds⟩
    obtain ⟨listed, flags⟩ := List.mem_filter.mp inside
    exact ⟨entry.1, List.fst_mem_of_mem_zipIdx listed, of_decide_eq_true flags, holds⟩
  · rintro ⟨window, inside, flags, holds⟩
    obtain ⟨i, lt, rfl⟩ := List.mem_iff_getElem.mp inside
    refine ⟨(scored.windows[i], i), List.mem_filter.mpr ⟨?_, decide_eq_true flags⟩, holds⟩
    exact List.mem_zipIdx_iff_getElem?.mpr (List.getElem?_eq_getElem lt)

omit [LinearOrder ν] in
/-- A cell can be read as an integer when it has a number, or is in no column of the table. -/
theorem cellInt_isOk_iff (scored : ScoredTable ν) (window : ScoredWindow ν) (c : GoString) :
    (∃ v, cellInt np scored window c = .ok v) ↔
      (c ∈ scored.columns → ∃ x, window.row.cell c = some x) := by
  unfold cellInt
  by_cases present : c ∈ scored.columns
  · rw [if_pos present]
    cases window.row.cell c with
    | none => simp [present]
    | some x => simp
  · simp [present]

omit [LinearOrder ν] in
/-- The baselines have no number in a column. -/
theorem baseline_numbers_eq_nil_iff (scored : ScoredTable ν) (c : GoString) :
    ((scored.windows.filter fun window => IsBaseline window).filterMap
      fun window => window.row.cell c) = [] ↔
      ¬ ∃ window ∈ scored.windows, IsBaseline window ∧ ∃ x, window.row.cell c = some x := by
  rw [List.filterMap_eq_nil_iff]
  constructor
  · rintro missing ⟨window, inside, base, x, cell⟩
    have none_there := missing window (List.mem_filter.mpr ⟨inside, decide_eq_true base⟩)
    rw [cell] at none_there
    cases none_there
  · intro nowhere window inside
    obtain ⟨listed, base⟩ := List.mem_filter.mp inside
    cases cell : window.row.cell c with
    | none => rfl
    | some x => exact absurd ⟨window, listed, of_decide_eq_true base, x, cell⟩ nowhere

/-- A baseline maximum is a number when the baselines have one. -/
theorem baseMax_isOk_iff (scored : ScoredTable ν) (c : GoString) :
    (∃ entry, baseMax np scored c = .ok entry) ↔ (c ∈ scored.columns →
      ∃ window ∈ scored.windows, IsBaseline window ∧ ∃ x, window.row.cell c = some x) := by
  unfold baseMax
  by_cases present : c ∈ scored.columns
  · rw [if_pos present]
    dsimp only
    cases most : ((scored.windows.filter fun window => IsBaseline window).filterMap
        fun window => window.row.cell c).max? with
    | none =>
      have nowhere := (baseline_numbers_eq_nil_iff scored c).mp (List.max?_eq_none_iff.mp most)
      exact iff_of_false (fun ⟨_, ok⟩ => by cases ok) fun given => nowhere (given present)
    | some x =>
      refine iff_of_true ⟨_, rfl⟩ fun _ => ?_
      by_contra nowhere
      rw [(baseline_numbers_eq_nil_iff scored c).mpr nowhere] at most
      cases most
  · rw [if_neg present]
    exact iff_of_true ⟨_, rfl⟩ fun inside => absurd inside present

omit [LinearOrder ν] in
/-- The signal of a window can be told when it has a number in each sensitive column. -/
theorem signal_isOk_iff (scored : ScoredTable ν) (maxima : List (GoString × Int))
    (window : ScoredWindow ν) :
    (∃ text, signal np scored maxima window = .ok text) ↔
      ∀ c ∈ sensitive, c ∈ scored.columns → ∃ x, window.row.cell c = some x := by
  unfold signal
  rw [bind_pure_isOk_iff, mapM_isOk_iff]
  exact forall₂_congr fun c _ => cellInt_isOk_iff np scored window c

/-- A line can be printed when the table has totals and its signal can be told. -/
theorem attackLine_isOk_iff (scored : ScoredTable ν) (maxima : List (GoString × Int))
    (label : Label) :
    (∃ line, attackLine np scored maxima label = .ok line) ↔
      lit "sys_total" ∈ scored.columns ∧ Readable np scored label := by
  unfold attackLine
  by_cases totals : lit "sys_total" ∈ scored.columns
  · rw [if_neg (not_not.mpr totals), bind_pure_isOk_iff, and_iff_right totals]
    unfold Readable source
    rw [← anomData_head?]
    cases (anomData np scored label).head? with
    | none => exact iff_of_true ⟨_, rfl⟩ fun _ none_there => by cases none_there
    | some first =>
      rw [signal_isOk_iff]
      simp
  · rw [if_pos totals]
    exact iff_of_false (fun ⟨_, ok⟩ => by cases ok) fun both => totals both.1

/-- What a line counts. -/
theorem attackLine_counts {scored : ScoredTable ν} {maxima : List (GoString × Int)} {label : Label}
    {line : AttackLine} (printed : attackLine np scored maxima label = .ok line) :
    line.dataWins = (dataRows np scored label).length ∧
    line.flagged = (anomData np scored label).length ∧
    (line.detected = true ↔ anomData np scored label ≠ []) := by
  unfold attackLine at printed
  split at printed
  · cases printed
  · obtain ⟨source, _, same⟩ := (bind_eq_ok_iff _ _ _).mp printed
    obtain rfl := Except.ok.inj same
    exact ⟨rfl, rfl, by simp [List.length_pos_iff]⟩

/-- The loop prints the lines of the attacks until one fails. -/
theorem attackLines_spec (scored : ScoredTable ν) (maxima : List (GoString × Int))
    (labels : List Label) (i : Nat) :
    (i < (attackLines np scored maxima labels).1.length ↔ i < labels.length ∧
      ∀ label ∈ labels.take (i + 1), ∃ line, attackLine np scored maxima label = .ok line) ∧
    ∀ label line, labels[i]? = some label →
      (attackLines np scored maxima labels).1[i]? = some line →
      attackLine np scored maxima label = .ok line := by
  induction labels generalizing i with
  | nil => simp [attackLines]
  | cons first labels ih =>
    rw [attackLines]
    cases printed : attackLine np scored maxima first with
    | error failure => simp [printed]
    | ok line =>
      cases i with
      | zero => simp [printed]
      | succ i =>
        obtain ⟨reach, lines⟩ := ih i
        refine ⟨?_, fun label line listed there => lines label line (by simpa using listed)
          (by simpa using there)⟩
        simp only [List.length_cons, Nat.add_lt_add_iff_right, List.take_succ_cons,
          List.forall_mem_cons, printed, Except.ok.injEq, exists_eq', true_and]
        exact reach

/-- The lines of a report, when the baselines have their maxima. -/
theorem report_lines {scored : ScoredTable ν} {labels : List Label} {maxima : List (GoString × Int)}
    (made : sensitive.mapM (baseMax np scored) = .ok maxima) :
    (report np scored labels).lines = (attackLines np scored maxima labels).1 := by
  unfold report
  rw [made]
  dsimp only
  rcases attackLines np scored maxima labels with ⟨lines, _ | failure⟩ <;> rfl

/-- The report gets as far as an attack exactly when nothing stops it before. -/
theorem reached_iff (scored : ScoredTable ν) (labels : List Label) (i : Nat) :
    i < (report np scored labels).lines.length ↔ i < labels.length ∧
      Reached np scored labels i := by
  have bases : (∃ maxima, sensitive.mapM (baseMax np scored) = .ok maxima) ↔
      ∀ c ∈ sensitive, c ∈ scored.columns →
        ∃ window ∈ scored.windows, IsBaseline window ∧ ∃ x, window.row.cell c = some x :=
    (mapM_isOk_iff _ _).trans (forall₂_congr fun c _ => baseMax_isOk_iff np scored c)
  cases made : sensitive.mapM (baseMax np scored) with
  | error failure =>
    have printed : (report np scored labels).lines = [] := by
      unfold report
      rw [made]
    rw [printed]
    refine iff_of_false (Nat.not_lt_zero i) fun both => ?_
    obtain ⟨maxima, returned⟩ := bases.mpr both.2.base
    rw [made] at returned
    cases returned
  | ok maxima =>
    rw [report_lines np made, (attackLines_spec np scored maxima labels i).1]
    refine and_congr_right fun within => ?_
    simp only [attackLine_isOk_iff]
    constructor
    · intro printable
      have inside : labels[i] ∈ labels.take (i + 1) :=
        List.mem_take_iff_getElem.mpr ⟨i, by omega, rfl⟩
      exact ⟨bases.mp ⟨maxima, made⟩, (printable _ inside).1,
        fun label listed => (printable label listed).2⟩
    · exact fun reached label listed => ⟨reached.totals, reached.readable label listed⟩

/-- A printed line tells whether its attack has a flagged window. -/
theorem detected_iff {scored : ScoredTable ν} {labels : List Label} {i : Nat} {label : Label}
    {line : AttackLine} (listed : labels[i]? = some label)
    (printed : (report np scored labels).lines[i]? = some line) :
    line.detected = true ↔ ∃ window ∈ scored.windows, Flags np label window := by
  cases made : sensitive.mapM (baseMax np scored) with
  | error failure =>
    unfold report at printed
    rw [made] at printed
    cases printed
  | ok maxima =>
    rw [report_lines np made] at printed
    have told := (attackLines_spec np scored maxima labels i).2 label line listed printed
    have flagged := exists_anomData_iff np scored label fun _ => True
    simp only [and_true] at flagged
    rw [(attackLine_counts np told).2.2, ← flagged]
    exact ⟨List.exists_mem_of_ne_nil _, fun ⟨_, inside⟩ => List.ne_nil_of_mem inside⟩

/-- In a schedule in order, a window that counts for two attacks ends between the start of the later
one and five seconds after the end of the earlier one. -/
theorem shared_iff {scored : ScoredTable ν} {labels : List Label} (order : InOrder labels)
    {i j : Nat} {first second : Label} (lt : i < j) (earlier : labels[i]? = some first)
    (later : labels[j]? = some second) :
    (∃ entry ∈ dataRows np scored first, entry ∈ dataRows np scored second) ↔
      ∃ window ∈ scored.windows, HasData np window ∧
        second.start ≤ window.dt ∧ window.dt ≤ first.stop + 5 := by
  obtain ⟨inside, rfl⟩ := List.getElem?_eq_some_iff.mp earlier
  obtain ⟨within, rfl⟩ := List.getElem?_eq_some_iff.mp later
  have apart := List.pairwise_iff_getElem.mp order.apart i j inside within lt
  have forward := order.forward _ (List.getElem_mem inside)
  have onward := order.forward _ (List.getElem_mem within)
  simp only [mem_dataRows_iff]
  constructor
  · rintro ⟨entry, ⟨listed, data, _, before⟩, _, _, after, _⟩
    exact ⟨entry.1, List.fst_mem_of_mem_zipIdx listed, data, after, before⟩
  · rintro ⟨window, among, data, after, before⟩
    obtain ⟨k, bound, rfl⟩ := List.mem_iff_getElem.mp among
    have listed : (scored.windows[k], k) ∈ scored.windows.zipIdx :=
      List.mem_zipIdx_iff_getElem?.mpr (List.getElem?_eq_getElem bound)
    refine ⟨(scored.windows[k], k), ⟨listed, data, ?_, before⟩, listed, data, after, ?_⟩
    · show labels[i].start ≤ scored.windows[k].dt
      omega
    · show scored.windows[k].dt ≤ labels[j].stop + 5
      omega

/-- The report credits each attack with its own evidence exactly when this holds of every attack it
gets to: where a flagged window of the table ends in the time of the attack, one of its container or
the host does, and no window with data ends between its start and five seconds after the end of an
earlier attack. -/
theorem credits_own_iff {scored : ScoredTable ν} {labels : List Label} (order : InOrder labels) :
    CreditsOwn np scored labels ↔
      ∀ (j : Nat) second, labels[j]? = some second → Reached np scored labels j →
        ((∃ window ∈ scored.windows, Flags np second window) →
          ∃ window ∈ scored.windows, Flags np second window ∧ Belongs second window) ∧
        ∀ (i : Nat) first, i < j → labels[i]? = some first →
          ∀ window ∈ scored.windows, HasData np window →
            ¬ (second.start ≤ window.dt ∧ window.dt ≤ first.stop + 5) := by
  constructor
  · intro credits j second listed reached
    obtain ⟨inside, _⟩ := List.getElem?_eq_some_iff.mp listed
    have far := (reached_iff np scored labels j).mpr ⟨inside, reached⟩
    constructor
    · intro flagged
      have printed := List.getElem?_eq_getElem far
      exact (exists_anomData_iff np scored second _).mp
        (credits.own j second _ listed printed ((detected_iff np listed printed).mpr flagged))
    · intro i first lt earlier window within data between
      obtain ⟨entry, mine, yours⟩ :=
        (shared_iff np order lt earlier listed).mpr ⟨window, within, data, between⟩
      exact credits.separate i j first second lt earlier listed far entry mine yours
  · intro clear
    have reach : ∀ {j : Nat}, j < (report np scored labels).lines.length →
        Reached np scored labels j :=
      fun far => ((reached_iff np scored labels _).mp far).2
    constructor
    · intro j label line listed printed detected
      obtain ⟨far, _⟩ := List.getElem?_eq_some_iff.mp printed
      exact (exists_anomData_iff np scored label _).mpr
        ((clear j label listed (reach far)).1 ((detected_iff np listed printed).mp detected))
    · intro i j first second lt earlier later far entry mine yours
      obtain ⟨window, within, data, between⟩ :=
        (shared_iff np order lt earlier later).mp ⟨entry, mine, yours⟩
      exact (clear j second later (reach far)).2 i first lt earlier window within data between

/-- A window with the same number in every column. -/
def plainWindow (dt : Int) (name : Option GoString) (total : ℚ) (anomaly : Int) : ScoredWindow ℚ :=
  ⟨dt, ⟨name, fun _ => some total⟩, anomaly⟩

/-- Two attacks, three seconds apart. -/
def twoAttacks : List Label :=
  [⟨lit "net_scan", lit "atk_3", 100, 115⟩, ⟨lit "net_exfil", lit "atk_4", 118, 133⟩]

/-- Each attack is flagged once, in its own container and on the host. -/
def quietBaselines : ScoredTable ℚ :=
  ⟨lit "sys_total" :: sensitive, [plainWindow 90 (some (lit "nginx")) 1 1,
    plainWindow 110 (some (lit "atk_3")) 5 (-1), plainWindow 130 none 5 (-1)]⟩

/-- A window of nginx is flagged, a second after the second attack starts. -/
def noisyNginx : ScoredTable ℚ :=
  ⟨lit "sys_total" :: sensitive, [plainWindow 119 (some (lit "nginx")) 5 (-1)]⟩

/-- The schedule is in order. -/
theorem twoAttacks_order : InOrder twoAttacks := ⟨by decide, by decide⟩

/-- Attacks flagged in their own rows, apart from each other. -/
theorem credits_own_iff_quiet :
    CreditsOwn (rational id List.sum) quietBaselines twoAttacks := by
  refine (credits_own_iff (rational id List.sum) twoAttacks_order).mpr ?_
  intro j second listed _
  match j, listed with
  | 0, rfl =>
    refine ⟨fun _ => by decide +kernel, fun i _ lt => absurd lt (Nat.not_lt_zero i)⟩
  | 1, rfl =>
    refine ⟨fun _ => by decide +kernel, fun i first lt earlier => ?_⟩
    obtain rfl : i = 0 := by omega
    obtain rfl := Option.some.inj earlier
    decide +kernel

/-- The window of nginx makes both attacks detected. -/
theorem credits_baseline :
    InOrder twoAttacks ∧
      (report (rational id List.sum) noisyNginx twoAttacks).lines.map AttackLine.flagged = [1, 1] ∧
      (∀ label ∈ twoAttacks, ∀ entry ∈ anomData (rational id List.sum) noisyNginx label,
        ¬ Belongs label entry.1) ∧
      ¬ CreditsOwn (rational id List.sum) noisyNginx twoAttacks := by
  refine ⟨twoAttacks_order, by decide +kernel, by decide +kernel, fun credits => ?_⟩
  have far : 1 < (report (rational id List.sum) noisyNginx twoAttacks).lines.length := by
    decide +kernel
  have counts : ∀ label ∈ twoAttacks, (plainWindow 119 (some (lit "nginx")) 5 (-1), 0) ∈
      dataRows (rational id List.sum) noisyNginx label := fun label listed =>
    (mem_dataRows_iff _ _ _ _).mpr ⟨List.mem_cons_self, by decide +kernel,
      (show ∀ label ∈ twoAttacks, label.start ≤ 119 ∧ 119 ≤ label.stop + 5 by decide) label listed⟩
  exact credits.separate 0 1 _ _ (by decide) rfl rfl far _ (counts _ (by simp [twoAttacks]))
    (counts _ (by simp [twoAttacks]))

end ContainerAnomaly.Report
