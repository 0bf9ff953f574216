import ContainerAnomaly.Lib.Incidence
import ContainerAnomaly.Report.Credit

/-!
# The reports of the other suites

`tests/report.py` and `tests/report_dedicated.py`. Both count, for each attack of a schedule, the
scored windows that end while it runs or shortly after it, and those that are flagged, and add them
up. The first report counts a window once for every attack that it is judged by, which is once at
most when the attacks are apart (`suite_adds_up`). The second looks again when it has found no
window of another container, and then it can only find those of one baseline (`dedicated_iff`).
-/

namespace ContainerAnomaly.Report

open Lib Detect

variable {ν : Type} [LinearOrder ν]

/-- How the reports fail. -/
inductive SuiteFailure where
  /-- `sys.exit(1)`, as the table has no row of the target. -/
  | noRows
  /-- `IndexError` of `labels.iloc[0]`. -/
  | noAttacks
deriving DecidableEq

/-- A window ends while an attack runs, or in some seconds after it. -/
def Within (grace : Int) (label : Label) (window : ScoredWindow ν) : Prop :=
  label.start ≤ window.dt ∧ window.dt ≤ label.stop + grace

instance (grace : Int) (label : Label) (window : ScoredWindow ν) :
    Decidable (Within grace label window) :=
  inferInstanceAs (Decidable (_ ∧ _))

/-- What is said of the windows that an attack is judged by. -/
structure Count (ν : Type) where
  /-- The number of windows. -/
  windows : Nat
  /-- The number of flagged ones. -/
  detected : Nat
  /-- The lowest score, `none` when no window has one. -/
  minScore : Option ν

/-- The number of windows, the flagged ones, and the lowest score. -/
def countOf (judged : List (ScoredWindow ν)) : Count ν where
  windows := judged.length
  detected := (judged.filter fun window => window.anomaly = -1).length
  minScore := (judged.filterMap fun window => window.row.cell (lit "score")).min?

/-- The variables of a loop over the schedule, with the lines that are printed. -/
structure Loop (ν : Type) where
  /-- The lines so far. -/
  lines : List (Label × Count ν)
  /-- The sum of their windows. -/
  windows : Nat
  /-- The sum of their flagged windows. -/
  detected : Nat

/-- One round, with the windows that the attack is judged by. -/
def Loop.round (judged : Label → List (ScoredWindow ν)) (loop : Loop ν) (label : Label) : Loop ν :=
  let count := countOf (judged label)
  ⟨loop.lines ++ [(label, count)], loop.windows + count.windows, loop.detected + count.detected⟩

/-- The loop. -/
def loopOver (judged : Label → List (ScoredWindow ν)) (labels : List Label) : Loop ν :=
  labels.foldl (Loop.round judged) ⟨[], 0, 0⟩

/-- The flagged windows and all windows before the first attack. -/
structure Before where
  /-- The flagged windows. -/
  falsePositives : Nat
  /-- All windows. -/
  windows : Nat

/-- The end of a report: nothing is printed without such windows. -/
def before (windows : List (ScoredWindow ν)) : List Label → Except SuiteFailure (Option Before)
  | [] => .error .noAttacks
  | first :: _ =>
    let baseline := windows.filter fun window => window.dt < first.start
    .ok (if baseline.length > 0 then
        some ⟨(baseline.filter fun window => window.anomaly = -1).length, baseline.length⟩
      else none)

/-- `target_rows`. -/
def targetRows (scored : ScoredTable ν) (target : GoString) : List (ScoredWindow ν) :=
  scored.windows.filter fun window => window.row.name = some target

/-- `in_window`. -/
def inWindow (rows : List (ScoredWindow ν)) (label : Label) : List (ScoredWindow ν) :=
  rows.filter fun window => Within 2 label window

/-- What a report prints. -/
structure SuitePrinted (ν : Type) where
  /-- The number of windows of the target. -/
  rows : Nat
  /-- The lines of the attacks, and the totals. -/
  loop : Loop ν
  /-- What is said of the time before the first attack, or how the report fails. -/
  baseline : Except SuiteFailure (Option Before)

/-- `main` of `tests/report.py`. -/
def suite (scored : ScoredTable ν) (labels : List Label) (target : GoString) :
    Except SuiteFailure (SuitePrinted ν) :=
  let rows := targetRows scored target
  if rows.length = 0 then .error .noRows
  else .ok ⟨rows.length, loopOver (inWindow rows) labels, before rows labels⟩

/-- The container that the first look leaves out and the second does not. -/
def astrbot : GoString := lit "astrbot_p64p-astrbot_p64P-1"

/-- A window of a container that is no baseline. -/
def Foreign (window : ScoredWindow ν) : Prop :=
  window.row.name.getD [] ≠ lit "napcat" ∧ window.row.name.getD [] ≠ astrbot ∧
    window.row.name.getD (lit "host") ≠ lit "host"

instance (window : ScoredWindow ν) : Decidable (Foreign window) :=
  inferInstanceAs (Decidable (_ ∧ _ ∧ _))

/-- `in_win`. -/
def inWin (scored : ScoredTable ν) (label : Label) : List (ScoredWindow ν) :=
  let first := scored.windows.filter fun window => Within 8 label window ∧ Foreign window
  if first.length = 0 then
    scored.windows.filter fun window => Within 8 label window ∧
      window.row.name.getD (lit "host") ≠ lit "host" ∧ window.row.name.getD [] ≠ lit "napcat"
  else first

/-- `main` of `tests/report_dedicated.py`. -/
def dedicated (scored : ScoredTable ν) (labels : List Label) :
    Loop ν × Except SuiteFailure (Option Before) :=
  (loopOver (inWin scored) labels,
    before (scored.windows.filter fun window =>
      window.row.name.getD (lit "host") ≠ lit "host") labels)

/-- The lines are those of the attacks, and the totals are sums over them. -/
theorem loopOver_eq (judged : Label → List (ScoredWindow ν)) (labels : List Label) :
    loopOver judged labels =
      { lines := labels.map fun label => (label, countOf (judged label))
        windows := (labels.map fun label => (countOf (judged label)).windows).sum
        detected := (labels.map fun label => (countOf (judged label)).detected).sum } := by
  have folded : ∀ loop : Loop ν, labels.foldl (Loop.round judged) loop =
      { lines := loop.lines ++ labels.map fun label => (label, countOf (judged label))
        windows := loop.windows + (labels.map fun label => (countOf (judged label)).windows).sum
        detected :=
          loop.detected + (labels.map fun label => (countOf (judged label)).detected).sum } := by
    induction labels with
    | nil => simp
    | cons label labels ih =>
      intro loop
      rw [List.foldl_cons, ih]
      simp [Loop.round, Nat.add_assoc]
  rw [loopOver, folded]
  simp

/-- The attacks are apart: each ends more than two seconds before the next begins. -/
structure Apart (labels : List Label) : Prop where
  /-- Each ends more than two seconds before the next begins. -/
  gaps : labels.Pairwise fun first second => first.stop + 2 < second.start
  /-- None ends before it begins. -/
  forward : ∀ label ∈ labels, label.start ≤ label.stop

/-- What a window is counted for: the time before the first attack, or an attack. -/
def CountsFor (first : Label) (window : ScoredWindow ν) : Option Label → Bool
  | none => window.dt < first.start
  | some label => Within 2 label window

omit [LinearOrder ν] in
/-- When the attacks are apart, a window is counted for one of these at most. -/
theorem Apart.once {first : Label} {rest : List Label} (apart : Apart (first :: rest))
    (window : ScoredWindow ν) :
    (none :: (first :: rest).map some).countP (CountsFor first window) ≤ 1 := by
  apply countP_le_one
  rw [List.pairwise_cons, List.pairwise_map]
  constructor
  · intro other inside early within
    obtain ⟨label, listed, rfl⟩ := List.mem_map.mp inside
    have begins : first.start ≤ label.start := by
      rcases List.mem_cons.mp listed with rfl | later
      · exact le_refl _
      · have gap := (List.pairwise_cons.mp apart.gaps).1 label later
        have forward := apart.forward first List.mem_cons_self
        omega
    have ended := (of_decide_eq_true within : Within 2 label window).1
    have starts := of_decide_eq_true early
    omega
  · refine apart.gaps.imp fun gap left right => ?_
    have ended := (of_decide_eq_true left : Within 2 _ window).2
    have begun := (of_decide_eq_true right : Within 2 _ window).1
    omega

omit [LinearOrder ν] in
/-- The windows of a kind that the attacks and the time before them count. -/
theorem Apart.sum_le {first : Label} {rest : List Label} (apart : Apart (first :: rest))
    (windows : List (ScoredWindow ν)) :
    ((first :: rest).map fun label => windows.countP fun window => Within 2 label window).sum +
        windows.countP (fun window => window.dt < first.start) ≤ windows.length := by
  have most := sum_countP_le (fun what window => CountsFor first window what)
    (none :: (first :: rest).map some) windows fun window _ => apart.once window
  rw [List.map_cons, List.sum_cons, List.map_map, Nat.add_comm] at most
  exact most

omit [LinearOrder ν] in
/-- The end of a report says how many windows end before the first attack, and how many flagged
ones. -/
theorem before_eq (windows : List (ScoredWindow ν)) {first : Label} {rest : List Label}
    {base : Option Before} (ends : before windows (first :: rest) = .ok base) :
    (base.map Before.windows).getD 0 = windows.countP (fun window => window.dt < first.start) ∧
      (base.map Before.falsePositives).getD 0 =
        (windows.filter fun window => window.anomaly = -1).countP
          (fun window => window.dt < first.start) := by
  rw [List.countP_eq_length_filter, ← length_filter_filter]
  obtain rfl := Except.ok.inj ends
  by_cases some_there : (windows.filter fun window => window.dt < first.start).length > 0
  · rw [if_pos some_there]
    exact ⟨rfl, rfl⟩
  · rw [if_neg some_there]
    have none_there := List.length_eq_zero_iff.mp (Nat.eq_zero_of_not_pos some_there)
    rw [none_there]
    exact ⟨rfl, rfl⟩

/-- There is a report when the target has rows. -/
theorem suite_of_rows (scored : ScoredTable ν) (labels : List Label) (target : GoString)
    (some_rows : (targetRows scored target).length ≠ 0) :
    suite scored labels target =
      .ok ⟨(targetRows scored target).length, loopOver (inWindow (targetRows scored target)) labels,
        before (targetRows scored target) labels⟩ :=
  if_neg some_rows

/-- After every report of the first kind that has rows: each attack has its line; the totals count
each window of the target once for every attack that it is judged by; and when the attacks are
apart, no window is counted twice, in the totals or among the windows before the first attack. -/
theorem suite_adds_up {scored : ScoredTable ν} {labels : List Label} {target : GoString}
    {printed : SuitePrinted ν} (returned : suite scored labels target = .ok printed) :
    let rows := targetRows scored target
    let flagged := rows.filter fun window => window.anomaly = -1
    printed.loop.lines = labels.map (fun label => (label, countOf (inWindow rows label))) ∧
      printed.loop.windows =
        (rows.map fun window => labels.countP fun label => Within 2 label window).sum ∧
      printed.loop.detected =
        (flagged.map fun window => labels.countP fun label => Within 2 label window).sum ∧
      (Apart labels → ∀ base, printed.baseline = .ok base →
        printed.loop.windows + (base.map Before.windows).getD 0 ≤ rows.length ∧
        printed.loop.detected + (base.map Before.falsePositives).getD 0 ≤ flagged.length) := by
  intro rows flagged
  unfold suite at returned
  dsimp only at returned
  split at returned
  · cases returned
  · obtain rfl := Except.ok.inj returned
    have windows : (loopOver (inWindow rows) labels).windows =
        (labels.map fun label => rows.countP fun window => Within 2 label window).sum := by
      rw [loopOver_eq]
      exact congrArg List.sum
        (List.map_congr_left fun label _ => List.countP_eq_length_filter.symm)
    have detected : (loopOver (inWindow rows) labels).detected =
        (labels.map fun label => flagged.countP fun window => Within 2 label window).sum := by
      rw [loopOver_eq]
      refine congrArg List.sum (List.map_congr_left fun label _ => ?_)
      exact length_filter_filter _ _ rows
    refine ⟨by rw [loopOver_eq], windows.trans (sum_countP_comm _ _ _),
      detected.trans (sum_countP_comm _ _ _), fun apart base ends => ?_⟩
    cases labels with
    | nil => cases ends
    | cons first rest =>
      have ended : before rows (first :: rest) = .ok base := ends
      have early := before_eq rows ended
      exact ⟨(congrArg₂ (· + ·) windows early.1).trans_le (apart.sum_le rows),
        (congrArg₂ (· + ·) detected early.2).trans_le (apart.sum_le flagged)⟩

/-- Three windows of a target: the last two end during attacks, and the first two are flagged. -/
def webScored : ScoredTable ℚ :=
  ⟨[lit "sys_total"], [plainWindow 90 (some (lit "web")) 1 (-1),
    plainWindow 110 (some (lit "web")) 5 (-1), plainWindow 119 (some (lit "web")) 1 1]⟩

/-- These two are counted and the first is before the attacks; of the flagged ones, one is counted
and one is a false positive. -/
theorem suite_adds_up_web :
    ∃ printed, suite webScored twoAttacks (lit "web") = .ok printed ∧
      printed.loop.windows = 2 ∧ printed.loop.windows + 1 ≤ 3 ∧
      printed.loop.detected = 1 ∧ printed.loop.detected + 1 ≤ 2 := by
  have returned := suite_of_rows webScored twoAttacks (lit "web") (by decide)
  obtain ⟨_, windows, detected, once⟩ := suite_adds_up returned
  obtain ⟨all, flagged⟩ := once ⟨by decide, by decide⟩ (some ⟨1, 1⟩) rfl
  exact ⟨_, returned, windows.trans (by decide), all, detected.trans (by decide), flagged⟩

omit [LinearOrder ν] in
/-- An attack in whose time a foreign window ends is judged by these windows. -/
theorem inWin_foreign {scored : ScoredTable ν} {label : Label} {window : ScoredWindow ν}
    (listed : window ∈ scored.windows) (within : Within 8 label window) (foreign : Foreign window) :
    inWin scored label =
      scored.windows.filter fun window => Within 8 label window ∧ Foreign window := by
  have found : window ∈ scored.windows.filter fun window =>
      Within 8 label window ∧ Foreign window :=
    List.mem_filter.mpr ⟨listed, decide_eq_true ⟨within, foreign⟩⟩
  exact if_neg (Nat.ne_of_gt (List.length_pos_of_mem found))

omit [LinearOrder ν] in
/-- Any other is judged by the windows of one baseline. -/
theorem inWin_astrbot {scored : ScoredTable ν} {label : Label}
    (absent : ∀ window ∈ scored.windows, Within 8 label window → ¬ Foreign window) :
    inWin scored label =
      scored.windows.filter fun window =>
        Within 8 label window ∧ window.row.name = some astrbot := by
  have none_found : (scored.windows.filter fun window =>
      Within 8 label window ∧ Foreign window).length = 0 := by
    rw [List.length_eq_zero_iff, List.filter_eq_nil_iff]
    simpa only [decide_eq_true_iff, not_and] using absent
  rw [inWin, if_pos none_found]
  refine List.filter_congr fun window listed => decide_eq_decide.mpr ?_
  refine and_congr_right fun within => ⟨?_, ?_⟩
  · rintro ⟨container, other⟩
    cases name : window.row.name with
    | none => exact absurd (by rw [name]; rfl) container
    | some own =>
      rw [name] at container other
      by_contra elsewhere
      refine absent window listed within ⟨?_, ?_, ?_⟩
      · rwa [name]
      · rw [name]
        exact fun same => elsewhere (congrArg some same)
      · rwa [name]
  · intro name
    rw [name]
    decide

/-- In every report of the second kind, an attack has a flagged window exactly when a window of a
container that is no baseline is flagged, or no such window ends in time and one of `astrbot` is
flagged. What is counted for it are the windows of the containers that are no baseline, and those
of `astrbot`, flagged or not, where there is none. -/
theorem dedicated_iff (scored : ScoredTable ν) (labels : List Label) (i : Nat) (label : Label)
    (count : Count ν) (line : (dedicated scored labels).1.lines[i]? = some (label, count)) :
    (0 < count.detected ↔
      (∃ window ∈ scored.windows, Within 8 label window ∧ Foreign window ∧ window.anomaly = -1) ∨
      (∀ window ∈ scored.windows, Within 8 label window → ¬ Foreign window) ∧
        ∃ window ∈ scored.windows, Within 8 label window ∧ window.row.name = some astrbot ∧
          window.anomaly = -1) ∧
    ((∃ window ∈ scored.windows, Within 8 label window ∧ Foreign window) →
      count = countOf (scored.windows.filter fun window =>
        Within 8 label window ∧ Foreign window)) ∧
    ((∀ window ∈ scored.windows, Within 8 label window → ¬ Foreign window) →
      count = countOf (scored.windows.filter fun window =>
        Within 8 label window ∧ window.row.name = some astrbot)) := by
  have judged : count = countOf (inWin scored label) := by
    rw [dedicated, loopOver_eq, List.getElem?_map, Option.map_eq_some_iff] at line
    obtain ⟨_, _, same⟩ := line
    obtain ⟨rfl, rfl⟩ := Prod.mk.inj same
    rfl
  have flagged : 0 < count.detected ↔ ∃ window ∈ inWin scored label, window.anomaly = -1 := by
    rw [judged, countOf, List.length_pos_iff_exists_mem]
    simp only [List.mem_filter, decide_eq_true_iff]
  refine ⟨?_, ?_, fun absent => judged.trans (congrArg countOf (inWin_astrbot absent))⟩
  · rw [flagged]
    by_cases some_foreign : ∃ window ∈ scored.windows, Within 8 label window ∧ Foreign window
    · obtain ⟨first, present, early, other⟩ := some_foreign
      have elsewhere : ¬ ∀ window ∈ scored.windows, Within 8 label window → ¬ Foreign window :=
        fun absent => absent first present early other
      rw [inWin_foreign present early other, or_iff_left fun both => elsewhere both.1]
      simp only [List.mem_filter, decide_eq_true_iff, and_assoc]
    · have absent : ∀ window ∈ scored.windows, Within 8 label window → ¬ Foreign window :=
        fun window listed within foreign => some_foreign ⟨window, listed, within, foreign⟩
      rw [inWin_astrbot absent, or_iff_right, and_iff_right absent]
      · simp only [List.mem_filter, decide_eq_true_iff, and_assoc]
      · rintro ⟨window, listed, within, foreign, _⟩
        exact absent window listed within foreign
  · rintro ⟨window, listed, within, foreign⟩
    exact judged.trans (congrArg countOf (inWin_foreign listed within foreign))

/-- In the time of the first attack only a window of the baseline ends, and in that of the second
also one of another container. -/
def astrbotScored : ScoredTable ℚ :=
  ⟨[lit "sys_total"], [plainWindow 110 (some astrbot) 5 (-1),
    plainWindow 130 (some astrbot) 5 1, plainWindow 131 (some (lit "atk_4")) 5 (-1)]⟩

/-- Both are detected, the first by the baseline and the second by its container alone. -/
theorem dedicated_iff_astrbot :
    ∃ first second, (dedicated astrbotScored twoAttacks).1.lines[0]? = some first ∧
      (dedicated astrbotScored twoAttacks).1.lines[1]? = some second ∧
      0 < first.2.detected ∧ first.2.windows = 1 ∧
      0 < second.2.detected ∧ second.2.windows = 1 := by
  have last : plainWindow 131 (some (lit "atk_4")) 5 (-1) ∈ astrbotScored.windows := by
    simp [astrbotScored]
  refine ⟨_, _, rfl, rfl, ?_, ?_, ?_, ?_⟩
  · refine (dedicated_iff astrbotScored twoAttacks 0 _ _ rfl).1.mpr (.inr ⟨by decide, ?_⟩)
    exact ⟨_, List.mem_cons_self, by decide, rfl, rfl⟩
  · have counted := (dedicated_iff astrbotScored twoAttacks 0 _ _ rfl).2.2 (by decide)
    exact (congrArg Count.windows counted).trans (by decide)
  · refine (dedicated_iff astrbotScored twoAttacks 1 _ _ rfl).1.mpr (.inl ?_)
    exact ⟨_, last, by decide, by decide, rfl⟩
  · have counted := (dedicated_iff astrbotScored twoAttacks 1 _ _ rfl).2.1
      ⟨_, last, by decide, by decide⟩
    exact (congrArg Count.windows counted).trans (by decide)

end ContainerAnomaly.Report
