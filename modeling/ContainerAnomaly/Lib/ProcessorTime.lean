import ContainerAnomaly.Lib.Schedule
import Mathlib.Algebra.BigOperators.Group.Finset.Piecewise
import Mathlib.Algebra.Order.BigOperators.Group.Finset

/-!
# The time of the processors

Every interval that closes on a processor is the interval of one task, and the intervals of a
processor follow each other without a gap. So the closed intervals of all tasks together are as
long as the times between the first and the last switch of each processor
(`WellFormed.sum_closedTime`).
-/

namespace ContainerAnomaly.Lib.Schedule

variable {κ τ : Type} [DecidableEq κ]

/-- The first switch on a processor. -/
def firstOn (cpu : κ) (history : List (Switch κ τ)) : Option (Switch κ τ) :=
  lastOn cpu history.reverse

/-- The time between the first and the last switch of a processor. -/
def span (cpu : κ) (history : List (Switch κ τ)) : Nat :=
  match firstOn cpu history, lastOn cpu history with
  | some first, some last => last.now.toNat - first.now.toNat
  | _, _ => 0

/-- A switch is the first one on its processor when there was none before. -/
theorem firstOn_cons (cpu : κ) (event : Switch κ τ) (past : List (Switch κ τ)) :
    firstOn cpu (event :: past) =
      (firstOn cpu past).or (if event.cpu = cpu then some event else none) := by
  rw [firstOn, firstOn, lastOn, lastOn, List.reverse_cons, List.find?_append]
  by_cases here : event.cpu = cpu <;> simp [here]

/-- A processor with a last switch has a first one. -/
theorem firstOn_of_lastOn {cpu : κ} {history : List (Switch κ τ)} {last : Switch κ τ}
    (found : lastOn cpu history = some last) : ∃ first, firstOn cpu history = some first := by
  obtain ⟨inside, own⟩ := lastOn_mem found
  cases missing : firstOn cpu history with
  | some first => exact ⟨first, rfl⟩
  | none =>
    have foreign := List.find?_eq_none.mp missing last (List.mem_reverse.mpr inside)
    simp [own] at foreign

/-- The first switch of a processor is in the history and on that processor. -/
theorem firstOn_mem {cpu : κ} {history : List (Switch κ τ)} {first : Switch κ τ}
    (found : firstOn cpu history = some first) : first ∈ history ∧ first.cpu = cpu := by
  obtain ⟨inside, own⟩ := lastOn_mem found
  exact ⟨List.mem_reverse.mp inside, own⟩

variable {idle : τ} {boot : κ → τ}

/-- No switch of a processor is later than its last one. -/
theorem WellFormed.le_lastOn {history : List (Switch κ τ)} (formed : WellFormed idle boot history)
    {cpu : κ} {last : Switch κ τ} (found : lastOn cpu history = some last) :
    ∀ event ∈ history, event.cpu = cpu → event.now ≤ last.now := by
  induction formed with
  | boot alone => cases found
  | switch latest past earlier leaves ordered alone ih =>
    intro event inside own
    by_cases here : cpu = latest.cpu
    · rw [here, lastOn_cons_self] at found
      obtain rfl := Option.some.inj found
      rcases List.mem_cons.mp inside with rfl | old
      · exact UInt64.le_refl _
      · exact ordered event old
    · rw [lastOn_cons_ne here] at found
      rcases List.mem_cons.mp inside with rfl | old
      · exact absurd own.symm here
      · exact ih found event old own

/-- A switch extends the time of its processor by the interval it ends. -/
theorem WellFormed.span_cons {past : List (Switch κ τ)} (earlier : WellFormed idle boot past)
    {event : Switch κ τ} (ordered : ∀ before ∈ past, before.now ≤ event.now) (cpu : κ) :
    span cpu (event :: past) =
      span cpu past + if event.cpu = cpu then ended past event else 0 := by
  by_cases here : event.cpu = cpu
  · subst here
    rw [if_pos rfl]
    unfold span ended
    rw [firstOn_cons, if_pos rfl, lastOn_cons_self]
    cases last : lastOn event.cpu past with
    | none =>
      have first : firstOn event.cpu past = none := by
        cases found : firstOn event.cpu past with
        | none => rfl
        | some first =>
          obtain ⟨inside, own⟩ := firstOn_mem found
          have foreign := List.find?_eq_none.mp last first inside
          simp [own] at foreign
      simp [first]
    | some entered =>
      obtain ⟨first, found⟩ := firstOn_of_lastOn last
      obtain ⟨inside, own⟩ := firstOn_mem found
      -- The time up to the switch is cut where the interval began.
      have front := UInt64.le_iff_toNat_le.mp (earlier.le_lastOn last first inside own)
      have back := UInt64.le_iff_toNat_le.mp (ordered entered (lastOn_mem last).1)
      simp only [found, Option.some_or, Option.map_some, Option.getD_some]
      omega
  · rw [if_neg here, Nat.add_zero, span, span, firstOn_cons, if_neg here, Option.or_none,
      lastOn_cons_ne (Ne.symm here)]

variable [DecidableEq τ]

/-- The closed intervals of all tasks that were switched in are as long as the times between the
first and the last switch of each processor. -/
theorem WellFormed.sum_closedTime [Fintype κ] {history : List (Switch κ τ)}
    (formed : WellFormed idle boot history) {tasks : Finset τ}
    (all : ∀ event ∈ history, event.next ∈ tasks) :
    ∑ task ∈ tasks, closedTime task history = ∑ cpu, span cpu history := by
  induction formed with
  | boot alone => simp [closedTime, span, firstOn, lastOn]
  | switch event past earlier leaves ordered alone ih =>
    have before : ∀ other ∈ past, other.next ∈ tasks := by
      intro other inside
      exact all other (List.mem_cons_of_mem event inside)
    -- The interval that ends is one of the task that leaves, unless that was never switched in.
    have leaving : ∑ task ∈ tasks, (if event.prev = task then ended past event else 0) =
        ended past event := by
      rw [Finset.sum_ite_eq tasks event.prev]
      by_cases known : event.prev ∈ tasks
      · rw [if_pos known]
      · rw [if_neg known]
        exact (ended_eq_zero leaves fun other inside same =>
          known (same ▸ before other inside)).symm
    have staying : ∑ cpu, (if event.cpu = cpu then ended past event else 0) =
        ended past event := by
      rw [Finset.sum_ite_eq Finset.univ event.cpu, if_pos (Finset.mem_univ _)]
    calc
      ∑ task ∈ tasks, closedTime task (event :: past) =
          ∑ task ∈ tasks, closedTime task past + ended past event := by
        rw [← leaving, ← Finset.sum_add_distrib]
        rfl
      _ = ∑ cpu, span cpu past + ended past event := by rw [ih before]
      _ = ∑ cpu, span cpu (event :: past) := by
        rw [← staying, ← Finset.sum_add_distrib]
        exact Finset.sum_congr rfl fun cpu _ => (earlier.span_cons ordered cpu).symm

end ContainerAnomaly.Lib.Schedule
