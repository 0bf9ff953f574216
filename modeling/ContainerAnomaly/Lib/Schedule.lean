import Mathlib.Data.List.Basic

/-!
# Context switches on several processors

A history of context switches, the latest first. A task may be switched in on any processor, but
runs on one at a time; between two switches of a processor it is run by the task the first one
switched in. `closedTime` is the specification of a runtime account: the total length of the
intervals of a task that a switch of the history began and another one ended.
-/

namespace ContainerAnomaly.Lib

/-- One context switch: on a processor, at a time, from one task to another. -/
structure Switch (κ τ : Type) where
  /-- The CPU. -/
  cpu : κ
  /-- The time. -/
  now : UInt64
  /-- What is switched out. -/
  prev : τ
  /-- What is switched in. -/
  next : τ

namespace Schedule

variable {κ τ : Type} [DecidableEq κ]

/-- The last switch on a processor. -/
def lastOn (cpu : κ) (history : List (Switch κ τ)) : Option (Switch κ τ) :=
  history.find? fun event => event.cpu = cpu

/-- The task that runs on a processor, from what ran there before the history began. -/
def runningOn (boot : κ → τ) (history : List (Switch κ τ)) (cpu : κ) : τ :=
  ((lastOn cpu history).map Switch.next).getD (boot cpu)

/-- The length of the interval that a switch ends, when one of the past began it. -/
def ended (past : List (Switch κ τ)) (event : Switch κ τ) : Nat :=
  ((lastOn event.cpu past).map fun entered => event.now.toNat - entered.now.toNat).getD 0

/-- The schedules that can be observed: a switch leaves the task that runs on its processor,
time does not run backwards, and a task other than the idle one runs on one processor at a
time. -/
inductive WellFormed (idle : τ) (boot : κ → τ) : List (Switch κ τ) → Prop
  | boot (alone : ∀ left right, boot left = boot right → boot left ≠ idle → left = right) :
      WellFormed idle boot []
  | switch (event : Switch κ τ) (past : List (Switch κ τ)) (earlier : WellFormed idle boot past)
      (leaves : event.prev = runningOn boot past event.cpu)
      (ordered : ∀ before ∈ past, before.now ≤ event.now)
      (alone : ∀ cpu, cpu ≠ event.cpu → runningOn boot past cpu = event.next →
        event.next = idle) :
      WellFormed idle boot (event :: past)

/-- A switch is the last one on its own processor. -/
@[simp] theorem lastOn_cons_self (event : Switch κ τ) (past : List (Switch κ τ)) :
    lastOn event.cpu (event :: past) = some event := by
  simp [lastOn]

/-- A switch leaves the other processors alone. -/
theorem lastOn_cons_ne {event : Switch κ τ} {cpu : κ} (other : cpu ≠ event.cpu)
    (past : List (Switch κ τ)) : lastOn cpu (event :: past) = lastOn cpu past := by
  simp [lastOn, Ne.symm other]

/-- A switch starts the task it switches in. -/
@[simp] theorem runningOn_cons_self (boot : κ → τ) (event : Switch κ τ)
    (past : List (Switch κ τ)) : runningOn boot (event :: past) event.cpu = event.next := by
  simp [runningOn]

/-- What runs on the other processors goes on. -/
theorem runningOn_cons_ne (boot : κ → τ) {event : Switch κ τ} {cpu : κ}
    (other : cpu ≠ event.cpu) (past : List (Switch κ τ)) :
    runningOn boot (event :: past) cpu = runningOn boot past cpu := by
  rw [runningOn, runningOn, lastOn_cons_ne other]

/-- The last switch of a processor is in the history and on that processor. -/
theorem lastOn_mem {cpu : κ} {history : List (Switch κ τ)} {event : Switch κ τ}
    (last : lastOn cpu history = some event) : event ∈ history ∧ event.cpu = cpu := by
  have found := List.find?_some last
  exact ⟨List.mem_of_find?_eq_some last, by simpa using found⟩

/-- The task switched in last is the one that runs. -/
theorem runningOn_of_lastOn (boot : κ → τ) {cpu : κ} {history : List (Switch κ τ)}
    {event : Switch κ τ} (last : lastOn cpu history = some event) :
    runningOn boot history cpu = event.next := by
  rw [runningOn, last]
  rfl

variable {idle : τ} {boot : κ → τ}

/-- A task that is not idle runs on one processor at a time. -/
theorem WellFormed.alone {history : List (Switch κ τ)} (formed : WellFormed idle boot history)
    {left right : κ} (same : runningOn boot history left = runningOn boot history right)
    (busy : runningOn boot history left ≠ idle) : left = right := by
  induction formed with
  | boot alone => exact alone left right same busy
  | switch event past earlier leaves ordered alone ih =>
    by_cases atLeft : left = event.cpu
    · by_cases atRight : right = event.cpu
      · rw [atLeft, atRight]
      · rw [atLeft, runningOn_cons_self, runningOn_cons_ne boot atRight] at same
        rw [atLeft, runningOn_cons_self] at busy
        exact absurd (alone right atRight same.symm) busy
    · by_cases atRight : right = event.cpu
      · rw [atRight, runningOn_cons_self, runningOn_cons_ne boot atLeft] at same
        rw [runningOn_cons_ne boot atLeft, same] at busy
        exact absurd (alone left atLeft same) busy
      · rw [runningOn_cons_ne boot atLeft, runningOn_cons_ne boot atRight] at same
        rw [runningOn_cons_ne boot atLeft] at busy
        exact ih same busy

variable [DecidableEq τ]

/-- The total length of the closed intervals of a task that began with a switch. -/
def closedTime (task : τ) : List (Switch κ τ) → Nat
  | [] => 0
  | event :: past => closedTime task past + if event.prev = task then ended past event else 0

/-- The closed intervals of a task fit in the time that has passed, and while it runs they fit
in the time before it was switched in. -/
theorem WellFormed.closedTime_le {history : List (Switch κ τ)}
    (formed : WellFormed idle boot history) (task : τ) (busy : task ≠ idle) :
    (∀ bound, (∀ event ∈ history, event.now.toNat ≤ bound) →
      closedTime task history ≤ bound) ∧
    ∀ cpu event, lastOn cpu history = some event → event.next = task →
      closedTime task history ≤ event.now.toNat := by
  induction formed with
  | boot alone => exact ⟨fun bound _ => Nat.zero_le bound, fun cpu event last _ => by cases last⟩
  | switch event past earlier leaves ordered alone ih =>
    obtain ⟨bounded, running⟩ := ih
    have elapsed : closedTime task (event :: past) ≤ event.now.toNat := by
      have before : closedTime task past ≤ event.now.toNat :=
        bounded _ fun before member => UInt64.le_iff_toNat_le.mp (ordered before member)
      by_cases left : event.prev = task
      · rw [closedTime, if_pos left]
        unfold ended
        cases last : lastOn event.cpu past with
        | none => simpa using before
        | some entered =>
          have entry := running event.cpu entered last
            (by rw [← runningOn_of_lastOn boot last, ← leaves, left])
          have order := UInt64.le_iff_toNat_le.mp (ordered entered (lastOn_mem last).1)
          simp only [Option.map_some, Option.getD_some]
          omega
      · rw [closedTime, if_neg left]
        simpa using before
    refine ⟨fun bound within => ?_, fun cpu entered last switched => ?_⟩
    · have now := within event List.mem_cons_self
      omega
    · by_cases here : cpu = event.cpu
      · rw [here, lastOn_cons_self] at last
        rw [← Option.some.inj last]
        exact elapsed
      · rw [lastOn_cons_ne here] at last
        have apart : event.prev ≠ task := by
          intro left
          have runs := runningOn_of_lastOn boot last
          apply here
          apply earlier.alone
          · rw [runs, switched, ← leaves, left]
          · rw [runs, switched]
            exact busy
        rw [closedTime, if_neg apart, Nat.add_zero]
        exact running cpu entered last switched

omit [DecidableEq τ] in
/-- The interval a switch ends began before the history when its task was never switched in. -/
theorem ended_eq_zero {past : List (Switch κ τ)} {event : Switch κ τ}
    (leaves : event.prev = runningOn boot past event.cpu)
    (never : ∀ other ∈ past, other.next ≠ event.prev) : ended past event = 0 := by
  unfold ended
  cases last : lastOn event.cpu past with
  | none => rfl
  | some entered =>
    have switched : entered.next = event.prev := by
      rw [← runningOn_of_lastOn boot last, ← leaves]
    exact absurd switched (never entered (lastOn_mem last).1)

/-- A task that was never switched in has no closed interval. -/
theorem WellFormed.closedTime_eq_zero {history : List (Switch κ τ)}
    (formed : WellFormed idle boot history) {task : τ}
    (never : ∀ event ∈ history, event.next ≠ task) : closedTime task history = 0 := by
  induction formed with
  | boot alone => rfl
  | switch event past earlier leaves ordered alone ih =>
    have before : ∀ other ∈ past, other.next ≠ task := by
      intro other member
      exact never other (List.mem_cons_of_mem event member)
    rw [closedTime, ih before, Nat.zero_add]
    by_cases left : event.prev = task
    · rw [if_pos left]
      exact ended_eq_zero leaves (left ▸ before)
    · rw [if_neg left]

end Schedule

end ContainerAnomaly.Lib
