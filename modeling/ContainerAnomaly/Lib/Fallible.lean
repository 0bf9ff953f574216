import Mathlib.Logic.Basic

/-!
# Steps that can fail

When a sequence of steps, or a loop of them, returns a result.
-/

namespace ContainerAnomaly.Lib

variable {ε α β : Type}

/-- What a step and what follows it return is what follows makes of the step's value. -/
theorem bind_eq_ok_iff (step : Except ε α) (next : α → Except ε β) (result : β) :
    step >>= next = .ok result ↔ ∃ value, step = .ok value ∧ next value = .ok result := by
  cases step with
  | error failure => exact iff_of_false (fun ok => by cases ok) (fun ⟨_, ok, _⟩ => by cases ok)
  | ok value =>
    constructor
    · exact fun returned => ⟨value, rfl, returned⟩
    · rintro ⟨other, same, returned⟩
      obtain rfl := Except.ok.inj same
      exact returned

/-- A step and what follows it return when the step does, and what follows does on its value. -/
theorem bind_isOk_iff (step : Except ε α) (next : α → Except ε β) :
    (∃ result, step >>= next = .ok result) ↔
      ∃ value, step = .ok value ∧ ∃ result, next value = .ok result := by
  simp only [bind_eq_ok_iff]
  constructor
  · rintro ⟨result, value, stepped, returned⟩
    exact ⟨value, stepped, result, returned⟩
  · rintro ⟨value, stepped, result, returned⟩
    exact ⟨result, value, stepped, returned⟩

/-- A step that is followed by a computation returns when the step does. -/
theorem bind_pure_isOk_iff (step : Except ε α) (next : α → β) :
    (∃ result, (step >>= fun value => pure (next value)) = .ok result) ↔
      ∃ value, step = .ok value := by
  rw [bind_isOk_iff]
  exact exists_congr fun value => and_iff_left ⟨next value, rfl⟩

/-- A loop returns when each of its rounds does. -/
theorem mapM_isOk_iff (step : α → Except ε β) (items : List α) :
    (∃ results, items.mapM step = .ok results) ↔
      ∀ item ∈ items, ∃ result, step item = .ok result := by
  induction items with
  | nil => exact iff_of_true ⟨[], rfl⟩ fun item inside => by cases inside
  | cons item items ih =>
    rw [List.mapM_cons, bind_isOk_iff, List.forall_mem_cons, ← ih]
    simp only [bind_pure_isOk_iff, exists_and_right]

/-- What is computed from the result of every round can be computed from all results. -/
theorem mapM_map {γ : Type} (step : α → Except ε β) (next : β → γ) (items : List α) :
    (items.mapM fun item => (step item).map next) = (items.mapM step).map (List.map next) := by
  induction items with
  | nil => rfl
  | cons item items ih =>
    rw [List.mapM_cons, List.mapM_cons, ih]
    cases step item with
    | error failure => rfl
    | ok result =>
      cases items.mapM step with
      | error failure => rfl
      | ok results => rfl

/-- A loop that returns has one result for each round. -/
theorem length_of_mapM {step : α → Except ε β} {items : List α} {results : List β}
    (returned : items.mapM step = .ok results) : results.length = items.length := by
  induction items generalizing results with
  | nil =>
    obtain rfl := Except.ok.inj returned
    rfl
  | cons item items ih =>
    rw [List.mapM_cons, bind_eq_ok_iff] at returned
    obtain ⟨result, _, returned⟩ := returned
    obtain ⟨others, rest, same⟩ := (bind_eq_ok_iff _ _ _).mp returned
    obtain rfl := Except.ok.inj same
    exact congrArg Nat.succ (ih rest)

/-- A loop whose rounds all return has their results. -/
theorem mapM_eq_some {step : α → Option β} {next : α → β} {items : List α}
    (returns : ∀ item ∈ items, step item = some (next item)) :
    items.mapM step = some (items.map next) := by
  induction items with
  | nil => rfl
  | cons item items ih =>
    obtain ⟨first, others⟩ := List.forall_mem_cons.mp returns
    rw [List.mapM_cons, first, ih others]
    rfl

end ContainerAnomaly.Lib
