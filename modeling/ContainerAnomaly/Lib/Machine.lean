import Mathlib.Data.List.Induction

/-!
# Runs of a deterministic machine

A machine takes one input at a time and answers with outputs. A run is described by its trace,
the list of states met with the input taken in each: outputs, tallies and side conditions of a
run are all read off the trace. `Machine.invariant` is the one induction over runs; its
invariant may mention the whole past.
-/

namespace ContainerAnomaly.Lib

/-- The elements after the last one that passes a test, all of them when none does. -/
def sinceLast {α : Type} (test : α → Bool) (list : List α) : List α :=
  list.foldl (fun recent element => if test element then [] else recent ++ [element]) []

/-- A new last element starts over or is appended. -/
theorem sinceLast_snoc {α : Type} (test : α → Bool) (list : List α) (element : α) :
    sinceLast test (list ++ [element]) =
      if test element then [] else sinceLast test list ++ [element] := by
  simp [sinceLast]

/-- Nothing marked comes after the last marked element. -/
theorem sinceLast_split {α : Type} (test : α → Bool) (before after : List α) {element : α}
    (marked : test element = true) (later : ∀ other ∈ after, test other = false) :
    sinceLast test (before ++ element :: after) = after := by
  induction after using List.reverseRecOn with
  | nil => rw [sinceLast_snoc, if_pos marked]
  | append_singleton after last ih =>
    have plain : ¬ test last = true := by simp [later last]
    rw [← List.cons_append, ← List.append_assoc, sinceLast_snoc, if_neg plain,
      ih fun other inside => later other (List.mem_append_left _ inside)]

/-- What comes after the last marked element is a suffix of the list. -/
theorem sinceLast_suffix {α : Type} (test : α → Bool) (list : List α) :
    sinceLast test list <:+ list := by
  induction list using List.reverseRecOn with
  | nil => exact List.suffix_rfl
  | append_singleton list element ih =>
    rw [sinceLast_snoc]
    split
    · exact List.nil_suffix
    · obtain ⟨before, split⟩ := ih
      exact ⟨before, by rw [← List.append_assoc, split]⟩

/-- Marking by a projection commutes with it. -/
theorem sinceLast_map {α β : Type} (test : β → Bool) (project : α → β) (list : List α) :
    (sinceLast (fun element => test (project element)) list).map project =
      sinceLast test (list.map project) := by
  induction list using List.reverseRecOn with
  | nil => rfl
  | append_singleton list element ih =>
    rw [List.map_append, List.map_singleton, sinceLast_snoc, sinceLast_snoc, ← ih]
    split <;> simp

/-- The elements between the last two that pass a test, or before the last one when it is the
only one. -/
def betweenLast {α : Type} (test : α → Bool) (list : List α) : List α :=
  (list.foldl (fun (spans : List α × List α) element =>
    if test element then (spans.2, []) else (spans.1, spans.2 ++ [element])) ([], [])).1

/-- A new last element closes the current stretch or leaves the closed one alone. -/
theorem betweenLast_snoc {α : Type} (test : α → Bool) (list : List α) (element : α) :
    betweenLast test (list ++ [element]) =
      if test element then sinceLast test list else betweenLast test list := by
  have current : (list.foldl (fun (spans : List α × List α) element =>
      if test element then (spans.2, []) else (spans.1, spans.2 ++ [element])) ([], [])).2 =
      sinceLast test list := by
    induction list using List.reverseRecOn with
    | nil => rfl
    | append_singleton list last ih =>
      rw [sinceLast_snoc, List.foldl_append, ← ih]
      simp only [List.foldl_cons, List.foldl_nil]
      split <;> rfl
  unfold betweenLast
  rw [List.foldl_append, ← current]
  simp only [List.foldl_cons, List.foldl_nil]
  split <;> rfl

/-- What comes between the last two marked elements is part of the list. -/
theorem betweenLast_subset {α : Type} (test : α → Bool) (list : List α) :
    betweenLast test list ⊆ list := by
  induction list using List.reverseRecOn with
  | nil => exact List.nil_subset _
  | append_singleton list element ih =>
    rw [betweenLast_snoc]
    split
    · exact List.Subset.trans (sinceLast_suffix test list).subset (List.subset_append_left _ _)
    · exact List.Subset.trans ih (List.subset_append_left _ _)

/-- Choosing fewer elements of a list gives a sublist. -/
theorem filterMap_sublist {α β : Type} {left right : α → Option β}
    (fewer : ∀ element value, left element = some value → right element = some value)
    (list : List α) : (list.filterMap left).Sublist (list.filterMap right) := by
  induction list with
  | nil => exact List.Sublist.refl _
  | cons element list ih =>
    cases chosen : left element with
    | some value =>
      rw [List.filterMap_cons_some chosen, List.filterMap_cons_some (fewer _ _ chosen)]
      exact ih.cons_cons value
    | none =>
      rw [List.filterMap_cons_none chosen]
      cases other : right element with
      | none => rwa [List.filterMap_cons_none other]
      | some value =>
        rw [List.filterMap_cons_some other]
        exact ih.cons value

/-- A chosen element stands where the element stands that it is chosen from. -/
theorem split_filterMap {α β : Type} {choose : α → Option β} {list : List α} {past : List β}
    {value : β} {rest : List β} (split : list.filterMap choose = past ++ value :: rest) :
    ∃ early element late, list = early ++ element :: late ∧ early.filterMap choose = past ∧
      choose element = some value ∧ late.filterMap choose = rest := by
  obtain ⟨early, after, rfl, rfl, chosen⟩ := List.filterMap_eq_append_iff.mp split
  obtain ⟨skipped, element, late, rfl, unseen, found, rfl⟩ :=
    List.filterMap_eq_cons_iff.mp chosen
  refine ⟨early ++ skipped, element, late, by simp, ?_, found, rfl⟩
  rw [List.filterMap_append, List.filterMap_eq_nil_iff.mpr unseen, List.append_nil]

/-- What holds of each chosen element and the ones chosen before it, seen from the list they are
chosen from. -/
theorem forall_split_filterMap {α β : Type} (choose : α → Option β) (list : List α)
    (holds : List β → β → Prop) :
    (∀ past value rest, list.filterMap choose = past ++ value :: rest → holds past value) ↔
      ∀ past element rest value, list = past ++ element :: rest → choose element = some value →
        holds (past.filterMap choose) value := by
  constructor
  · rintro chosen past element rest value rfl found
    refine chosen _ value (rest.filterMap choose) ?_
    rw [List.filterMap_append, List.filterMap_cons_some found]
  · intro listed past value rest split
    obtain ⟨early, element, late, rfl, rfl, found, _⟩ := split_filterMap split
    exact listed early element late value rfl found

/-- A deterministic transition function with outputs. -/
structure Machine (σ ι ο : Type) where
  /-- One step: the next state and what it puts out. -/
  step : σ → ι → σ × List ο

namespace Machine

variable {σ ι ο : Type} (machine : Machine σ ι ο)

/-- The state after a run. -/
def final : σ → List ι → σ
  | state, [] => state
  | state, input :: inputs => final (machine.step state input).1 inputs

/-- Every state met by a run, with the input taken in it. -/
def trace : σ → List ι → List (σ × ι)
  | _, [] => []
  | state, input :: inputs => (state, input) :: trace (machine.step state input).1 inputs

/-- What the steps of a trace put out, in order. -/
def outputsOf (past : List (σ × ι)) : List ο :=
  past.flatMap fun moment => (machine.step moment.1 moment.2).2

/-- What a run puts out. -/
def outputs (state : σ) (inputs : List ι) : List ο :=
  machine.outputsOf (machine.trace state inputs)

@[simp] theorem final_nil (state : σ) : machine.final state [] = state := rfl

@[simp] theorem trace_nil (state : σ) : machine.trace state [] = [] := rfl

/-- A run ends where its rest ends. -/
theorem final_cons (state : σ) (input : ι) (inputs : List ι) :
    machine.final state (input :: inputs) =
      machine.final (machine.step state input).1 inputs := rfl

/-- The outputs of the first step come first. -/
theorem outputs_cons (state : σ) (input : ι) (inputs : List ι) :
    machine.outputs state (input :: inputs) =
      (machine.step state input).2 ++ machine.outputs (machine.step state input).1 inputs := by
  simp [outputs, outputsOf, trace]

/-- A run of two parts ends where the second part ends. -/
theorem final_append (state : σ) (first second : List ι) :
    machine.final state (first ++ second) = machine.final (machine.final state first) second := by
  induction first generalizing state with
  | nil => rfl
  | cons input first ih => exact ih _

/-- The trace of a run of two parts continues from the state between them. -/
theorem trace_append (state : σ) (first second : List ι) :
    machine.trace state (first ++ second) =
      machine.trace state first ++ machine.trace (machine.final state first) second := by
  induction first generalizing state with
  | nil => rfl
  | cons input first ih => exact congrArg (List.cons (state, input)) (ih _)

/-- The last step of a run. -/
theorem trace_snoc (state : σ) (inputs : List ι) (input : ι) :
    machine.trace state (inputs ++ [input]) =
      machine.trace state inputs ++ [(machine.final state inputs, input)] :=
  machine.trace_append state inputs [input]

/-- The state after the last step of a run. -/
theorem final_snoc (state : σ) (inputs : List ι) (input : ι) :
    machine.final state (inputs ++ [input]) =
      (machine.step (machine.final state inputs) input).1 :=
  machine.final_append state inputs [input]

/-- The inputs of a trace are those of the run. -/
theorem trace_map_snd (state : σ) (inputs : List ι) :
    (machine.trace state inputs).map Prod.snd = inputs := by
  induction inputs generalizing state with
  | nil => rfl
  | cons input inputs ih => exact congrArg (List.cons input) (ih _)

/-- A moment of a trace splits the run at the state it was met in. -/
theorem mem_trace_iff (state : σ) (inputs : List ι) (moment : σ × ι) :
    moment ∈ machine.trace state inputs ↔
      ∃ past rest, inputs = past ++ moment.2 :: rest ∧ machine.final state past = moment.1 := by
  induction inputs generalizing state with
  | nil => simp
  | cons input inputs ih =>
    simp only [trace, List.mem_cons, ih]
    constructor
    · rintro (rfl | ⟨past, rest, rfl, met⟩)
      · exact ⟨[], inputs, rfl, rfl⟩
      · exact ⟨input :: past, rest, rfl, met⟩
    · rintro ⟨past, rest, split, met⟩
      cases past with
      | nil =>
        obtain ⟨rfl, rfl⟩ := List.cons.inj split
        exact .inl (Prod.ext met.symm rfl)
      | cons head past =>
        obtain ⟨rfl, rfl⟩ := List.cons.inj split
        exact .inr ⟨past, rest, rfl, met⟩

@[simp] theorem outputsOf_nil : machine.outputsOf [] = [] := rfl

/-- The outputs of a longer past. -/
@[simp] theorem outputsOf_append (past later : List (σ × ι)) :
    machine.outputsOf (past ++ later) = machine.outputsOf past ++ machine.outputsOf later :=
  List.flatMap_append

/-- The outputs of one step. -/
@[simp] theorem outputsOf_singleton (state : σ) (input : ι) :
    machine.outputsOf [(state, input)] = (machine.step state input).2 := by
  simp [outputsOf]

/-- The outputs of the last step come last. -/
theorem outputs_snoc (state : σ) (inputs : List ι) (input : ι) :
    machine.outputs state (inputs ++ [input]) =
      machine.outputs state inputs ++ (machine.step (machine.final state inputs) input).2 := by
  rw [outputs, trace_snoc, outputsOf_append, outputsOf_singleton, outputs]

/-- A run of two parts puts out what its parts do. -/
theorem outputs_append (state : σ) (first second : List ι) :
    machine.outputs state (first ++ second) =
      machine.outputs state first ++ machine.outputs (machine.final state first) second := by
  rw [outputs, trace_append, outputsOf_append]
  rfl

/-- What holds at the start and is carried over every admitted step holds after every run of
admitted steps. The invariant sees the past of the state. -/
theorem invariant (holds : List (σ × ι) → σ → Prop) (admitted : σ → ι → Prop) {start : σ}
    (begins : holds [] start)
    (advances : ∀ past state input, holds past state → admitted state input →
      holds (past ++ [(state, input)]) (machine.step state input).1)
    (inputs : List ι) (allowed : ∀ moment ∈ machine.trace start inputs,
      admitted moment.1 moment.2) :
    holds (machine.trace start inputs) (machine.final start inputs) := by
  induction inputs using List.reverseRecOn with
  | nil => exact begins
  | append_singleton inputs input ih =>
    rw [trace_snoc] at allowed ⊢
    rw [final_snoc]
    refine advances _ _ _ (ih fun moment member => ?_) ?_
    · exact allowed moment (List.mem_append_left _ member)
    · exact allowed _ (List.mem_append_right _ List.mem_cons_self)

/-- The invariant rule when every step is admitted. -/
theorem invariant_always (holds : List (σ × ι) → σ → Prop) {start : σ} (begins : holds [] start)
    (advances : ∀ past state input, holds past state →
      holds (past ++ [(state, input)]) (machine.step state input).1) (inputs : List ι) :
    holds (machine.trace start inputs) (machine.final start inputs) :=
  machine.invariant holds (fun _ _ => True) begins
    (fun past state input held _ => advances past state input held) inputs
    (fun _ _ => trivial)

section Part

variable {τ κ : Type} {part : Machine τ κ ο} {seen : σ → τ} {view : ι → Option κ} {keep : ο → Bool}

/-- The machine acts on a part of its state as a machine of its own: an input the part does not
see leaves it alone and puts out nothing of it, and one that it sees is a step of it. -/
structure HasPart (part : Machine τ κ ο) (seen : σ → τ) (view : ι → Option κ) (keep : ο → Bool) :
    Prop where
  /-- An input that the part does not see leaves it alone and puts out nothing of it. -/
  unseen : ∀ state input, view input = none →
    seen (machine.step state input).1 = seen state ∧
      (machine.step state input).2.filter keep = []
  /-- An input that it sees is a step of it. -/
  step : ∀ state input own, view input = some own →
    seen (machine.step state input).1 = (part.step (seen state) own).1 ∧
      (machine.step state input).2.filter keep = (part.step (seen state) own).2

/-- In every run, the part runs through the inputs it sees. -/
theorem HasPart.run (has : machine.HasPart part seen view keep) (state : σ) (inputs : List ι) :
    seen (machine.final state inputs) = part.final (seen state) (inputs.filterMap view) ∧
      (machine.outputs state inputs).filter keep =
        part.outputs (seen state) (inputs.filterMap view) := by
  induction inputs generalizing state with
  | nil => exact ⟨rfl, rfl⟩
  | cons input inputs ih =>
    obtain ⟨reached, rest⟩ := ih (machine.step state input).1
    rw [final_cons, outputs_cons, List.filter_append, reached, rest]
    cases viewed : view input with
    | none =>
      obtain ⟨same, silent⟩ := has.unseen state input viewed
      rw [List.filterMap_cons_none viewed, same, silent]
      exact ⟨rfl, rfl⟩
    | some own =>
      obtain ⟨stepped, emitted⟩ := has.step state input own viewed
      rw [List.filterMap_cons_some viewed, final_cons, outputs_cons, stepped, emitted]
      exact ⟨rfl, rfl⟩

end Part

section Drive

variable {τ κ ω : Type} {part : Machine τ κ ω} {seen : σ → τ} {view : σ × ι → List κ}

/-- The machine takes a part of its state through steps of a machine of its own, which may depend
on the whole state. -/
def Drives (part : Machine τ κ ω) (seen : σ → τ) (view : σ × ι → List κ) : Prop :=
  ∀ state input, seen (machine.step state input).1 = part.final (seen state) (view (state, input))

variable {machine} in
/-- In every run, the part ends where its own steps end. -/
theorem Drives.final (drives : machine.Drives part seen view) (state : σ) (inputs : List ι) :
    seen (machine.final state inputs) =
      part.final (seen state) ((machine.trace state inputs).flatMap view) := by
  induction inputs generalizing state with
  | nil => rfl
  | cons input inputs ih =>
    rw [final_cons, ih, drives state input, ← final_append]
    rfl

variable {machine} in
/-- In every run, the part meets the states that its own steps meet. -/
theorem Drives.trace (drives : machine.Drives part seen view) (state : σ) (inputs : List ι) :
    part.trace (seen state) ((machine.trace state inputs).flatMap view) =
      (machine.trace state inputs).flatMap fun moment =>
        part.trace (seen moment.1) (view moment) := by
  induction inputs generalizing state with
  | nil => rfl
  | cons input inputs ih =>
    rw [Machine.trace, List.flatMap_cons, List.flatMap_cons, trace_append,
      ← drives state input, ih]

variable {machine} in
/-- In every run, the part puts out what its own steps put out. -/
theorem Drives.outputs (drives : machine.Drives part seen view) (state : σ) (inputs : List ι) :
    part.outputs (seen state) ((machine.trace state inputs).flatMap view) =
      (machine.trace state inputs).flatMap fun moment =>
        part.outputs (seen moment.1) (view moment) := by
  rw [Machine.outputs, drives.trace, outputsOf, List.flatMap_assoc]
  rfl

end Drive

end Machine

end ContainerAnomaly.Lib
