import ContainerAnomaly.Agent.Feed
import ContainerAnomaly.Lib.Potential
import ContainerAnomaly.Lib.Regroup
import Mathlib.Algebra.Order.BigOperators.Group.Finset

/-!
# Counters never come out too large

The counters of the agent are 64 bits wide and wrap, each for itself, so that sums over several of
them agree modulo 2^64 only. Added up as numbers, what is written of a counter for all containers
is still no more than what the collectors have handed over (`written_le`), and so no more than what
a collector makes of its steps, when it alone counts it (`Feeder.written_le`).
-/

namespace ContainerAnomaly.Agent

open Lib Feature

variable (counter : Counter)

/-- What is worth of a counter in things ingested, without wrapping. -/
def trueWorth (items : List Ingest) : Nat := (items.map fun item => (item.amount counter).toNat).sum

/-- What vectors hold of a counter, without wrapping. -/
def trueTotal (vectors : List Vector) : Nat := (vectors.map fun v => (v.get counter).toNat).sum

/-- Lists of things are worth what their parts are. -/
theorem trueWorth_append (first second : List Ingest) :
    trueWorth counter (first ++ second) = trueWorth counter first + trueWorth counter second := by
  rw [trueWorth, List.map_append, List.sum_append]
  rfl

/-- Lists of vectors hold what their parts do. -/
theorem trueTotal_append (first second : List Vector) :
    trueTotal counter (first ++ second) = trueTotal counter first + trueTotal counter second := by
  rw [trueTotal, List.map_append, List.sum_append]
  rfl

/-- A sum that wraps is no larger than one that does not. -/
theorem toNat_worth_le (items : List Ingest) :
    (worth counter items).toNat ≤ trueWorth counter items := by
  induction items with
  | nil => exact le_rfl
  | cons item items ih =>
    have wraps : (worth counter (item :: items)).toNat ≤
        (item.amount counter).toNat + (worth counter items).toNat := by
      show (item.amount counter + worth counter items).toNat ≤ _
      rw [UInt64.toNat_add]
      exact Nat.mod_le _ _
    exact wraps.trans (Nat.add_le_add_left ih _)

/-- An account pays for its vectors with what it is given: a step moves what is held into a vector,
or adds no more than that. -/
theorem account_pays (cid : GoString) :
    (accountOf cid).Pays (fun _ => True) (fun account => (held counter account.accumulator).toNat)
      (fun view => trueWorth counter view.items) (fun v => (v.get counter).toNat) := by
  refine ⟨fun _ _ _ => trivial, fun account view _ => ?_⟩
  cases view with
  | ingest first rest =>
    have grown : held counter ((accountOf cid).step account (.ingest first rest)).1.accumulator =
        held counter account.accumulator + worth counter (first :: rest) :=
      get_ingestAll counter (first :: rest) (account.accumulator.getD {})
    rw [grown, UInt64.toNat_add]
    refine (Nat.add_le_add_left (Nat.mod_le _ _) _).trans ?_
    show 0 + _ ≤ _
    rw [Nat.zero_add]
    exact Nat.add_le_add_left (toNat_worth_le counter _) _
  | tick time nonzero answer =>
    cases found : account.accumulator with
    | none =>
      rw [Account.step_tick_none found]
      simp [trueWorth, View.items, found]
    | some ac =>
      rw [Account.step_tick_some found]
      simp [trueWorth, View.items, held, get_finalize, get_reset]

/-- In every run of an account, its vectors hold no more than was ingested. -/
theorem account_le (cid : GoString) (window : Duration) (views : List View) :
    trueTotal counter ((accountOf cid).outputs (.new window) views) ≤
      trueWorth counter (views.flatMap View.items) := by
  have empty : (held counter (Account.new window).accumulator).toNat = 0 := by
    cases counter with
    | sys field => cases field <;> rfl
    | _ => rfl
  have given : trueWorth counter (views.flatMap View.items) =
      (views.map fun view => trueWorth counter view.items).sum := by
    induction views with
    | nil => rfl
    | cons view views ih =>
      rw [List.flatMap_cons, trueWorth_append, ih, List.map_cons, List.sum_cons]
  have paid := (account_pays counter cid).run (.new window) trivial views
  rw [empty, Nat.zero_add, ← given] at paid
  exact (Nat.le_add_right _ _).trans paid

/-- What is worth of a counter in things ingested for any containers, without wrapping. -/
def givenWorth (given : List (GoString × Ingest)) : Nat :=
  (given.map fun item => (item.2.amount counter).toNat).sum

/-- What an aggregator has emitted for all containers is no more than what it was given. -/
theorem aggregator_le (window : Duration) (inputs : List Input) :
    trueTotal counter (aggregator.outputs (.new window) inputs) ≤
      givenWorth counter (inputs.flatMap Input.ingests) := by
  let vectors := aggregator.outputs (.new window) inputs
  let given := inputs.flatMap Input.ingests
  let cids := (vectors.map Vector.containerID).toFinset ∪ (given.map Prod.fst).toFinset
  have emits : trueTotal counter vectors = ∑ cid ∈ cids, _ :=
    sum_groups Vector.containerID (fun v => (v.get counter).toNat) fun v inside =>
      Finset.mem_union_left _ (List.mem_toFinset.mpr (List.mem_map_of_mem inside))
  have takes : givenWorth counter given = ∑ cid ∈ cids, _ :=
    sum_groups Prod.fst (fun item : GoString × Ingest => (item.2.amount counter).toNat)
      fun item inside =>
        Finset.mem_union_right _ (List.mem_toFinset.mpr (List.mem_map_of_mem inside))
  rw [emits, takes]
  apply Finset.sum_le_sum
  intro cid _
  have own : inputs.flatMap (Input.own cid) =
      (given.filter fun item => item.1 = cid).map Prod.snd := by
    rw [List.filter_flatMap, List.map_flatMap]
    rfl
  have bounded := account_le counter cid window (inputs.filterMap (Input.view cid))
  rw [← (run_account cid window inputs).2, flatMap_own, own, trueWorth, List.map_map] at bounded
  exact bounded

/-- Lists of things are worth what their parts are. -/
theorem givenWorth_append (first second : List (GoString × Ingest)) :
    givenWorth counter (first ++ second) =
      givenWorth counter first + givenWorth counter second := by
  rw [givenWorth, List.map_append, List.sum_append]
  rfl

/-- What some items of a collector are worth of a counter for all containers. -/
def handedWorth (source : Source) (items : List source.Item) : Nat :=
  givenWorth counter (items.flatMap fun item => (source.input item).ingests)

/-- Items are worth what their parts are. -/
theorem handedWorth_append (source : Source) (first second : List source.Item) :
    handedWorth counter source (first ++ second) =
      handedWorth counter source first + handedWorth counter source second := by
  rw [handedWorth, List.flatMap_append, givenWorth_append]
  rfl

/-- Items that are worth nothing one by one are worth nothing together. -/
theorem handedWorth_eq_zero {source : Source}
    (each : ∀ item, ∀ given ∈ (source.input item).ingests, given.2.amount counter = 0)
    (items : List source.Item) : handedWorth counter source items = 0 := by
  rw [handedWorth, givenWorth]
  refine List.sum_eq_zero fun value inside => ?_
  obtain ⟨given, listed, rfl⟩ := List.mem_map.mp inside
  obtain ⟨item, _, own⟩ := List.mem_flatMap.mp listed
  rw [each item given own]
  rfl

/-- The aggregator is given what is received, and beside that nothing that counts. -/
theorem givenWorth_ingested (moment : Moment) :
    givenWorth counter ((ingested moment).flatMap Input.ingests) =
      ∑ source, handedWorth counter source (takenFrom source moment) := by
  obtain ⟨p, move⟩ := moment
  have nothing : ∀ source : Source, handedWorth counter source [] = 0 := fun _ => rfl
  cases move with
  | take other =>
    rw [Finset.sum_eq_single other]
    · by_cases looping : p.looping
      · simp only [ingested, takenFrom, looping, if_true, and_self, handedWorth, List.flatMap_map]
      · simp [ingested, takenFrom, looping, handedWorth]
    · intro source _ differs
      have elsewhere : ¬ (other = source ∧ p.looping = true) :=
        fun same => differs same.1.symm
      simp only [takenFrom, if_neg elsewhere, nothing]
    · intro outside
      exact absurd (Finset.mem_univ other) outside
  | tick tick =>
    have zero : givenWorth counter ((ingested (p, .tick tick)).flatMap Input.ingests) = 0 := by
      unfold ingested
      dsimp only
      split <;> rfl
    rw [zero]
    exact (Finset.sum_eq_zero fun source _ => nothing source).symm
  | _ => exact (Finset.sum_eq_zero fun source _ => nothing source).symm

/-- What the aggregator was given in a past is worth what was received in it. -/
theorem givenWorth_past (past : List Moment) :
    givenWorth counter ((past.flatMap ingested).flatMap Input.ingests) =
      ∑ source, handedWorth counter source (past.flatMap (takenFrom source)) := by
  induction past with
  | nil => exact (Finset.sum_eq_zero fun source _ => rfl).symm
  | cons moment past ih =>
    simp only [List.flatMap_cons, List.flatMap_append, givenWorth_append, handedWorth_append]
    rw [Finset.sum_add_distrib, ← ih, ← givenWorth_ingested]

/-- What is written of a counter for all containers is no more than what the collectors have handed
over. -/
theorem written_le (window : Duration) (moves : List Move) :
    trueTotal counter (pipeline.outputs (.start window) moves) ≤
      ∑ source, handedWorth counter source
        ((pipeline.trace (.start window) moves).flatMap (accepted source)) := by
  obtain ⟨ordered, _, _, emits⟩ := flows window moves
  calc
    trueTotal counter (pipeline.outputs (.start window) moves) ≤
        trueTotal counter (aggregator.outputs (.new window)
          ((pipeline.trace (.start window) moves).flatMap ingested)) := by
      rw [← emits, trueTotal_append]
      exact Nat.le_add_right _ _
    _ ≤ givenWorth counter (((pipeline.trace (.start window) moves).flatMap ingested).flatMap
        Input.ingests) := aggregator_le counter window _
    _ = ∑ source, handedWorth counter source
        ((pipeline.trace (.start window) moves).flatMap (takenFrom source)) :=
      givenWorth_past counter _
    _ ≤ _ := by
      apply Finset.sum_le_sum
      intro source _
      rw [← ordered source, handedWorth_append]
      exact Nat.le_add_right _ _

/-- What is written for all containers of a counter that only one collector counts is no more than
what it makes of its steps. -/
theorem Feeder.written_le {σ ι ο : Type} {source : Source} (feeder : Feeder σ ι ο source)
    (start : σ) (window : Duration) (inputs : List (ι ⊕ Move))
    (only : ∀ other, other ≠ source → ∀ items, handedWorth counter other items = 0) :
    trueTotal counter (feeder.agent.outputs (start, .start window) inputs) ≤
      handedWorth counter source ((feeder.ownPast start window inputs).flatMap fun step =>
        feeder.items step.2 (feeder.machine.step step.1 step.2).2) := by
  have written : feeder.agent.outputs (start, .start window) inputs =
      pipeline.outputs (.start window)
        ((feeder.past start window inputs).flatMap feeder.moves) :=
    (feeder.drives_moves.outputs (start, .start window) inputs).symm
  have bounded := Agent.written_le counter window
    ((feeder.past start window inputs).flatMap feeder.moves)
  rw [Finset.sum_eq_single source (fun other _ differs => only other differs _)
    (fun outside => absurd (Finset.mem_univ _) outside)] at bounded
  rw [written, ← feeder.handed_over]
  exact bounded

end ContainerAnomaly.Agent
