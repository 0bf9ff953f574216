import ContainerAnomaly.Lib.Machine
import Mathlib.Algebra.BigOperators.Fin

/-!
# Rings that tell of their losses

A ring takes samples in order. One that finds no room is dropped, and the number of those dropped
is put in front of the next sample that finds room. Whatever is read, and whenever, the samples
taken are the ones read and the ones that wait, in their order, and the dropped ones are those
told of, those about to be told of and those counted since (`LossyRing.run`).
-/

namespace ContainerAnomaly.Lib

/-- What is in a ring: a sample, or how many were dropped before the next one. -/
inductive RingRecord (α : Type) where
  | sample (value : α)
  | lost (count : Nat)
deriving DecidableEq

/-- A ring, with the number of samples dropped since the last record. -/
structure LossyRing (α : Type) where
  /-- The records, the oldest first. -/
  records : List (RingRecord α)
  /-- The number of samples dropped since the last record. -/
  missed : Nat

/-- What happens to a ring: a sample comes in, which may find no room, or the first record is
read. -/
inductive RingStep (α : Type) where
  | put (room : Bool) (value : α)
  | read
deriving DecidableEq

namespace LossyRing

variable {α : Type}

/-- A ring that nothing has come into. -/
def empty : LossyRing α := ⟨[], 0⟩

/-- A sample comes in. -/
def put (ring : LossyRing α) (room : Bool) (value : α) : LossyRing α :=
  if room then
    ⟨ring.records ++ (if ring.missed = 0 then [] else [.lost ring.missed]) ++ [.sample value], 0⟩
  else { ring with missed := ring.missed + 1 }

/-- The first record is read. -/
def read (ring : LossyRing α) : LossyRing α × List (RingRecord α) :=
  match ring.records with
  | [] => (ring, [])
  | record :: records => ({ ring with records }, [record])

/-- A ring as a machine that puts out what is read. -/
def machine : Machine (LossyRing α) (RingStep α) (RingRecord α) where
  step ring
    | .put room value => (ring.put room value, [])
    | .read => ring.read

/-- The samples among some records. -/
def samples (records : List (RingRecord α)) : List α :=
  records.filterMap fun
    | .sample value => some value
    | .lost _ => none

/-- How many samples some records tell the loss of. -/
def told (records : List (RingRecord α)) : Nat :=
  (records.map fun
    | .sample _ => 0
    | .lost count => count).sum

/-- The samples that find room. -/
def taken (steps : List (RingStep α)) : List α :=
  steps.filterMap fun
    | .put true value => some value
    | _ => none

/-- The number of samples that find none. -/
def dropped (steps : List (RingStep α)) : Nat :=
  (steps.map fun
    | .put false _ => 1
    | _ => 0).sum

@[simp] theorem samples_append (front back : List (RingRecord α)) :
    samples (front ++ back) = samples front ++ samples back := List.filterMap_append

@[simp] theorem told_append (front back : List (RingRecord α)) :
    told (front ++ back) = told front + told back := by simp [told]

/-- What one step does to the samples and to the count of losses. -/
theorem step_accounts (ring : LossyRing α) (input : RingStep α) :
    let next := machine.step ring input
    samples next.2 ++ samples next.1.records = samples ring.records ++ taken [input] ∧
    told next.2 + (told next.1.records + next.1.missed) =
      told ring.records + ring.missed + dropped [input] := by
  cases input with
  | put room value =>
    cases room with
    | true =>
      by_cases none_missed : ring.missed = 0
      · simp [machine, put, samples, told, taken, dropped, none_missed]
      · simp [machine, put, samples, told, taken, dropped, none_missed]
    | false => simp [machine, put, samples, told, taken, dropped, Nat.add_assoc]
  | read =>
    cases waiting : ring.records with
    | nil => simp [machine, read, samples, told, taken, dropped, waiting]
    | cons record records =>
      cases record with
      | sample value => simp [machine, read, samples, told, taken, dropped, waiting]
      | lost count =>
        simp [machine, read, samples, told, taken, dropped, waiting, Nat.add_assoc]

/-- In every run of a ring, the samples that found room are those read and those that wait, in
order, and the ones that found none are those told of and those counted. -/
theorem run (ring : LossyRing α) (steps : List (RingStep α)) :
    samples (machine.outputs ring steps) ++ samples (machine.final ring steps).records =
        samples ring.records ++ taken steps ∧
      told (machine.outputs ring steps) +
          (told (machine.final ring steps).records + (machine.final ring steps).missed) =
        told ring.records + ring.missed + dropped steps := by
  induction steps generalizing ring with
  | nil => simp [Machine.outputs, samples, told, taken, dropped]
  | cons input steps ih =>
    obtain ⟨order, count⟩ := step_accounts ring input
    obtain ⟨rest_order, rest_count⟩ := ih (machine.step ring input).1
    have all_taken : taken (input :: steps) = taken [input] ++ taken steps :=
      List.filterMap_append (l := [input])
    have all_dropped : dropped (input :: steps) = dropped [input] + dropped steps := by
      simp [dropped]
    rw [Machine.outputs_cons, Machine.final_cons, samples_append, told_append, all_taken,
      all_dropped]
    constructor
    · rw [List.append_assoc, rest_order, ← List.append_assoc, order, List.append_assoc]
    · omega

end LossyRing

end ContainerAnomaly.Lib
