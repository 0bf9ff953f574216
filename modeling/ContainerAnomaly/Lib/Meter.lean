import ContainerAnomaly.Lib.Machine
import Mathlib.Algebra.BigOperators.Group.List.Basic

/-!
# Meters that are read and reported later

A meter gathers amounts under keys. A read takes what each key has gathered and makes it due;
what is due is reported item by item while the meter goes on gathering. Every amount is charged
to an owner, which neither the meter nor the report knows. `Meter.tracks` recovers it: an item
that is due is the sum of the charges between the last two reads.
-/

namespace ContainerAnomaly.Lib

/-- How a machine gathers, reads and reports amounts. -/
structure Meter (σ ι κ ω α M : Type) where
  /-- The step is a read. -/
  reads : σ × ι → Bool
  /-- The owner and the amount that a step charges to a key. -/
  charge : κ → σ × ι → Option (ω × M)
  /-- What a key has gathered since it was read. -/
  unread : σ → κ → M
  /-- What has been read and not reported. -/
  due : σ → List α
  /-- The key of an item that is due. -/
  keyOf : α → κ
  /-- The amount of an item that is due. -/
  amount : α → M

namespace Meter

variable {σ ι κ ω α M : Type} (meter : Meter σ ι κ ω α M)

/-- The charges to a key since the last read. -/
def pending (past : List (σ × ι)) (key : κ) : List (ω × M) :=
  (sinceLast meter.reads past).filterMap (meter.charge key)

/-- The charges to a key that the last read has taken. -/
def taken (past : List (σ × ι)) (key : κ) : List (ω × M) :=
  (betweenLast meter.reads past).filterMap (meter.charge key)

/-- A step adds its charge to the pending ones, and a read empties them. -/
theorem pending_snoc (past : List (σ × ι)) (moment : σ × ι) (key : κ) :
    meter.pending (past ++ [moment]) key =
      if meter.reads moment then []
      else meter.pending past key ++ (meter.charge key moment).toList := by
  unfold pending
  rw [sinceLast_snoc]
  split
  · rfl
  · rw [List.filterMap_append]
    cases charged : meter.charge key moment <;> simp [charged]

/-- A read takes the pending charges. -/
theorem taken_snoc (past : List (σ × ι)) (moment : σ × ι) (key : κ) :
    meter.taken (past ++ [moment]) key =
      if meter.reads moment then meter.pending past key else meter.taken past key := by
  unfold taken
  rw [betweenLast_snoc]
  split <;> rfl

/-- A charge that was taken is the charge of some moment of the past. -/
theorem charged_of_mem_taken {past : List (σ × ι)} {key : κ} {charge : ω × M}
    (inside : charge ∈ meter.taken past key) :
    ∃ moment ∈ past, meter.charge key moment = some charge := by
  obtain ⟨moment, met, charged⟩ := List.mem_filterMap.mp inside
  exact ⟨moment, betweenLast_subset _ _ met, charged⟩

variable [AddCommMonoid M]

/-- The amounts of a list of charges. -/
def sum (charges : List (ω × M)) : M := (charges.map Prod.snd).sum

/-- The laws of a meter in a machine. -/
structure Lawful (machine : Machine σ ι ο) : Prop where
  /-- A read leaves nothing unread and makes due what was unread. -/
  read : ∀ state input, meter.reads (state, input) →
    (∀ key, meter.unread (machine.step state input).1 key = 0) ∧
    ∀ item ∈ meter.due (machine.step state input).1,
      meter.amount item = meter.unread state (meter.keyOf item)
  /-- Any other step gathers what it charges and makes nothing due. -/
  gather : ∀ state input, ¬ meter.reads (state, input) →
    (∀ key, meter.unread (machine.step state input).1 key =
      meter.unread state key + sum (meter.charge key (state, input)).toList) ∧
    ∀ item ∈ meter.due (machine.step state input).1, item ∈ meter.due state

/-- The meter stands for the charges of the past. -/
structure Tracks (past : List (σ × ι)) (state : σ) : Prop where
  /-- What is unread of a key is what is pending. -/
  unread : ∀ key, meter.unread state key = sum (meter.pending past key)
  /-- What is due of an item is what the poll takes. -/
  due : ∀ item ∈ meter.due state, meter.amount item = sum (meter.taken past (meter.keyOf item))

variable {meter} {ο : Type} {machine : Machine σ ι ο}

/-- Every step of a lawful meter keeps it in step with the charges. -/
theorem Tracks.step (lawful : meter.Lawful machine) {past : List (σ × ι)} {state : σ}
    (tracks : meter.Tracks past state) (input : ι) :
    meter.Tracks (past ++ [(state, input)]) (machine.step state input).1 := by
  by_cases reads : meter.reads (state, input)
  · obtain ⟨emptied, made⟩ := lawful.read state input reads
    constructor
    · intro key
      rw [emptied, pending_snoc, if_pos reads]
      rfl
    · intro item inside
      rw [made item inside, taken_snoc, if_pos reads]
      exact tracks.unread _
  · obtain ⟨gathered, kept⟩ := lawful.gather state input reads
    constructor
    · intro key
      rw [gathered, pending_snoc, if_neg reads, tracks.unread key]
      simp [sum]
    · intro item inside
      rw [taken_snoc, if_neg reads]
      exact tracks.due item (kept item inside)

/-- In every run a lawful meter stands for the charges. -/
theorem tracks (lawful : meter.Lawful machine) {start : σ}
    (unread : ∀ key, meter.unread start key = 0) (due : meter.due start = []) (inputs : List ι) :
    meter.Tracks (machine.trace start inputs) (machine.final start inputs) := by
  apply machine.invariant_always meter.Tracks
  · constructor
    · intro key
      rw [unread]
      rfl
    · intro item inside
      rw [due] at inside
      cases inside
  · intro past state input tracked
    exact tracked.step lawful input

end Meter

end ContainerAnomaly.Lib
