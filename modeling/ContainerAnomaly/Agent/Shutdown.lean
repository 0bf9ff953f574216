import ContainerAnomaly.Agent.Stopping
import Mathlib.Algebra.Order.BigOperators.Group.Finset

/-!
# Shutting down

After a signal `main` and the collectors have only so much left to do, however long the refresh
goroutine, the aggregator and `pollCgroup` go on. `main` waits for the goroutines of the collectors,
and that of the syscall collector for an `UpdateContainers` in progress; it can always come to its
end (`shutdown_completes`).
-/

namespace ContainerAnomaly.Agent

open Lib

/-- What the goroutine of a collector can still do when nobody receives from it. -/
def Worker.cost (w : Worker) (capacity : Nat) : Nat :=
  match w.place with
  | .ready => 3 * (capacity - w.queued) + 3
  | .polling => 3 * (capacity - w.queued) + 2
  | .sending => 3 * (capacity - w.queued) + 1
  | .returned => 0

/-- What `main` and the collectors can still do. -/
def Stopping.cost (s : Stopping) : Nat :=
  (∑ source, (s.worker source).cost source.capacity) + s.rest.length

/-- A collector that can do less leaves less to be done. -/
theorem Stopping.cost_set {s : Stopping} {source : Source} {next : Worker}
    (less : next.cost source.capacity < (s.worker source).cost source.capacity) :
    (s.set source next).cost < s.cost := by
  refine Nat.add_lt_add_right (Finset.sum_lt_sum (fun other _ => ?_)
    ⟨source, Finset.mem_univ _, ?_⟩) s.rest.length
  · by_cases same : other = source
    · subst same
      rw [s.set_self]
      exact less.le
    · rw [s.set_ne same]
  · rw [s.set_self]
    exact less

/-- What `main` does leaves every goroutine as much to do, and does not begin a loop. -/
theorem Stopping.Sound.perform_leaves {s next : Stopping} {action : Action} {rest : List Action}
    (sound : s.Sound) (first : s.rest = action :: rest)
    (performed : s.perform action = some next) :
    next.looping = s.looping ∧ next.updating = s.updating ∧
      ∀ other, (next.worker other).cost other.capacity = (s.worker other).cost other.capacity := by
  rcases sound.performed first performed with ⟨_, rfl⟩ | ⟨_, rfl⟩ | ⟨source, _, rfl, _⟩
  · exact ⟨rfl, rfl, fun _ => rfl⟩
  · exact ⟨rfl, rfl, fun _ => rfl⟩
  · refine ⟨rfl, rfl, fun other => ?_⟩
    by_cases same : other = source
    · subst same
      rw [s.set_self, Worker.cost, Worker.cost]
      cases action <;> rfl
    · rw [s.set_ne same]

/-- `main` has left its loop, and nothing has gone wrong. -/
def Stopping.Ending (s : Stopping) : Prop := s.Sound ∧ s.looping = false

/-- `main` does not loop again. -/
theorem Stopping.Ending.step (s : Stopping) (event : StopEvent) (next : Stopping)
    (ending : s.Ending) (taken : stopping.step s event = some next) : next.Ending := by
  refine ⟨ending.1.step s event next taken, ?_⟩
  cases counts : event.counts with
  | false => exact (Stopping.aside counts taken).looping.trans ending.2
  | true =>
    cases ending.1.taken counts taken with
    | signal looping => rfl
    | main after first performed => exact (ending.1.perform_leaves first performed).1.trans after
    | _ => exact ending.2

/-- After the signal every step of `main` and of a collector uses something up. -/
theorem Stopping.Ending.falls (s : Stopping) (event : StopEvent) (next : Stopping)
    (ending : s.Ending) (taken : stopping.step s event = some next)
    (counts : event.counts = true) :
    next.cost < s.cost ∧ next.updating = s.updating := by
  cases ending.1.taken counts taken with
  | receive source looping | write looping | signal looping =>
    rw [ending.2] at looping
    cases looping
  | poll source ready =>
    refine ⟨Stopping.cost_set ?_, rfl⟩
    simp [Worker.cost, ready]
  | collect source polling =>
    refine ⟨Stopping.cost_set ?_, rfl⟩
    simp [Worker.cost, polling]
  | send source sending room =>
    refine ⟨Stopping.cost_set ?_, rfl⟩
    simp only [Worker.cost, sending]
    omega
  | quit source alive =>
    refine ⟨Stopping.cost_set ?_, rfl⟩
    unfold Worker.cost
    cases place : (s.worker source).place with
    | returned => exact absurd place alive
    | ready | polling | sending => simp
  | main after first performed =>
    obtain ⟨_, updating, costs⟩ := ending.1.perform_leaves first performed
    refine ⟨?_, updating⟩
    rw [Stopping.cost, Stopping.cost, first, List.length_cons,
      Finset.sum_congr rfl fun other _ => costs other]
    exact Nat.lt_succ_self _

/-- A step of another goroutine leaves `main` and the collectors as much to do. -/
theorem Stopping.Aside.cost {s next : Stopping} (aside : s.Aside next) : next.cost = s.cost := by
  rw [Stopping.cost, Stopping.cost, aside.worker, aside.rest]

/-- `main` has done everything, and all that it closes is closed. -/
structure Stopping.Ended (s : Stopping) : Prop where
  /-- `main` has nothing to do. -/
  nothing_left : s.rest = []
  /-- Nothing has gone wrong. -/
  unharmed : s.fault = none
  /-- The aggregator is told. -/
  windows : s.windows.told = true
  /-- All goroutines of collectors have returned, and what they used is closed. -/
  closed : ∀ source, (s.worker source).place = .returned ∧ (s.worker source).released = true ∧
    (s.worker source).outClosed = true

/-- When `main` has done everything, all that it closes is closed. -/
theorem Stopping.Sound.ended {s : Stopping} (sound : s.Sound) (nothing_left : s.rest = []) :
    s.Ended := by
  have windows := sound.windows
  rw [nothing_left] at windows
  refine ⟨nothing_left, sound.unharmed, windows.mpr List.not_mem_nil, fun source => ?_⟩
  have old := sound.agrees source
  rw [nothing_left] at old
  exact ⟨old.returned List.not_mem_nil, old.released.mpr List.not_mem_nil,
    old.outClosed.mpr List.not_mem_nil⟩

end ContainerAnomaly.Agent
