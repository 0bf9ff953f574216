import ContainerAnomaly.Agent.Pipeline
import ContainerAnomaly.Lib.Guarded

/-!
# The goroutines while `main` stops them

When `main` of `cmd/agent/main.go` receives a signal it leaves its loop and runs what it has
deferred: it stops the aggregator and then the collectors one after the other, and closes the
file. `Stop` of a collector closes its `stopCh`, waits for its goroutine, closes the program and its
maps, and closes the channel of its results. All goroutines go on meanwhile, also those that are not
told yet, and nobody receives from them. The refresh goroutine and `pollCgroup` are never told: an
`UpdateContainers` of the former may go on after `Stop` has closed its map, and is refused there.
In every order of their steps nothing is sent on a closed channel, no channel is closed twice and no
collector uses a closed map (`Stopping.Sound.step`).
-/

namespace ContainerAnomaly.Agent

open Lib

/-- Where the goroutine of a collector is. -/
inductive Place where
  /-- At the `select` for its ticker, or in `Read`. -/
  | ready
  /-- It reads the maps for a result, or has a record of a container. -/
  | polling
  /-- At the `select` for sending the result. -/
  | sending
  /-- It has returned. -/
  | returned
deriving DecidableEq

/-- A collector: its goroutine and what `Stop` closes. -/
structure Worker where
  /-- Where its goroutine is. -/
  place : Place
  /-- The results in its channel. -/
  queued : Nat
  /-- `stopCh` is closed. -/
  told : Bool
  /-- The perf reader is closed; only `procexit` has one. -/
  readerClosed : Bool
  /-- The program is detached and its maps are closed. -/
  released : Bool
  /-- The channel of its results is closed. -/
  outClosed : Bool

/-- The goroutine of the aggregator. -/
structure Windows where
  /-- The vectors of the last window that are still to be sent. -/
  pending : Nat
  /-- The vectors in its channel. -/
  queued : Nat
  /-- `stopCh` is closed. -/
  told : Bool
  /-- `Run` has returned. -/
  returned : Bool

/-- What `UpdateContainers` does with `cgid_map`. -/
inductive CgidUse where
  | put | next | delete
deriving DecidableEq

/-- A call of `UpdateContainers`: a `Put` for each mapping, and a walk that deletes the stale
entries. -/
def updateUses (mappings : Nat) (walk : List Bool) : List CgidUse :=
  List.replicate mappings .put ++
    walk.flatMap (fun stale => if stale then [.next, .delete] else [.next]) ++ [.next]

/-- What `main` does after its loop. -/
inductive Action where
  | stopAggregator
  | closeStop (source : Source)
  | closeReader
  | wait (source : Source)
  | release (source : Source)
  | closeOut (source : Source)
  | closeFile
deriving DecidableEq

/-- `Stop` of the three collectors that poll. -/
def stopPoller (source : Source) : List Action :=
  [.closeStop source, .wait source, .release source, .closeOut source]

/-- The deferred calls of `main`, the last one first. `Stop` of the aggregator waits for nobody. -/
def deferred : List Action :=
  [.stopAggregator] ++ stopPoller .sys ++ stopPoller .cpu ++ stopPoller .tcp ++
    [.closeStop .exits, .closeReader, .wait .exits, .release .exits, .closeOut .exits, .closeFile]

/-- What must not happen. -/
inductive Fault where
  | sendOnClosed | closeOfClosed | readAfterClose | writeAfterClose
deriving DecidableEq

/-- The goroutines and `main`. -/
structure Stopping where
  /-- The collectors. -/
  worker : Source → Worker
  /-- The aggregator. -/
  windows : Windows
  /-- What the refresh goroutine has still to do in `UpdateContainers`, where it holds the mutex of
  the syscall collector. -/
  updating : List CgidUse
  /-- How often it was refused because `cgid_map` is closed. -/
  refused : Nat
  /-- The file of the encoder is closed. -/
  fileClosed : Bool
  /-- `main` is in its loop. -/
  looping : Bool
  /-- What `main` has still to do after its loop. -/
  rest : List Action
  /-- What has gone wrong. -/
  fault : Option Fault

/-- All goroutines are started. -/
def Stopping.start : Stopping where
  worker := fun _ => ⟨.ready, 0, false, false, false, false⟩
  windows := ⟨0, 0, false, false⟩
  updating := []
  refused := 0
  fileClosed := false
  looping := true
  rest := deferred
  fault := none

/-- Change a collector. -/
def Stopping.set (s : Stopping) (source : Source) (next : Worker) : Stopping :=
  { s with worker := Function.update s.worker source next }

/-- A collector that is changed. -/
theorem Stopping.set_self (s : Stopping) (source : Source) (next : Worker) :
    (s.set source next).worker source = next :=
  Function.update_self _ _ _

/-- The others stay as they are. -/
theorem Stopping.set_ne (s : Stopping) {source other : Source} (apart : other ≠ source)
    (next : Worker) : (s.set source next).worker other = s.worker other :=
  Function.update_of_ne apart _ _

/-- What happens next. -/
inductive StopEvent where
  /-- `main` receives a result. -/
  | receive (source : Source)
  /-- `main` receives a vector and writes it. -/
  | write
  /-- `main` receives a signal. -/
  | signal
  /-- The goroutine of a collector begins to poll, or `Read` gives it a record of a container. A
  record that it passes over leaves it where it is, and is no event. -/
  | poll (source : Source)
  /-- It has a result. The syscall collector needs its mutex for this. -/
  | collect (source : Source)
  /-- It sends the result. -/
  | send (source : Source)
  /-- It returns, since `stopCh` is closed, or the reader. -/
  | quit (source : Source)
  /-- `main` does the next thing after its loop. -/
  | main
  /-- The ticker of the aggregator, with the number of its vectors. -/
  | window (vectors : Nat)
  /-- The aggregator sends a vector. -/
  | sendVector
  /-- The aggregator returns, since `stopCh` is closed. -/
  | quitWindows
  /-- The refresh goroutine calls `UpdateContainers`, with the number of mappings and what it will
  find stale. -/
  | update (mappings : Nat) (walk : List Bool)
  /-- It does the next thing with `cgid_map`, which may fail. -/
  | operate (succeeds : Bool)
  /-- `pollCgroup` hands a sample to the aggregator; it uses nothing that is ever closed. -/
  | sample

/-- The steps of `main` and of the collectors. -/
def StopEvent.counts : StopEvent → Bool
  | .receive _ | .write | .signal | .poll _ | .collect _ | .send _ | .quit _ | .main => true
  | .window _ | .sendVector | .quitWindows | .update _ _ | .operate _ | .sample => false

/-- `Read` and the ticker are left when the reader or `stopCh` is closed. -/
def Worker.mayLeave (w : Worker) : Source → Bool
  | .exits => w.readerClosed
  | .tcp | .cpu | .sys => w.told

/-- What `main` does after its loop, `none` while it waits. -/
def Stopping.perform (s : Stopping) : Action → Option Stopping
  | .stopAggregator =>
    if s.windows.told then some { s with fault := some .closeOfClosed }
    else some { s with windows := { s.windows with told := true } }
  | .closeStop source =>
    if (s.worker source).told then some { s with fault := some .closeOfClosed }
    else some (s.set source { s.worker source with told := true })
  | .closeReader => some (s.set .exits { s.worker .exits with readerClosed := true })
  | .wait source => if (s.worker source).place = .returned then some s else none
  | .release source => some (s.set source { s.worker source with released := true })
  | .closeOut source =>
    if (s.worker source).outClosed then some { s with fault := some .closeOfClosed }
    else some (s.set source { s.worker source with outClosed := true })
  | .closeFile => some { s with fileClosed := true }

/-- The refresh goroutine goes on with `UpdateContainers`. It returns when a `Put` fails, and leaves
the walk when `Next` does; a `Delete` that fails is ignored. -/
def Stopping.operate (s : Stopping) (succeeds : Bool) : Option Stopping :=
  match s.updating with
  | [] => none
  | use :: rest =>
    let closed := (s.worker .sys).released
    some { s with
      updating := if use = .delete ∨ (succeeds ∧ ¬ closed) then rest else []
      refused := if closed then s.refused + 1 else s.refused }

/-- One step, `none` when it cannot be taken. -/
def Stopping.step (s : Stopping) : StopEvent → Option Stopping
  | .receive source =>
    if s.looping ∧ 0 < (s.worker source).queued then
      some (s.set source { s.worker source with queued := (s.worker source).queued - 1 })
    else none
  | .write =>
    if s.looping ∧ 0 < s.windows.queued then
      if s.fileClosed then some { s with fault := some .writeAfterClose }
      else some { s with windows := { s.windows with queued := s.windows.queued - 1 } }
    else none
  | .signal => if s.looping then some { s with looping := false } else none
  | .poll source =>
    if (s.worker source).place = .ready ∧ (s.worker source).readerClosed = false then
      if (s.worker source).released then some { s with fault := some .readAfterClose }
      else some (s.set source { s.worker source with place := .polling })
    else none
  | .collect source =>
    if (s.worker source).place = .polling ∧ (source = .sys → s.updating = []) then
      if (s.worker source).released then some { s with fault := some .readAfterClose }
      else some (s.set source { s.worker source with place := .sending })
    else none
  | .send source =>
    if (s.worker source).place = .sending then
      if (s.worker source).outClosed then some { s with fault := some .sendOnClosed }
      else if (s.worker source).queued < source.capacity then
        some (s.set source
          { s.worker source with place := .ready, queued := (s.worker source).queued + 1 })
      else none
    else none
  | .quit source =>
    if ((s.worker source).place = .ready ∧ (s.worker source).mayLeave source) ∨
        ((s.worker source).place = .sending ∧ (s.worker source).told) then
      some (s.set source { s.worker source with place := .returned })
    else none
  | .main =>
    if s.looping then none
    else
      match s.rest with
      | [] => none
      | action :: rest => (s.perform action).map fun next => { next with rest := rest }
  | .window vectors =>
    if s.windows.returned = false ∧ s.windows.pending = 0 then
      some { s with windows := { s.windows with pending := vectors } }
    else none
  | .sendVector =>
    if s.windows.returned = false ∧ 0 < s.windows.pending ∧ s.windows.queued < 256 then
      some { s with windows := { s.windows with
        pending := s.windows.pending - 1
        queued := s.windows.queued + 1 } }
    else none
  | .quitWindows =>
    if s.windows.returned = false ∧ s.windows.told then
      some { s with windows := { s.windows with returned := true } }
    else none
  | .update mappings walk =>
    if s.updating = [] ∧ 0 < mappings then
      some { s with updating := updateUses mappings walk }
    else none
  | .operate succeeds => s.operate succeeds
  | .sample => some s

/-- The goroutines and `main` as a guarded machine. -/
def stopping : Guarded Stopping StopEvent := ⟨Stopping.step⟩

/-- What has happened to a collector, by what `main` has still to do. -/
structure Worker.Agrees (w : Worker) (source : Source) (rest : List Action) : Prop where
  /-- It is told from `closeStop` on. -/
  told : w.told = true ↔ .closeStop source ∉ rest
  /-- The reader of `procexit` is closed from `closeReader` on. -/
  reader : w.readerClosed = true ↔ source = .exits ∧ .closeReader ∉ rest
  /-- Its maps are closed from `release` on. -/
  released : w.released = true ↔ .release source ∉ rest
  /-- Its channel is closed from `closeOut` on. -/
  outClosed : w.outClosed = true ↔ .closeOut source ∉ rest
  /-- Its goroutine has returned when it has been waited for. -/
  returned : .wait source ∉ rest → w.place = .returned

/-- `main` has done the first part of what it does, and nothing has gone wrong. -/
structure Stopping.Sound (s : Stopping) : Prop where
  /-- What is left is the end of what is deferred. -/
  remaining : s.rest <:+ deferred
  /-- Every collector is as far as `main` is with it. -/
  agrees : ∀ source, (s.worker source).Agrees source s.rest
  /-- The aggregator is told first. -/
  windows : s.windows.told = true ↔ .stopAggregator ∉ s.rest
  /-- The file is closed last. -/
  file : s.fileClosed = true → .closeFile ∉ s.rest
  /-- Only a closed map refuses. -/
  refused : 0 < s.refused → (s.worker .sys).released = true
  /-- Nothing has gone wrong. -/
  unharmed : s.fault = none
  /-- Nothing is done while `main` loops. -/
  whole : s.looping = true → s.rest = deferred

/-- Nothing is done twice, and a collector is waited for before what it uses is closed, and after
it is told. -/
theorem order_of_suffix {rest : List Action} (remaining : rest <:+ deferred) :
    rest.Nodup ∧ ∀ source : Source,
      (.release source ∉ rest → .wait source ∉ rest) ∧
      (.closeOut source ∉ rest → .wait source ∉ rest) ∧
      (rest.head? = some (.wait source) →
        .closeStop source ∉ rest ∧ (source = .exits → .closeReader ∉ rest)) := by
  have all : ∀ rest ∈ deferred.tails, rest.Nodup ∧ ∀ source : Source,
      (.release source ∉ rest → .wait source ∉ rest) ∧
      (.closeOut source ∉ rest → .wait source ∉ rest) ∧
      (rest.head? = some (.wait source) →
        .closeStop source ∉ rest ∧ (source = .exits → .closeReader ∉ rest)) := by
    decide +kernel
  exact all rest ((List.mem_tails rest deferred).mpr remaining)

/-- A collector that changes as it should. -/
theorem Stopping.Sound.set {s : Stopping} (sound : s.Sound) {source : Source} {next : Worker}
    (agrees : next.Agrees source s.rest) : (s.set source next).Sound where
  remaining := sound.remaining
  agrees other := by
    by_cases same : other = source
    · subst same
      rw [s.set_self]
      exact agrees
    · rw [s.set_ne same]
      exact sound.agrees other
  windows := sound.windows
  file := sound.file
  refused late := by
    have before := (sound.agrees .sys).released.mp (sound.refused late)
    by_cases same : Source.sys = source
    · subst same
      rw [s.set_self]
      exact agrees.released.mpr before
    · rw [s.set_ne same]
      exact sound.refused late
  unharmed := sound.unharmed
  whole := sound.whole

/-- A goroutine that goes on was not waited for. -/
theorem Stopping.Sound.awaited {s : Stopping} (sound : s.Sound) {source : Source}
    (alive : (s.worker source).place ≠ .returned) : .wait source ∈ s.rest :=
  by_contra fun gone => alive ((sound.agrees source).returned gone)

/-- A collector that goes on has its maps and its channel. -/
theorem Stopping.Sound.usable {s : Stopping} (sound : s.Sound) {source : Source}
    (alive : (s.worker source).place ≠ .returned) :
    ¬ (s.worker source).released = true ∧ ¬ (s.worker source).outClosed = true := by
  have awaited := sound.awaited alive
  have order := (order_of_suffix sound.remaining).2 source
  have old := sound.agrees source
  exact ⟨fun released => order.1 (old.released.mp released) awaited,
    fun closed => order.2.1 (old.outClosed.mp closed) awaited⟩

/-- A collector whose goroutine goes on changes as it should. -/
theorem Stopping.Sound.moved {s : Stopping} (sound : s.Sound) {source : Source}
    (alive : (s.worker source).place ≠ .returned) (place : Place) (queued : Nat) :
    (s.set source { s.worker source with place := place, queued := queued }).Sound := by
  have awaited := sound.awaited alive
  have old := sound.agrees source
  exact sound.set ⟨old.told, old.reader, old.released, old.outClosed,
    fun gone => absurd awaited gone⟩

/-- The collector that something is done to. -/
def Action.source : Action → Option Source
  | .closeStop source | .wait source | .release source | .closeOut source => some source
  | .closeReader => some .exits
  | .stopAggregator | .closeFile => none

/-- What is done to one collector says nothing of the others. -/
theorem Worker.Agrees.tail {w : Worker} {source : Source} {action : Action} {rest : List Action}
    (agrees : w.Agrees source (action :: rest)) (other : action.source ≠ some source) :
    w.Agrees source rest := by
  have skip : ∀ own : Action, own.source = some source → (own ∉ action :: rest ↔ own ∉ rest) := by
    intro own mine
    rw [List.mem_cons, not_or, and_iff_right]
    rintro rfl
    exact other mine
  refine ⟨?_, ?_, ?_, ?_, ?_⟩
  · exact agrees.told.trans (skip _ rfl)
  · exact agrees.reader.trans (and_congr_right fun exits => skip _ (exits ▸ rfl))
  · exact agrees.released.trans (skip _ rfl)
  · exact agrees.outClosed.trans (skip _ rfl)
  · exact fun gone => agrees.returned ((skip _ rfl).mpr gone)

/-- What `main` does to a collector. -/
def Worker.after (w : Worker) : Action → Worker
  | .closeStop _ => { w with told := true }
  | .closeReader => { w with readerClosed := true }
  | .release _ => { w with released := true }
  | .closeOut _ => { w with outClosed := true }
  | .wait _ | .stopAggregator | .closeFile => w

/-- A collector to which the next thing is done agrees with what is left. -/
theorem Worker.Agrees.after {w : Worker} {source : Source} {action : Action} {rest : List Action}
    (agrees : w.Agrees source (action :: rest)) (mine : action.source = some source)
    (once : action ∉ rest) (waited : action = .wait source → w.place = .returned) :
    (w.after action).Agrees source rest := by
  cases action with
  | stopAggregator | closeFile => cases mine
  | closeStop other =>
    obtain rfl := Option.some.inj mine
    refine ⟨iff_of_true rfl once, ?_, ?_, ?_, ?_⟩
    · simpa [Worker.after] using agrees.reader
    · simpa [Worker.after] using agrees.released
    · simpa [Worker.after] using agrees.outClosed
    · simpa [Worker.after] using agrees.returned
  | closeReader =>
    obtain rfl := Option.some.inj mine
    refine ⟨?_, iff_of_true rfl ⟨rfl, once⟩, ?_, ?_, ?_⟩
    · simpa [Worker.after] using agrees.told
    · simpa [Worker.after] using agrees.released
    · simpa [Worker.after] using agrees.outClosed
    · simpa [Worker.after] using agrees.returned
  | wait other =>
    obtain rfl := Option.some.inj mine
    refine ⟨?_, ?_, ?_, ?_, fun _ => waited rfl⟩
    · simpa [Worker.after] using agrees.told
    · simpa [Worker.after] using agrees.reader
    · simpa [Worker.after] using agrees.released
    · simpa [Worker.after] using agrees.outClosed
  | release other =>
    obtain rfl := Option.some.inj mine
    refine ⟨?_, ?_, iff_of_true rfl once, ?_, ?_⟩
    · simpa [Worker.after] using agrees.told
    · simpa [Worker.after] using agrees.reader
    · simpa [Worker.after] using agrees.outClosed
    · simpa [Worker.after] using agrees.returned
  | closeOut other =>
    obtain rfl := Option.some.inj mine
    refine ⟨?_, ?_, ?_, iff_of_true rfl once, ?_⟩
    · simpa [Worker.after] using agrees.told
    · simpa [Worker.after] using agrees.reader
    · simpa [Worker.after] using agrees.released
    · simpa [Worker.after] using agrees.returned

/-- What `main` does while nothing has gone wrong: something to the aggregator or the file, or to a
collector, for which it waits where it has to. -/
theorem Stopping.Sound.performed {s next : Stopping} {action : Action} {rest : List Action}
    (sound : s.Sound) (first : s.rest = action :: rest)
    (performed : s.perform action = some next) :
    (action = .stopAggregator ∧ next = { s with windows := { s.windows with told := true } }) ∨
    (action = .closeFile ∧ next = { s with fileClosed := true }) ∨
    ∃ source, action.source = some source ∧
      next = s.set source ((s.worker source).after action) ∧
      (action = .wait source → (s.worker source).place = .returned) := by
  have here : action ∈ s.rest := first ▸ List.mem_cons_self
  cases action with
  | stopAggregator =>
    rw [Stopping.perform, if_neg fun told => sound.windows.mp told here] at performed
    exact .inl ⟨rfl, (Option.some.inj performed).symm⟩
  | closeFile => exact .inr (.inl ⟨rfl, (Option.some.inj performed).symm⟩)
  | closeStop source =>
    rw [Stopping.perform, if_neg fun told => (sound.agrees source).told.mp told here] at performed
    exact .inr (.inr ⟨source, rfl, (Option.some.inj performed).symm, fun wait => by cases wait⟩)
  | closeReader =>
    exact .inr (.inr ⟨.exits, rfl, (Option.some.inj performed).symm, fun wait => by cases wait⟩)
  | wait source =>
    obtain ⟨returned, same⟩ := Option.ite_none_right_eq_some.mp performed
    refine .inr (.inr ⟨source, rfl, ?_, fun _ => returned⟩)
    rw [← Option.some.inj same, Stopping.set, Worker.after, Function.update_eq_self]
  | release source =>
    exact .inr (.inr ⟨source, rfl, (Option.some.inj performed).symm, fun wait => by cases wait⟩)
  | closeOut source =>
    rw [Stopping.perform, if_neg fun closed => (sound.agrees source).outClosed.mp closed here]
      at performed
    exact .inr (.inr ⟨source, rfl, (Option.some.inj performed).symm, fun wait => by cases wait⟩)

/-- What `main` does is done as it should be. -/
theorem Stopping.Sound.perform {s next : Stopping} {action : Action} {rest : List Action}
    (sound : s.Sound) (after : s.looping = false) (first : s.rest = action :: rest)
    (performed : s.perform action = some next) : { next with rest := rest }.Sound := by
  have remaining : rest <:+ deferred :=
    (List.suffix_cons action rest).trans (first ▸ sound.remaining)
  have once : action ∉ rest :=
    (List.nodup_cons.mp (first ▸ (order_of_suffix sound.remaining).1)).1
  have skip : ∀ own, own ≠ action → (own ∉ s.rest ↔ own ∉ rest) := by
    intro own other
    rw [first, List.mem_cons, not_or, and_iff_right other]
  have before : ∀ other, (s.worker other).Agrees other (action :: rest) :=
    fun other => first ▸ sound.agrees other
  have whole : s.looping = true → rest = deferred := by
    intro looping
    rw [after] at looping
    cases looping
  rcases sound.performed first performed with ⟨rfl, rfl⟩ | ⟨rfl, rfl⟩ | ⟨source, mine, rfl, waited⟩
  · exact ⟨remaining, fun other => (before other).tail (by simp [Action.source]),
      iff_of_true rfl once, fun closed => (skip _ (by simp)).mp (sound.file closed),
      sound.refused, sound.unharmed, whole⟩
  · exact ⟨remaining, fun other => (before other).tail (by simp [Action.source]),
      sound.windows.trans (skip _ (by simp)), fun _ => once, sound.refused, sound.unharmed, whole⟩
  · have agrees : ∀ other, ((s.set source ((s.worker source).after action)).worker other).Agrees
        other rest := by
      intro other
      by_cases same : other = source
      · subst same
        rw [s.set_self]
        exact (before other).after mine once waited
      · rw [s.set_ne same]
        refine (before other).tail fun also => same ?_
        exact Option.some.inj (also.symm.trans mine)
    have apart : ∀ own : Action, own.source = none → own ≠ action := by
      rintro own none rfl
      rw [none] at mine
      cases mine
    refine ⟨remaining, agrees, sound.windows.trans (skip _ (apart _ rfl)),
      fun closed => (skip _ (apart _ rfl)).mp (sound.file closed), fun late => ?_,
      sound.unharmed, whole⟩
    have still : Action.release .sys ∉ action :: rest :=
      first ▸ (sound.agrees .sys).released.mp (sound.refused late)
    exact (agrees .sys).released.mpr fun inside => still (List.mem_cons_of_mem _ inside)

/-- What a step of `main` or of a collector can do while nothing has gone wrong. -/
inductive Stopping.Taken (s : Stopping) : Stopping → Prop
  | receive (source : Source) (looping : s.looping = true) :
    s.Taken (s.set source
      { s.worker source with queued := (s.worker source).queued - 1 })
  | write (looping : s.looping = true) :
    s.Taken { s with windows := { s.windows with queued := s.windows.queued - 1 } }
  | signal (looping : s.looping = true) : s.Taken { s with looping := false }
  | poll (source : Source) (ready : (s.worker source).place = .ready) :
    s.Taken (s.set source { s.worker source with place := .polling })
  | collect (source : Source) (polling : (s.worker source).place = .polling) :
    s.Taken (s.set source { s.worker source with place := .sending })
  | send (source : Source) (sending : (s.worker source).place = .sending)
    (room : (s.worker source).queued < source.capacity) :
    s.Taken (s.set source
      { s.worker source with place := .ready, queued := (s.worker source).queued + 1 })
  | quit (source : Source) (alive : (s.worker source).place ≠ .returned) :
    s.Taken (s.set source { s.worker source with place := .returned })
  | main {next : Stopping} {action : Action} {rest : List Action} (after : s.looping = false)
    (first : s.rest = action :: rest) (performed : s.perform action = some next) :
    s.Taken { next with rest := rest }

/-- A step of `main` or of a collector does one of these: what is closed is not used, since `main`
waits before it closes. -/
theorem Stopping.Sound.taken {s next : Stopping} {event : StopEvent} (sound : s.Sound)
    (counts : event.counts = true) (taken : stopping.step s event = some next) :
    s.Taken next := by
  cases event with
  | receive source =>
    obtain ⟨⟨looping, _⟩, same⟩ := Option.ite_none_right_eq_some.mp taken
    exact Option.some.inj same ▸ .receive source looping
  | write =>
    obtain ⟨⟨looping, _⟩, same⟩ := Option.ite_none_right_eq_some.mp taken
    have whole := sound.whole looping
    rw [if_neg fun closed => sound.file closed (by rw [whole]; decide)] at same
    exact Option.some.inj same ▸ .write looping
  | signal =>
    obtain ⟨looping, same⟩ := Option.ite_none_right_eq_some.mp taken
    exact Option.some.inj same ▸ .signal looping
  | poll source =>
    obtain ⟨⟨ready, _⟩, same⟩ := Option.ite_none_right_eq_some.mp taken
    rw [if_neg (sound.usable (ready ▸ (by decide))).1] at same
    exact Option.some.inj same ▸ .poll source ready
  | collect source =>
    obtain ⟨⟨polling, _⟩, same⟩ := Option.ite_none_right_eq_some.mp taken
    rw [if_neg (sound.usable (polling ▸ (by decide))).1] at same
    exact Option.some.inj same ▸ .collect source polling
  | send source =>
    obtain ⟨sending, same⟩ := Option.ite_none_right_eq_some.mp taken
    rw [if_neg (sound.usable (sending ▸ (by decide))).2] at same
    obtain ⟨room, same⟩ := Option.ite_none_right_eq_some.mp same
    exact Option.some.inj same ▸ .send source sending room
  | quit source =>
    obtain ⟨alive, same⟩ := Option.ite_none_right_eq_some.mp taken
    refine Option.some.inj same ▸ .quit source fun returned => ?_
    rw [returned] at alive
    exact alive.elim (fun ready => by cases ready.1) (fun sending => by cases sending.1)
  | main =>
    obtain ⟨after, same⟩ := Option.ite_none_left_eq_some.mp taken
    cases first : s.rest with
    | nil =>
      rw [first] at same
      cases same
    | cons action rest =>
      rw [first] at same
      obtain ⟨performed, done, rfl⟩ := Option.map_eq_some_iff.mp same
      exact .main (Bool.eq_false_iff.mpr after) first done
  | window | sendVector | quitWindows | update | operate | sample => cases counts

/-- A step of another goroutine leaves the collectors and `main` alone, and is refused only by a
closed map. -/
structure Stopping.Aside (s next : Stopping) : Prop where
  /-- The collectors are as before. -/
  worker : next.worker = s.worker
  /-- The aggregator is told when it was before. -/
  told : next.windows.told = s.windows.told
  /-- The file is closed when it was before. -/
  fileClosed : next.fileClosed = s.fileClosed
  /-- `main` loops when it did before. -/
  looping : next.looping = s.looping
  /-- `main` has the same left to do. -/
  rest : next.rest = s.rest
  /-- Nothing has gone wrong by it. -/
  fault : next.fault = s.fault
  /-- A refusal is counted when the map is closed only. -/
  refused : next.refused = s.refused ∨ (s.worker .sys).released = true

/-- Every step of another goroutine is one aside. -/
theorem Stopping.aside {s next : Stopping} {event : StopEvent} (other : event.counts = false)
    (taken : stopping.step s event = some next) : s.Aside next := by
  cases event with
  | window | sendVector | quitWindows | update =>
    obtain ⟨_, same⟩ := Option.ite_none_right_eq_some.mp taken
    exact Option.some.inj same ▸ ⟨rfl, rfl, rfl, rfl, rfl, rfl, .inl rfl⟩
  | operate succeeds =>
    have same : s.operate succeeds = some next := taken
    unfold Stopping.operate at same
    split at same
    · cases same
    · refine Option.some.inj same ▸ ⟨rfl, rfl, rfl, rfl, rfl, rfl, ?_⟩
      by_cases closed : (s.worker .sys).released = true
      · exact .inr closed
      · exact .inl (if_neg closed)
  | sample => exact Option.some.inj taken ▸ ⟨rfl, rfl, rfl, rfl, rfl, rfl, .inl rfl⟩
  | receive | write | signal | poll | collect | send | quit | main => cases other

/-- Every step of a goroutine or of `main` is sound. -/
theorem Stopping.Sound.step (s : Stopping) (event : StopEvent) (next : Stopping) (sound : s.Sound)
    (taken : stopping.step s event = some next) : next.Sound := by
  cases counts : event.counts with
  | false =>
    obtain ⟨worker, told, file, looping, rest, fault, refused⟩ := Stopping.aside counts taken
    refine ⟨rest ▸ sound.remaining, ?_, ?_, ?_, ?_, fault.trans sound.unharmed, ?_⟩
    · rw [worker, rest]
      exact sound.agrees
    · rw [told, rest]
      exact sound.windows
    · rw [file, rest]
      exact sound.file
    · rw [worker]
      exact fun late => refused.elim (fun same => sound.refused (same ▸ late)) id
    · rw [looping, rest]
      exact sound.whole
  | true =>
    cases sound.taken counts taken with
    | receive source _ =>
      have old := sound.agrees source
      exact sound.set ⟨old.told, old.reader, old.released, old.outClosed, old.returned⟩
    | write _ =>
      exact ⟨sound.remaining, sound.agrees, sound.windows, sound.file, sound.refused,
        sound.unharmed, sound.whole⟩
    | quit source _ =>
      have old := sound.agrees source
      exact sound.set ⟨old.told, old.reader, old.released, old.outClosed, fun _ => rfl⟩
    | signal looping =>
      exact ⟨sound.remaining, sound.agrees, sound.windows, sound.file, sound.refused,
        sound.unharmed, fun looping => by cases looping⟩
    | poll source ready => exact sound.moved (ready ▸ (by decide)) _ _
    | collect source polling => exact sound.moved (polling ▸ (by decide)) _ _
    | send source sending _ => exact sound.moved (sending ▸ (by decide)) _ _
    | main after first performed => exact sound.perform after first performed

end ContainerAnomaly.Agent
