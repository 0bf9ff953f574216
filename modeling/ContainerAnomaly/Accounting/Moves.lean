import ContainerAnomaly.Accounting.Ownership
import ContainerAnomaly.Container.Refresh

/-!
# Processes that move between cgroups

The resolver over time: processes start, end and move to other cgroups, the cgroup file cannot
always be opened, and `Refresh` and `Resolve` are called in any order. A cached answer outlives a
move, and `Refresh` drops none that is empty. Resolving follows the cgroup of a process exactly when
each answer comes from a call that could read the cgroup the process is in now
(`follows_iff_read_in_place`).
-/

namespace ContainerAnomaly.Accounting

open Lib Container

/-- The processes of the host and the resolver. -/
structure Host where
  /-- The live processes, by their pids. -/
  process : UInt32 → Option Process
  /-- The resolver that is asked for them. -/
  resolver : Resolver

/-- The host when the agent starts. -/
def Host.boot (process : UInt32 → Option Process) : Host := ⟨process, ⟨∅, ∅⟩⟩

/-- What happens on the host. -/
inductive Happening where
  /-- A process starts under a free pid. -/
  | create (pid : UInt32) (process : Process)
  /-- The process of a pid is gone. -/
  | exit (pid : UInt32)
  /-- The process of a pid moves; its cgroup file reads otherwise from then on. -/
  | move (pid : UInt32) (cgroup : GoString)
  /-- `Refresh`. -/
  | refresh (docker : Docker)
  /-- `Resolve`, when the cgroup file can be opened or cannot. -/
  | resolve (pid : UInt32) (opens : Bool)

/-- The same process in another cgroup. -/
def Process.moved (process : Process) (cgroup : GoString) : Process :=
  { process with
    container := ((GoString.scanLines cgroup).findSome? findCID).getD [], cgroup, named := rfl }

/-- `/proc` as a call of `Resolve` finds it. -/
def Host.procFs (host : Host) (opens : Bool) : ProcFs where
  stat := fun pid => (host.process pid).map Process.stat
  cgroup := fun pid => if opens then (host.process pid).map Process.cgroup else none

/-- One step of the host; `Resolve` puts out its answer. -/
def Host.step (host : Host) : Happening → Host × List GoString
  | .create pid process =>
    match host.process pid with
    | some _ => (host, [])
    | none => ({ host with process := Function.update host.process pid (some process) }, [])
  | .exit pid => ({ host with process := Function.update host.process pid none }, [])
  | .move pid cgroup =>
    let moved := (host.process pid).map fun process => process.moved cgroup
    ({ host with process := Function.update host.process pid moved }, [])
  | .refresh docker =>
    ({ host with resolver := (host.resolver.refresh docker).getD host.resolver }, [])
  | .resolve pid opens =>
    let answer := host.resolver.resolve (host.procFs opens) pid
    ({ host with resolver := answer.2 }, [answer.1])

/-- The host as a machine. -/
def hostMachine : Machine Host Happening GoString := ⟨Host.step⟩

/-- A happening starts, ends or moves the process of a pid. -/
def Happening.places (pid : UInt32) : Happening → Bool
  | .create other _ => other = pid
  | .exit other => other = pid
  | .move other _ => other = pid
  | _ => false

/-- A refresh that gets the list of containers. -/
def Happening.refreshes : Happening → Bool
  | .refresh docker => docker.listContainers.isSome
  | _ => false

/-- A refresh that drops the cached answers with a container id. -/
def Happening.drops (cid : GoString) : Happening → Bool
  | .refresh docker =>
    docker.listContainers.any fun summaries => !stays (containersOf docker summaries) cid
  | _ => false

/-- A successful refresh has followed the last step that placed the process of a pid. -/
def Settled (past : List Happening) (pid : UInt32) : Prop :=
  ∃ happening ∈ sinceLast (·.places pid) past, happening.refreshes

/-- Resolving follows the processes: whenever a settled one is resolved, the answer is the container
that its cgroup file names at the moment. -/
def Follows (start : Host) (inputs : List Happening) : Prop :=
  ∀ past pid opens rest process, inputs = past ++ .resolve pid opens :: rest →
    (hostMachine.final start past).process pid = some process → Settled past pid →
    (hostMachine.step (hostMachine.final start past) (.resolve pid opens)).2 = [process.container]

/-- The container of the process that holds a pid, empty when there is none. -/
def Host.owner (host : Host) (pid : UInt32) : GoString :=
  ((host.process pid).map Process.container).getD []

/-- The process of an identity is alive and no answer is cached for it. -/
def Host.Misses (host : Host) (upid : UPID) : Prop :=
  (∃ process, host.process upid.pid = some process ∧ process.startTime = upid.startTime) ∧
    host.resolver.upidCache.lookup upid = none

/-- What a call that misses the cache finds and remembers: nothing when the file cannot be
opened. -/
def Host.finds (host : Host) (pid : UInt32) (opens : Bool) : GoString :=
  if opens then host.owner pid else []

/-- The call that the answer for an identity comes from: it missed the cache, and no refresh since
has dropped what it found. -/
def Source (start : Host) (calls : List Happening) (upid : UPID) (before : List Happening)
    (opens : Bool) : Prop :=
  ∃ after, calls = before ++ .resolve upid.pid opens :: after ∧
    (hostMachine.final start before).Misses upid ∧
    ∀ happening ∈ after,
      happening.drops ((hostMachine.final start before).finds upid.pid opens) = false

/-- What a call of `Resolve` for a live process answers and remembers. -/
theorem Host.resolve_live (host : Host) {pid : UInt32} {process : Process}
    (alive : host.process pid = some process) (opens : Bool) :
    host.resolver.resolve (host.procFs opens) pid =
      match host.resolver.upidCache.lookup ⟨pid, process.startTime⟩ with
      | some cid => (cid, host.resolver)
      | none => (host.finds pid opens, { host.resolver with
          upidCache := host.resolver.upidCache.insert ⟨pid, process.startTime⟩
            (host.finds pid opens) }) := by
  have started : readStartTimeTicks (host.procFs opens) pid = .ok process.startTime := by
    simp [readStartTimeTicks, procFs, alive, process.started]
  have named : parseContainerIDFromCgroup (host.procFs opens) pid = host.finds pid opens := by
    cases opens with
    | false => rfl
    | true => simp [parseContainerIDFromCgroup, procFs, alive, finds, owner, process.named]
  cases cached : host.resolver.upidCache.lookup ⟨pid, process.startTime⟩ with
  | some cid => simp only [Resolver.resolve, started, cached]
  | none => simp only [Resolver.resolve, started, cached, named]

/-- A call of `Resolve` for a pid that no process holds. -/
theorem Host.resolve_free (host : Host) {pid : UInt32} (free : host.process pid = none)
    (opens : Bool) : host.resolver.resolve (host.procFs opens) pid = ([], host.resolver) := by
  simp [Resolver.resolve, readStartTimeTicks, procFs, free]

/-- What is cached for an identity after a step: what a call for it found on a miss, or what was
cached and is not dropped. -/
theorem Host.lookup_step (host : Host) (happening : Happening) (upid : UPID) (cid : GoString) :
    (host.step happening).1.resolver.upidCache.lookup upid = some cid ↔
      (∃ opens, happening = .resolve upid.pid opens ∧ host.Misses upid ∧
        host.finds upid.pid opens = cid) ∨
      (host.resolver.upidCache.lookup upid = some cid ∧ happening.drops cid = false) := by
  cases happening with
  | create pid process => cases held : host.process pid <;> simp [step, held, Happening.drops]
  | exit pid => simp [step, Happening.drops]
  | move pid cgroup => simp [step, Happening.drops]
  | refresh docker =>
    cases listed : docker.listContainers with
    | none => simp [step, Resolver.refresh, listed, Happening.drops]
    | some summaries =>
      obtain ⟨next, refreshed⟩ : ∃ next, host.resolver.refresh docker = some next := by
        simp [Resolver.refresh, listed]
      have after := Resolver.lookup_refresh listed refreshed upid
      simp [step, refreshed, after, Happening.drops, listed, Option.filter_eq_some_iff]
  | resolve pid opens =>
    change (host.resolver.resolve (host.procFs opens) pid).2.upidCache.lookup upid = some cid ↔ _
    cases held : host.process pid with
    | none =>
      rw [host.resolve_free held]
      have never : ∀ o, Happening.resolve pid opens = .resolve upid.pid o → ¬ host.Misses upid := by
        rintro o same ⟨⟨process, alive, _⟩, _⟩
        obtain ⟨rfl, rfl⟩ := Happening.resolve.inj same
        rw [held] at alive
        cases alive
      constructor
      · exact fun cached => .inr ⟨cached, rfl⟩
      · rintro (⟨o, same, misses, _⟩ | ⟨cached, _⟩)
        · exact absurd misses (never o same)
        · exact cached
    | some process =>
      by_cases own : upid = ⟨pid, process.startTime⟩
      · subst own
        rw [host.resolve_live held]
        cases cached : host.resolver.upidCache.lookup ⟨pid, process.startTime⟩ with
        | some found =>
          dsimp only
          simp [cached, Misses, Happening.drops]
        | none =>
          dsimp only
          simp [Misses, held, cached]
      · have kept : (host.resolver.resolve (host.procFs opens) pid).2.upidCache.lookup upid =
            host.resolver.upidCache.lookup upid := by
          rw [host.resolve_live held]
          split
          · rfl
          · exact AList.lookup_insert_ne own
        rw [kept]
        constructor
        · exact fun cached => .inr ⟨cached, rfl⟩
        · rintro (⟨o, same, ⟨⟨other, alive, began⟩, _⟩, _⟩ | ⟨cached, _⟩)
          · obtain ⟨rfl, rfl⟩ := Happening.resolve.inj same
            obtain rfl := Option.some.inj (held.symm.trans alive)
            have here : upid = ⟨upid.pid, process.startTime⟩ := by rw [began]
            exact absurd here own
          · exact cached

/-- The answer for a live process is what is cached for it after the call. -/
theorem Host.step_answer (host : Host) {pid : UInt32} {process : Process}
    (alive : host.process pid = some process) (opens : Bool) (cid : GoString) :
    (host.step (.resolve pid opens)).2 = [cid] ↔
      (host.step (.resolve pid opens)).1.resolver.upidCache.lookup ⟨pid, process.startTime⟩ =
        some cid := by
  simp only [step, host.resolve_live alive opens]
  cases cached : host.resolver.upidCache.lookup ⟨pid, process.startTime⟩ with
  | some found => simp [cached]
  | none => simp

/-- What is cached comes from its source. -/
theorem cached_iff_source (start : Host) (empty : start.resolver.upidCache = ∅)
    (calls : List Happening) (upid : UPID) (cid : GoString) :
    (hostMachine.final start calls).resolver.upidCache.lookup upid = some cid ↔
      ∃ before opens, Source start calls upid before opens ∧
        (hostMachine.final start before).finds upid.pid opens = cid := by
  induction calls using List.reverseRecOn generalizing cid with
  | nil => simp [Source, empty]
  | append_singleton calls last ih =>
    rw [Machine.final_snoc]
    change (Host.step _ last).1.resolver.upidCache.lookup upid = some cid ↔ _
    rw [Host.lookup_step, ih]
    constructor
    · rintro (⟨opens, rfl, misses, found⟩ |
        ⟨⟨before, opens, ⟨after, split, misses, kept⟩, found⟩, last_keeps⟩)
      · exact ⟨calls, opens, ⟨[], rfl, misses, fun _ member => by cases member⟩, found⟩
      · refine ⟨before, opens, ⟨after ++ [last], by simp [split], misses, fun h member => ?_⟩,
          found⟩
        rcases List.mem_append.mp member with earlier | now
        · exact kept h earlier
        · rw [List.mem_singleton.mp now, found]
          exact last_keeps
    · rintro ⟨before, opens, ⟨after, split, misses, kept⟩, found⟩
      rcases List.eq_nil_or_concat after with rfl | ⟨between, final, rfl⟩
      · obtain ⟨rfl, rfl⟩ := List.append_inj' split rfl |>.imp_right List.singleton_inj.mp
        exact .inl ⟨opens, rfl, misses, found⟩
      · rw [List.concat_eq_append, ← List.cons_append, ← List.append_assoc] at split
        obtain ⟨rfl, same⟩ := List.append_inj' split rfl
        obtain rfl := List.singleton_inj.mp same
        rw [List.concat_eq_append] at kept
        refine .inr ⟨⟨before, opens, ⟨between, rfl, misses, fun h member => ?_⟩, found⟩, ?_⟩
        · exact kept h (List.mem_append_left _ member)
        · rw [← found]
          exact kept last (List.mem_append_right _ List.mem_cons_self)

/-- In every run, resolving follows the processes exactly when every call that is judged gets its
answer, be it its own or an earlier one, from a call that could open the cgroup file while the
process was in the container it is in now; one that could not open it will do for a process without
a container. -/
theorem follows_iff_read_in_place (process : UInt32 → Option Process) (inputs : List Happening) :
    Follows (.boot process) inputs ↔
      ∀ past pid opens rest holder, inputs = past ++ .resolve pid opens :: rest →
        (hostMachine.final (.boot process) past).process pid = some holder → Settled past pid →
        ∀ before opened,
          Source (.boot process) (past ++ [.resolve pid opens]) ⟨pid, holder.startTime⟩ before
            opened →
          if opened then (hostMachine.final (.boot process) before).owner pid = holder.container
          else holder.container = [] := by
  have judged (past : List Happening) (pid : UInt32) (opens : Bool) (holder : Process)
      (alive : (hostMachine.final (.boot process) past).process pid = some holder) :
      (hostMachine.step (hostMachine.final (.boot process) past) (.resolve pid opens)).2 =
          [holder.container] ↔
        ∀ before opened,
          Source (.boot process) (past ++ [.resolve pid opens]) ⟨pid, holder.startTime⟩ before
            opened →
          if opened then (hostMachine.final (.boot process) before).owner pid = holder.container
          else holder.container = [] := by
    have cached := cached_iff_source (.boot process) rfl (past ++ [.resolve pid opens])
      ⟨pid, holder.startTime⟩
    rw [Machine.final_snoc] at cached
    have reads (before : List Happening) (opened : Bool) :
        (hostMachine.final (.boot process) before).finds pid opened = holder.container ↔
          if opened then (hostMachine.final (.boot process) before).owner pid = holder.container
          else holder.container = [] := by
      cases opened with
      | true => exact Iff.rfl
      | false => exact eq_comm
    obtain ⟨answer, given⟩ : ∃ answer,
        (hostMachine.step (hostMachine.final (.boot process) past) (.resolve pid opens)).2 =
          [answer] := ⟨_, rfl⟩
    have remembered := (Host.step_answer _ alive opens answer).mp given
    rw [given, List.singleton_inj]
    constructor
    · rintro rfl before opened source
      apply (reads before opened).mp
      exact Option.some.inj (((cached _).mpr ⟨before, opened, source, rfl⟩).symm.trans remembered)
    · intro sources
      obtain ⟨before, opened, source, found⟩ := (cached answer).mp remembered
      rw [← found]
      exact (reads before opened).mpr (sources before opened source)
  constructor
  · intro follows past pid opens rest holder split alive settled
    exact (judged past pid opens holder alive).mp
      (follows past pid opens rest holder split alive settled)
  · intro sources past pid opens rest holder split alive settled
    exact (judged past pid opens holder alive).mpr
      (sources past pid opens rest holder split alive settled)

/-- Neither a new process nor an exit under a pid. -/
def Happening.spares (pid : UInt32) : Happening → Prop
  | .create other _ => other ≠ pid
  | .exit other => other ≠ pid
  | _ => True

/-- An empty answer cached for a live process is its answer for the rest of its life, whatever
cgroups it moves to and however often the resolver is refreshed. -/
theorem host_forever (host : Host) (pid : UInt32) (process : Process)
    (alive : host.process pid = some process)
    (cached : host.resolver.upidCache.lookup ⟨pid, process.startTime⟩ = some [])
    (later : List Happening) (lives : ∀ happening ∈ later, happening.spares pid) (opens : Bool) :
    (hostMachine.step (hostMachine.final host later) (.resolve pid opens)).2 = [[]] := by
  have carried : ∃ now, (hostMachine.final host later).process pid = some now ∧
      now.startTime = process.startTime ∧
      (hostMachine.final host later).resolver.upidCache.lookup ⟨pid, process.startTime⟩ =
        some [] := by
    induction later using List.reverseRecOn with
    | nil => exact ⟨process, alive, rfl, cached⟩
    | append_singleton later happening ih =>
      obtain ⟨now, living, began, remembered⟩ :=
        ih fun h member => lives h (List.mem_append_left _ member)
      have spared := lives happening (List.mem_append_right _ List.mem_cons_self)
      rw [Machine.final_snoc]
      generalize hostMachine.final host later = state at living remembered
      -- No refresh drops an empty answer.
      have keeps : happening.drops [] = false := by
        cases happening with
        | refresh docker =>
          cases listed : docker.listContainers <;> simp [Happening.drops, listed, stays]
        | _ => rfl
      have still := (state.lookup_step happening ⟨pid, process.startTime⟩ []).mpr
        (.inr ⟨remembered, keeps⟩)
      cases happening with
      | create other newcomer =>
        refine ⟨now, ?_, began, still⟩
        cases held : state.process other <;>
          simp [hostMachine, Host.step, held, living, Function.update_of_ne (Ne.symm spared)]
      | exit other =>
        exact ⟨now, (Function.update_of_ne (Ne.symm spared) _ _).trans living, began, still⟩
      | move other cgroup =>
        by_cases same : other = pid
        · subst same
          refine ⟨now.moved cgroup, ?_, began, still⟩
          simp [hostMachine, Host.step, living]
        · exact ⟨now, (Function.update_of_ne (Ne.symm same) _ _).trans living, began, still⟩
      | refresh docker => exact ⟨now, living, began, still⟩
      | resolve other opened => exact ⟨now, living, began, still⟩
  obtain ⟨now, living, began, remembered⟩ := carried
  apply (Host.step_answer _ living opens []).mpr
  rw [began]
  exact (Host.lookup_step _ _ _ _).mpr (.inr ⟨remembered, rfl⟩)

/-- The first process of container `aa..a`, started in the cgroup of the host. -/
def initOfA : Process where
  container := []
  startTime := 500
  stat := shellOfA.stat
  cgroup := lit "0::/\n"
  started := by decide
  named := by decide

/-- Docker runs container `aa..a`. -/
def dockerOfA : Docker where
  listContainers := some [⟨shellOfA.container, [], [], true⟩]
  inspectContainer := fun _ => some ⟨7⟩

/-- The process is resolved before it moves into its container, and a refresh follows. -/
def resolvedEarly : List Happening :=
  [.resolve 7 true, .move 7 shellOfA.cgroup, .refresh dockerOfA]

/-- The process of the container is taken for one of the host, then and for the rest of its
life. -/
theorem resolvedEarly_not_follows :
    let start := Host.boot fun pid => if pid = 7 then some initOfA else none
    ¬ Follows start (resolvedEarly ++ [.resolve 7 true]) ∧
    (hostMachine.final start resolvedEarly).owner 7 = shellOfA.container ∧
    ∀ later, (∀ happening ∈ later, happening.spares 7) → ∀ opens,
      (hostMachine.step (hostMachine.final start (resolvedEarly ++ later))
        (.resolve 7 opens)).2 = [[]] := by
  intro start
  have alive : (hostMachine.final start resolvedEarly).process 7 =
      some (initOfA.moved shellOfA.cgroup) := rfl
  have cached : (hostMachine.final start resolvedEarly).resolver.upidCache.lookup
      ⟨7, (initOfA.moved shellOfA.cgroup).startTime⟩ = some [] := by decide
  have forever := host_forever _ 7 _ alive cached
  refine ⟨fun follows => ?_, by decide, fun later lives opens => ?_⟩
  · have settled : Settled resolvedEarly 7 :=
      ⟨.refresh dockerOfA, by exact List.mem_cons_self, rfl⟩
    have follow := follows resolvedEarly 7 true [] _ rfl alive settled
    have empty := forever [] (fun _ member => by cases member) true
    exact absurd (empty.symm.trans follow) (by decide)
  · rw [Machine.final_append]
    exact forever later lives opens

end ContainerAnomaly.Accounting
