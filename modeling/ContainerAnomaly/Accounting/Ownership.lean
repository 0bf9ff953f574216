import ContainerAnomaly.Accounting.Reuse

/-!
# Whom activity is reported under

A row is charged to processes while they run and resolved to a container when its turn comes.
The row is that container's own exactly when the pid has not passed to another container in
between: `reports_own_iff`. The cache is sound (`Known`), so where a pid and a start time identify
a process (`Identifies`) the container credited is that of the process that holds the pid.
-/

namespace ContainerAnomaly.Accounting

open Lib Bpf Container

variable {cpus : Nat}

/-- The process has held the pid: from the start, or since it was created under it. -/
def Held (process : UInt32 → Option Process) (events : List (Event cpus)) (pid : UInt32)
    (holder : Process) : Prop :=
  process pid = some holder ∨ Event.create pid holder ∈ events

/-- A pid and a start time identify a process as far as its container: no two processes of
different containers hold a pid with the same start time. -/
def Identifies (process : UInt32 → Option Process) (events : List (Event cpus)) : Prop :=
  ∀ pid left right, Held process events pid left → Held process events pid right →
    left.startTime = right.startTime → left.container = right.container

/-- What the world knows of processes is true: those alive have been there, and a cached
container is that of a process with the pid and start time it is cached under. -/
structure Known (process : UInt32 → Option Process) (events : List (Event cpus))
    (world : World cpus) : Prop where
  /-- A live process has held its pid. -/
  alive : ∀ pid holder, world.process pid = some holder → Held process events pid holder
  /-- A cached container is that of a process that held the pid with the start time. -/
  cached : ∀ upid cid, world.resolver.upidCache.lookup upid = some cid → cid ≠ [] →
    ∃ holder, Held process events upid.pid holder ∧ holder.startTime = upid.startTime ∧
      holder.container = cid

/-- `/proc/<pid>/stat` is that of the holder, where it can be read. -/
theorem procFs_stat (world : World cpus) (reads : Readable) (pid : UInt32) :
    (world.procFs reads).stat pid =
      if reads.stat then (world.process pid).map Process.stat else none := rfl

/-- `/proc/<pid>/cgroup` is that of the holder, where it can be read. -/
theorem procFs_cgroup (world : World cpus) (reads : Readable) (pid : UInt32) :
    (world.procFs reads).cgroup pid =
      if reads.cgroup then (world.process pid).map Process.cgroup else none := rfl

/-- The start time in `/proc` is that of the holder. -/
theorem readStartTimeTicks_procFs (world : World cpus) (reads : Readable) (pid : UInt32)
    (start : UInt64) : readStartTimeTicks (world.procFs reads) pid = .ok start ↔
      reads.stat ∧ ∃ holder, world.process pid = some holder ∧ holder.startTime = start := by
  unfold readStartTimeTicks
  rw [procFs_stat]
  cases reads.stat with
  | false => simp
  | true =>
    cases world.process pid with
    | none => simp
    | some holder => simp [holder.started]

/-- The container in `/proc` is that of the holder. -/
theorem parseContainerID_procFs (world : World cpus) (reads : Readable) (pid : UInt32) :
    parseContainerIDFromCgroup (world.procFs reads) pid =
      if reads.cgroup then world.owner pid else [] := by
  unfold parseContainerIDFromCgroup World.owner ownerIn
  rw [procFs_cgroup]
  cases reads.cgroup with
  | false => rfl
  | true =>
    cases world.process pid with
    | none => rfl
    | some holder => exact holder.named

/-- The container that resolving a pid credits while a process holds it: the one cached for the
pid and the start time of the process, and when none is cached the one its cgroup file names. -/
def World.credited (world : World cpus) (reads : Readable) (pid : UInt32) (holder : Process) :
    GoString :=
  match world.resolver.upidCache.lookup ⟨pid, holder.startTime⟩ with
  | some cid => cid
  | none => if reads.cgroup then holder.container else []

/-- The answer of the resolver: the credited container, and none for a pid without a process or
whose stat file cannot be read. -/
theorem resolve_answer (world : World cpus) (reads : Readable) (pid : UInt32) :
    (world.resolver.resolve (world.procFs reads) pid).1 =
      if reads.stat then
        ((world.process pid).map (world.credited reads pid)).getD []
      else [] := by
  rcases world.resolver.resolve_cases (world.procFs reads) pid with
    ⟨⟨error, failed⟩, answer⟩ | ⟨start, found, began, cached, answer⟩ |
    ⟨start, began, missed, answer⟩
  · rw [answer]
    split
    · rename_i readable
      cases alive : world.process pid with
      | none => rfl
      | some holder =>
        have begun := (readStartTimeTicks_procFs world reads pid holder.startTime).mpr
          ⟨readable, holder, alive, rfl⟩
        rw [failed] at begun
        cases begun
    · rfl
  · obtain ⟨readable, holder, alive, rfl⟩ :=
      (readStartTimeTicks_procFs world reads pid start).mp began
    simp [answer, readable, alive, World.credited, cached]
  · obtain ⟨readable, holder, alive, rfl⟩ :=
      (readStartTimeTicks_procFs world reads pid start).mp began
    rw [answer, parseContainerID_procFs]
    simp [readable, alive, World.credited, missed, World.owner, ownerIn]

/-- Where a pid and a start time identify a process, the container credited is that of the
process that holds the pid. -/
theorem credited_eq_container {process : UInt32 → Option Process} {events : List (Event cpus)}
    {world : World cpus} (identifies : Identifies process events)
    (known : Known process events world) (reads : Readable) {pid : UInt32} {holder : Process}
    (alive : world.process pid = some holder) (named : world.credited reads pid holder ≠ []) :
    world.credited reads pid holder = holder.container := by
  unfold World.credited at named ⊢
  cases cached : world.resolver.upidCache.lookup ⟨pid, holder.startTime⟩ with
  | some cid =>
    simp only [cached] at named ⊢
    obtain ⟨earlier, held, start, container⟩ := known.cached _ cid cached named
    rw [← container]
    exact identifies pid earlier holder held (known.alive pid holder alive) start
  | none =>
    simp only [cached] at named ⊢
    split at named
    · rename_i readable
      exact if_pos readable
    · exact absurd rfl named

/-- Resolving a pid keeps the cache sound. -/
theorem Known.resolve {process : UInt32 → Option Process} {events : List (Event cpus)}
    {world : World cpus} (known : Known process events world) (reads : Readable) (pid : UInt32)
    (upid : UPID) (cid : GoString)
    (found : (world.resolver.resolve (world.procFs reads) pid).2.upidCache.lookup upid = some cid)
    (named : cid ≠ []) :
    ∃ holder, Held process events upid.pid holder ∧ holder.startTime = upid.startTime ∧
      holder.container = cid := by
  rcases world.resolver.resolve_cases (world.procFs reads) pid with
    ⟨_, answer⟩ | ⟨_, _, _, _, answer⟩ | ⟨start, began, _, answer⟩
  · rw [answer] at found
    exact known.cached upid cid found named
  · rw [answer] at found
    exact known.cached upid cid found named
  · rw [answer] at found
    by_cases new : upid = ⟨pid, start⟩
    · subst new
      obtain ⟨_, holder, alive, rfl⟩ := (readStartTimeTicks_procFs world reads pid start).mp began
      simp only [AList.lookup_insert, parseContainerID_procFs, Option.some.injEq] at found
      refine ⟨holder, known.alive pid holder alive, rfl, ?_⟩
      by_cases readable : reads.cgroup
      · rw [if_pos readable, World.owner, ownerIn, alive] at found
        exact found
      · rw [if_neg readable] at found
        exact absurd found.symm named
    · simp only [AList.lookup_insert_ne new] at found
      exact known.cached upid cid found named

/-- What is true of fewer events is true of more. -/
theorem Held.mono {process : UInt32 → Option Process} {events more : List (Event cpus)}
    (fewer : events ⊆ more) {pid : UInt32} {holder : Process}
    (held : Held process events pid holder) : Held process more pid holder :=
  held.imp_right fun created => fewer created

/-- What was known of processes and cache carries over to a later world. -/
theorem Known.later {process : UInt32 → Option Process} {events more : List (Event cpus)}
    (fewer : events ⊆ more) {next : World cpus}
    (alive : ∀ pid holder, next.process pid = some holder → Held process more pid holder)
    (cached : ∀ upid cid, next.resolver.upidCache.lookup upid = some cid → cid ≠ [] →
      ∃ holder, Held process events upid.pid holder ∧ holder.startTime = upid.startTime ∧
        holder.container = cid) :
    Known process more next := by
  refine ⟨alive, fun upid cid found named => ?_⟩
  obtain ⟨holder, held, rest⟩ := cached upid cid found named
  exact ⟨holder, held.mono fewer, rest⟩

/-- What a step can do to processes and cache: a creation, an exit, a resolved pid, an
eviction, or nothing. -/
theorem Known.step (layout : Layout UInt32) {process : UInt32 → Option Process}
    {events : List (Event cpus)} {world : World cpus} (known : Known process events world)
    (event : Event cpus) : Known process (events ++ [event]) (world.step layout event).1 := by
  have fewer : events ⊆ events ++ [event] := List.subset_append_left _ _
  have alive : ∀ pid holder, world.process pid = some holder →
      Held process (events ++ [event]) pid holder :=
    fun pid holder held => (known.alive pid holder held).mono fewer
  have same : Known process (events ++ [event]) world := .later fewer alive known.cached
  cases event with
  | create pid created =>
    simp only [World.step]
    split
    · exact same
    · refine .later fewer (fun other holder present => ?_) known.cached
      by_cases new : other = pid
      · subst new
        simp only [Function.update_self] at present
        obtain rfl := Option.some.inj present
        exact .inr (by simp)
      · simp only [Function.update_of_ne new] at present
        exact alive other holder present
  | exit pid =>
    refine .later fewer (fun other holder present => ?_) known.cached
    by_cases gone : other = pid
    · subst gone
      simp [World.step] at present
    · simp only [World.step, Function.update_of_ne gone] at present
      exact alive other holder present
  | resolveRuntime reads =>
    simp only [World.step]
    split
    · exact same
    · rename_i item rest pending
      exact .later fewer alive (known.resolve reads item.1)
  | resolveTcp reads =>
    simp only [World.step]
    split
    · exact same
    · rename_i item rest pending
      exact .later fewer alive (known.resolve reads item.tgid)
  | evict drops =>
    refine .later fewer alive fun upid cid found named => ?_
    simp only [World.step, evictCache, GoMap.lookup_retain] at found
    split at found
    · exact known.cached upid cid found named
    · cases found
  | readRuntime order =>
    simp only [World.step]
    split
    · exact .later fewer alive known.cached
    · exact same
  | readTcp order =>
    simp only [World.step]
    split
    · exact .later fewer alive known.cached
    · exact same
  | switch cpu now prev next => exact .later fewer alive known.cached
  | tcp cpu tgid probe => exact .later fewer alive known.cached

/-- In every run the cache is sound. -/
theorem known_run (layout : Layout UInt32) (process : UInt32 → Option Process)
    (events : List (Event cpus)) :
    Known process events ((worldMachine cpus layout).final (.boot cpus process) events) := by
  have held : Known process
      (((worldMachine cpus layout).trace (.boot cpus process) events).map Prod.snd)
      ((worldMachine cpus layout).final (.boot cpus process) events) := by
    apply (worldMachine cpus layout).invariant_always
      (fun past world => Known process (past.map Prod.snd) world)
    · constructor
      · exact fun pid holder alive => .inl alive
      · intro upid cid found
        cases found
    · intro past world event known
      rw [List.map_append]
      exact known.step layout event
  rwa [Machine.trace_map_snd] at held

/-- All that is charged is charged to processes of one container. -/
def OnlyOf {M : Type} [Zero M] (charges : List (GoString × M)) (cid : GoString) : Prop :=
  ∀ charge ∈ charges, charge.2 ≠ 0 → charge.1 = cid

/-- A row is the sum of the charges it was read from, and if it names a container, all of them
are activity of processes of that container. -/
def Report.Own (past : List (WorldMoment cpus)) : Report → Prop
  | .runtime row =>
    row.runtimeNS = Meter.sum ((runtimeMeter cpus).taken past row.pid) ∧
      (row.containerID ≠ [] → OnlyOf ((runtimeMeter cpus).taken past row.pid) row.containerID)
  | .tcp row =>
    row.counters = Meter.sum ((tcpMeter cpus).taken past row.tgid) ∧
      (row.containerID ≠ [] → OnlyOf ((tcpMeter cpus).taken past row.tgid) row.containerID)

/-- The pid has not moved to another container between its activity and this moment: if the
process that holds it can be found and a container is credited for it, the activity was of
processes of that container. -/
def World.Unmoved {M : Type} [Zero M] (world : World cpus) (reads : Readable) (pid : UInt32)
    (charges : List (GoString × M)) : Prop :=
  reads.stat → ∀ holder, world.process pid = some holder →
    world.credited reads pid holder ≠ [] → OnlyOf charges (world.credited reads pid holder)

/-- At a step that resolves a pid, the pid has not moved. -/
def ResolvedUnmoved (past : List (WorldMoment cpus)) (world : World cpus) : Event cpus → Prop
  | .resolveRuntime reads =>
    ∀ item ∈ world.runtimeDue.head?,
      world.Unmoved reads item.1 ((runtimeMeter cpus).taken past item.1)
  | .resolveTcp reads =>
    ∀ item ∈ world.tcpDue.head?,
      world.Unmoved reads item.tgid ((tcpMeter cpus).taken past item.tgid)
  | _ => True

/-- The answer of the resolver owns the charges exactly when the pid has not moved. -/
theorem onlyOf_answer_iff {M : Type} [Zero M] (world : World cpus) (reads : Readable)
    (pid : UInt32) (charges : List (GoString × M)) :
    ((world.resolver.resolve (world.procFs reads) pid).1 ≠ [] →
      OnlyOf charges (world.resolver.resolve (world.procFs reads) pid).1) ↔
      world.Unmoved reads pid charges := by
  rw [resolve_answer, World.Unmoved]
  by_cases readable : reads.stat
  · cases alive : world.process pid with
    | none => simp [readable]
    | some holder => simp [readable]
  · simp [readable]

/-- A step emits rows of their own container exactly when the pid it resolves has not moved. -/
theorem step_own_iff (layout : Layout UInt32) {past : List (WorldMoment cpus)}
    {world : World cpus} (runtime : (runtimeMeter cpus).Tracks past world)
    (tcp : (tcpMeter cpus).Tracks past world) (event : Event cpus) :
    (∀ report ∈ (world.step layout event).2, report.Own past) ↔
      ResolvedUnmoved past world event := by
  have silent : (world.step layout event).2 = [] → ResolvedUnmoved past world event →
      ((∀ report ∈ (world.step layout event).2, report.Own past) ↔
        ResolvedUnmoved past world event) := by
    intro none unmoved
    rw [none]
    exact ⟨fun _ => unmoved, fun _ report inside => absurd inside List.not_mem_nil⟩
  cases event with
  | resolveRuntime reads =>
    cases pending : world.runtimeDue with
    | nil =>
      apply silent
      · simp only [World.step, pending]
      · simp [ResolvedUnmoved, pending]
    | cons item rest =>
      have amount := runtime.due item (by
        show item ∈ world.runtimeDue
        simp [pending])
      have owner := onlyOf_answer_iff world reads item.1
        ((runtimeMeter cpus).taken past item.1)
      simp only [World.step, ResolvedUnmoved, pending, List.mem_singleton, forall_eq,
        List.head?_cons, Option.mem_some_iff, forall_eq', ← owner]
      exact and_iff_right amount
  | resolveTcp reads =>
    cases pending : world.tcpDue with
    | nil =>
      apply silent
      · simp only [World.step, pending]
      · simp [ResolvedUnmoved, pending]
    | cons item rest =>
      have amount := tcp.due item (by
        show item ∈ world.tcpDue
        simp [pending])
      have owner := onlyOf_answer_iff world reads item.tgid
        ((tcpMeter cpus).taken past item.tgid)
      simp only [World.step, ResolvedUnmoved, pending, List.mem_singleton, forall_eq,
        List.head?_cons, Option.mem_some_iff, forall_eq', ← owner]
      exact and_iff_right amount
  | create pid created =>
    apply silent
    · simp only [World.step]
      split <;> rfl
    · trivial
  | readRuntime order =>
    apply silent
    · simp only [World.step]
      split <;> rfl
    · trivial
  | readTcp order =>
    apply silent
    · simp only [World.step]
      split <;> rfl
    · trivial
  | exit pid => exact silent rfl trivial
  | switch cpu now prev next => exact silent rfl trivial
  | tcp cpu tgid probe => exact silent rfl trivial
  | evict drops => exact silent rfl trivial

/-- In a run, every row that names a container contains only activity of processes of that
container exactly when no pid is resolved after it has moved to another container. -/
theorem reports_own_iff (layout : Layout UInt32) (process : UInt32 → Option Process)
    (events : List (Event cpus)) :
    let machine := worldMachine cpus layout
    let start := World.boot cpus process
    (∀ past event rest, events = past ++ event :: rest →
      ∀ report ∈ (machine.step (machine.final start past) event).2,
        report.Own (machine.trace start past)) ↔
    ∀ past event rest, events = past ++ event :: rest →
      ResolvedUnmoved (machine.trace start past) (machine.final start past) event := by
  intro machine start
  have single : ∀ past event rest, events = past ++ event :: rest →
      ((∀ report ∈ (machine.step (machine.final start past) event).2,
        report.Own (machine.trace start past)) ↔
      ResolvedUnmoved (machine.trace start past) (machine.final start past) event) := by
    intro past event rest split
    exact step_own_iff layout (runtime_tracks layout process past)
      (tcp_tracks layout process past) event
  constructor
  · intro own past event rest split
    exact (single past event rest split).mp (own past event rest split)
  · intro unmoved past event rest split
    exact (single past event rest split).mpr (unmoved past event rest split)

/-- The event neither creates a process nor ends one. -/
def Event.Still : Event cpus → Prop
  | .create _ _ => False
  | .exit _ => False
  | _ => True

/-- Without creations and exits the processes stay. -/
theorem final_process (layout : Layout UInt32) (start : World cpus) (events : List (Event cpus))
    (still : ∀ event ∈ events, event.Still) :
    ((worldMachine cpus layout).final start events).process = start.process := by
  induction events using List.reverseRecOn with
  | nil => rfl
  | append_singleton events event ih =>
    rw [Machine.final_snoc, ← ih fun earlier inside => still _ (List.mem_append_left _ inside)]
    have quiet := still event (List.mem_append_right _ List.mem_cons_self)
    show (World.step layout _ event).1.process = _
    cases event with
    | create pid created => exact quiet.elim
    | exit pid => exact quiet.elim
    | readRuntime order =>
      simp only [World.step]
      split <;> rfl
    | readTcp order =>
      simp only [World.step]
      split <;> rfl
    | resolveRuntime reads =>
      simp only [World.step]
      split <;> rfl
    | resolveTcp reads =>
      simp only [World.step]
      split <;> rfl
    | switch cpu now prev next => rfl
    | tcp cpu tgid probe => rfl
    | evict drops => rfl

/-- Without creations and exits the process that ran under a pid is the one that holds it. -/
theorem final_ran (layout : Layout UInt32) (process : UInt32 → Option Process)
    (events : List (Event cpus)) (still : ∀ event ∈ events, event.Still) (pid : UInt32)
    (cpu : Fin cpus) :
    ((worldMachine cpus layout).final (.boot cpus process) events).ran pid cpu =
      ownerIn process pid := by
  induction events using List.reverseRecOn generalizing pid cpu with
  | nil => rfl
  | append_singleton events event ih =>
    have before : ∀ earlier ∈ events, earlier.Still :=
      fun earlier inside => still earlier (List.mem_append_left _ inside)
    have same := ih before
    have holders := final_process layout (.boot cpus process) events before
    rw [Machine.final_snoc, ← same pid cpu]
    have quiet := still event (List.mem_append_right _ List.mem_cons_self)
    show (World.step layout _ event).1.ran pid cpu = _
    cases event with
    | create pid created => exact quiet.elim
    | exit pid => exact quiet.elim
    | switch core now prev next =>
      simp only [World.step, World.enters]
      by_cases entering : pid = next
      · subst entering
        rw [Function.update_self]
        by_cases here : cpu = core
        · subst here
          rw [Function.update_self, same, World.owner, holders]
          rfl
        · rw [Function.update_of_ne here]
      · rw [Function.update_of_ne entering]
    | readRuntime order =>
      simp only [World.step]
      split <;> rfl
    | readTcp order =>
      simp only [World.step]
      split <;> rfl
    | resolveRuntime reads =>
      simp only [World.step]
      split <;> rfl
    | resolveTcp reads =>
      simp only [World.step]
      split <;> rfl
    | tcp cpu tgid probe => rfl
    | evict drops => rfl

/-- CPU time is charged to the container of the process that ran. -/
theorem runtimeCharge_ran {pid : UInt32} {moment : WorldMoment cpus}
    {charge : GoString × UInt64} (charged : runtimeCharge pid moment = some charge) :
    ∃ cpu, charge.1 = moment.1.ran pid cpu := by
  unfold runtimeCharge at charged
  split at charged
  · rename_i cpu now prev next _
    split at charged
    · obtain ⟨_, _, rfl⟩ := Option.map_eq_some_iff.mp charged
      exact ⟨cpu, rfl⟩
    · cases charged
  · cases charged

/-- TCP traffic is charged to the container of the holder. -/
theorem tcpCharge_owner {tgid : UInt32} {moment : WorldMoment cpus}
    {charge : GoString × Bpf.TcpStats} (charged : tcpCharge tgid moment = some charge) :
    charge.1 = moment.1.owner tgid := by
  unfold tcpCharge at charged
  split at charged
  · split at charged
    · obtain ⟨_, _, rfl⟩ := Option.map_eq_some_iff.mp charged
      rfl
    · cases charged
  · cases charged

/-- Without creations and exits a pid has one holder. -/
theorem identifies_of_still (process : UInt32 → Option Process) (events : List (Event cpus))
    (still : ∀ event ∈ events, event.Still) : Identifies process events := by
  have first : ∀ pid holder, Held process events pid holder → process pid = some holder := by
    intro pid holder held
    rcases held with begun | created
    · exact begun
    · exact (still _ created).elim
  intro pid left right one other _
  obtain rfl := Option.some.inj ((first pid left one).symm.trans (first pid right other))
  rfl

/-- Without creations and exits no pid moves. -/
theorem unmoved_of_still (layout : Layout UInt32) (process : UInt32 → Option Process)
    (past : List (Event cpus)) (still : ∀ event ∈ past, event.Still) (event : Event cpus) :
    ResolvedUnmoved ((worldMachine cpus layout).trace (.boot cpus process) past)
      ((worldMachine cpus layout).final (.boot cpus process) past) event := by
  have holders := final_process layout (.boot cpus process) past still
  have reached : ∀ moment ∈ (worldMachine cpus layout).trace (.boot cpus process) past,
      ∀ pid, moment.1.owner pid = ownerIn process pid ∧
        ∀ cpu, moment.1.ran pid cpu = ownerIn process pid := by
    intro moment met pid
    obtain ⟨early, late, split, reached⟩ := (Machine.mem_trace_iff _ _ _ _).mp met
    have quiet : ∀ event ∈ early, event.Still := by
      intro event inside
      refine still event ?_
      rw [split]
      exact List.mem_append_left _ inside
    rw [← reached]
    constructor
    · rw [World.owner, final_process layout _ early quiet]
      rfl
    · exact final_ran layout process early quiet pid
  have credited : ∀ reads pid holder,
      ((worldMachine cpus layout).final (.boot cpus process) past).process pid = some holder →
      ((worldMachine cpus layout).final (.boot cpus process) past).credited reads pid holder ≠ [] →
      ((worldMachine cpus layout).final (.boot cpus process) past).credited reads pid holder =
        ownerIn process pid := by
    intro reads pid holder alive named
    rw [credited_eq_container (identifies_of_still process past still)
      (known_run layout process past) reads alive named]
    rw [holders] at alive
    have first : process pid = some holder := alive
    rw [ownerIn, first]
    rfl
  cases event with
  | resolveRuntime reads =>
    intro item _ _ holder alive named charge inside _
    obtain ⟨moment, met, charged⟩ := Meter.charged_of_mem_taken _ inside
    obtain ⟨cpu, ran⟩ := runtimeCharge_ran charged
    rw [ran, (reached moment met item.1).2 cpu, credited reads item.1 holder alive named]
  | resolveTcp reads =>
    intro item _ _ holder alive named charge inside _
    obtain ⟨moment, met, charged⟩ := Meter.charged_of_mem_taken _ inside
    rw [tcpCharge_owner charged, (reached moment met item.tgid).1,
      credited reads item.tgid holder alive named]
  | create pid created => trivial
  | exit pid => trivial
  | switch cpu now prev next => trivial
  | tcp cpu tgid probe => trivial
  | readRuntime order => trivial
  | readTcp order => trivial
  | evict drops => trivial

/-- A process of container `aa..a`, started at tick 500. -/
def shellOfA : Process where
  container := List.replicate 64 97
  startTime := 500
  stat := lit "7 (sh) S 1 7 7 0 -1 0 0 0 0 0 0 0 0 0 20 0 1 0 500 0"
  cgroup := lit "0::/system.slice/docker-" ++ List.replicate 64 97 ++ lit ".scope\n"
  started := by decide
  named := by decide

/-- A process of container `bb..b`, started at tick 900. -/
def shellOfB : Process where
  container := List.replicate 64 98
  startTime := 900
  stat := lit "7 (sh) S 1 7 7 0 -1 0 0 0 0 0 0 0 0 0 20 0 1 0 900 0"
  cgroup := lit "0::/system.slice/docker-" ++ List.replicate 64 98 ++ lit ".scope\n"
  started := by decide
  named := by decide

/-- Pid 7 is the shell of container `aa..a`. -/
def bootOfA : UInt32 → Option Process := fun pid => if pid = 7 then some shellOfA else none

/-- The shell of `aa..a` runs for 20 ns and sends 1000 bytes. -/
def active : List (Event 1) :=
  [.switch (Fin.last 0) 10 0 7, .tcp (Fin.last 0) 7 (.sendmsg 1000),
    .switch (Fin.last 0) 30 7 0]

/-- Both collectors poll. -/
def polled : List (Event 1) :=
  [.readRuntime (.stored _ _), .resolveRuntime ⟨true, true⟩, .readTcp (.stored _ _),
    .resolveTcp ⟨true, true⟩]

/-- Before the polls the shell exits and its pid goes to the shell of `bb..b`. -/
def reused : List (Event 1) := active ++ [.exit 7, .create 7 shellOfB] ++ polled

/-- The two processes of the run differ in their start time. -/
theorem reused_identifies : Identifies bootOfA reused := by
  have holders : ∀ pid holder, Held bootOfA reused pid holder →
      holder = shellOfA ∨ holder = shellOfB := by
    intro pid holder held
    rcases held with begun | created
    · unfold bootOfA at begun
      split at begun
      · exact .inl (Option.some.inj begun).symm
      · cases begun
    · have both : pid = 7 ∧ holder = shellOfB := by
        simpa [reused, active, polled] using created
      exact .inr both.2
  intro pid left right one other same
  rcases holders pid left one with rfl | rfl <;> rcases holders pid right other with rfl | rfl
  · rfl
  · exact absurd same (by decide)
  · exact absurd same (by decide)
  · rfl

/-- The CPU time and the bytes of `aa..a` are reported under `bb..b`. -/
theorem reused_not_own :
    let machine := worldMachine 1 (fun _ _ => 0)
    let start := World.boot 1 bootOfA
    Identifies bootOfA reused ∧
    machine.outputs start reused = [.runtime ⟨7, shellOfB.container, 20⟩,
      .tcp ⟨7, shellOfB.container, 1000, 0, 1, 0, 0⟩] ∧
    ¬ ∀ past event rest, reused = past ++ event :: rest →
      ∀ report ∈ (machine.step (machine.final start past) event).2,
        report.Own (machine.trace start past) := by
  intro machine start
  refine ⟨reused_identifies, by decide, fun own => ?_⟩
  have row : Report.runtime ⟨7, shellOfB.container, 20⟩ ∈
      (machine.step (machine.final start (reused.take 6)) (.resolveRuntime ⟨true, true⟩)).2 := by
    decide
  have charged : (runtimeMeter 1).taken (machine.trace start (reused.take 6)) 7 =
      [(shellOfA.container, 20)] := by decide
  have owned := (own (reused.take 6) (.resolveRuntime ⟨true, true⟩) (reused.drop 7) rfl _ row).2
    (by decide)
  dsimp only at owned
  rw [charged] at owned
  have same : shellOfA.container = shellOfB.container := owned _ List.mem_cons_self (by decide)
  exact absurd same (by decide)

/-- The shell of `aa..a` exits while it runs, and its pid goes to the shell of `bb..b` before the
switch that charges its 20 ns. -/
def switchedLate : List (Event 1) :=
  [.switch (Fin.last 0) 10 0 7, .exit 7, .create 7 shellOfB, .switch (Fin.last 0) 30 7 0] ++ polled

/-- The time is that of the process that was switched in. -/
example :
    let machine := worldMachine 1 (fun _ _ => 0)
    let start := World.boot 1 bootOfA
    machine.outputs start switchedLate = [.runtime ⟨7, shellOfB.container, 20⟩] ∧
    (runtimeMeter 1).taken (machine.trace start (switchedLate.take 5)) 7 =
      [(shellOfA.container, 20)] := by
  decide

/-- When the polls come before the exit, the rows are those of `aa..a`. -/
theorem reports_own_iff_unreused :
    let machine := worldMachine 1 (fun _ _ => 0)
    let start := World.boot 1 bootOfA
    machine.outputs start (active ++ polled) = [.runtime ⟨7, shellOfA.container, 20⟩,
      .tcp ⟨7, shellOfA.container, 1000, 0, 1, 0, 0⟩] ∧
    ∀ past event rest, active ++ polled = past ++ event :: rest →
      ∀ report ∈ (machine.step (machine.final start past) event).2,
        report.Own (machine.trace start past) := by
  intro machine start
  have still : ∀ event ∈ active ++ polled, event.Still := by
    intro event inside
    simp only [active, polled, List.cons_append, List.nil_append, List.mem_cons,
      List.not_mem_nil, or_false] at inside
    rcases inside with rfl | rfl | rfl | rfl | rfl | rfl | rfl <;> trivial
  refine ⟨by decide, ?_⟩
  apply (reports_own_iff (fun _ _ => 0) bootOfA (active ++ polled)).mpr
  intro past event rest split
  apply unmoved_of_still
  intro earlier inside
  refine still earlier ?_
  rw [split]
  exact List.mem_append_left _ inside

end ContainerAnomaly.Accounting
