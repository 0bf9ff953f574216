import ContainerAnomaly.Feature.FirstSample
import ContainerAnomaly.Lib.MissedReadings

/-!
# Cgroup files that cannot be read

`Read` succeeds when `cpu.stat` or `io.stat` cannot be opened, and the statistics it returns have
zeros for the counters of that file (`counter_failed`). To the aggregator these are samples like
any other, so the next good one is compared with zero. It shows the growth since the last good
sample exactly when what had been counted before does not reach the next unit, and then the
vectors never carry more than the growth (`failed_reads_harmless_iff`).
-/

namespace ContainerAnomaly.Feature

open Lib DeltaGauge

/-- The file that the counter of a field is read from. -/
def Gauge.file : Gauge → GoString
  | cpuUsage => lit "cpu.stat"
  | ioRead => lit "io.stat"
  | ioWrite => lit "io.stat"

/-- The counter of a field, as it is read off its file. -/
def Gauge.counter : Gauge → Option GoString → UInt64
  | cpuUsage => fun file => (Cgroup.readCPUStat file).usageUsec
  | ioRead => fun file => (Cgroup.readIOStat file).rBytes
  | ioWrite => fun file => (Cgroup.readIOStat file).wBytes

/-- What happens to the aggregator of the agent: `pollCgroup` reads the cgroup of a container, or
an input that is no sample. -/
inductive Event where
  | cgroup (cid name image cgPath : GoString) (files : Cgroup.CgroupFiles)
  | other (input : Input) (unsampled : ∀ cid name image s, input ≠ .cgroup cid name image s)

namespace Event

variable (parseFloat : GoString → Float) (field : Gauge) (cid : GoString)

/-- What reaches the aggregator; when `Read` fails, nothing does. -/
def input : Event → Option Input
  | .cgroup cid name image cgPath files =>
    (Cgroup.read parseFloat files cgPath).map (.cgroup cid name image)
  | .other input _ => some input

/-- What an event is to a field of a container. -/
def poll : Event → Option Poll
  | .cgroup owner _ _ cgPath files =>
    if owner = cid then
      (Cgroup.read parseFloat files cgPath).map fun s =>
        if (files.openFile (GoString.joinPath [cgPath, field.file])).isSome then
          .good (field.total s).toNat
        else .missed
    else none
  | .other (.tick _) _ => some .tick
  | .other _ _ => none

end Event

variable (parseFloat : GoString → Float) (field : Gauge) (cid : GoString)

/-- What events are to a field of a container. -/
def pollsOf (events : List Event) : List Poll :=
  events.filterMap (Event.poll parseFloat field cid)

namespace Aggregator

/-- The aggregator after events. -/
def after (a : Aggregator) (events : List Event) : Aggregator :=
  aggregator.final a (events.filterMap (Event.input parseFloat))

/-- The vectors sent while events happen. -/
def sent (a : Aggregator) (events : List Event) : List Vector :=
  aggregator.outputs a (events.filterMap (Event.input parseFloat))

end Aggregator

/-- The counters of statistics are those of their files. -/
theorem total_of_read {files : Cgroup.CgroupFiles} {cgPath : GoString} {s : Cgroup.Stats}
    (returned : Cgroup.read parseFloat files cgPath = some s) :
    field.total s = field.counter (files.openFile (GoString.joinPath [cgPath, field.file])) := by
  unfold Cgroup.read at returned
  split at returned
  · obtain rfl := Option.some.inj returned
    cases field <;> rfl
  · cases returned

/-- The counter of a file that cannot be opened is zero. -/
theorem counter_failed : field.counter none = 0 := by
  cases field <;> rfl

/-- A field of a container is told of a missed reading as of a sample of zero. -/
theorem reading_input (event : Event) :
    (event.input parseFloat).bind (Input.reading field cid) =
      (event.poll parseFloat field cid).map Poll.reading := by
  cases event with
  | other input unsampled =>
    cases input with
    | cgroup other name image s => exact absurd rfl (unsampled other name image s)
    | _ => rfl
  | cgroup other name image cgPath files =>
    cases returned : Cgroup.read parseFloat files cgPath with
    | none => by_cases same : other = cid <;> simp [Event.input, Event.poll, returned, same]
    | some s =>
      by_cases same : other = cid
      · cases opened : files.openFile (GoString.joinPath [cgPath, field.file]) with
        | none =>
          have zero := total_of_read parseFloat field returned
          rw [opened, counter_failed] at zero
          simp [Event.input, Event.poll, Input.reading, Poll.reading, returned, same, opened, zero]
        | some text =>
          simp [Event.input, Event.poll, Input.reading, Poll.reading, returned, same, opened]
      · simp [Event.input, Event.poll, Input.reading, returned, same]

/-- In every run, a field of a container is a gauge that is told of its polls. -/
theorem polled_run (a : Aggregator) (events : List Event) :
    (a.after parseFloat events).dial field cid =
      told field.unit.toNat (a.dial field cid) (pollsOf parseFloat field cid events) ∧
    carried field cid (a.sent parseFloat events) =
      collected field.unit.toNat (a.dial field cid) (pollsOf parseFloat field cid events) := by
  have seen : readings field cid (events.filterMap (Event.input parseFloat)) =
      (pollsOf parseFloat field cid events).map Poll.reading := by
    rw [readings, pollsOf, List.filterMap_filterMap, List.map_filterMap]
    exact List.filterMap_congr fun event _ => reading_input parseFloat field cid event
  rw [Aggregator.after, Aggregator.sent, told, collected, ← seen]
  exact dial_run_from field cid a _

/-- What holds of each good sample and the polls before it, seen from the events. -/
theorem forall_good_iff (events : List Event) (holds : List Poll → Nat → Prop) :
    (∀ past total rest, pollsOf parseFloat field cid events = past ++ .good total :: rest →
      holds past total) ↔
    ∀ past next rest total, events = past ++ next :: rest →
      next.poll parseFloat field cid = some (.good total) →
      holds (pollsOf parseFloat field cid past) total := by
  have split := forall_split_filterMap (Event.poll parseFloat field cid) events
    fun past poll => ∀ total, poll = .good total → holds past total
  constructor
  · intro polled past next rest total whole good
    refine split.mp ?_ past next rest _ whole good total rfl
    rintro before _ later found total rfl
    exact polled before total later found
  · intro listed past total rest whole
    refine split.mpr ?_ past _ rest whole total rfl
    rintro before element later _ found seen total rfl
    exact listed before element later total found seen

/-- Missed readings are harmless when they are at every good event that follows one. -/
theorem missesHarmless_iff (start : Nat) (events : List Event) :
    MissesHarmless field.unit.toNat start (pollsOf parseFloat field cid events) ↔
      ∀ past next rest total, events = past ++ next :: rest →
        next.poll parseFloat field cid = some (.good total) →
        (attempts (pollsOf parseFloat field cid past)).getLast? = some none →
        (total - lastGood start (attempts (pollsOf parseFloat field cid past))) %
            field.unit.toNat +
          lastGood start (attempts (pollsOf parseFloat field cid past)) < field.unit.toNat :=
  forall_good_iff parseFloat field cid events fun past total =>
    (attempts past).getLast? = some none →
      (total - lastGood start (attempts past)) % field.unit.toNat +
        lastGood start (attempts past) < field.unit.toNat

/-- A run after its first event. -/
theorem after_cons (a : Aggregator) (first : Event) (events : List Event) :
    a.after parseFloat (first :: events) =
      (a.after parseFloat [first]).after parseFloat events := by
  rw [Aggregator.after, ← List.singleton_append, List.filterMap_append, Machine.final_append]
  rfl

/-- After a first good sample, every good sample shows the growth since the last good one, and at
every moment the vectors have carried no more than was shown at the start and the growth since. -/
def OnlyGrowth (a : Aggregator) (first : Event) (start : Nat) (events : List Event) : Prop :=
  (∀ past next rest total, events = past ++ next :: rest →
    next.poll parseFloat field cid = some (.good total) →
    ((a.after parseFloat (first :: past ++ [next])).dial field cid).shown =
      (total - lastGood start (attempts (pollsOf parseFloat field cid past))) /
        field.unit.toNat) ∧
  ∀ past, past <+: events →
    carried field cid ((a.after parseFloat [first]).sent parseFloat past) * field.unit.toNat ≤
      ((a.after parseFloat [first]).dial field cid).shown * field.unit.toNat +
        (lastGood start (attempts (pollsOf parseFloat field cid past)) - start)

/-- After its first good sample, a field of a container remembers its total. -/
theorem prev_first (a : Aggregator) {first : Event} {start : Nat}
    (begins : first.poll parseFloat field cid = some (.good start)) :
    ((a.after parseFloat [first]).dial field cid).prev = start := by
  have single : pollsOf parseFloat field cid [first] = [.good start] := by
    simp [pollsOf, begins]
  rw [(polled_run parseFloat field cid a [first]).1, told_prev, single]
  rfl

/-- What a good sample shows. -/
theorem shown_good (a : Aggregator) (first : Event) (past : List Event) {next : Event} {total : Nat}
    (good : next.poll parseFloat field cid = some (.good total)) :
    ((a.after parseFloat (first :: past ++ [next])).dial field cid).shown =
      (told field.unit.toNat ((a.after parseFloat [first]).dial field cid)
        (pollsOf parseFloat field cid past ++ [.good total])).shown := by
  have last : pollsOf parseFloat field cid (past ++ [next]) =
      pollsOf parseFloat field cid past ++ [.good total] := by
    simp [pollsOf, good]
  rw [List.cons_append, after_cons, (polled_run parseFloat field cid _ _).1, last]

/-- Totals that do not fall only show growth exactly when every good sample does: the vectors then
stay within it. -/
theorem onlyGrowth_iff (a : Aggregator) {first : Event} {start : Nat} (events : List Event)
    (begins : first.poll parseFloat field cid = some (.good start))
    (rising : (start :: (attempts (pollsOf parseFloat field cid events)).reduceOption).Pairwise
      (· ≤ ·)) :
    OnlyGrowth parseFloat field cid a first start events ↔
      ShowsGrowth field.unit.toNat ((a.after parseFloat [first]).dial field cid)
        (pollsOf parseFloat field cid events) := by
  have prev := prev_first parseFloat field cid a begins
  have seen := forall_good_iff parseFloat field cid events fun past total =>
    (told field.unit.toNat ((a.after parseFloat [first]).dial field cid)
      (past ++ [.good total])).shown =
        (total - lastGood start (attempts past)) / field.unit.toNat
  constructor
  · rintro ⟨shows, _⟩
    rw [ShowsGrowth, prev, seen]
    intro past next rest total split good
    rw [← shown_good parseFloat field cid a first past good]
    exact shows past next rest total split good
  · intro growth
    constructor
    · intro past next rest total split good
      rw [ShowsGrowth, prev, seen] at growth
      rw [shown_good parseFloat field cid a first past good]
      exact growth past next rest total split good
    · rintro past ⟨more, rfl⟩
      have parts : pollsOf parseFloat field cid past <+:
          pollsOf parseFloat field cid (past ++ more) :=
        ⟨pollsOf parseFloat field cid more, List.filterMap_append.symm⟩
      rw [← prev] at rising
      have within := staysWithin field.unit.toNat _ _ rising growth _ parts
      rw [prev] at within
      rw [(polled_run parseFloat field cid _ past).2]
      exact within

/-- In any run after a first good sample whose good samples do not fall, only growth is shown and
carried exactly when, at every good sample that follows a failed reading, what had been counted
before fits beside what the growth leaves of a unit. -/
theorem failed_reads_harmless_iff (a : Aggregator) (first : Event) (start : Nat)
    (events : List Event) (begins : first.poll parseFloat field cid = some (.good start))
    (rising : (start :: (attempts (pollsOf parseFloat field cid events)).reduceOption).Pairwise
      (· ≤ ·)) :
    OnlyGrowth parseFloat field cid a first start events ↔
      ∀ past next rest total, events = past ++ next :: rest →
        next.poll parseFloat field cid = some (.good total) →
        (attempts (pollsOf parseFloat field cid past)).getLast? = some none →
        (total - lastGood start (attempts (pollsOf parseFloat field cid past))) %
            field.unit.toNat +
          lastGood start (attempts (pollsOf parseFloat field cid past)) < field.unit.toNat := by
  have positive : 0 < field.unit.toNat := by cases field <;> decide
  have prev := prev_first parseFloat field cid a begins
  rw [onlyGrowth_iff parseFloat field cid a events begins rising]
  rw [← prev] at rising
  rw [showsGrowth_iff field.unit.toNat _ positive _ rising, prev]
  exact missesHarmless_iff parseFloat field cid start events

/-- A container's `cpu.stat`, or none. -/
def readA (cpuStat : Option GoString) : Event :=
  .cgroup (lit "a") [] [] (lit "/c")
    ⟨fun _ => true, fun path => if path = lit "/c/cpu.stat" then cpuStat else none, fun _ => none⟩

/-- A tick, as an event. -/
def tickEvent (time : Time) (nonzero : time ≠ 0) : Event :=
  .other (.tick (tickAt time nonzero)) fun _ _ _ _ same => by cases same

/-- A failed reading between samples of 5000 ms and 5001 ms makes the second show 5001 ms, and the
vectors carry 10001 ms. -/
theorem failed_read_spike :
    (((Aggregator.new 30).after (fun _ => 0) [readA (some (lit "usage_usec 5000000")),
        tickEvent 30 (by decide), readA none, readA (some (lit "usage_usec 5001000"))]).dial
          .cpuUsage (lit "a")).shown = 5001 ∧
    carried .cpuUsage (lit "a") ((Aggregator.new 30).sent (fun _ => 0)
      [readA (some (lit "usage_usec 5000000")), tickEvent 30 (by decide), readA none,
        readA (some (lit "usage_usec 5001000")), tickEvent 60 (by decide)]) = 10001 ∧
    ¬ OnlyGrowth (fun _ => 0) .cpuUsage (lit "a") (.new 30)
      (readA (some (lit "usage_usec 5000000"))) 5000000
      [tickEvent 30 (by decide), readA none, readA (some (lit "usage_usec 5001000")),
        tickEvent 60 (by decide)] := by
  refine ⟨by decide, by decide, ?_⟩
  rintro ⟨_, within⟩
  exact absurd (within _ (List.prefix_refl _)) (by decide)

/-- With samples of 0.3 ms and 0.5 ms around it, a failed reading goes unnoticed. -/
theorem failed_reads_harmless_iff_small :
    OnlyGrowth (fun _ => 0) .cpuUsage (lit "a") (.new 30) (readA (some (lit "usage_usec 300"))) 300
      [readA none, readA (some (lit "usage_usec 500"))] := by
  refine (failed_reads_harmless_iff (fun _ => 0) .cpuUsage (lit "a") (.new 30)
    (readA (some (lit "usage_usec 300"))) 300 [readA none, readA (some (lit "usage_usec 500"))]
    (by decide) (by decide)).mpr ?_
  refine (missesHarmless_iff (fun _ => 0) .cpuUsage (lit "a") _ _).mp ?_
  have polls : pollsOf (fun _ => 0) .cpuUsage (lit "a")
      [readA none, readA (some (lit "usage_usec 500"))] = [.missed, .good 500] := by decide
  rw [polls]
  intro past total rest split _
  cases past with
  | nil => cases split
  | cons _ past =>
    cases past with
    | nil =>
      obtain ⟨rfl, ends⟩ := List.cons.inj split
      have last : [Poll.good 500] = .good total :: rest := ends
      obtain rfl := Poll.good.inj (List.cons.inj last).1
      decide
    | cons _ past => simp at split

end ContainerAnomaly.Feature
