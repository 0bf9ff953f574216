import ContainerAnomaly.Feature.Windowing
import ContainerAnomaly.Lib.DeltaGauge

/-!
# Deltas of cgroup counters

Three fields of a vector are meant to be the growth of a cgroup counter over the window. Each
sample overwrites them with its growth over the sample before it, so what a vector carries is
the growth between the last two samples (`delta_of_window`). That is the growth over the window
exactly when what the earlier samples of the window add does not reach the next unit
(`deltas_iff`).
-/

namespace ContainerAnomaly.Feature

open Lib

/-- The fields that are deltas of cgroup counters. -/
inductive Gauge where
  /-- `CgroupCPUUsageMS`. -/
  | cpuUsage
  /-- `CgroupIOReadMB`. -/
  | ioRead
  /-- `CgroupIOWriteMB`. -/
  | ioWrite

namespace Gauge

/-- The counter of a sample. -/
def total : Gauge → Cgroup.Stats → UInt64
  | cpuUsage => fun s => s.cpu.usageUsec
  | ioRead => fun s => s.io.rBytes
  | ioWrite => fun s => s.io.wBytes

/-- What the field counts the counter in. -/
def unit : Gauge → UInt64
  | cpuUsage => 1000
  | ioRead => 1048576
  | ioWrite => 1048576

/-- The counter of the previous sample. -/
def prev : Gauge → Accumulator → UInt64
  | cpuUsage => Accumulator.prevCPUUsageUsec
  | ioRead => Accumulator.prevIORead
  | ioWrite => Accumulator.prevIOWrite

/-- The field of a vector. -/
def delta : Gauge → Vector → UInt64
  | cpuUsage => Vector.cgroupCPUUsageMS
  | ioRead => Vector.cgroupIOReadMB
  | ioWrite => Vector.cgroupIOWriteMB

/-- A sample becomes the previous one. -/
theorem prev_setCgroup (gauge : Gauge) (name image : GoString) (s : Cgroup.Stats)
    (ac : Accumulator) : gauge.prev (ac.setCgroup name image s) = gauge.total s := by
  cases gauge <;> rfl

/-- Bytes in mebibytes, in one division. -/
theorem div_mebi (bytes : UInt64) : bytes / 1024 / 1024 = bytes / 1048576 := by
  apply UInt64.toNat_inj.mp
  simp [Nat.div_div_eq_div_mul]

/-- A sample overwrites the field with its growth over the previous one. -/
theorem delta_setCgroup (gauge : Gauge) (name image : GoString) (s : Cgroup.Stats)
    (ac : Accumulator) : gauge.delta (ac.setCgroup name image s).v =
      if gauge.total s ≥ gauge.prev ac then (gauge.total s - gauge.prev ac) / gauge.unit
      else gauge.delta ac.v := by
  cases gauge with
  | cpuUsage => rfl
  | ioRead =>
    simp only [delta, Accumulator.setCgroup, div_mebi]
    rfl
  | ioWrite =>
    simp only [delta, Accumulator.setCgroup, div_mebi]
    rfl

end Gauge

/-- The sample in something that is ingested. -/
def Ingest.sample : Ingest → Option Cgroup.Stats
  | .cgroup _ _ s => some s
  | _ => none

/-- The samples of a list of things ingested. -/
def samples (items : List Ingest) : List Cgroup.Stats := items.filterMap Ingest.sample

/-- The last sample, when samples continue an earlier one. -/
def newest (start : Cgroup.Stats) (later : List Cgroup.Stats) : Cgroup.Stats :=
  later.getLast?.getD start

/-- The sample before the last, when samples continue an earlier one. -/
def previous (start : Cgroup.Stats) (later : List Cgroup.Stats) : Cgroup.Stats :=
  later.dropLast.getLast?.getD start

/-- The last sample is one of them. -/
theorem newest_mem (start : Cgroup.Stats) (later : List Cgroup.Stats) :
    newest start later ∈ start :: later := by
  unfold newest
  cases last : later.getLast? with
  | none => exact List.mem_cons_self
  | some s => exact List.mem_cons_of_mem _ (List.mem_of_getLast? last)

/-- Samples of two lists. -/
@[simp] theorem samples_append (first second : List Ingest) :
    samples (first ++ second) = samples first ++ samples second := List.filterMap_append

/-- Samples that do not fall: the one before the last is between the first and the last. -/
theorem previous_between (gauge : Gauge) (start : Cgroup.Stats) (later : List Cgroup.Stats)
    (rising : ((start :: later).map gauge.total).Pairwise (· ≤ ·)) :
    gauge.total start ≤ gauge.total (previous start later) ∧
      gauge.total (previous start later) ≤ gauge.total (newest start later) := by
  induction later using List.reverseRecOn with
  | nil => exact ⟨UInt64.le_refl _, UInt64.le_refl _⟩
  | append_singleton later s _ =>
    have earlier : previous start (later ++ [s]) = newest start later := by
      simp [previous, newest]
    have last : newest start (later ++ [s]) = s := by simp [newest]
    rw [earlier, last]
    have inside := newest_mem start later
    constructor
    · rcases List.mem_cons.mp inside with same | after
      · rw [same]
        exact UInt64.le_refl _
      · rw [List.map_cons, List.pairwise_cons] at rising
        exact rising.1 _ (List.mem_map_of_mem (List.mem_append_left _ after))
    · rw [← List.cons_append, List.map_append, List.pairwise_append] at rising
      exact rising.2.2 _ (List.mem_map_of_mem inside) _ (by simp)

/-- What is no sample leaves the gauges alone. -/
theorem gauge_ingest (gauge : Gauge) {item : Ingest} (other : item.sample = none)
    (ac : Accumulator) : gauge.prev (ac.ingest item) = gauge.prev ac ∧
      gauge.delta (ac.ingest item).v = gauge.delta ac.v := by
  cases item with
  | cgroup name image s => cases other
  | _ => cases gauge <;> exact ⟨rfl, rfl⟩

/-- The last sample is the previous one of the next. -/
theorem prev_foldl (gauge : Gauge) (items : List Ingest) (ac : Accumulator) :
    gauge.prev (items.foldl (fun ac item => ac.ingest item) ac) =
      ((samples items).getLast?.map gauge.total).getD (gauge.prev ac) := by
  induction items using List.reverseRecOn with
  | nil => rfl
  | append_singleton items item ih =>
    rw [List.foldl_append, samples_append, List.foldl_cons, List.foldl_nil]
    cases sampled : item.sample with
    | none =>
      rw [(gauge_ingest gauge sampled _).1, ih]
      simp [samples, sampled]
    | some s =>
      cases item with
      | cgroup name image stats =>
        obtain rfl := Option.some.inj sampled
        simp [Accumulator.ingest, Gauge.prev_setCgroup, samples, Ingest.sample]
      | _ => cases sampled

/-- After samples that do not fall, a gauge shows the growth between the last two. -/
theorem delta_foldl (gauge : Gauge) (items : List Ingest) (ac : Accumulator)
    (start : Cgroup.Stats) (begins : gauge.prev ac = gauge.total start)
    (empty : gauge.delta ac.v = 0)
    (rising : ((start :: samples items).map gauge.total).Pairwise (· ≤ ·)) :
    gauge.delta (items.foldl (fun ac item => ac.ingest item) ac).v =
      (gauge.total (newest start (samples items)) -
        gauge.total (previous start (samples items))) / gauge.unit := by
  induction items using List.reverseRecOn with
  | nil => simp [samples, newest, previous, empty]
  | append_singleton items item ih =>
    rw [samples_append, ← List.cons_append, List.map_append, List.pairwise_append] at rising
    obtain ⟨before, _, above⟩ := rising
    rw [List.foldl_append, samples_append, List.foldl_cons, List.foldl_nil]
    cases sampled : item.sample with
    | none =>
      rw [(gauge_ingest gauge sampled _).2, ih before]
      simp [samples, sampled]
    | some s =>
      cases item with
      | cgroup name image stats =>
        obtain rfl := Option.some.inj sampled
        have held : gauge.prev (items.foldl (fun ac item => ac.ingest item) ac) =
            gauge.total (newest start (samples items)) := by
          rw [prev_foldl, begins, newest]
          cases (samples items).getLast? <;> rfl
        have risen : gauge.total (newest start (samples items)) ≤ gauge.total stats :=
          above _ (List.mem_map_of_mem (newest_mem start _)) _ (by simp [samples, Ingest.sample])
        have single : samples [Ingest.cgroup name image stats] = [stats] := rfl
        have last : newest start (samples items ++ [stats]) = stats := by simp [newest]
        have earlier : previous start (samples items ++ [stats]) =
            newest start (samples items) := by simp [previous, newest]
        rw [← held] at risen
        rw [single, last, earlier, ← held]
        exact (gauge.delta_setCgroup name image stats _).trans (if_pos risen)
      | _ => cases sampled

/-- A vector carries the gauges of its accumulator. -/
theorem delta_finalize (gauge : Gauge) (ac : Accumulator) (windowStart windowEnd : Time)
    (cid : GoString) (answer : Option (GoString × GoString)) :
    gauge.delta (ac.finalize windowStart windowEnd cid answer) = gauge.delta ac.v := by
  obtain ⟨name, image, named⟩ := ac.finalize_eq windowStart windowEnd cid answer
  rw [named]
  cases gauge <;> rfl

/-- An accumulator that was finalized shows no growth, and keeps its previous sample. -/
theorem gauge_reset (gauge : Gauge) (ac : Accumulator) (v : Vector) :
    gauge.delta (ac.reset v).v = 0 ∧ gauge.prev (ac.reset v) = gauge.prev ac := by
  cases gauge <;> exact ⟨rfl, rfl⟩

/-- The previous counter of an account is that of its last sample. -/
theorem account_prev (gauge : Gauge) (cid : GoString) (window : Duration) (views : List View) :
    gauge.prev (((accountOf cid).final (.new window) views).accumulator.getD {}) =
      ((samples (views.flatMap View.items)).getLast?.map gauge.total).getD 0 := by
  induction views using List.reverseRecOn with
  | nil => cases gauge <;> rfl
  | append_singleton views view ih =>
    rw [Machine.final_snoc, List.flatMap_append]
    cases view with
    | ingest first rest =>
      show gauge.prev (List.foldl _ _ (first :: rest)) = _
      rw [prev_foldl, ih, samples_append]
      have single : [View.ingest first rest].flatMap View.items = first :: rest :=
        List.append_nil _
      rw [single, List.getLast?_append]
      cases (samples (first :: rest)).getLast? <;> rfl
    | tick time nonzero answer =>
      have quiet : [View.tick time nonzero answer].flatMap View.items = [] := rfl
      rw [quiet, List.append_nil, ← ih]
      cases found : ((accountOf cid).final (.new window) views).accumulator with
      | none => rw [Account.step_tick_none found, found]
      | some ac =>
        rw [Account.step_tick_some found]
        exact (gauge_reset gauge ac _).2

/-- Between ticks an account only ingests. -/
theorem account_between (cid : GoString) (account : Account) (ac : Accumulator)
    (present : account.accumulator = some ac) (views : List View)
    (quiet : ∀ time nonzero answer, View.tick time nonzero answer ∉ views) :
    ((accountOf cid).final account views).accumulator =
      some ((views.flatMap View.items).foldl (fun ac item => ac.ingest item) ac) := by
  induction views generalizing account ac with
  | nil => exact present
  | cons view views ih =>
    cases view with
    | ingest first rest =>
      have next : ((accountOf cid).step account (.ingest first rest)).1.accumulator =
          some ((first :: rest).foldl (fun ac item => ac.ingest item) ac) := by
        show some (List.foldl _ (account.accumulator.getD {}) (first :: rest)) = _
        rw [present, Option.getD_some]
      have later := ih _ _ next fun time nonzero answer inside =>
        quiet time nonzero answer (List.mem_cons_of_mem _ inside)
      rw [Machine.final_cons, later, List.flatMap_cons, List.foldl_append]
      rfl
    | tick time nonzero answer => exact absurd List.mem_cons_self (quiet time nonzero answer)

/-- In a window, an accumulator takes in what is ingested on top of what the tick has left. -/
theorem account_in_window (cid : GoString) (window : Duration) (seen : List View)
    (ac : Accumulator) (found : ((accountOf cid).final (.new window) seen).accumulator = some ac)
    (time : Time) (nonzero : time ≠ 0) (answer : Option (GoString × GoString))
    (views : List View) (quiet : ∀ time nonzero answer, View.tick time nonzero answer ∉ views) :
    ∃ v, ((accountOf cid).final (.new window)
        (seen ++ .tick time nonzero answer :: views)).accumulator =
      some ((views.flatMap View.items).foldl (fun ac item => ac.ingest item) (ac.reset v)) := by
  rw [Machine.final_append, Machine.final_cons, Account.step_tick_some found]
  exact ⟨_, account_between cid _ _ rfl views quiet⟩

/-- The samples of a container in a list of inputs. -/
def samplesOf (cid : GoString) (inputs : List Input) : List Cgroup.Stats :=
  samples (inputs.flatMap (Input.own cid))

/-- No counter of a container falls from one sample to the next. -/
def Rising (cid : GoString) (inputs : List Input) : Prop :=
  ∀ gauge : Gauge, ((samplesOf cid inputs).map gauge.total).Pairwise (· ≤ ·)

/-- The samples from the one before a window on are some of all samples. -/
theorem Rising.window {cid : GoString} {past between : List Input} {start : Cgroup.Stats}
    (rising : Rising cid (past ++ between)) (sampled : (samplesOf cid past).getLast? = some start)
    (gauge : Gauge) : ((start :: samplesOf cid between).map gauge.total).Pairwise (· ≤ ·) := by
  obtain ⟨earlier, ends⟩ := List.getLast?_eq_some_iff.mp sampled
  have all := rising gauge
  rw [samplesOf, List.flatMap_append, samples_append, ← samplesOf, ← samplesOf, ends,
    List.append_assoc, List.map_append] at all
  exact (List.pairwise_append.mp all).2.1

/-- The vector of a window that a sample precedes carries the growth of each counter between the
last two samples. -/
theorem delta_of_window (window : Duration) (cid : GoString) (past between : List Input)
    (opening closing : Tick) (start : Cgroup.Stats) (noTick : ∀ tick, .tick tick ∉ between)
    (sampled : (samplesOf cid past).getLast? = some start) (rising : Rising cid (past ++ between)) :
    ∃ v, (aggregator.step (aggregator.final (.new window) (past ++ .tick opening :: between))
        (.tick closing)).2.filter (fun v => v.containerID = cid) = [v] ∧
      ∀ gauge : Gauge, gauge.delta v =
        (gauge.total (newest start (samplesOf cid between)) -
          gauge.total (previous start (samplesOf cid between))) / gauge.unit := by
  let seen := past.filterMap (Input.view cid)
  let opened := View.tick opening.time opening.nonzero (opening.resolveName.map (· cid))
  -- The container has an accumulator, whose previous sample is the last before the window.
  have present : ((accountOf cid).final (.new window) seen).accumulator.isSome := by
    rw [account_exists, flatMap_own]
    intro nothing
    rw [samplesOf, nothing] at sampled
    cases sampled
  obtain ⟨ac, found⟩ := Option.isSome_iff_exists.mp present
  have begins : ∀ gauge : Gauge, gauge.prev ac = gauge.total start := by
    intro gauge
    have prev := account_prev gauge cid window seen
    rw [flatMap_own, ← samplesOf, sampled, found] at prev
    exact prev
  -- The tick that opens the window resets it, and only the samples of the window follow.
  have quiet : ∀ time nonzero answer,
      View.tick time nonzero answer ∉ between.filterMap (Input.view cid) := by
    intro time nonzero answer inside
    obtain ⟨input, member, viewed⟩ := List.mem_filterMap.mp inside
    have silent : ∀ tick, input ≠ .tick tick := by
      rintro tick rfl
      exact noTick tick member
    rw [Input.view_of_quiet silent] at viewed
    cases items : input.own cid <;> simp [items] at viewed
  obtain ⟨left, ingested⟩ := account_in_window cid window seen ac found opening.time
    opening.nonzero (opening.resolveName.map (· cid)) (between.filterMap (Input.view cid)) quiet
  have viewed : (past ++ .tick opening :: between).filterMap (Input.view cid) =
      seen ++ .tick opening.time opening.nonzero (opening.resolveName.map (· cid)) ::
        between.filterMap (Input.view cid) := by
    rw [List.filterMap_append]
    rfl
  rw [tick_account, viewed, Account.step_tick_some ingested]
  refine ⟨_, rfl, fun gauge => ?_⟩
  rw [delta_finalize, flatMap_own]
  apply delta_foldl gauge _ _ start
  · rw [(gauge_reset gauge ac left).2, begins]
  · exact (gauge_reset gauge ac left).1
  · exact rising.window sampled gauge

/-- In every run, the vector of a window that a sample precedes carries the growth of the three
counters over the window exactly when, for each, the growth up to the last but one sample fits
beside what the last one leaves of a unit. -/
theorem deltas_iff (window : Duration) (cid : GoString) (past between : List Input)
    (opening closing : Tick) (start : Cgroup.Stats) (noTick : ∀ tick, .tick tick ∉ between)
    (sampled : (samplesOf cid past).getLast? = some start) (rising : Rising cid (past ++ between)) :
    let last := newest start (samplesOf cid between)
    let before := previous start (samplesOf cid between)
    ∃ v, (aggregator.step (aggregator.final (.new window) (past ++ .tick opening :: between))
        (.tick closing)).2.filter (fun v => v.containerID = cid) = [v] ∧
      ((∀ gauge : Gauge, (gauge.delta v).toNat =
          ((gauge.total last).toNat - (gauge.total start).toNat) / gauge.unit.toNat) ↔
        ∀ gauge : Gauge, ((gauge.total last).toNat - (gauge.total before).toNat) %
            gauge.unit.toNat + ((gauge.total before).toNat - (gauge.total start).toNat) <
          gauge.unit.toNat) := by
  intro last before
  obtain ⟨v, sent, shows⟩ := delta_of_window window cid past between opening closing start noTick
    sampled rising
  refine ⟨v, sent, forall_congr' fun gauge => ?_⟩
  have first : gauge.total start ≤ gauge.total before :=
    (previous_between gauge start _ (rising.window sampled gauge)).1
  have second : gauge.total before ≤ gauge.total last :=
    (previous_between gauge start _ (rising.window sampled gauge)).2
  rw [UInt64.le_iff_toNat_le] at first second
  have positive : 0 < gauge.unit.toNat := by cases gauge <;> decide
  have whole : (gauge.total last).toNat - (gauge.total start).toNat =
      ((gauge.total last).toNat - (gauge.total before).toNat) +
        ((gauge.total before).toNat - (gauge.total start).toNat) := by omega
  rw [shows gauge, UInt64.toNat_div, UInt64.toNat_sub_of_le _ _ second, whole]
  exact div_eq_add_div_iff _ _ _ positive

/-- A sample with some CPU time used. -/
def used (usageUsec : UInt64) : Cgroup.Stats := { cpu := { usageUsec := usageUsec } }

/-- A tick at a time. -/
def tickAt (time : Time) (nonzero : time ≠ 0) : Tick :=
  ⟨time, nonzero, RangeOrder.stored _ _, none⟩

/-- A sample for container `a`. -/
def sampleOfA (usageUsec : UInt64) : Input := .cgroup (lit "a") [] [] (used usageUsec)

/-- With samples of 1 s before a window, and of 2 s and 3 s in it, the vector shows 1000 ms where
the growth over the window is 2000 ms. -/
theorem two_samples_not_growth :
    ((aggregator.step (aggregator.final (.new 30)
          ([sampleOfA 1000000] ++ .tick (tickAt 30 (by decide)) ::
            [sampleOfA 2000000, sampleOfA 3000000]))
        (.tick (tickAt 60 (by decide)))).2.map
      fun v => (v.containerID, v.windowStart, v.windowEnd, v.cgroupCPUUsageMS.toNat)) =
      [(lit "a", 30, 60, 1000)] ∧
    ((used 3000000).cpu.usageUsec.toNat - (used 1000000).cpu.usageUsec.toNat) / 1000 = 2000 := by
  decide

/-- With one sample in the window the vector shows its growth. -/
theorem deltas_iff_one_sample :
    ∃ v, (aggregator.step (aggregator.final (.new 30)
          ([sampleOfA 1000000] ++ .tick (tickAt 30 (by decide)) :: [sampleOfA 3000000]))
        (.tick (tickAt 60 (by decide)))).2.filter (fun v => v.containerID = lit "a") = [v] ∧
      v.cgroupCPUUsageMS.toNat = 2000 := by
  have rising : Rising (lit "a") ([sampleOfA 1000000] ++ [sampleOfA 3000000]) := by
    intro gauge
    cases gauge <;> decide
  obtain ⟨v, sent, agrees⟩ := deltas_iff 30 (lit "a") [sampleOfA 1000000] [sampleOfA 3000000]
    (tickAt 30 (by decide)) (tickAt 60 (by decide)) (used 1000000)
    (fun tick => by simp [sampleOfA]) rfl rising
  refine ⟨v, sent, agrees.mpr ?_ .cpuUsage⟩
  intro gauge
  cases gauge <;> decide

end ContainerAnomaly.Feature
