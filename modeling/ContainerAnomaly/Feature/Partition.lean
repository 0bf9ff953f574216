import ContainerAnomaly.Attribution.Partition
import ContainerAnomaly.Feature.Windowing

/-!
# Vectors keep the partition

Rows of the syscall histogram are added counter by counter, and a vector carries the sums, so the
total of a vector is the sum of its buckets whenever those of the rows merged into it are
(`vector_partition`).
-/

namespace ContainerAnomaly.Feature

open Lib Bpf
open Attribution (AddsUp)

/-- The syscall histogram of a vector. -/
def Vector.histogram (v : Vector) (field : Field) : UInt64 := v.get (.sys field)

/-- What is ingested is a partition, when the rows in it are. -/
theorem worth_partition (items : List Ingest)
    (rows : ∀ row, .syscalls row ∈ items → AddsUp row.counts.get) :
    AddsUp fun field => worth (.sys field) items := by
  induction items with
  | nil => exact .zero
  | cons item items ih =>
    have rest := ih fun row inside => rows row (List.mem_cons_of_mem _ inside)
    have first : AddsUp fun field => item.amount (.sys field) := by
      cases item with
      | syscalls row => exact rows row List.mem_cons_self
      | exit crash => exact .zero
      | tcp row => exact .zero
      | cpu row => exact .zero
      | cgroup name image s => exact .zero
    have sums : (fun field => worth (.sys field) (item :: items)) =
        fun field => item.amount (.sys field) + worth (.sys field) items := by
      funext field
      rw [worth, List.map_cons, List.sum_cons, worth]
    rw [sums]
    exact first.add rest

/-- In every run of an account, what it holds and what it has emitted are partitions. -/
theorem account_partition (cid : GoString) (window : Duration) (views : List View)
    (rows : ∀ row, .syscalls row ∈ views.flatMap View.items → AddsUp row.counts.get) :
    (AddsUp fun field =>
        held (.sys field) ((accountOf cid).final (.new window) views).accumulator) ∧
      ∀ v ∈ (accountOf cid).outputs (.new window) views, AddsUp v.histogram := by
  induction views using List.reverseRecOn with
  | nil =>
    refine ⟨?_, fun v inside => by cases inside⟩
    have empty : (fun field => held (.sys field)
        ((accountOf cid).final (.new window) []).accumulator) = fun _ => 0 := by
      funext field
      cases field <;> rfl
    rw [empty]
    exact .zero
  | append_singleton views view ih =>
    rw [List.flatMap_append] at rows
    obtain ⟨holds, emits⟩ := ih fun row inside => rows row (List.mem_append_left _ inside)
    rw [Machine.final_snoc, Machine.outputs_snoc]
    cases view with
    | ingest first rest =>
      have silent : ((accountOf cid).step ((accountOf cid).final (.new window) views)
        (.ingest first rest)).2 = [] := rfl
      rw [silent, List.append_nil]
      refine ⟨?_, emits⟩
      have ingested := worth_partition (first :: rest) fun row inside =>
        rows row (List.mem_append_right _ (by simpa [View.items] using inside))
      have sums := funext fun field => get_ingestAll (.sys field) (first :: rest)
        (((accountOf cid).final (.new window) views).accumulator.getD {})
      have both := holds.add ingested
      exact (congrArg AddsUp sums).mpr both
    | tick time nonzero answer =>
      cases found : ((accountOf cid).final (.new window) views).accumulator with
      | none =>
        rw [Account.step_tick_none found, List.append_nil]
        exact ⟨holds, emits⟩
      | some ac =>
        rw [Account.step_tick_some found]
        rw [found] at holds
        constructor
        · have cleared : (fun field => held (.sys field) (some (ac.reset (ac.finalize
              (((accountOf cid).final (.new window) views).opened time) time cid answer)))) =
              fun _ => 0 := funext fun field => get_reset (.sys field) ac _
          exact (congrArg AddsUp cleared).mpr .zero
        · intro v inside
          rcases List.mem_append.mp inside with before | last
          · exact emits v before
          · obtain rfl := List.mem_singleton.mp last
            have carried := funext fun field => get_finalize (.sys field) ac
              (((accountOf cid).final (.new window) views).opened time) time cid answer
            exact (congrArg AddsUp carried).mpr holds

/-- In every run whose rows are partitions, every vector is one. -/
theorem vector_partition (window : Duration) (inputs : List Input)
    (rows : ∀ snapshot, .syscalls snapshot ∈ inputs → ∀ row ∈ snapshot,
      AddsUp row.counts.get) (v : Vector)
    (sent : v ∈ aggregator.outputs (.new window) inputs) : AddsUp v.histogram := by
  have own := (aggregator_hasPart v.containerID).run aggregator (.new window) inputs
  have inside : v ∈ (aggregator.outputs (.new window) inputs).filter
      fun other => other.containerID = v.containerID := List.mem_filter.mpr ⟨sent, by simp⟩
  rw [own.2] at inside
  refine (account_partition v.containerID window _ ?_).2 v inside
  intro row listed
  rw [flatMap_own] at listed
  obtain ⟨input, member, ingested⟩ := List.mem_flatMap.mp listed
  obtain ⟨⟨key, item⟩, kept, rfl⟩ := List.mem_map.mp ingested
  have given := (List.mem_filter.mp kept).1
  cases input with
  | syscalls snapshot =>
    obtain ⟨other, here, same⟩ := List.mem_map.mp given
    cases same
    exact rows snapshot member row here
  | exit containerID crash => simp [Input.ingests] at given
  | tcp snapshot => simp [Input.ingests] at given
  | cpu snapshot => simp [Input.ingests] at given
  | cgroup cid name image s => simp [Input.ingests] at given
  | tick tick => simp [Input.ingests] at given

end ContainerAnomaly.Feature
