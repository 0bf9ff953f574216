import ContainerAnomaly.Attribution.Ledger
import ContainerAnomaly.Collector.Updates

/-!
# How many containers can be counted

`syscalls_by_cgid` holds 256 histograms and nothing ever deletes one, while `nextIdx` gives every
new container an index of its own. The histograms are therefore those of the containers that
ever made a syscall while mapped, and `counts_iff_few_active` says that a run counts all its
syscalls exactly when there are at most 256 of them, however few are mapped at any one time.
-/

namespace ContainerAnomaly.Attribution

open Lib Bpf Syscalls Agent Container

variable {cpus : Nat}

/-- The container index of a moment's syscall, when its cgroup is mapped. -/
def mappedIndex (moment : Moment cpus) : Option UInt32 :=
  moment.2.syscall.bind fun call => moment.1.maps.cgidMap.lookup call.cgid

/-- The indices of the containers that made a syscall while mapped, each once. -/
def active (past : List (Moment cpus)) : List UInt32 := (past.filterMap mappedIndex).dedup

/-- If the moment is a syscall of a mapped container, the program counts it in the histogram of
that container, on the CPU it runs on. -/
def Counts (kernel : Kernel) (moment : Moment cpus) : Prop :=
  match moment.2 with
  | .sysEnter cpu cgid id => ∀ idx, moment.1.maps.cgidMap.lookup cgid = some idx →
      (moment.1.step kernel moment.2).1.maps.syscallsByCgid.lookup idx =
        some (Function.update (moment.1.maps.slots idx) cpu
          ((moment.1.maps.slots idx cpu).count id))
  | _ => True

/-- A syscall of a mapped container is counted exactly when its histogram is there or has
room. -/
theorem counts_iff_hasRoom (kernel : Kernel) (state : State cpus) (cpu : Fin cpus)
    (cgid : UInt64) (id idx : UInt32) (mapped : state.maps.cgidMap.lookup cgid = some idx) :
    Counts kernel (state, .sysEnter cpu cgid id) ↔ state.maps.HasRoom idx := by
  change (∀ other, state.maps.cgidMap.lookup cgid = some other →
    (traceSysEnter kernel.histLayout state.maps cpu cgid id).syscallsByCgid.lookup other =
      some (Function.update (state.maps.slots other) cpu
        ((state.maps.slots other cpu).count id))) ↔ _
  rcases traceSysEnter_cases kernel.histLayout state.maps cpu cgid id with
    ⟨missed, _⟩ | ⟨index, hit, full, same⟩ | ⟨index, hit, room, _, stored⟩
  · rw [missed] at mapped
    cases mapped
  · obtain rfl : index = idx := Option.some.inj (hit.symm.trans mapped)
    have missing : state.maps.syscallsByCgid.lookup index = none := by
      rw [HashTable.lookup_eq_none_iff]
      exact fun inside => full (.inl inside)
    constructor
    · intro counted
      have entry := counted index hit
      rw [same, missing] at entry
      cases entry
    · intro room
      exact absurd room full
  · obtain rfl : index = idx := Option.some.inj (hit.symm.trans mapped)
    constructor
    · intro _
      exact room
    · intro _ other found
      obtain rfl : index = other := Option.some.inj (hit.symm.trans found)
      rw [stored, if_pos rfl]

/-- The histograms after a step: those before it, and that of the syscall's container when the
step counts. -/
theorem keys_step (kernel : Kernel) (state : State cpus) (input : Input cpus) (index : UInt32) :
    (index ∈ (state.step kernel input).1.maps.syscallsByCgid.keys →
      index ∈ state.maps.syscallsByCgid.keys ∨ mappedIndex (state, input) = some index) ∧
    (index ∈ state.maps.syscallsByCgid.keys →
      index ∈ (state.step kernel input).1.maps.syscallsByCgid.keys) ∧
    (mappedIndex (state, input) = some index → Counts kernel (state, input) →
      index ∈ (state.step kernel input).1.maps.syscallsByCgid.keys) := by
  cases input with
  | refresh found =>
    have histograms := (state.refresh_cases kernel found).2.1
    change (index ∈ (state.refresh kernel found).maps.syscallsByCgid.keys → _) ∧
      (_ → index ∈ (state.refresh kernel found).maps.syscallsByCgid.keys) ∧ _
    rw [histograms]
    refine ⟨Or.inl, id, fun mapped => ?_⟩
    cases mapped
  | poll order =>
    refine ⟨Or.inl, id, fun mapped => ?_⟩
    cases mapped
  | sysEnter cpu cgid id =>
    change (index ∈ (traceSysEnter kernel.histLayout state.maps cpu cgid id).syscallsByCgid.keys →
      _ ∨ state.maps.cgidMap.lookup cgid = some index) ∧
      (_ → index ∈ (traceSysEnter kernel.histLayout state.maps cpu cgid
        id).syscallsByCgid.keys) ∧
      (state.maps.cgidMap.lookup cgid = some index → _ →
        index ∈ (traceSysEnter kernel.histLayout state.maps cpu cgid id).syscallsByCgid.keys)
    rcases traceSysEnter_cases kernel.histLayout state.maps cpu cgid id with
      ⟨missed, same⟩ | ⟨idx, hit, full, same⟩ | ⟨idx, hit, room, _, stored⟩
    · rw [same, missed]
      exact ⟨Or.inl, fun inside => inside, fun mapped => by cases mapped⟩
    · rw [same]
      refine ⟨Or.inl, fun inside => inside, fun mapped counted => ?_⟩
      exact (((counts_iff_hasRoom kernel state cpu cgid id index mapped).mp counted).elim
        (fun inside => inside) fun room => absurd (.inr room)
          (Option.some.inj (hit.symm.trans mapped) ▸ full))
    · simp only [HashTable.mem_keys_iff, stored]
      by_cases here : index = idx
      · subst here
        simp [hit]
      · have other : state.maps.cgidMap.lookup cgid ≠ some index := by
          rw [hit]
          intro same
          exact here (Option.some.inj same).symm
        simp [here, other]

/-- The active containers after one more step. -/
theorem mem_active_snoc (past : List (Moment cpus)) (moment : Moment cpus) (index : UInt32) :
    index ∈ active (past ++ [moment]) ↔
      index ∈ active past ∨ mappedIndex moment = some index := by
  simp [active, List.filterMap_append]

/-- In every run, a histogram belongs to an active container. -/
theorem keys_active (kernel : Kernel) (inputs : List (Input cpus)) :
    ∀ index ∈ ((system cpus kernel).final (.initial cpus) inputs).maps.syscallsByCgid.keys,
      index ∈ active ((system cpus kernel).trace (.initial cpus) inputs) := by
  apply (system cpus kernel).invariant_always
    (fun past state => ∀ index ∈ state.maps.syscallsByCgid.keys, index ∈ active past)
  · intro index inside
    cases inside
  · intro past state input held index inside
    apply (mem_active_snoc past (state, input) index).mpr
    rcases (keys_step kernel state input index).1 inside with old | new
    · exact .inl (held index old)
    · exact .inr new

/-- In a run that counts every syscall, every active container has a histogram. -/
theorem active_keys (kernel : Kernel) (inputs : List (Input cpus))
    (counted : ∀ moment ∈ (system cpus kernel).trace (.initial cpus) inputs,
      Counts kernel moment) :
    ∀ index ∈ active ((system cpus kernel).trace (.initial cpus) inputs),
      index ∈ ((system cpus kernel).final (.initial cpus) inputs).maps.syscallsByCgid.keys := by
  apply (system cpus kernel).invariant
    (fun past state => ∀ index ∈ active past, index ∈ state.maps.syscallsByCgid.keys)
    (fun state input => Counts kernel (state, input))
  · intro index inside
    cases inside
  · intro past state input held allowed index inside
    have steps := keys_step kernel state input index
    rcases (mem_active_snoc past (state, input) index).mp inside with old | new
    · exact steps.2.1 (held index old)
    · exact steps.2.2 new allowed
  · intro moment member
    exact counted moment member

/-- A run that counts every syscall has at most 256 active containers. -/
theorem few_active (kernel : Kernel) (inputs : List (Input cpus))
    (counted : ∀ moment ∈ (system cpus kernel).trace (.initial cpus) inputs,
      Counts kernel moment) :
    (active ((system cpus kernel).trace (.initial cpus) inputs)).length ≤ 256 := by
  have stored := List.Nodup.length_le_of_subset
    (List.nodup_dedup (((system cpus kernel).trace (.initial cpus) inputs).filterMap mappedIndex))
    (active_keys kernel inputs counted)
  have bound := HashTable.keys_length_le
    ((system cpus kernel).final (.initial cpus) inputs).maps.syscallsByCgid
  exact Nat.le_trans stored bound

/-- A run counts every syscall of a mapped container exactly when at most 256 containers make
syscalls while mapped over the whole of it. -/
theorem counts_iff_few_active (kernel : Kernel) (inputs : List (Input cpus)) :
    (∀ moment ∈ (system cpus kernel).trace (.initial cpus) inputs, Counts kernel moment) ↔
      (active ((system cpus kernel).trace (.initial cpus) inputs)).length ≤ 256 := by
  constructor
  · intro counted
    exact few_active kernel inputs counted
  · intro few moment member
    obtain ⟨state, input⟩ := moment
    cases input with
    | refresh found => trivial
    | poll order => trivial
    | sysEnter cpu cgid id =>
      cases mapped : state.maps.cgidMap.lookup cgid with
      | none =>
        intro idx found
        exact absurd (found.symm.trans mapped) (by simp)
      | some index =>
        apply (counts_iff_hasRoom kernel state cpu cgid id index mapped).mpr
        by_cases present : index ∈ state.maps.syscallsByCgid.keys
        · exact .inl present
        · right
          obtain ⟨past, rest, whole, met⟩ := (Machine.mem_trace_iff _ _ _ _).mp member
          have everyone : ∀ other ∈ index :: state.maps.syscallsByCgid.keys,
              other ∈ active ((system cpus kernel).trace (.initial cpus) inputs) := by
            intro other inside
            rcases List.mem_cons.mp inside with rfl | stored
            · exact List.mem_dedup.mpr (List.mem_filterMap.mpr ⟨_, member, mapped⟩)
            · change _ = state at met
              rw [← met] at stored
              have earlier := keys_active kernel past other stored
              have listed := List.mem_dedup.mp earlier
              apply List.mem_dedup.mpr
              rw [whole, Machine.trace_append, List.filterMap_append]
              exact List.mem_append_left _ listed
          have distinct : (index :: state.maps.syscallsByCgid.keys).Nodup :=
            List.nodup_cons.mpr ⟨present, state.maps.syscallsByCgid.distinct⟩
          have fits := distinct.length_le_of_subset everyone
          rw [List.length_cons, HashTable.keys, List.length_map] at fits
          omega

/-- A refresh that finds a single new container gives it the next index, and maps it alone. -/
theorem refresh_single (state : State cpus) (cid : GoString) (cgid : UInt64)
    (fresh : state.indices.idxByCid.lookup cid = none)
    (few : state.maps.cgidMap.entries.length ≤ 1)
    (stale : ∀ entry ∈ state.maps.cgidMap.entries, entry.2 ≠ state.indices.nextIdx) :
    (state.refresh .plain (.single cid cgid)).indices =
      ⟨state.indices.nextIdx + 1, state.indices.idxByCid.insert cid state.indices.nextIdx⟩ ∧
    ∀ entry, entry ∈ (state.refresh .plain (.single cid cgid)).maps.cgidMap.entries ↔
      entry = (cgid, state.indices.nextIdx) := by
  have found : (Refresh.single cid cgid).collect state.indices =
      (⟨state.indices.nextIdx + 1, state.indices.idxByCid.insert cid state.indices.nextIdx⟩,
        [⟨cgid, state.indices.nextIdx, cid⟩]) := by
    have listed : (Refresh.single cid cgid).containers.range (Refresh.single cid cgid).order =
        [(cid, ⟨cid, cid.take 12, [], [], 1⟩)] := rfl
    rw [Refresh.collect, listed]
    simp [collectMappings, Indices.assign, fresh, Refresh.single]
  constructor
  · rw [(state.refresh_cases .plain (.single cid cgid)).1, found]
  · intro entry
    let mappings : List ContainerMapping := [⟨cgid, state.indices.nextIdx, cid⟩]
    have succeeded := updateContainers_succeeds Kernel.plain.cgidLayout Kernel.plain.walkBudget
      (fun _ => false) state.maps.cgidMap state.collector mappings (fun _ => rfl)
      (by change _ + 1 ≤ 1024; omega)
    have square := Nat.mul_le_mul (Nat.add_le_add_right few 2) (Nat.add_le_add_right few 2)
    have written := updateContainers_entries Kernel.plain.cgidLayout Kernel.plain.walkBudget
      (fun _ => false) state.maps.cgidMap state.collector mappings succeeded (by simp [mappings])
      (Nat.le_trans square (by decide)) entry
    have same : (state.refresh .plain (.single cid cgid)).maps.cgidMap =
        (updateContainers Kernel.plain.cgidLayout Kernel.plain.walkBudget (fun _ => false)
          state.maps.cgidMap state.collector mappings).1 := by
      unfold State.refresh
      rw [found]
      rfl
    rw [same, written]
    constructor
    · intro inside
      rcases inside with ⟨m, member, rfl⟩ | ⟨old, _, m, member, index⟩
      · rw [List.mem_singleton.mp member]
      · rw [List.mem_singleton.mp member] at index
        exact absurd index.symm (stale entry old)
    · intro new
      exact .inl ⟨_, List.mem_singleton_self _, new⟩

/-- One container after the other: each is the only one that is found, makes one syscall, and
is gone at the next refresh. -/
def churn (name : Nat → GoString) (count : Nat) : List (Input 1) :=
  (List.range count).flatMap fun k =>
    [.refresh (.single (name k) (UInt64.ofNat k)), .sysEnter 0 (UInt64.ofNat k) nrRead]

/-- The state between two containers: the next index is fresh, no later container is known, and
at most the last container is mapped. -/
structure Between (name : Nat → GoString) (count : Nat) (state : State 1) : Prop where
  /-- The next index is the number of the containers so far. -/
  next : state.indices.nextIdx = UInt32.ofNat count
  /-- No later container is known. -/
  unknown : ∀ k, count ≤ k → k < 2 ^ 32 → state.indices.idxByCid.lookup (name k) = none
  /-- `cgid_map` has one entry at most. -/
  few : state.maps.cgidMap.entries.length ≤ 1
  /-- The indices in it have been given. -/
  old : ∀ entry ∈ state.maps.cgidMap.entries, entry.2.toNat < count

/-- One more container comes and goes. -/
theorem Between.step {name : Nat → GoString}
    (injective : ∀ left right, left < 2 ^ 32 → right < 2 ^ 32 → name left = name right →
      left = right) {count : Nat}
    (small : count < 2 ^ 32) {state : State 1} (between : Between name count state) :
    let refreshed := state.refresh .plain (.single (name count) (UInt64.ofNat count))
    refreshed.maps.cgidMap.lookup (UInt64.ofNat count) = some (UInt32.ofNat count) ∧
      refreshed.maps.cgidMap.entries.length ≤ 1 ∧
      Between name (count + 1) (refreshed.step .plain
        (.sysEnter 0 (UInt64.ofNat count) nrRead)).1 := by
  have index : (UInt32.ofNat count).toNat = count := by
    rw [UInt32.toNat_ofNat']
    exact Nat.mod_eq_of_lt small
  have stale : ∀ entry ∈ state.maps.cgidMap.entries, entry.2 ≠ state.indices.nextIdx := by
    intro entry inside same
    have below := between.old entry inside
    rw [same, between.next, index] at below
    omega
  obtain ⟨indices, entries⟩ := refresh_single state (name count) (UInt64.ofNat count)
    (between.unknown count (Nat.le_refl _) small) between.few stale
  rw [between.next] at indices entries
  intro refreshed
  have mapped : refreshed.maps.cgidMap.lookup (UInt64.ofNat count) =
      some (UInt32.ofNat count) := by
    rw [HashTable.lookup_eq_some_iff]
    exact (entries _).mpr rfl
  have single : refreshed.maps.cgidMap.entries.length ≤ 1 := by
    have distinct : refreshed.maps.cgidMap.entries.Nodup :=
      refreshed.maps.cgidMap.distinct.of_map Prod.fst
    have inside : refreshed.maps.cgidMap.entries ⊆
        [(UInt64.ofNat count, UInt32.ofNat count)] := by
      intro entry member
      exact List.mem_singleton.mpr ((entries entry).mp member)
    exact distinct.length_le_of_subset inside
  refine ⟨mapped, single, ?_⟩
  have same : (refreshed.step .plain (.sysEnter 0 (UInt64.ofNat count) nrRead)).1.maps.cgidMap =
      refreshed.maps.cgidMap := cgidMap_traceSysEnter _ _ _ _ _
  constructor
  · change refreshed.indices.nextIdx = _
    rw [indices, UInt32.ofNat_add]
    rfl
  · intro k later inside
    change refreshed.indices.idxByCid.lookup (name k) = none
    have apart : name k ≠ name count := by
      intro equal
      have := injective k count inside small equal
      omega
    rw [indices, AList.lookup_insert_ne apart]
    exact between.unknown k (by omega) inside
  · rw [same]
    exact single
  · intro entry inside
    rw [same, entries] at inside
    rw [inside, index]
    exact Nat.lt_succ_self count

/-- After any number of containers, all of them have been active, and at no moment was more
than one mapped. -/
theorem churn_active {name : Nat → GoString}
    (injective : ∀ left right, left < 2 ^ 32 → right < 2 ^ 32 → name left = name right →
      left = right) (count : Nat)
    (small : count ≤ 2 ^ 32) :
    Between name count ((system 1 .plain).final (.initial 1) (churn name count)) ∧
    ((system 1 .plain).trace (.initial 1) (churn name count)).filterMap mappedIndex =
      (List.range count).map UInt32.ofNat ∧
    ∀ moment ∈ (system 1 .plain).trace (.initial 1) (churn name count),
      moment.1.maps.cgidMap.entries.length ≤ 1 := by
  induction count with
  | zero =>
    refine ⟨⟨rfl, fun _ _ _ => rfl, Nat.zero_le 1, fun entry inside => by cases inside⟩, rfl, ?_⟩
    intro moment member
    cases member
  | succ count ih =>
    obtain ⟨between, indices, few⟩ := ih (by omega)
    obtain ⟨mapped, single, next⟩ := between.step injective (by omega)
    have split : churn name (count + 1) = churn name count ++
        [.refresh (.single (name count) (UInt64.ofNat count)),
          .sysEnter 0 (UInt64.ofNat count) nrRead] := by
      simp [churn, List.range_succ]
    rw [split, Machine.trace_append, Machine.final_append]
    refine ⟨next, ?_, ?_⟩
    · rw [List.filterMap_append, indices, List.range_succ, List.map_append]
      congr 1
      exact List.filterMap_cons_none rfl |>.trans (List.filterMap_cons_some mapped)
    · intro moment member
      rcases List.mem_append.mp member with early | late
      · exact few moment early
      · rcases List.mem_cons.mp late with rfl | last
        · exact between.few
        · rw [List.mem_singleton.mp last]
          exact single

/-- A lower-case hexadecimal digit. -/
def hexDigit (digit : Nat) : UInt8 := UInt8.ofNat (if digit < 10 then 48 + digit else 87 + digit)

/-- A container id: a number in 64 hexadecimal digits. -/
def serial (number : Nat) : GoString :=
  (List.range 64).map fun place => hexDigit (number / 16 ^ (63 - place) % 16)

/-- Different numbers give different ids. -/
theorem serial_injective (left right : Nat) (leftSmall : left < 2 ^ 32)
    (rightSmall : right < 2 ^ 32) (same : serial left = serial right) : left = right := by
  have separate : ∀ first second : Fin 16, hexDigit first = hexDigit second →
      first = second := by decide
  have digits : ∀ place < 64, left / 16 ^ (63 - place) % 16 = right / 16 ^ (63 - place) % 16 := by
    intro place inside
    have equal := List.map_inj_left.mp same place (List.mem_range.mpr inside)
    have digit := separate ⟨_, Nat.mod_lt _ (by decide)⟩ ⟨_, Nat.mod_lt _ (by decide)⟩ equal
    exact congrArg Fin.val digit
  have first : left % 16 = right % 16 := by simpa using digits 63 (by decide)
  have second : left / 16 % 16 = right / 16 % 16 := digits 62 (by decide)
  have third : left / 256 % 16 = right / 256 % 16 := digits 61 (by decide)
  have fourth : left / 4096 % 16 = right / 4096 % 16 := digits 60 (by decide)
  have fifth : left / 65536 % 16 = right / 65536 % 16 := digits 59 (by decide)
  have sixth : left / 1048576 % 16 = right / 1048576 % 16 := digits 58 (by decide)
  have seventh : left / 16777216 % 16 = right / 16777216 % 16 := digits 57 (by decide)
  have eighth : left / 268435456 % 16 = right / 268435456 % 16 := digits 56 (by decide)
  omega

/-- With at most one container mapped at any moment, the syscalls of 257 containers that come
one after the other are not all counted. -/
theorem churn_not_counted :
    (∀ moment ∈ (system 1 .plain).trace (.initial 1) (churn serial 257),
      moment.1.maps.cgidMap.entries.length ≤ 1) ∧
    ¬ ∀ moment ∈ (system 1 .plain).trace (.initial 1) (churn serial 257),
      Counts .plain moment := by
  obtain ⟨_, indices, few⟩ := churn_active serial_injective 257 (by decide)
  refine ⟨few, fun counted => ?_⟩
  have bound := few_active .plain (churn serial 257) counted
  have distinct : ((List.range 257).map UInt32.ofNat).Nodup := by
    apply List.Nodup.map_on _ List.nodup_range
    intro left leftSmall right rightSmall same
    have leftBound := List.mem_range.mp leftSmall
    have rightBound := List.mem_range.mp rightSmall
    have values := congrArg UInt32.toNat same
    rwa [UInt32.toNat_ofNat_of_lt' (Nat.lt_trans leftBound (by decide)),
      UInt32.toNat_ofNat_of_lt' (Nat.lt_trans rightBound (by decide))] at values
  rw [active, indices, List.Nodup.dedup distinct, List.length_map, List.length_range] at bound
  omega

end ContainerAnomaly.Attribution
