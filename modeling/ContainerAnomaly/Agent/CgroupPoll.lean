import ContainerAnomaly.Cgroup.Directory
import ContainerAnomaly.Container.FastPath
import ContainerAnomaly.Feature.Throttle

/-!
# The poll of the cgroups

`pollCgroup` of `cmd/agent/main.go`. A round asks for the directory of every known container, reads
it, and hands what it has read to the aggregator; a container without a directory is passed over.
The directory is its scope or, without one, that of the process with the pid docker has told last,
which may have exited. From the files of the kernel to the vectors, the columns that show a state
are those of the last round of the window that has read a directory of the container
(`cgroup_columns`).
-/

namespace ContainerAnomaly.Agent

open Lib GoString Cgroup Container Feature

/-- What a round of `pollCgroup` finds: the containers, in the order they are ranged over, and the
file system as it is when a container is looked for and when its directory is read. -/
structure Round where
  /-- `Containers` of the resolver. -/
  containers : GoMap GoString Info
  /-- The order in which they are ranged over. -/
  order : RangeOrder GoString Info
  /-- The root of the reader. -/
  root : GoString
  /-- The file system when a container is looked for. -/
  fs : GoString → CgroupFs
  /-- The files when its directory is read. -/
  files : GoString → CgroupFiles

section Rounds

variable (parseFloat : GoString → Float)

/-- What is handed over for a container. -/
def Round.container (round : Round) (entry : GoString × Info) : Option Input :=
  match pathForContainer (round.fs entry.1) round.root entry.1 entry.2.pid with
  | none => none
  | some cgPath =>
    (read parseFloat (round.files entry.1) cgPath).map fun s =>
      .cgroup entry.1 entry.2.name entry.2.image s

/-- One round of `pollCgroup`: what it hands over. -/
def pollCgroup (round : Round) : List Input :=
  (round.containers.range round.order).filterMap (round.container parseFloat)

end Rounds

/-- What a round meets when it looks for a container by its id and its last known pid: the directory
that it reads, if any. No directory has a name that ends in white space. -/
inductive Round.Sees (round : Round) (cid : GoString) (pid : Int) : Option Directory → Prop where
  /-- The scope is there, and is read. -/
  | scope (dir : Directory)
    (exist : (round.fs cid).stat (path (mounted ++ scopeDir cid)) = true)
    (holds : (round.files cid).Holds (mounted ++ scopeDir cid) dir) : round.Sees cid pid (some dir)
  /-- The scope is there, and gone when it is read. -/
  | scopeGone (exist : (round.fs cid).stat (path (mounted ++ scopeDir cid)) = true)
    (gone : (round.files cid).stat (path (mounted ++ scopeDir cid)) = false) :
    round.Sees cid pid none
  /-- There is no scope, and no process: docker has told of none, or it has exited since. -/
  | exited (missing : (round.fs cid).stat (path (mounted ++ scopeDir cid)) = false)
    (exited : pid ≤ 0 ∨ (round.fs cid).procCgroup pid = none) : round.Sees cid pid none
  /-- There is no scope, and the pid is that of a process elsewhere by now. -/
  | elsewhere (names : List GoString)
    (missing : (round.fs cid).stat (path (mounted ++ scopeDir cid)) = false) (positive : 0 < pid)
    (shown : (round.fs cid).procCgroup pid = some (procLine names ++ [newline]))
    (valid : ∀ name ∈ names, ValidName name) (trimmed : (path names).trimSpace = path names)
    (foreign : (path names).contains cid = false) : round.Sees cid pid none
  /-- There is no scope, and the process is in another directory of the container. -/
  | process (names : List GoString) (dir : Directory)
    (missing : (round.fs cid).stat (path (mounted ++ scopeDir cid)) = false) (positive : 0 < pid)
    (shown : (round.fs cid).procCgroup pid = some (procLine names ++ [newline]))
    (valid : ∀ name ∈ names, ValidName name) (trimmed : (path names).trimSpace = path names)
    (below : names ≠ []) (own : (path names).contains cid = true)
    (holds : (round.files cid).Holds (mounted ++ names) dir) : round.Sees cid pid (some dir)
  /-- The process is shown in such a directory, which is gone when it is read; that of a zombie has
  `(deleted)` at its end. -/
  | processGone (names : List GoString)
    (missing : (round.fs cid).stat (path (mounted ++ scopeDir cid)) = false) (positive : 0 < pid)
    (shown : (round.fs cid).procCgroup pid = some (procLine names ++ [newline]))
    (valid : ∀ name ∈ names, ValidName name) (trimmed : (path names).trimSpace = path names)
    (below : names ≠ []) (own : (path names).contains cid = true)
    (gone : (round.files cid).stat (path (mounted ++ names)) = false) : round.Sees cid pid none

/-- A round reads these directories of the containers it knows, by ids of 64 digits. -/
structure Round.Finds (round : Round) (contents : GoString → Option Directory) : Prop where
  /-- The reader has the mount point for its root. -/
  root : round.root = path mounted
  /-- Containers are known by ids of 64 digits. -/
  ids : ∀ cid ∈ round.containers, ∃ known : ContainerID, known.text = cid
  /-- What each container says is what the files show. -/
  sees : ∀ cid info, round.containers.lookup cid = some info →
    round.Sees cid info.pid (contents cid)
  /-- Nothing is said of a container that is not known. -/
  unknown : ∀ cid ∉ round.containers, contents cid = none

/-- The names on the path of a scope are valid. -/
theorem valid_mounted (cid : ContainerID) :
    ∀ name ∈ mounted ++ scopeDir cid.text, ValidName name := by
  intro name inside
  refine ContainerID.valid_procsFile cid.valid_scope name ?_
  exact List.mem_append_left _ inside

/-- The samples of a first input come first. -/
theorem samplesOf_cons (cid : GoString) (input : Input) (inputs : List Input) :
    samplesOf cid (input :: inputs) = samples (input.own cid) ++ samplesOf cid inputs := by
  rw [samplesOf, List.flatMap_cons, samples_append]
  rfl

section Samples

variable {parseFloat : GoString → Float} (nearest : Nearest parseFloat) {round : Round}
  {contents : GoString → Option Directory} (finds : round.Finds contents)

include nearest finds in
/-- What is handed over for a known container is what its directory says. -/
theorem Round.container_eq {cid : GoString} {info : Info}
    (listed : round.containers.lookup cid = some info) :
    round.container parseFloat (cid, info) =
      (contents cid).map fun dir => .cgroup cid info.name info.image dir.stats := by
  obtain ⟨known, rfl⟩ := finds.ids cid (AList.lookup_isSome.mp (by rw [listed]; rfl))
  have mount : mounted ≠ [] := by simp [mounted]
  have valid := valid_mounted known
  have read : ∀ names dir, (∀ name ∈ mounted ++ names, ValidName name) →
      (round.files known.text).Holds (mounted ++ names) dir →
      Cgroup.read parseFloat (round.files known.text) (path (mounted ++ names)) = some dir.stats :=
    fun names dir valid holds => read_directory nearest (by simp [mounted]) valid holds
  have unread : ∀ names, (round.files known.text).stat (path (mounted ++ names)) = false →
      Cgroup.read parseFloat (round.files known.text) (path (mounted ++ names)) = none := by
    intro names gone
    rw [Cgroup.read, gone, if_neg Bool.false_ne_true]
  have below : ∀ names, (∀ name ∈ names, ValidName name) →
      ∀ name ∈ mounted ++ names, ValidName name := by
    intro names plain name inside
    rcases List.mem_append.mp inside with above | inside
    · exact valid name (List.mem_append_left _ above)
    · exact plain name inside
  unfold Round.container
  dsimp only
  rw [finds.root]
  have sees := finds.sees known.text info listed
  generalize contents known.text = found at sees
  cases sees with
  | scope dir exist holds =>
    rw [pathForContainer_scope _ mounted known.text info.pid mount valid exist]
    dsimp only
    rw [read _ dir valid holds]
    rfl
  | scopeGone exist gone =>
    rw [pathForContainer_scope _ mounted known.text info.pid mount valid exist]
    dsimp only
    rw [unread _ gone]
    rfl
  | exited missing exited =>
    rw [pathForContainer_nowhere _ mounted known.text info.pid mount valid missing exited]
    rfl
  | elsewhere names missing positive shown plain trimmed foreign =>
    rw [pathForContainer_proc _ mounted names known.text info.pid mount valid missing positive shown
      plain trimmed, if_neg (by simp [foreign])]
    rfl
  | process names dir missing positive shown plain trimmed present own holds =>
    rw [pathForContainer_proc _ mounted names known.text info.pid mount valid missing positive shown
      plain trimmed, if_pos own, joinPath_paths mounted names mount present (below names plain)]
    dsimp only
    rw [read names dir (below names plain) holds]
    rfl
  | processGone names missing positive shown plain trimmed present own gone =>
    rw [pathForContainer_proc _ mounted names known.text info.pid mount valid missing positive shown
      plain trimmed, if_pos own, joinPath_paths mounted names mount present (below names plain)]
    dsimp only
    rw [unread names gone]
    rfl

include nearest finds in
/-- A round hands over one sample of each container of which it reads a directory, and none of the
others. -/
theorem samplesOf_pollCgroup (cid : GoString) :
    samplesOf cid (pollCgroup parseFloat round) = ((contents cid).map Directory.stats).toList := by
  -- Only the entry of the container itself makes a sample of it.
  have own_only : ∀ entries : List (GoString × Info),
      (∀ entry ∈ entries, round.containers.lookup entry.1 = some entry.2) →
      samplesOf cid (entries.filterMap (round.container parseFloat)) =
        samplesOf cid ((entries.filter fun entry => entry.1 = cid).filterMap
          (round.container parseFloat)) := by
    intro entries listed
    induction entries with
    | nil => rfl
    | cons entry entries ih =>
      have rest := ih fun other inside => listed other (List.mem_cons_of_mem entry inside)
      have made := round.container_eq nearest finds (listed entry List.mem_cons_self)
      by_cases same : entry.1 = cid
      · rw [List.filter_cons_of_pos (by simpa using same), List.filterMap_cons,
          List.filterMap_cons, made]
        cases contents entry.1 with
        | none => exact rest
        | some dir =>
          rw [Option.map_some]
          dsimp only
          rw [samplesOf_cons, samplesOf_cons, rest]
      · rw [List.filter_cons_of_neg (by simpa using same), List.filterMap_cons, made, ← rest]
        cases contents entry.1 with
        | none => rfl
        | some dir => simp [samplesOf, Input.own, Input.ingests, same]
  rw [pollCgroup, own_only _ fun entry inside => (GoMap.mem_range_iff _ _ _ _).mp inside,
    GoMap.filter_range]
  cases listed : round.containers.lookup cid with
  | none =>
    rw [finds.unknown cid (AList.lookup_eq_none.mp listed)]
    rfl
  | some info =>
    have made := round.container_eq nearest finds listed
    rw [Option.map_some, Option.toList_some, List.filterMap_cons, made]
    cases contents cid with
    | none => rfl
    | some dir => simp [samplesOf, samples, Input.own, Input.ingests, Ingest.sample]

end Samples

/-- A round that reads some directories, or another input of the aggregator. -/
inductive Occasion where
  | poll (round : Round) (contents : GoString → Option Directory)
  | other (input : Input)

/-- What the aggregator is given. -/
def Occasion.inputs (parseFloat : GoString → Float) : Occasion → List Input
  | .poll round _ => pollCgroup parseFloat round
  | .other input => [input]

/-- A round finds what it is said to find, and nothing else samples a cgroup. -/
def Occasion.Fine : Occasion → Prop
  | .poll round contents => round.Finds contents
  | .other input => ∀ cid name image s, input ≠ .cgroup cid name image s

/-- Whether it is a tick. -/
def Occasion.isTick : Occasion → Bool
  | .poll _ _ => false
  | .other input => input.isTick

/-- The directory that is found of a container. -/
def Occasion.found (cid : GoString) : Occasion → Option Directory
  | .poll _ contents => contents cid
  | .other _ => none

/-- The inputs since the last tick are those of what has happened since. -/
theorem sinceTick_occasions (parseFloat : GoString → Float) (past : List Occasion) :
    sinceTick (past.flatMap (Occasion.inputs parseFloat)) =
      (sinceLast Occasion.isTick past).flatMap (Occasion.inputs parseFloat) := by
  have quiet : ∀ (inputs more : List Input), (∀ input ∈ more, input.isTick = false) →
      sinceTick (inputs ++ more) = sinceTick inputs ++ more := by
    intro inputs more silent
    induction more using List.reverseRecOn with
    | nil => simp
    | append_singleton more input ih =>
      have last := silent input (List.mem_append_right _ List.mem_cons_self)
      have before := ih fun other inside => silent other (List.mem_append_left _ inside)
      rw [← List.append_assoc, sinceTick, sinceLast_snoc, if_neg (by simp [last]), ← sinceTick,
        before, List.append_assoc]
  induction past using List.reverseRecOn with
  | nil => rfl
  | append_singleton past occasion ih =>
    rw [List.flatMap_append, List.flatMap_singleton, sinceLast_snoc]
    cases occasion with
    | poll round contents =>
      have silent : ∀ input ∈ pollCgroup parseFloat round, input.isTick = false := by
        intro input inside
        obtain ⟨entry, _, made⟩ := List.mem_filterMap.mp inside
        unfold Round.container at made
        split at made
        · cases made
        · obtain ⟨s, _, rfl⟩ := Option.map_eq_some_iff.mp made
          rfl
      rw [show Occasion.inputs parseFloat (.poll round contents) = pollCgroup parseFloat round
        from rfl, quiet _ _ silent, ih]
      simp [Occasion.isTick, Occasion.inputs]
    | other input =>
      rw [show Occasion.inputs parseFloat (.other input) = [input] from rfl, sinceTick,
        sinceLast_snoc, ← sinceTick, ih]
      cases ticks : input.isTick <;> simp [Occasion.isTick, Occasion.inputs, ticks]

/-- The samples of a container are what is found of it. -/
theorem samplesOf_occasions {parseFloat : GoString → Float} (nearest : Nearest parseFloat)
    {past : List Occasion} (fine : ∀ occasion ∈ past, occasion.Fine) (cid : GoString) :
    samplesOf cid (past.flatMap (Occasion.inputs parseFloat)) =
      (past.filterMap (Occasion.found cid)).map Directory.stats := by
  have append : ∀ first second, samplesOf cid (first ++ second) =
      samplesOf cid first ++ samplesOf cid second := by
    intro first second
    rw [samplesOf, List.flatMap_append, samples_append]
    rfl
  induction past with
  | nil => rfl
  | cons occasion past ih =>
    have rest := ih fun other inside => fine other (List.mem_cons_of_mem occasion inside)
    have first := fine occasion List.mem_cons_self
    rw [List.flatMap_cons, append, rest]
    cases occasion with
    | poll round contents =>
      have own : samplesOf cid (Occasion.inputs parseFloat (.poll round contents)) = _ :=
        samplesOf_pollCgroup nearest first cid
      rw [own, List.filterMap_cons, Occasion.found]
      cases contents cid <;> rfl
    | other input =>
      have none_sampled : samplesOf cid [input] = [] := by
        cases input with
        | cgroup other name image s => exact absurd rfl (first other name image s)
        | _ => simp [samplesOf, samples, Input.own, Input.ingests, Ingest.sample]
      rw [show Occasion.inputs parseFloat (.other input) = [input] from rfl, none_sampled]
      rfl

/-- In every run of rounds, other inputs and ticks: once a round has read a directory of a
container, every tick emits one vector of it, and each column of that vector that samples overwrite
(the memory in use, its pressure, the kills, the share of throttled periods) says what a directory
of the container has said last in this window, and is blank when no round of the window has read
one. -/
theorem cgroup_columns (parseFloat : GoString → Float) (nearest : Nearest parseFloat)
    (window : Duration) (past : List Occasion) (fine : ∀ occasion ∈ past, occasion.Fine)
    (closing : Tick) (cid : GoString) (seen : ∃ occasion ∈ past, (occasion.found cid).isSome) :
    ∃ v, (aggregator.step (aggregator.final (.new window)
        (past.flatMap (Occasion.inputs parseFloat))) (.tick closing)).2.filter
          (fun v => v.containerID = cid) = [v] ∧
      ∀ {β : Type} (column : Overwritten β), column.shown v =
        (((sinceLast Occasion.isTick past).filterMap (Occasion.found cid)).filterMap
          fun dir => column.written dir.stats).getLast?.getD (column.shown {}) := by
  have sampled : samplesOf cid (past.flatMap (Occasion.inputs parseFloat)) ≠ [] := by
    rw [samplesOf_occasions nearest fine, ne_eq, List.map_eq_nil_iff, List.filterMap_eq_nil_iff]
    intro never
    obtain ⟨occasion, inside, found⟩ := seen
    rw [never occasion inside] at found
    cases found
  obtain ⟨v, sent, shown⟩ := overwritten_sent window cid _ closing sampled
  refine ⟨v, sent, fun column => ?_⟩
  have recent : ∀ occasion ∈ sinceLast Occasion.isTick past, occasion.Fine := fun occasion inside =>
    fine occasion ((sinceLast_suffix _ past).subset inside)
  rw [shown, sinceTick_occasions, samplesOf_occasions nearest recent, List.filterMap_map]
  rfl

/-- A directory that says how much memory is in use, and nothing else. -/
def fiveMebibytes : Directory := ⟨none, none, some 5242880, none, none, none, none⟩

/-- What docker says of the container. -/
def zerosInfo : Info := ⟨ContainerID.zeros.text, ContainerID.zeros.text.take 12, [], [], 10⟩

/-- A round that knows the container, in a directory with these names if it has one. -/
def zerosRound (fs : CgroupFs) (names : Option (List GoString)) : Round where
  containers := (∅ : GoMap GoString Info).insert ContainerID.zeros.text zerosInfo
  order := .stored _ _
  root := path mounted
  fs _ := fs
  files _ := match names with
    | none => ⟨fun _ => false, fun _ => none, fun _ => none⟩
    | some names =>
      ⟨fun text => text = path (mounted ++ names), fun _ => none,
        fun text => if text = path (mounted ++ names ++ [lit "memory.current"]) then
          some (numberText 5242880) else none⟩

/-- What it reads. -/
def zerosContents (found : Option Directory) (cid : GoString) : Option Directory :=
  if cid = ContainerID.zeros.text then found else none

/-- The round finds what it sees of the container. -/
theorem zerosRound_finds {fs : CgroupFs} {names : Option (List GoString)}
    {found : Option Directory}
    (sees : (zerosRound fs names).Sees ContainerID.zeros.text 10 found) :
    (zerosRound fs names).Finds (zerosContents found) := by
  have own : ∀ cid ∈ (zerosRound fs names).containers, cid = ContainerID.zeros.text :=
    fun cid known => ((AList.mem_insert _).mp known).resolve_right (AList.notMem_empty cid)
  refine ⟨rfl, fun cid known => ⟨_, (own cid known).symm⟩, fun cid info listed => ?_,
    fun cid unknown => ?_⟩
  · obtain rfl := own cid (AList.lookup_isSome.mp (by rw [listed]; rfl))
    have same : (zerosRound fs names).containers.lookup ContainerID.zeros.text = some zerosInfo :=
      AList.lookup_insert _
    obtain rfl := Option.some.inj (listed.symm.trans same)
    rw [zerosContents, if_pos rfl]
    exact sees
  · refine if_neg fun same => unknown ?_
    subst same
    exact (AList.mem_insert _).mpr (.inl rfl)

/-- The directory holds the five mebibytes. -/
theorem zerosRound_holds (fs : CgroupFs) (names : List GoString) :
    ((zerosRound fs (some names)).files ContainerID.zeros.text).Holds (mounted ++ names)
      fiveMebibytes := by
  have limit : path (mounted ++ names ++ [lit "memory.max"]) ≠
      path (mounted ++ names ++ [lit "memory.current"]) := by
    rw [path_append _ [_] (by simp [mounted]), path_append _ [_] (by simp [mounted])]
    intro same
    exact absurd (List.append_cancel_left same) (by decide)
  exact ⟨decide_eq_true rfl, rfl, rfl, if_pos rfl, if_neg limit, rfl, rfl, rfl⟩

/-- A container without a scope, whose process is in a directory of its own. -/
def withoutScope : CgroupFs :=
  ⟨fun _ => false,
    fun _ => some (procLine [lit "docker", ContainerID.zeros.text] ++ [newline])⟩

/-- The round that reads this directory. -/
theorem zerosRound_process :
    (zerosRound withoutScope (some [lit "docker", ContainerID.zeros.text])).Finds
      (zerosContents (some fiveMebibytes)) := by
  refine zerosRound_finds (.process [lit "docker", ContainerID.zeros.text] fiveMebibytes rfl
    (by decide) rfl ?_ (by decide +kernel) (by simp) (by decide +kernel) (zerosRound_holds _ _))
  intro name inside
  simp only [List.mem_cons, List.not_mem_nil, or_false] at inside
  rcases inside with rfl | rfl <;> constructor <;> decide +kernel

/-- The container has stopped, and its last known pid is that of no process. -/
def stopped : CgroupFs := ⟨fun _ => false, fun _ => none⟩

/-- Of two rounds of a window the first reads five mebibytes and the second nothing, and the window
shows five. -/
theorem cgroup_columns_zeros :
    ∃ v, (aggregator.step (aggregator.final (.new 30)
        ([Occasion.poll (zerosRound withoutScope (some [lit "docker", ContainerID.zeros.text]))
            (zerosContents (some fiveMebibytes)),
          .poll (zerosRound stopped none) (zerosContents none)].flatMap
            (Occasion.inputs parseFixed)))
          (.tick (tickAt 30 (by decide)))).2.filter
            (fun v => v.containerID = ContainerID.zeros.text) = [v] ∧
      memCurrent.shown v = 5 := by
  obtain ⟨v, sent, shown⟩ := cgroup_columns parseFixed nearest_parseFixed 30
    [.poll (zerosRound withoutScope (some [lit "docker", ContainerID.zeros.text]))
        (zerosContents (some fiveMebibytes)),
      .poll (zerosRound stopped none) (zerosContents none)]
    (by
      rintro occasion inside
      simp only [List.mem_cons, List.not_mem_nil, or_false] at inside
      rcases inside with rfl | rfl
      · exact zerosRound_process
      · exact zerosRound_finds (.exited rfl (.inr rfl)))
    (tickAt 30 (by decide)) ContainerID.zeros.text ⟨_, List.mem_cons_self, rfl⟩
  exact ⟨v, sent, (shown memCurrent).trans (by decide)⟩

end ContainerAnomaly.Agent
