import ContainerAnomaly.Container.Refresh
import ContainerAnomaly.Container.ScopePath
import ContainerAnomaly.Lib.Words

/-!
# The fast path of the resolver

`ResolveFast` of `pkg/container/resolver.go` answers from a table of pids that `Refresh` fills from
the `cgroup.procs` file of every container, without a look at `/proc`. Such a file lists the
processes of one directory and not of those below it. `fast_path_agrees` says what the table then
is, whatever order the containers are ranged over in: it never names another container than
`Resolve` does, and names the same one exactly for the processes that are in the directory of a
known container itself.
-/

namespace ContainerAnomaly.Container

open Lib GoString Cgroup

/-- `strconv.ParseUint(text, 10, 32)`, `none` for an error: it accepts the numerals whose value
fits. -/
def pidOfText (text : GoString) : Option UInt32 :=
  match text.parseUint with
  | (pid, none) => if pid.toNat < 2 ^ 32 then some (UInt32.ofNat pid.toNat) else none
  | (_, some _) => none

/-- The pid on a line. -/
def pidOfLine (line : GoString) : Option UInt32 :=
  let line := line.trimSpace
  if line = [] then none else pidOfText line

/-- The pids of a file. -/
def pidsOfProcs (data : GoString) : List UInt32 := (data.splitOn newline).filterMap pidOfLine

/-- The two places where `readCgroupProcs` looks for a container. -/
def procsPaths (cid : GoString) : List GoString :=
  [joinPath [lit "/sys/fs/cgroup/system.slice", lit "docker-" ++ cid ++ lit ".scope"],
    joinPath [lit "/sys/fs/cgroup", lit "docker", cid]].map fun pattern =>
      joinPath [pattern, lit "cgroup.procs"]

/-- `readCgroupProcs`: the pids of the first file that can be read. -/
def readCgroupProcs (readFile : GoString → Option GoString) (cid : GoString) : List UInt32 :=
  match (procsPaths cid).findSome? readFile with
  | none => []
  | some data => pidsOfProcs data

/-- A resolver with its `pidSet`. -/
structure Indexed where
  /-- The containers and the cache. -/
  resolver : Resolver
  /-- The container of each pid that `cgroup.procs` has listed. -/
  pidSet : GoMap UInt32 GoString

/-- Store the pids of a container. -/
def addPids (pidSet : GoMap UInt32 GoString) (cid : GoString) (pids : List UInt32) :
    GoMap UInt32 GoString :=
  pids.foldl (fun pidSet pid => pidSet.insert pid cid) pidSet

/-- The loop of `Refresh` that rebuilds `pidSet`. -/
def pidSetOf (readFile : GoString → Option GoString) (order : RangeOrder GoString Info)
    (next : GoMap GoString Info) : GoMap UInt32 GoString :=
  (next.range order).foldl (fun pidSet entry =>
    addPids pidSet entry.1 (readCgroupProcs readFile entry.1)) ∅

/-- `Refresh` with its table, `none` when the containers cannot be listed. -/
def Indexed.refresh (ix : Indexed) (docker : Docker) (order : RangeOrder GoString Info)
    (readFile : GoString → Option GoString) : Option Indexed :=
  (ix.resolver.refresh docker).map fun next => ⟨next, pidSetOf readFile order next.containers⟩

/-- `ResolveFast`: the empty string for a pid that is not in the table. -/
def Indexed.resolveFast (ix : Indexed) (pid : UInt32) : GoString :=
  (ix.pidSet.lookup pid).getD []

/-- `Resolve`, which leaves the table alone. -/
def Indexed.resolve (ix : Indexed) (fs : ProcFs) (pid : UInt32) : GoString × Indexed :=
  let answer := ix.resolver.resolve fs pid
  (answer.1, { ix with resolver := answer.2 })

/-- `ClearCache`. -/
def Indexed.clearCache (ix : Indexed) : Indexed :=
  { ix with resolver := { ix.resolver with upidCache := ∅ } }

/-- A call of the resolver. -/
inductive Call where
  | refresh (docker : Docker) (order : RangeOrder GoString Info)
    (readFile : GoString → Option GoString)
  | resolve (fs : ProcFs) (pid : UInt32)
  | clearCache

/-- A refresh that docker answers. -/
def Call.renews : Call → Bool
  | .refresh docker _ _ => docker.listContainers.isSome
  | .resolve _ _ => false
  | .clearCache => false

/-- What a call leaves; a refresh that fails leaves everything. -/
def Indexed.call (ix : Indexed) : Call → Indexed
  | .refresh docker order readFile => (ix.refresh docker order readFile).getD ix
  | .resolve fs pid => (ix.resolve fs pid).2
  | .clearCache => ix.clearCache

/-- Only a refresh that docker answers changes the table. -/
theorem Indexed.pidSet_calls (ix : Indexed) {calls : List Call}
    (old : ∀ call ∈ calls, call.renews = false) :
    (calls.foldl Indexed.call ix).pidSet = ix.pidSet := by
  induction calls generalizing ix with
  | nil => rfl
  | cons call calls ih =>
    have first := old call List.mem_cons_self
    have step : (ix.call call).pidSet = ix.pidSet := by
      cases call with
      | refresh docker order readFile =>
        have unanswered : docker.listContainers = none := by
          simpa [Call.renews] using first
        simp [Indexed.call, Indexed.refresh, Resolver.refresh, unanswered]
      | resolve fs pid => rfl
      | clearCache => rfl
    rw [List.foldl_cons, ih _ fun later inside => old later (List.mem_cons_of_mem call inside),
      step]

/-- What the pids of a container leave under a pid. -/
theorem lookup_addPids (pidSet : GoMap UInt32 GoString) (cid : GoString) (pids : List UInt32)
    (pid : UInt32) :
    (addPids pidSet cid pids).lookup pid = if pid ∈ pids then some cid else pidSet.lookup pid := by
  unfold addPids
  induction pids generalizing pidSet with
  | nil => simp
  | cons first pids ih =>
    rw [List.foldl_cons, ih]
    by_cases later : pid ∈ pids
    · rw [if_pos later, if_pos (List.mem_cons_of_mem first later)]
    · rw [if_neg later]
      by_cases same : pid = first
      · rw [same, AList.lookup_insert, if_pos List.mem_cons_self]
      · rw [AList.lookup_insert_ne same, if_neg fun inside =>
          (List.mem_cons.mp inside).elim same later]

/-- A pid is in the table under the last container that lists it. -/
theorem lookup_foldl_addPids (pidsOf : GoString → List UInt32) (entries : List (GoString × Info))
    (pidSet : GoMap UInt32 GoString) (pid : UInt32) :
    (entries.foldl (fun pidSet entry => addPids pidSet entry.1 (pidsOf entry.1))
      pidSet).lookup pid =
      (((entries.map Prod.fst).filter fun cid => pid ∈ pidsOf cid).getLast?).or
        (pidSet.lookup pid) := by
  induction entries generalizing pidSet with
  | nil => rfl
  | cons entry entries ih =>
    rw [List.foldl_cons, ih, lookup_addPids, List.map_cons]
    by_cases own : pid ∈ pidsOf entry.1
    · rw [if_pos own, List.filter_cons_of_pos (by simpa using own), List.getLast?_cons]
      cases ((entries.map Prod.fst).filter fun cid => pid ∈ pidsOf cid).getLast? <;> rfl
    · rw [if_neg own, List.filter_cons_of_neg (by simpa using own)]

/-- A container that the table names lists the pid. -/
theorem listed_of_lookup (readFile : GoString → Option GoString)
    (order : RangeOrder GoString Info) (next : GoMap GoString Info) {pid : UInt32}
    {cid : GoString} (found : (pidSetOf readFile order next).lookup pid = some cid) :
    cid ∈ next ∧ pid ∈ readCgroupProcs readFile cid := by
  rw [pidSetOf, lookup_foldl_addPids, AList.lookup_empty, Option.or_none] at found
  obtain ⟨ranged, listed⟩ := List.mem_filter.mp (List.mem_of_getLast? found)
  obtain ⟨⟨_, info⟩, inside, rfl⟩ := List.mem_map.mp ranged
  exact ⟨AList.lookup_isSome.mp (by rw [(GoMap.mem_range_iff order next _ info).mp inside]; rfl),
    of_decide_eq_true listed⟩

/-- A pid that a known container lists is in the table. -/
theorem lookup_ne_none (readFile : GoString → Option GoString)
    (order : RangeOrder GoString Info) (next : GoMap GoString Info) {pid : UInt32}
    {cid : GoString} (known : cid ∈ next) (listed : pid ∈ readCgroupProcs readFile cid) :
    (pidSetOf readFile order next).lookup pid ≠ none := by
  obtain ⟨info, found⟩ := Option.isSome_iff_exists.mp (AList.lookup_isSome.mpr known)
  have ranged := List.mem_map_of_mem (f := Prod.fst)
    ((GoMap.mem_range_iff order next cid info).mpr found)
  rw [pidSetOf, lookup_foldl_addPids, AList.lookup_empty, Option.or_none, ne_eq,
    List.getLast?_eq_none_iff]
  exact List.ne_nil_of_mem (List.mem_filter.mpr ⟨ranged, decide_eq_true listed⟩)

/-- The file of a directory with these processes. -/
def procsText (pids : List UInt32) : GoString :=
  linesText (pids.map fun pid => decimal pid.toNat) []

/-- The pid of its own line. -/
theorem pidOfLine_decimal (pid : UInt32) : pidOfLine (decimal pid.toNat) = some pid := by
  have numeral := isNumeral_decimal pid.toNat
  have small : pid.toNat < 2 ^ 32 := pid.toNat_lt
  have wide : (UInt64.ofNat pid.toNat).toNat = pid.toNat :=
    UInt64.toNat_ofNat_of_lt' (lt_trans small (by decide))
  have trimmed : (decimal pid.toNat).trimSpace = decimal pid.toNat := by
    have word := trimSpace_word numeral.nonempty
      (unbroken_of_plain (plain_decimal pid.toNat) []) .nil
    rwa [List.append_nil] at word
  have read : (decimal pid.toNat).parseUint = (UInt64.ofNat pid.toNat, none) := by
    rw [parseUint_eq_iff, wide]
    exact numeral
  unfold pidOfLine pidOfText
  dsimp only
  rw [trimmed, if_neg numeral.nonempty, read]
  dsimp only
  rw [wide, if_pos small, UInt32.ofNat_toNat]

/-- The pids of a file are read back. -/
theorem pidsOfProcs_text (pids : List UInt32) : pidsOfProcs (procsText pids) = pids := by
  have plain : ∀ line ∈ (pids.map fun pid => decimal pid.toNat) ++ [[]], newline ∉ line := by
    intro line inside found
    rcases List.mem_append.mp inside with own | last
    · obtain ⟨pid, _, rfl⟩ := List.mem_map.mp own
      exact absurd (plain_decimal _ _ found) (by decide)
    · rw [List.mem_singleton.mp last] at found
      cases found
  rw [pidsOfProcs, procsText, linesText_eq_intercalate,
    List.splitOn_intercalate newline plain (by simp), List.filterMap_append, List.filterMap_map]
  have each : (pidOfLine ∘ fun pid : UInt32 => decimal pid.toNat) = some :=
    funext pidOfLine_decimal
  rw [each, List.filterMap_some]
  exact List.append_nil pids

/-- Where cgroup v2 is mounted. -/
def mounted : List GoString := [lit "sys", lit "fs", lit "cgroup"]

/-- The path of the file that lists the processes of a directory. -/
def procsFile (dir : List GoString) : GoString := path (mounted ++ dir ++ [lit "cgroup.procs"])

/-- What the kernel shows of the processes at one moment: a line and a start time for each one, and
for a directory that exists the processes in it. -/
structure Moment where
  /-- The directory of each live process. -/
  dirOf : UInt32 → Option (List GoString)
  /-- The files of processes. -/
  procFs : ProcFs
  /-- The files of directories. -/
  readFile : GoString → Option GoString
  /-- Directories have paths. -/
  valid : ∀ pid dir, dirOf pid = some dir → ∀ name ∈ dir, ValidName name
  /-- A path has fewer bytes than a page. -/
  short : ∀ pid dir, dirOf pid = some dir → (procLine dir).length < 4096
  /-- A process is shown in its directory. -/
  shown : ∀ pid dir, dirOf pid = some dir →
    procFs.cgroup pid = some (procLine dir ++ [newline])
  /-- It can be told from others of its pid. -/
  started : ∀ pid dir, dirOf pid = some dir → ∃ start, readStartTimeTicks procFs pid = .ok start
  /-- A directory lists the processes in it, and one that is not there has none. -/
  listed : ∀ dir, (∀ name ∈ dir, ValidName name) →
    (readFile (procsFile dir) = none ∧ ∀ pid, dirOf pid ≠ some dir) ∨
    ∃ pids, readFile (procsFile dir) = some (procsText pids) ∧
      ∀ pid, pid ∈ pids ↔ dirOf pid = some dir

/-- The directory of a container: the scope of systemd, if there is one. -/
def Moment.home (now : Moment) (cid : GoString) : List GoString :=
  if (now.readFile (procsFile (scopeDir cid))).isSome then scopeDir cid else [lit "docker", cid]

namespace ContainerID

variable (cid : ContainerID)

/-- The bytes of an id. -/
theorem isHex_of_mem {c : UInt8} (inside : c ∈ cid.text) : isHex c = true :=
  List.all_eq_true.mp cid.hex c inside

/-- The names of the scope of a container are valid. -/
theorem valid_scope : ∀ name ∈ scopeDir cid.text, ValidName name := by
  have bytes : ∀ c ∈ lit "docker-" ++ cid.text ++ lit ".scope", c ≠ slash ∧ c ≠ newline := by
    intro c inside
    rw [List.mem_append, List.mem_append] at inside
    rcases inside with (front | own) | back
    · exact ⟨fun same => absurd (same ▸ front) (by decide),
        fun same => absurd (same ▸ front) (by decide)⟩
    · have hex := cid.isHex_of_mem own
      exact ⟨fun same => absurd (same ▸ hex) (by decide),
        fun same => absurd (same ▸ hex) (by decide)⟩
    · exact ⟨fun same => absurd (same ▸ back) (by decide),
        fun same => absurd (same ▸ back) (by decide)⟩
  have long : 3 ≤ (lit "docker-" ++ cid.text ++ lit ".scope").length := by
    rw [List.length_append, List.length_append, cid.length]
    decide
  intro name inside
  rcases List.mem_cons.mp inside with rfl | scope
  · constructor <;> decide
  · rw [List.mem_singleton.mp scope]
    constructor
    · exact fun same => absurd (same ▸ long) (by decide)
    · exact fun same => absurd (same ▸ long) (by decide)
    · exact fun same => absurd (same ▸ long) (by decide)
    · exact fun found => (bytes _ found).1 rfl
    · exact fun found => (bytes _ found).2 rfl

/-- So are those of its directory without systemd. -/
theorem valid_legacy : ∀ name ∈ [lit "docker", cid.text], ValidName name := by
  intro name inside
  rcases List.mem_cons.mp inside with rfl | own
  · constructor <;> decide
  · rw [List.mem_singleton.mp own]
    have long := cid.length
    constructor
    · exact fun same => absurd (same ▸ long) (by decide)
    · exact fun same => absurd (same ▸ long) (by decide)
    · exact fun same => absurd (same ▸ long) (by decide)
    · exact fun found => absurd (cid.isHex_of_mem found) (by decide)
    · exact fun found => absurd (cid.isHex_of_mem found) (by decide)

/-- The names on the path of a file of a directory below the mount point. -/
theorem valid_procsFile {dir : List GoString} (valid : ∀ name ∈ dir, ValidName name) :
    ∀ name ∈ mounted ++ dir ++ [lit "cgroup.procs"], ValidName name := by
  intro name inside
  rw [List.mem_append, List.mem_append] at inside
  rcases inside with (above | own) | file
  · simp only [mounted, List.mem_cons, List.not_mem_nil, or_false] at above
    rcases above with rfl | rfl | rfl <;> constructor <;> decide
  · exact valid name own
  · rw [List.mem_singleton.mp file]
    constructor <;> decide

/-- The two places are the files of the scope and of the other directory. -/
theorem procsPaths_eq :
    procsPaths cid.text =
      [procsFile (scopeDir cid.text), procsFile [lit "docker", cid.text]] := by
  have scope := valid_procsFile cid.valid_scope
  have legacy := valid_procsFile cid.valid_legacy
  have slice : lit "/sys/fs/cgroup/system.slice" = path (mounted ++ [lit "system.slice"]) := by
    decide
  have root : lit "/sys/fs/cgroup" = path mounted := by decide
  rw [procsPaths, slice, root, List.map_cons, List.map_cons, List.map_nil,
    joinPath_names _ _ (by simp [mounted]) fun name inside => scope name (by
      simpa [scopeDir] using List.mem_append_left [lit "cgroup.procs"] inside),
    joinPath_names _ _ (by simp [mounted]) fun name inside => legacy name
      (List.mem_append_left _ inside),
    joinPath_names _ _ (by simp [mounted]) fun name inside => scope name (by
      simpa [scopeDir] using inside),
    joinPath_names _ _ (by simp [mounted]) legacy]
  rfl

/-- The leftmost match in the line of the other directory. -/
theorem findCID_legacy : findCID (procLine [lit "docker", cid.text]) = some cid.text := by
  have form : procLine [lit "docker", cid.text] = lit "0::/docker" ++ 47 :: cid.text := by
    simp [procLine, path, joined, slash, lit]
  have skipped : findCID (lit "0::/docker" ++ 47 :: cid.text) =
      findCID (lit "docker" ++ 47 :: cid.text) := rfl
  have start : lit "docker" ++ 47 :: cid.text = 100 :: (lit "ocker" ++ 47 :: cid.text) := rfl
  have here : matchHere (lit "docker" ++ 47 :: cid.text) = matchID (47 :: cid.text) := rfl
  have digits := cid.matchID_text 47 [] (.inl rfl)
  rw [List.append_nil] at digits
  rw [form, skipped, start, findCID, ← start, here, digits]

end ContainerID

namespace Moment

variable (now : Moment) (cid : ContainerID)

/-- The names of the directory of a container are valid. -/
theorem valid_home : ∀ name ∈ now.home cid.text, ValidName name := by
  unfold home
  split
  · exact cid.valid_scope
  · exact cid.valid_legacy

/-- The processes that are read for a container are those in its directory. -/
theorem mem_readCgroupProcs_iff (pid : UInt32) :
    pid ∈ readCgroupProcs now.readFile cid.text ↔ now.dirOf pid = some (now.home cid.text) := by
  rw [readCgroupProcs, cid.procsPaths_eq, List.findSome?_cons, home]
  rcases now.listed _ cid.valid_scope with ⟨missing, _⟩ | ⟨pids, there, inside⟩
  · rw [missing, Option.isSome_none, if_neg Bool.false_ne_true, List.findSome?_cons]
    dsimp only
    rcases now.listed _ cid.valid_legacy with ⟨also, nobody⟩ | ⟨pids, there, inside⟩
    · rw [also, List.findSome?_nil]
      exact iff_of_false List.not_mem_nil (nobody pid)
    · rw [there]
      dsimp only
      rw [pidsOfProcs_text, inside]
  · rw [there, Option.isSome_some, if_pos rfl]
    dsimp only
    rw [pidsOfProcs_text, inside]

/-- The container of a process in the directory of one. -/
theorem parse_home {pid : UInt32} (inside : now.dirOf pid = some (now.home cid.text)) :
    parseContainerIDFromCgroup now.procFs pid = cid.text := by
  have shown := now.shown pid _ inside
  have fits : (procLine (now.home cid.text)).length < maxScanTokenSize :=
    lt_trans (now.short pid _ inside) (by decide)
  have plain := newline_not_mem_procLine _ (now.valid_home cid)
  by_cases systemd : (now.readFile (procsFile (scopeDir cid.text))).isSome
  · rw [home, if_pos systemd] at shown fits plain
    have parsed := cid.parse_scope now.procFs pid []
    rw [List.append_nil] at parsed
    rw [parsed plain shown, if_pos fits]
  · rw [home, if_neg systemd] at shown fits plain
    have ends : dropCR (procLine [lit "docker", cid.text]) = procLine [lit "docker", cid.text] := by
      rw [dropCR, if_neg]
      intro last
      have own : (13 : UInt8) ∈ cid.text := by
        have form : procLine [lit "docker", cid.text] = lit "0::/docker/" ++ cid.text := by
          simp [procLine, path, joined, slash, lit]
        rw [form, List.getLast?_append_of_ne_nil _ cid.text_ne_nil] at last
        exact List.mem_of_getLast? last
      exact absurd (cid.isHex_of_mem own) (by decide)
    simp only [parseContainerIDFromCgroup, shown, scanLines_line _ plain, if_pos fits, ends,
      List.findSome?_cons, cid.findCID_legacy, Option.getD_some]

end Moment

/-- What `Resolve` answers for a live process when it has cached nothing. -/
theorem resolve_clearCache (ix : Indexed) (now : Moment) {pid : UInt32} {dir : List GoString}
    (live : now.dirOf pid = some dir) :
    (ix.clearCache.resolve now.procFs pid).1 = parseContainerIDFromCgroup now.procFs pid := by
  obtain ⟨start, read⟩ := now.started pid dir live
  rcases ix.clearCache.resolver.resolve_cases now.procFs pid with
    ⟨⟨error, failed⟩, _⟩ | ⟨_, _, _, cached, _⟩ | ⟨_, _, _, answer⟩
  · rw [read] at failed
    cases failed
  · change (∅ : GoMap UPID GoString).lookup _ = _ at cached
    rw [AList.lookup_empty] at cached
    cases cached
  · change (ix.clearCache.resolver.resolve now.procFs pid).1 = _
    rw [answer]

/-- The containers known after a refresh were listed. -/
theorem listed_of_known {r next : Resolver} {docker : Docker} {summaries : List ContainerSummary}
    (answered : docker.listContainers = some summaries) (refreshed : r.refresh docker = some next)
    {cid : GoString} (known : cid ∈ next.containers) : ∃ s ∈ summaries, s.id = cid := by
  simp only [Resolver.refresh, answered, Option.map_some, Option.some.injEq] at refreshed
  subst refreshed
  obtain ⟨info, found⟩ := Option.isSome_iff_exists.mp (AList.lookup_isSome.mpr known)
  have pid := lookup_containersOf docker summaries cid
  rw [found, Option.map_some] at pid
  by_contra unlisted
  rw [if_neg unlisted] at pid
  cases pid

/-- After a refresh that reads the files of one moment, in whatever order the containers are ranged
over, and until the next refresh that docker answers, `ResolveFast` answers for a live process of
that moment with what `Resolve` finds with an empty cache, or with no container; and the two answer
the same exactly when `Resolve` finds no container, or the process is in the directory of a known
container and not below it. For a pid that no process had it answers with no container. -/
theorem fast_path_agrees (ix : Indexed) (docker : Docker) {summaries : List ContainerSummary}
    (answered : docker.listContainers = some summaries)
    (ids : ∀ s ∈ summaries, ∃ cid : ContainerID, cid.text = s.id)
    (order : RangeOrder GoString Info) (now : Moment) :
    ∃ next, ix.refresh docker order now.readFile = some next ∧
      ∀ calls : List Call, (∀ call ∈ calls, call.renews = false) →
        let fast := (calls.foldl Indexed.call next).resolveFast
        (∀ pid, now.dirOf pid = none → fast pid = []) ∧
        ∀ pid dir, now.dirOf pid = some dir →
          let slow := (next.clearCache.resolve now.procFs pid).1
          (fast pid = [] ∨ fast pid = slow) ∧
          (fast pid = slow ↔
            slow = [] ∨ ∃ cid ∈ next.resolver.containers, dir = now.home cid) := by
  obtain ⟨resolver, refreshed⟩ : ∃ resolver, ix.resolver.refresh docker = some resolver := by
    simp [Resolver.refresh, answered]
  have known_ids : ∀ cid ∈ resolver.containers, ∃ known : ContainerID, known.text = cid := by
    intro cid known
    obtain ⟨s, listed, rfl⟩ := listed_of_known answered refreshed known
    exact ids s listed
  -- A container in the table has the process in its own directory.
  have sound : ∀ pid cid, (pidSetOf now.readFile order resolver.containers).lookup pid = some cid →
      now.dirOf pid = some (now.home cid) ∧ cid ∈ resolver.containers ∧
        parseContainerIDFromCgroup now.procFs pid = cid := by
    intro pid cid found
    obtain ⟨known, listed⟩ := listed_of_lookup now.readFile order resolver.containers found
    obtain ⟨own, rfl⟩ := known_ids cid known
    have inside := (now.mem_readCgroupProcs_iff own pid).mp listed
    exact ⟨inside, known, now.parse_home own inside⟩
  refine ⟨⟨resolver, pidSetOf now.readFile order resolver.containers⟩, ?_, ?_⟩
  · rw [Indexed.refresh, refreshed, Option.map_some]
  intro calls old
  have answer : ∀ pid, (calls.foldl Indexed.call
      ⟨resolver, pidSetOf now.readFile order resolver.containers⟩).resolveFast pid =
      ((pidSetOf now.readFile order resolver.containers).lookup pid).getD [] := by
    intro pid
    rw [Indexed.resolveFast, Indexed.pidSet_calls _ old]
  dsimp only
  constructor
  · intro pid dead
    rw [answer]
    cases found : (pidSetOf now.readFile order resolver.containers).lookup pid with
    | none => rfl
    | some cid =>
      rw [(sound pid cid found).1] at dead
      cases dead
  · intro pid dir live
    rw [resolve_clearCache _ now live, answer]
    cases found : (pidSetOf now.readFile order resolver.containers).lookup pid with
    | some cid =>
      obtain ⟨inside, known, parsed⟩ := sound pid cid found
      rw [Option.getD_some, parsed]
      refine ⟨.inr rfl, iff_of_true rfl (.inr ⟨cid, known, ?_⟩)⟩
      exact Option.some.inj (live.symm.trans inside)
    | none =>
      rw [Option.getD_none]
      refine ⟨.inl rfl, ?_⟩
      constructor
      · exact fun same => .inl same.symm
      · rintro (none_found | ⟨cid, known, rfl⟩)
        · exact none_found.symm
        · obtain ⟨own, rfl⟩ := known_ids cid known
          have listed := (now.mem_readCgroupProcs_iff own pid).mpr live
          exact absurd found (lookup_ne_none now.readFile order resolver.containers known listed)

/-- A container whose id is all zeros. -/
def ContainerID.zeros : ContainerID := ⟨List.replicate 64 48, by decide, by decide⟩

/-- A directory below its scope. -/
def inner : List GoString := scopeDir ContainerID.zeros.text ++ [lit "init.scope"]

/-- The names on the path of that directory are valid. -/
theorem valid_inner : ∀ name ∈ inner, ValidName name := by
  intro name inside
  rcases List.mem_append.mp inside with scope | below
  · exact ContainerID.zeros.valid_scope name scope
  · rw [List.mem_singleton.mp below]
    constructor <;> decide

/-- Two directories have two files. -/
theorem procsFile_injective {left right : List GoString} (one : ∀ name ∈ left, ValidName name)
    (other : ∀ name ∈ right, ValidName name) (same : procsFile left = procsFile right) :
    left = right := by
  have whole := path_injective (by simp) (by simp) (ContainerID.valid_procsFile one)
    (ContainerID.valid_procsFile other) same
  exact List.append_cancel_left (List.append_cancel_right whole)

/-- The contents of `/proc/<pid>/stat` of a shell. -/
def shell : GoString := lit "7 (sh) S 1 7 7 0 -1 0 0 0 0 0 0 0 0 0 20 0 1 0 4242 0 0"

/-- A moment with one process in the scope and one below it. -/
def twoProcesses : Moment where
  dirOf pid :=
    if pid = 10 then some (scopeDir ContainerID.zeros.text)
    else if pid = 11 then some inner else none
  procFs :=
    ⟨fun _ => some shell,
      fun pid =>
        if pid = 10 then some (procLine (scopeDir ContainerID.zeros.text) ++ [newline])
        else if pid = 11 then some (procLine inner ++ [newline]) else none⟩
  readFile text :=
    if text = procsFile (scopeDir ContainerID.zeros.text) then some (procsText [10])
    else if text = procsFile inner then some (procsText [11]) else none
  valid := by
    intro pid dir live
    split at live
    · exact Option.some.inj live ▸ ContainerID.zeros.valid_scope
    · split at live
      · exact Option.some.inj live ▸ valid_inner
      · cases live
  short := by
    intro pid dir live
    split at live
    · exact Option.some.inj live ▸ (by decide)
    · split at live
      · exact Option.some.inj live ▸ (by decide)
      · cases live
  shown := by
    intro pid dir live
    dsimp only
    split at live
    · rename_i own
      rw [if_pos own, Option.some.inj live]
    · rename_i other
      split at live
      · rename_i own
        rw [if_neg other, if_pos own, Option.some.inj live]
      · cases live
  started _ _ _ := ⟨4242, (by decide +kernel : startTimeOfStat shell = .ok 4242)⟩
  listed := by
    intro dir names
    by_cases scope : dir = scopeDir ContainerID.zeros.text
    · right
      refine ⟨[10], if_pos (congrArg procsFile scope), fun pid => ?_⟩
      rw [List.mem_singleton]
      subst scope
      split
      · rename_i own
        exact iff_of_true own rfl
      · rename_i other
        refine iff_of_false other fun live => ?_
        split at live
        · exact absurd (Option.some.inj live) (by decide)
        · cases live
    · by_cases below : dir = inner
      · right
        refine ⟨[11], ?_, fun pid => ?_⟩
        · rw [if_neg fun same => scope (procsFile_injective names ContainerID.zeros.valid_scope
            same), if_pos (congrArg procsFile below)]
        · rw [List.mem_singleton]
          subst below
          split
          · rename_i other
            subst other
            exact iff_of_false (by decide) fun live => scope (Option.some.inj live).symm
          · split
            · rename_i own
              exact iff_of_true own rfl
            · rename_i other
              exact iff_of_false other fun live => by cases live
      · left
        constructor
        · rw [if_neg fun same => scope (procsFile_injective names ContainerID.zeros.valid_scope
            same), if_neg fun same => below (procsFile_injective names valid_inner same)]
        · intro pid live
          split at live
          · exact scope (Option.some.inj live).symm
          · split at live
            · exact below (Option.some.inj live).symm
            · cases live

/-- Docker lists the container. -/
def zerosDocker : Docker where
  listContainers := some [⟨ContainerID.zeros.text, [], [], true⟩]
  inspectContainer _ := some ⟨10⟩

/-- For the process below the scope the two answer the same only if `Resolve` finds nothing, or a
known container has that directory. -/
theorem fast_path_agrees_twoProcesses :
    ∃ next, (⟨⟨∅, ∅⟩, ∅⟩ : Indexed).refresh zerosDocker (.stored _ _) twoProcesses.readFile =
        some next ∧
      (next.resolveFast 11 = (next.clearCache.resolve twoProcesses.procFs 11).1 ↔
        (next.clearCache.resolve twoProcesses.procFs 11).1 = [] ∨
          ∃ cid ∈ next.resolver.containers, inner = twoProcesses.home cid) := by
  obtain ⟨next, refreshed, answers⟩ := fast_path_agrees ⟨⟨∅, ∅⟩, ∅⟩ zerosDocker rfl
    (fun s inside => ⟨ContainerID.zeros, by rw [List.mem_singleton.mp inside]⟩) (.stored _ _)
    twoProcesses
  exact ⟨next, refreshed, ((answers [] (fun _ none => absurd none List.not_mem_nil)).2 11 inner
    rfl).2⟩

end ContainerAnomaly.Container
