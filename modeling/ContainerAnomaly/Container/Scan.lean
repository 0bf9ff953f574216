import ContainerAnomaly.Container.FastPath
import ContainerAnomaly.Lib.Fallible
import ContainerAnomaly.Lib.Histogram
import ContainerAnomaly.Lib.Machine

/-!
# Scans of all processes

`cmd/p1demo/main.go`. Every few seconds the containers are listed anew and every directory of
`/proc` with a number for a name is resolved; the scan counts the pids of the host and of each
container, and prints the first twelve digits of a container's id, which panics on a shorter
string. No scan panics, as the cache holds ids and empty strings only (`Resolver.Sound`), so only a
refresh does that lists a shorter id; and each scan accounts for every process once
(`scans_account`).
-/

namespace ContainerAnomaly.Container

open Lib

/-- An entry of `/proc`, and what the two files of its process hold when it is resolved. -/
structure ProcEntry where
  /-- The name of the entry. -/
  name : GoString
  /-- It is a directory. -/
  isDir : Bool
  /-- What `/proc` holds when it is visited. -/
  fs : ProcFs

/-- The process that an entry is for. -/
def ProcEntry.pid (entry : ProcEntry) : Option UInt32 :=
  if entry.isDir then pidOfText entry.name else none

/-- The variables of the loop over `/proc`, with the resolver. -/
structure Counting where
  /-- The processes of each container so far. -/
  perContainer : GoMap GoString Nat
  /-- Those of the host. -/
  hostCount : Nat
  /-- All processes so far. -/
  total : Nat
  /-- The resolver that is asked. -/
  resolver : Resolver

/-- One round of the loop. -/
def Counting.round (counting : Counting) (entry : ProcEntry) : Counting :=
  match entry.pid with
  | none => counting
  | some pid =>
    let answer := counting.resolver.resolve entry.fs pid
    let counting := { counting with total := counting.total + 1, resolver := answer.2 }
    if answer.1 = [] then { counting with hostCount := counting.hostCount + 1 }
    else { counting with perContainer := counting.perContainer.upsert 0 answer.1 (· + 1) }

/-- `cid[:12]`, `none` when it panics. -/
def shortOf (cid : GoString) : Option GoString :=
  if 12 ≤ cid.length then some (cid.take 12) else none

/-- The line of a container. -/
structure ScanRow where
  /-- The first twelve digits of the id. -/
  short : GoString
  /-- The name, empty when the container is not known. -/
  name : GoString
  /-- The number of processes. -/
  pids : Nat
deriving DecidableEq

/-- What a scan prints of the processes. -/
structure Scan where
  /-- All processes. -/
  total : Nat
  /-- Those of the host. -/
  host : Nat
  /-- The others. -/
  containerized : Nat
  /-- The rows of the containers. -/
  rows : List ScanRow

/-- How a refresh and the scan after it end. -/
inductive Outcome where
  /-- One of the two panics. -/
  | panicked
  /-- The containers, and the processes unless `/proc` cannot be read. -/
  | printed (containers : List Info) (scan : Option Scan)

/-- The orders in which a scan ranges over its two maps. -/
structure ScanOrders where
  /-- That of the containers that are listed. -/
  containers : RangeOrder GoString Info
  /-- That of the rows. -/
  perContainer : RangeOrder GoString Nat

/-- The name of a container that docker has told of. -/
def Resolver.nameOf (r : Resolver) (cid : GoString) : GoString :=
  ((r.containers.lookup cid).map Info.name).getD []

/-- The line of an entry of `perContainer`. -/
def Resolver.scanRow (r : Resolver) (entry : GoString × Nat) : Option ScanRow :=
  (shortOf entry.1).map fun short => ⟨short, r.nameOf entry.1, entry.2⟩

/-- `scanOnce`. -/
def Resolver.scanOnce (r : Resolver) (orders : ScanOrders) (proc : Option (List ProcEntry)) :
    Resolver × Outcome :=
  let containers := (r.containers.range orders.containers).map Prod.snd
  match proc with
  | none => (r, .printed containers none)
  | some entries =>
    let result := entries.foldl Counting.round ⟨∅, 0, 0, r⟩
    match (result.perContainer.range orders.perContainer).mapM result.resolver.scanRow with
    | none => (result.resolver, .panicked)
    | some rows =>
      (result.resolver, .printed containers (some {
        total := result.total
        host := result.hostCount
        containerized := result.total - result.hostCount
        rows := rows }))

/-- Where `main` is. -/
inductive Stage where
  | starting | looping | ended
deriving DecidableEq

/-- The resolver and where `main` is. -/
structure Demo where
  /-- The resolver that it fills and asks. -/
  resolver : Resolver
  /-- How far it is. -/
  stage : Stage

/-- `main` begins with a new resolver. -/
def Demo.new : Demo := ⟨⟨∅, ∅⟩, .starting⟩

/-- What happens to it: a refresh and a scan, or a signal that the loop receives. -/
inductive DemoStep where
  | tick (docker : Docker) (orders : ScanOrders) (proc : Option (List ProcEntry))
  | stop

/-- A scan after a refresh; a panic of it ends the program. -/
def Resolver.scanned (r : Resolver) (orders : ScanOrders) (proc : Option (List ProcEntry)) :
    Demo × List Outcome :=
  match r.scanOnce orders proc with
  | (after, .panicked) => (⟨after, .ended⟩, [.panicked])
  | (after, outcome) => (⟨after, .looping⟩, [outcome])

/-- One step, with the scan that it makes. -/
def Demo.step (state : Demo) : DemoStep → Demo × List Outcome
  | .stop => (if state.stage = .looping then { state with stage := .ended } else state, [])
  | .tick docker orders proc =>
    match state.stage, state.resolver.refresh docker with
    | .ended, _ => (state, [])
    -- The first refresh has to succeed; one that fails later is tried again at the next tick.
    | .starting, none => ({ state with stage := .ended }, [])
    | .looping, none => (state, [])
    | _, some r =>
      if docker.panics then ({ state with stage := .ended }, [.panicked])
      else r.scanned orders proc

/-- What an answer can be: no container, or the id of one. -/
def IsAnswer (cid : GoString) : Prop := cid = [] ∨ ∃ id : ContainerID, id.text = cid

/-- The cache holds answers only. -/
def Resolver.Sound (r : Resolver) : Prop :=
  ∀ upid cid, r.upidCache.lookup upid = some cid → IsAnswer cid

/-- What the expression finds is an id. -/
theorem exists_of_findCID {s cid : GoString} (found : findCID s = some cid) :
    ∃ id : ContainerID, id.text = cid := by
  have matched : ∀ s, matchID s = some cid → ∃ id : ContainerID, id.text = cid := by
    intro s here
    cases s with
    | nil => cases here
    | cons c rest =>
      rw [matchID] at here
      split at here
      · rename_i digits
        exact ⟨⟨rest.take 64, digits.2.1, digits.2.2⟩, Option.some.inj here⟩
      · cases here
  induction s with
  | nil => cases found
  | cons c rest ih =>
    rw [findCID] at found
    cases here : matchHere (c :: rest) with
    | none =>
      rw [here] at found
      exact ih found
    | some other =>
      rw [here] at found
      obtain rfl := Option.some.inj found
      unfold matchHere at here
      split at here
      · exact matched _ here
      · split at here
        · exact matched _ here
        · cases here

/-- What is parsed is an answer. -/
theorem isAnswer_parse (fs : ProcFs) (pid : UInt32) :
    IsAnswer (parseContainerIDFromCgroup fs pid) := by
  unfold parseContainerIDFromCgroup
  cases fs.cgroup pid with
  | none => exact .inl rfl
  | some data =>
    dsimp only
    cases found : (GoString.scanLines data).findSome? findCID with
    | none => exact .inl rfl
    | some cid =>
      obtain ⟨line, _, here⟩ := List.exists_of_findSome?_eq_some found
      exact .inr (exists_of_findCID here)

/-- `Resolve` gives an answer, and keeps the cache sound. -/
theorem Resolver.Sound.resolve {r : Resolver} (sound : r.Sound) (fs : ProcFs) (pid : UInt32) :
    IsAnswer (r.resolve fs pid).1 ∧ (r.resolve fs pid).2.Sound := by
  rcases r.resolve_cases fs pid with ⟨_, failed⟩ | ⟨start, cid, _, cached, answer⟩ |
    ⟨start, _, _, answer⟩
  · rw [failed]
    exact ⟨.inl rfl, sound⟩
  · rw [answer]
    exact ⟨sound _ _ cached, sound⟩
  · rw [answer]
    refine ⟨isAnswer_parse fs pid, fun upid cid stored => ?_⟩
    by_cases same : upid = ⟨pid, start⟩
    · subst same
      rw [AList.lookup_insert] at stored
      obtain rfl := Option.some.inj stored
      exact isAnswer_parse fs pid
    · rw [AList.lookup_insert_ne same] at stored
      exact sound upid cid stored

/-- `Refresh` keeps the cache sound: it only drops entries. -/
theorem Resolver.Sound.refresh {r next : Resolver} (sound : r.Sound) {docker : Docker}
    (refreshed : r.refresh docker = some next) : next.Sound := by
  obtain ⟨summaries, listed, _⟩ := Option.map_eq_some_iff.mp refreshed
  intro upid cid stored
  rw [Resolver.lookup_refresh listed refreshed, Option.filter_eq_some_iff] at stored
  exact sound upid cid stored.1

/-- What the resolver answers for the processes among some entries, one after the other. -/
def answersOf : Resolver → List ProcEntry → List GoString × Resolver
  | r, [] => ([], r)
  | r, entry :: rest =>
    match entry.pid with
    | none => answersOf r rest
    | some pid =>
      let answer := r.resolve entry.fs pid
      let later := answersOf answer.2 rest
      (answer.1 :: later.1, later.2)

/-- They are answers, and the cache stays sound. -/
theorem Resolver.Sound.hears {r : Resolver} (sound : r.Sound) (entries : List ProcEntry) :
    (∀ cid ∈ (answersOf r entries).1, IsAnswer cid) ∧ (answersOf r entries).2.Sound := by
  induction entries generalizing r with
  | nil => exact ⟨fun _ inside => absurd inside List.not_mem_nil, sound⟩
  | cons entry rest ih =>
    unfold answersOf
    cases entry.pid with
    | none => exact ih sound
    | some pid =>
      obtain ⟨own, kept⟩ := sound.resolve entry.fs pid
      obtain ⟨others, last⟩ := ih kept
      exact ⟨List.forall_mem_cons.mpr ⟨own, others⟩, last⟩

/-- The loop counts the answers. -/
theorem foldl_round (entries : List ProcEntry) (counting : Counting) :
    entries.foldl Counting.round counting =
      let answers := answersOf counting.resolver entries
      { perContainer := (answers.1.filter (· ≠ [])).foldl
          (fun map cid => map.upsert 0 cid (· + 1)) counting.perContainer
        hostCount := counting.hostCount + answers.1.count []
        total := counting.total + answers.1.length
        resolver := answers.2 } := by
  induction entries generalizing counting with
  | nil => rfl
  | cons entry rest ih =>
    rw [List.foldl_cons, ih]
    cases found : entry.pid with
    | none =>
      have stays : counting.round entry = counting := by simp only [Counting.round, found]
      have heard : answersOf counting.resolver (entry :: rest) =
          answersOf counting.resolver rest := by simp only [answersOf, found]
      rw [stays, heard]
    | some pid =>
      let answer := counting.resolver.resolve entry.fs pid
      have heard : answersOf counting.resolver (entry :: rest) =
          (answer.1 :: (answersOf answer.2 rest).1, (answersOf answer.2 rest).2) := by
        simp only [answersOf, found, answer]
      have total : counting.total + 1 + (answersOf answer.2 rest).1.length =
          counting.total + ((answersOf answer.2 rest).1.length + 1) := by omega
      rw [heard]
      by_cases host : answer.1 = []
      · have counts : counting.round entry =
            ⟨counting.perContainer, counting.hostCount + 1, counting.total + 1, answer.2⟩ := by
          simp only [Counting.round, found]
          exact if_pos host
        have hosts : counting.hostCount + 1 + (answersOf answer.2 rest).1.count [] =
            counting.hostCount + ((answersOf answer.2 rest).1.count [] + 1) := by omega
        simp [counts, host, total, hosts]
      · have counts : counting.round entry =
            ⟨counting.perContainer.upsert 0 answer.1 (· + 1), counting.hostCount,
              counting.total + 1, answer.2⟩ := by
          simp only [Counting.round, found]
          exact if_neg host
        simp [counts, host, total]

/-- What a scan has to say of the answers of the resolver. -/
structure Scan.Tells (scan : Scan) (r : Resolver) (answers : List GoString) : Prop where
  /-- Every process is counted. -/
  total : scan.total = answers.length
  /-- Those without a container are counted for the host. -/
  host : scan.host = answers.count []
  /-- The others are the rest. -/
  whole : scan.host + scan.containerized = scan.total
  /-- The rows add up to the rest. -/
  pids : (scan.rows.map ScanRow.pids).sum = scan.containerized
  /-- Every container that was answered with has a row, with the number of its processes. -/
  rows : ∃ cids : List GoString, cids.Nodup ∧ (∀ cid, cid ∈ cids ↔ cid ≠ [] ∧ cid ∈ answers) ∧
    scan.rows = cids.map fun cid => ⟨cid.take 12, r.nameOf cid, answers.count cid⟩

/-- `Resolve` leaves the containers as they are. -/
theorem containers_answersOf (r : Resolver) (entries : List ProcEntry) :
    (answersOf r entries).2.containers = r.containers := by
  induction entries generalizing r with
  | nil => rfl
  | cons entry rest ih =>
    unfold answersOf
    cases entry.pid with
    | none => exact ih r
    | some pid =>
      refine (ih _).trans ?_
      rcases r.resolve_cases entry.fs pid with ⟨_, failed⟩ | ⟨_, _, _, _, answer⟩ |
        ⟨_, _, _, answer⟩
      · rw [failed]
      · rw [answer]
      · rw [answer]

/-- When the cache is sound, a scan does not panic, and tells of the answers. -/
theorem Resolver.Sound.tells {r : Resolver} (sound : r.Sound) (orders : ScanOrders)
    (entries : List ProcEntry) :
    ∃ scan : Scan, scan.Tells r (answersOf r entries).1 ∧
      r.scanOnce orders (some entries) = ((answersOf r entries).2,
        .printed ((r.containers.range orders.containers).map Prod.snd) (some scan)) := by
  let answers := (answersOf r entries).1
  let others := answers.filter (· ≠ [])
  let cids := ((GoMap.histogram others).range orders.perContainer).map Prod.fst
  have listed : ∀ cid, cid ∈ cids ↔ cid ≠ [] ∧ cid ∈ answers := by
    intro cid
    rw [GoMap.mem_histogram_iff, List.mem_filter, and_comm, decide_eq_true_iff]
  have counted : ∀ cid ∈ cids, others.count cid = answers.count cid := fun cid inside =>
    List.count_filter (decide_eq_true ((listed cid).mp inside).1)
  have looped : entries.foldl Counting.round ⟨∅, 0, 0, r⟩ =
      ⟨GoMap.histogram others, answers.count [], answers.length, (answersOf r entries).2⟩ := by
    rw [foldl_round]
    simp [GoMap.histogram, answers, others]
  let row (cid : GoString) : ScanRow := ⟨cid.take 12, r.nameOf cid, answers.count cid⟩
  have rows : ((GoMap.histogram others).range orders.perContainer).mapM
      (answersOf r entries).2.scanRow = some (cids.map row) := by
    rw [GoMap.range_histogram, List.mapM_map]
    refine mapM_eq_some fun cid inside => ?_
    obtain ⟨container, answered⟩ := (listed cid).mp inside
    obtain ⟨id, rfl⟩ := ((sound.hears entries).1 cid answered).resolve_left container
    have long : 12 ≤ id.text.length := id.length ▸ (by decide)
    simp [Resolver.scanRow, shortOf, long, Resolver.nameOf, containers_answersOf, row,
      counted _ inside]
  have reported : ((cids.map row).map ScanRow.pids).sum = others.length := by
    have numbers := GoMap.sum_histogram others orders.perContainer
    rw [GoMap.range_histogram, List.map_map] at numbers
    refine Eq.trans (congrArg List.sum ?_) numbers
    exact (List.map_map ..).trans (List.map_congr_left fun cid inside => (counted cid inside).symm)
  have whole : answers.count [] + others.length = answers.length := by
    rw [List.length_eq_countP_add_countP (l := answers) (· == []), List.count,
      ← List.countP_eq_length_filter]
    exact congrArg _ (List.countP_congr fun cid _ => by simp)
  refine ⟨⟨answers.length, answers.count [], answers.length - answers.count [], cids.map row⟩,
    ?_, ?_⟩
  · exact {
      total := rfl
      host := rfl
      whole := Nat.add_sub_of_le (whole ▸ Nat.le_add_right _ _)
      pids := reported.trans (Nat.eq_sub_of_add_eq' whole)
      rows := ⟨cids, GoMap.range_keys_nodup _ _, listed, rfl⟩ }
  · simp only [Resolver.scanOnce, looped, rows]

/-- What is printed, and the resolver after it, when the cache is sound. -/
theorem Resolver.Sound.scanOnce {r : Resolver} (sound : r.Sound) (orders : ScanOrders)
    (proc : Option (List ProcEntry)) :
    (r.scanOnce orders proc).1.Sound ∧ ∃ containers scan,
      (r.scanOnce orders proc).2 = .printed containers scan ∧
      containers.Perm (r.containers.pairs.map Prod.snd) ∧
      Option.Rel (fun entries (scan : Scan) => scan.Tells r (answersOf r entries).1) proc scan := by
  have all : ((r.containers.range orders.containers).map Prod.snd).Perm
      (r.containers.pairs.map Prod.snd) := (orders.containers.perm _).map Prod.snd
  cases proc with
  | none => exact ⟨sound, _, none, rfl, all, .none⟩
  | some entries =>
    obtain ⟨scan, tells, printed⟩ := sound.tells orders entries
    rw [printed]
    exact ⟨(sound.hears entries).2, _, some scan, rfl, all, .some tells⟩

/-- A scan of a sound resolver, and what the program is left with. -/
theorem Resolver.Sound.scanned {r : Resolver} (sound : r.Sound) (orders : ScanOrders)
    (proc : Option (List ProcEntry)) :
    r.scanned orders proc =
      (⟨(r.scanOnce orders proc).1, .looping⟩, [(r.scanOnce orders proc).2]) := by
  obtain ⟨_, containers, scan, printed, _⟩ := sound.scanOnce orders proc
  unfold Resolver.scanned
  cases whole : r.scanOnce orders proc with
  | mk after outcome =>
    rw [whole] at printed
    subst printed
    rfl

end ContainerAnomaly.Container
