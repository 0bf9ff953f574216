import ContainerAnomaly.Lib.GoMap
import ContainerAnomaly.Lib.GoString

/-!
# The container resolver

`pkg/container/resolver.go`. A host pid is resolved to a container id through its start time in
`/proc/<pid>/stat` and the container id in its `/proc/<pid>/cgroup`, with a cache under the pair
of pid and start time. The two files are read from a snapshot of `/proc` (`ProcFs`).
-/

namespace ContainerAnomaly.Container

open Lib

/-- `UPID`. -/
structure UPID where
  /-- The pid of the process. -/
  pid : UInt32
  /-- When it was started, in clock ticks. -/
  startTime : UInt64
deriving DecidableEq

/-- `Info`; the state and start time of a container are read by nothing modelled. -/
structure Info where
  /-- The id of the container. -/
  id : GoString
  /-- Its first twelve digits. -/
  shortID : GoString
  /-- Its name, without the slash. -/
  name : GoString
  /-- Its image. -/
  image : GoString
  /-- The pid of its first process, as docker told it. -/
  pid : Int
deriving DecidableEq

/-- What reading the two files of each process gives at one moment, `none` when it fails. -/
structure ProcFs where
  /-- `/proc/<pid>/stat`. -/
  stat : UInt32 → Option GoString
  /-- `/proc/<pid>/cgroup`. -/
  cgroup : UInt32 → Option GoString

/-- `Resolver`, without the docker client and the table that only `ResolveFast` reads. -/
structure Resolver where
  /-- `containers`: container id to what docker said of it. -/
  containers : GoMap GoString Info
  /-- `upidCache`: process identity to container id, the empty string for the host. -/
  upidCache : GoMap UPID GoString

/-- The errors of `readStartTimeTicks`. -/
inductive StatError where
  | unreadable | malformed | tooFewFields
  | number (error : GoString.NumError)
deriving DecidableEq

/-- `readStartTimeTicks` on the contents of `/proc/<pid>/stat`. -/
def startTimeOfStat (data : GoString) : Except StatError UInt64 :=
  match data.lastIndexByte 41 with
  | none => .error .malformed
  | some rparen =>
    if rparen + 1 ≥ data.length then .error .malformed
    else
      match (GoString.fields (data.drop (rparen + 1)))[19]? with
      | none => .error .tooFewFields
      | some field =>
        match field.parseUint with
        | (value, none) => .ok value
        | (_, some error) => .error (.number error)

/-- `readStartTimeTicks`. -/
def readStartTimeTicks (fs : ProcFs) (pid : UInt32) : Except StatError UInt64 :=
  match fs.stat pid with
  | none => .error .unreadable
  | some data => startTimeOfStat data

/-- A lower-case hexadecimal digit. -/
def isHex (c : UInt8) : Bool := (48 ≤ c ∧ c ≤ 57) ∨ (97 ≤ c ∧ c ≤ 102)

/-- A slash or a dash and 64 hexadecimal digits at the start of a string: the digits. -/
def matchID : GoString → Option GoString
  | [] => none
  | c :: rest =>
    if (c = 47 ∨ c = 45) ∧ (rest.take 64).length = 64 ∧ (rest.take 64).all isHex then
      some (rest.take 64)
    else none

/-- `dockerCIDRe` at the start of a string: the submatch. -/
def matchHere (s : GoString) : Option GoString :=
  if (lit "docker").isPrefixOf s then matchID (s.drop 6)
  else if (lit "containerd").isPrefixOf s then matchID (s.drop 10)
  else none

/-- `dockerCIDRe.FindStringSubmatch`: the submatch of the leftmost match. -/
def findCID : GoString → Option GoString
  | [] => none
  | c :: rest =>
    match matchHere (c :: rest) with
    | some cid => some cid
    | none => findCID rest

/-- `parseContainerIDFromCgroup`: the first line with a match decides. -/
def parseContainerIDFromCgroup (fs : ProcFs) (pid : UInt32) : GoString :=
  match fs.cgroup pid with
  | none => []
  | some data => ((GoString.scanLines data).findSome? findCID).getD []

/-- `Resolve`: the container id, empty for a host process or an unknown pid, and the resolver
with what it has cached. -/
def Resolver.resolve (r : Resolver) (fs : ProcFs) (pid : UInt32) : GoString × Resolver :=
  match readStartTimeTicks fs pid with
  | .error _ => ([], r)
  | .ok start =>
    match r.upidCache.lookup ⟨pid, start⟩ with
    | some cid => (cid, r)
    | none =>
      let cid := parseContainerIDFromCgroup fs pid
      (cid, { r with upidCache := r.upidCache.insert ⟨pid, start⟩ cid })

/-- What a call of `Resolve` can do: give up, answer from the cache, or answer from `/proc` and
remember it. -/
theorem Resolver.resolve_cases (r : Resolver) (fs : ProcFs) (pid : UInt32) :
    ((∃ error, readStartTimeTicks fs pid = .error error) ∧ r.resolve fs pid = ([], r)) ∨
    (∃ start cid, readStartTimeTicks fs pid = .ok start ∧
      r.upidCache.lookup ⟨pid, start⟩ = some cid ∧ r.resolve fs pid = (cid, r)) ∨
    (∃ start, readStartTimeTicks fs pid = .ok start ∧
      r.upidCache.lookup ⟨pid, start⟩ = none ∧
      r.resolve fs pid = (parseContainerIDFromCgroup fs pid,
        { r with upidCache :=
            r.upidCache.insert ⟨pid, start⟩ (parseContainerIDFromCgroup fs pid) })) := by
  unfold resolve
  cases started : readStartTimeTicks fs pid with
  | error error => exact .inl ⟨⟨error, rfl⟩, rfl⟩
  | ok start =>
    cases cached : r.upidCache.lookup ⟨pid, start⟩ with
    | some cid => exact .inr (.inl ⟨start, cid, rfl, cached, by simp [cached]⟩)
    | none => exact .inr (.inr ⟨start, rfl, cached, by simp [cached]⟩)

section ResolveAll

variable {ρ α β : Type} (resolve : ρ → UInt32 → GoString × ρ) (pidOf : α → UInt32)
  (row : α → GoString → β)

/-- Ask a resolver, which may change with every call, for the container of each item in turn. -/
def resolveAll : List α → ρ → List β × ρ
  | [], resolver => ([], resolver)
  | item :: rest, resolver =>
    let answer := resolve resolver (pidOf item)
    let later := resolveAll rest answer.2
    (row item answer.1 :: later.1, later.2)

/-- A longer list is resolved part by part. -/
theorem resolveAll_append (first second : List α) (resolver : ρ) :
    resolveAll resolve pidOf row (first ++ second) resolver =
      let early := resolveAll resolve pidOf row first resolver
      let late := resolveAll resolve pidOf row second early.2
      (early.1 ++ late.1, late.2) := by
  induction first generalizing resolver with
  | nil => rfl
  | cons item first ih => simp only [List.cons_append, resolveAll, ih]

end ResolveAll

end ContainerAnomaly.Container
