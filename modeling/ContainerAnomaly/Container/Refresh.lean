import ContainerAnomaly.Container.Resolver
import Mathlib.Data.List.Induction

/-!
# Refreshing the resolver

`Refresh` of `pkg/container/resolver.go`, with what it asks of the docker daemon. A container that
cannot be inspected is left out, and cached answers are dropped when they name a container that was
left out; the answers that name none are kept.
-/

namespace ContainerAnomaly.Container

open Lib

/-- `ContainerSummary`, without the labels, which nothing reads. The list has stopped containers
too: the daemon is asked for all. -/
structure ContainerSummary where
  /-- Of the daemon 64 hexadecimal digits; `Refresh` takes the first twelve. -/
  id : GoString
  /-- Its names, each after a slash. -/
  names : List GoString
  /-- Its image. -/
  image : GoString
  /-- The daemon lists it as running. The agent decodes nothing of this. -/
  running : Bool

/-- `ContainerDetail`, of which only the pid of the state is read by what is modelled. -/
structure ContainerDetail where
  /-- The pid of its first process, 0 when it is stopped. -/
  pid : Int

/-- The answers of the docker daemon during a refresh, `none` for an error. -/
structure Docker where
  /-- `ListContainers`. -/
  listContainers : Option (List ContainerSummary)
  /-- `InspectContainer`. -/
  inspectContainer : GoString → Option ContainerDetail

/-- `strings.TrimPrefix(name, "/")`. -/
def trimSlash (name : GoString) : GoString :=
  if name.head? = some GoString.slash then name.tail else name

/-- What is remembered of a container. Its id has a first twelve where `Refresh` does not panic. -/
def infoOf (s : ContainerSummary) (detail : ContainerDetail) : Info where
  id := s.id
  shortID := s.id.take 12
  name := (s.names.head?.map trimSlash).getD []
  image := s.image
  pid := detail.pid

/-- The loop of `Refresh` over the summaries. -/
def containersOf (docker : Docker) (summaries : List ContainerSummary) : GoMap GoString Info :=
  summaries.foldl (fun next s =>
    match docker.inspectContainer s.id with
    | none => next
    | some detail => next.insert s.id (infoOf s detail)) ∅

/-- `Refresh` panics: `s.ID[:12]` of a container that is listed and inspected is out of range. -/
def Docker.panics (docker : Docker) : Bool :=
  docker.listContainers.any fun summaries =>
    summaries.any fun s => s.id.length < 12 && (docker.inspectContainer s.id).isSome

/-- A cached answer stays when it names no container or one that is known. -/
def stays (known : GoMap GoString Info) (cid : GoString) : Bool := cid = [] ∨ cid ∈ known

/-- `Refresh` where it does not panic, `none` when the containers cannot be listed; the resolver
stays as it is then. -/
def Resolver.refresh (r : Resolver) (docker : Docker) : Option Resolver :=
  docker.listContainers.map fun summaries =>
    let next := containersOf docker summaries
    { containers := next
      upidCache := r.upidCache.retain fun upid => (r.upidCache.lookup upid).all (stays next) }

/-- The containers known after a refresh are those that were listed and could be inspected, with
the pid of their inspection. -/
theorem lookup_containersOf (docker : Docker) (summaries : List ContainerSummary)
    (cid : GoString) :
    ((containersOf docker summaries).lookup cid).map Info.pid =
      if ∃ s ∈ summaries, s.id = cid then (docker.inspectContainer cid).map ContainerDetail.pid
      else none := by
  unfold containersOf
  induction summaries using List.reverseRecOn with
  | nil => simp
  | append_singleton summaries s ih =>
    rw [List.foldl_append, List.foldl_cons, List.foldl_nil]
    simp only [List.mem_append, List.mem_singleton, or_and_right, exists_or, exists_eq_left]
    cases inspected : docker.inspectContainer s.id with
    | none =>
      dsimp only
      rw [ih]
      by_cases same : s.id = cid
      · subst same
        simp [inspected]
      · simp [same]
    | some detail =>
      by_cases same : s.id = cid
      · subst same
        simp [inspected, infoOf]
      · dsimp only
        rw [AList.lookup_insert_ne (Ne.symm same), ih]
        simp [same]

/-- After a refresh, a cached answer is there exactly when it was and it stays. -/
theorem Resolver.lookup_refresh {r next : Resolver} {docker : Docker}
    {summaries : List ContainerSummary} (listed : docker.listContainers = some summaries)
    (refreshed : r.refresh docker = some next) (upid : UPID) :
    next.upidCache.lookup upid =
      (r.upidCache.lookup upid).filter (stays (containersOf docker summaries)) := by
  simp only [refresh, listed, Option.map_some, Option.some.injEq] at refreshed
  subst refreshed
  rw [GoMap.lookup_retain]
  cases cached : r.upidCache.lookup upid with
  | none => simp
  | some cid =>
    by_cases kept : stays (containersOf docker summaries) cid <;> simp [kept, Option.filter]

end ContainerAnomaly.Container
