import ContainerAnomaly.Feature.Windowing
import ContainerAnomaly.Lib.Register

/-!
# The name of a container

Two sources write the name and image of an accumulator: a cgroup sample, always, and a tick, when
the name is still empty. Both survive the reset, so the first non-empty name that a container was
given since its last sample stands (`account_named`), whatever `ResolveName` answers later
(`named_iff`).
-/

namespace ContainerAnomaly.Feature

open Lib

/-- A name and an image. -/
abbrev Naming := GoString × GoString

/-- The name and image that come with a sample. -/
def Ingest.naming : Ingest → Option Naming
  | .cgroup name image _ => some (name, image)
  | _ => none

/-- What a container was given, after one more view: a sample starts over, and each tick adds what
`ResolveName` answers; `none` before anything was ingested for the container. -/
def givenNext (names : Option (List Naming)) : View → Option (List Naming)
  | .ingest first rest =>
    some ((((first :: rest).filterMap Ingest.naming).getLast?.map fun sampled => [sampled]).getD
      (names.getD []))
  | .tick _ _ answer => names.map (· ++ answer.toList)

/-- The names and images that a container was given since its last sample, in order. -/
def given (views : List View) : Option (List Naming) := views.foldl givenNext none

/-- The first of them whose name is not empty. -/
def standing (names : List Naming) : Option Naming := names.find? fun naming => naming.1 ≠ []

/-- A name that stands is not empty. -/
theorem standing_nonempty {names : List Naming} {naming : Naming}
    (stood : standing names = some naming) : naming.1 ≠ [] := by
  have found := List.find?_some stood
  exact of_decide_eq_true found

/-- What is given last stands when nothing did. -/
theorem standing_snoc (names : List Naming) (naming : Naming) :
    standing (names ++ [naming]) =
      (standing names).or (if naming.1 = [] then none else some naming) := by
  rw [standing, List.find?_append]
  by_cases empty : naming.1 = [] <;> simp [standing, empty]

/-- The name and image of an accumulator. -/
def Accumulator.naming (ac : Accumulator) : Naming := (ac.v.name, ac.v.image)

/-- The name and image of an accumulator are those that stand. -/
structure Accumulator.NamedBy (ac : Accumulator) (names : List Naming) : Prop where
  /-- A naming that stands is that of the accumulator. -/
  stands : ∀ naming, standing names = some naming → ac.naming = naming
  /-- The accumulator has no name where none stands. -/
  unnamed : standing names = none → ac.v.name = []

/-- An accumulator for which a name stands has one. -/
theorem Accumulator.NamedBy.nonempty {ac : Accumulator} {names : List Naming}
    (named : ac.NamedBy names) {naming : Naming} (stood : standing names = some naming) :
    ac.v.name ≠ [] := by
  have kept : ac.v.name = naming.1 := congrArg Prod.fst (named.stands naming stood)
  rw [kept]
  exact standing_nonempty stood

/-- What is ingested leaves the name of the last sample in it. -/
theorem naming_foldl (items : List Ingest) (ac : Accumulator) :
    (items.foldl (fun ac item => ac.ingest item) ac).naming =
      (items.filterMap Ingest.naming).getLast?.getD ac.naming :=
  foldl_overwrite Accumulator.naming Ingest.naming (fun ac item => ac.ingest item)
    (fun ac item => by cases item <;> rfl) items ac

/-- A tick keeps a name that is not empty, and takes the answer otherwise. -/
theorem naming_finalize (ac : Accumulator) (windowStart windowEnd : Time) {cid : GoString}
    (container : cid ≠ []) (answer : Option Naming) :
    ((ac.finalize windowStart windowEnd cid answer).name,
      (ac.finalize windowStart windowEnd cid answer).image) =
      if ac.v.name = [] then answer.getD ac.naming else ac.naming := by
  unfold Accumulator.finalize Vector.backfill Accumulator.naming
  cases answer with
  | none => simp
  | some naming =>
    obtain ⟨name, image⟩ := naming
    by_cases empty : ac.v.name = [] <;> simp [container, empty]

/-- A tick leaves the name of the vector in the accumulator. -/
theorem naming_reset (ac : Accumulator) (v : Vector) :
    (ac.reset v).naming = (v.name, v.image) := rfl

/-- Names carry over to an accumulator with the same name and image. -/
theorem Accumulator.NamedBy.transfer {ac after : Accumulator} {names : List Naming}
    (named : ac.NamedBy names) (same : after.naming = ac.naming) : after.NamedBy names where
  stands naming stood := same.trans (named.stands naming stood)
  unnamed nothing := (congrArg Prod.fst same).trans (named.unnamed nothing)

/-- A name given before any stood names the accumulator that took it. -/
theorem Accumulator.namedBy_snoc {ac : Accumulator} {names : List Naming} {naming : Naming}
    (before : standing names = none) (took : ac.naming = naming) :
    ac.NamedBy (names ++ [naming]) := by
  constructor
  · intro other found
    rw [standing_snoc, before] at found
    by_cases empty : naming.1 = []
    · simp [empty] at found
    · rw [if_neg empty] at found
      exact took.trans (Option.some.inj found)
  · intro nothing
    rw [standing_snoc, before] at nothing
    by_cases empty : naming.1 = []
    · exact (congrArg Prod.fst took).trans empty
    · simp [empty] at nothing

/-- A name given after one stood changes nothing. -/
theorem Accumulator.NamedBy.snoc {ac : Accumulator} {names : List Naming} {naming : Naming}
    (named : ac.NamedBy names) (before : standing names = some naming) (answered : Naming) :
    ac.NamedBy (names ++ [answered]) := by
  have still : standing (names ++ [answered]) = standing names := by
    rw [standing_snoc, before, Option.some_or]
  constructor
  · intro other found
    exact named.stands other (still ▸ found)
  · intro nothing
    exact named.unnamed (still ▸ nothing)

/-- Ingesting keeps the name that stands. -/
theorem Accumulator.NamedBy.ingest {ac : Accumulator} {names : List Naming}
    (named : ac.NamedBy names) (items : List Ingest) :
    (items.foldl (fun ac item => ac.ingest item) ac).NamedBy
      (((items.filterMap Ingest.naming).getLast?.map fun sampled => [sampled]).getD names) := by
  have left := naming_foldl items ac
  cases last : (items.filterMap Ingest.naming).getLast? with
  | none =>
    rw [last, Option.getD_none] at left
    exact named.transfer left
  | some sampled =>
    rw [last, Option.getD_some] at left
    have before : standing [] = none := rfl
    exact Accumulator.namedBy_snoc before left

/-- A tick keeps the name that stands. -/
theorem Accumulator.NamedBy.tick {ac : Accumulator} {names : List Naming}
    (named : ac.NamedBy names) (windowStart windowEnd : Time) {cid : GoString}
    (container : cid ≠ []) (answer : Option Naming) :
    (ac.reset (ac.finalize windowStart windowEnd cid answer)).NamedBy (names ++ answer.toList) := by
  have left := naming_finalize ac windowStart windowEnd container answer
  rw [← naming_reset ac] at left
  cases answer with
  | none =>
    rw [Option.getD_none, ite_self] at left
    rw [Option.toList_none, List.append_nil]
    exact named.transfer left
  | some answered =>
    rw [Option.getD_some] at left
    rw [Option.toList_some]
    cases before : standing names with
    | some naming =>
      rw [if_neg (named.nonempty before)] at left
      exact (named.transfer left).snoc before answered
    | none =>
      rw [if_pos (named.unnamed before)] at left
      exact Accumulator.namedBy_snoc before left

/-- In every run, an account has an accumulator when it was given names, and its name is the one
that stands. -/
theorem account_named (window : Duration) {cid : GoString} (container : cid ≠ [])
    (views : List View) :
    (((accountOf cid).final (.new window) views).accumulator = none ∧ given views = none) ∨
      ∃ ac names, ((accountOf cid).final (.new window) views).accumulator = some ac ∧
        given views = some names ∧ ac.NamedBy names := by
  induction views using List.reverseRecOn with
  | nil => exact .inl ⟨rfl, rfl⟩
  | append_singleton views view ih =>
    have more : given (views ++ [view]) = givenNext (given views) view := by
      rw [given, List.foldl_append]
      rfl
    rw [Machine.final_snoc, more]
    cases view with
    | ingest first rest =>
      -- Before anything is ingested the accumulator is a new one, which nothing has named.
      have current : (((accountOf cid).final (.new window) views).accumulator.getD {}).NamedBy
          ((given views).getD []) := by
        rcases ih with ⟨absent, nothing⟩ | ⟨ac, names, present, names_eq, named⟩
        · rw [absent, nothing]
          exact ⟨fun naming found => by simp [standing] at found, fun _ => rfl⟩
        · rw [present, names_eq]
          exact named
      exact .inr ⟨_, _, rfl, rfl, current.ingest (first :: rest)⟩
    | tick time nonzero answer =>
      rcases ih with ⟨absent, nothing⟩ | ⟨ac, names, present, names_eq, named⟩
      · rw [Account.step_tick_none absent, nothing]
        exact .inl ⟨absent, rfl⟩
      · rw [Account.step_tick_some present, names_eq]
        exact .inr ⟨_, _, rfl, rfl, named.tick _ _ container answer⟩

/-- The vector of a container carries what `ResolveName` answers at the tick exactly when no other
name stands. -/
theorem named_iff (window : Duration) {cid : GoString} (container : cid ≠ []) (past : List Input)
    (closing : Tick) {resolveName : GoString → Naming}
    (asks : closing.resolveName = some resolveName) :
    (∀ v ∈ (aggregator.step (aggregator.final (.new window) past) (.tick closing)).2,
      v.containerID = cid → (v.name, v.image) = resolveName cid) ↔
    ∀ names naming, given (past.filterMap (Input.view cid)) = some names →
      standing names = some naming → naming = resolveName cid := by
  have sent := tick_account cid window past closing
  have member : ∀ v, (v ∈ (aggregator.step (aggregator.final (.new window) past)
      (.tick closing)).2 ∧ v.containerID = cid) ↔
      v ∈ ((accountOf cid).step ((accountOf cid).final (.new window)
        (past.filterMap (Input.view cid)))
        (.tick closing.time closing.nonzero (closing.resolveName.map (· cid)))).2 := by
    intro v
    rw [← sent, List.mem_filter, decide_eq_true_iff]
  have regrouped : (∀ v ∈ (aggregator.step (aggregator.final (.new window) past)
      (.tick closing)).2, v.containerID = cid → (v.name, v.image) = resolveName cid) ↔
      ∀ v ∈ ((accountOf cid).step ((accountOf cid).final (.new window)
        (past.filterMap (Input.view cid)))
        (.tick closing.time closing.nonzero (closing.resolveName.map (· cid)))).2,
        (v.name, v.image) = resolveName cid := by
    refine forall_congr' fun v => ?_
    rw [← member v, and_imp]
  rw [regrouped]
  rcases account_named window container (past.filterMap (Input.view cid)) with
    ⟨absent, nothing⟩ | ⟨ac, names, present, names_eq, named⟩
  · rw [Account.step_tick_none absent, nothing]
    exact iff_of_true (fun v inside => by cases inside) (fun names naming found => by cases found)
  · rw [Account.step_tick_some present, names_eq, asks]
    simp only [List.mem_singleton, forall_eq, Option.map_some, Option.some.injEq]
    rw [naming_finalize _ _ _ container, Option.getD_some]
    cases stood : standing names with
    | none =>
      rw [if_pos (named.unnamed stood)]
      refine iff_of_true rfl ?_
      rintro other naming rfl found
      rw [stood] at found
      cases found
    | some naming =>
      have kept := named.stands naming stood
      rw [if_neg (named.nonempty stood), kept]
      constructor
      · rintro same other otherNaming rfl found
        rw [stood] at found
        exact (Option.some.inj found).symm.trans same
      · intro agrees
        exact agrees names naming rfl stood

end ContainerAnomaly.Feature
