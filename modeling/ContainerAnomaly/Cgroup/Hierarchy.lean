import ContainerAnomaly.Cgroup.Reader
import Mathlib.Data.List.Induction

/-!
# Cgroup v2 hierarchies

The directories below a cgroup v2 mount, by the names on their paths: their paths in the file
system, the line that `/proc/<pid>/cgroup` shows for a process in one, and the ids the kernel
gives them. `pathForContainer_scope` says when the reader finds a container in its systemd scope.
-/

namespace ContainerAnomaly.Cgroup

open Lib GoString

/-- A name the kernel accepts for a directory. -/
structure ValidName (name : GoString) : Prop where
  /-- It is not empty. -/
  present : name ≠ []
  /-- It is not the directory itself. -/
  notDot : name ≠ lit "."
  /-- It is not the directory above. -/
  notDotDot : name ≠ lit ".."
  /-- It is one name. -/
  noSlash : slash ∉ name
  /-- It does not end a line. -/
  noNewline : newline ∉ name

/-- The path of a directory from the root, without a slash at its end. -/
def joined (dir : List GoString) : GoString := dir.flatMap (slash :: ·)

/-- The path of a directory from the root. -/
def path (dir : List GoString) : GoString := if dir = [] then [slash] else joined dir

/-- The path of a directory below the root. -/
theorem path_append (above below : List GoString) (present : above ≠ []) :
    path (above ++ below) = path above ++ joined below := by
  simp [path, joined, present]

/-- A path has no line feed. -/
theorem newline_not_mem_path (dir : List GoString) (valid : ∀ name ∈ dir, ValidName name) :
    newline ∉ path dir := by
  by_cases empty : dir = []
  · subst empty
    decide
  · rw [path, if_neg empty, joined, List.mem_flatMap]
    rintro ⟨name, inside, found⟩
    rcases List.mem_cons.mp found with separator | found
    · exact absurd separator (by decide)
    · exact (valid name inside).noNewline found

/-- A path is its names with slashes between them, after a first empty one. -/
theorem joined_eq_intercalate (dir : List GoString) (present : dir ≠ []) :
    joined dir = [slash].intercalate ([] :: dir) := by
  induction dir with
  | nil => exact absurd rfl present
  | cons name dir ih =>
    cases dir with
    | nil => simp [joined, List.intercalate]
    | cons next dir =>
      have rest := ih (by simp)
      rw [List.intercalate_cons_cons] at rest ⊢
      rw [List.intercalate_cons_cons]
      have unfolded : joined (name :: next :: dir) = slash :: name ++ joined (next :: dir) := rfl
      rw [unfolded, rest]
      simp

/-- Cleaning keeps every valid name. -/
theorem foldl_cleanStep (rooted : Bool) (dir kept : List GoString)
    (valid : ∀ name ∈ dir, ValidName name) :
    dir.foldl (cleanStep rooted) kept = kept ++ dir := by
  induction dir generalizing kept with
  | nil => simp
  | cons name dir ih =>
    have own := valid name (by simp)
    have step : cleanStep rooted kept name = kept ++ [name] := by
      simp [cleanStep, own.present, own.notDot, own.notDotDot]
    rw [List.foldl_cons, step, ih _ fun other inside => valid other (by simp [inside])]
    simp

/-- The names on a path are what is between its slashes. -/
theorem splitOn_joined (dir : List GoString) (present : dir ≠ [])
    (valid : ∀ name ∈ dir, ValidName name) : (joined dir).splitOn slash = [] :: dir := by
  rw [joined_eq_intercalate dir present]
  refine List.splitOn_intercalate slash (fun part inside => ?_) (by simp)
  rcases List.mem_cons.mp inside with rfl | inside
  · simp
  · exact (valid part inside).noSlash

/-- Two directories below the root have two paths. -/
theorem path_injective {left right : List GoString} (presentLeft : left ≠ [])
    (presentRight : right ≠ []) (validLeft : ∀ name ∈ left, ValidName name)
    (validRight : ∀ name ∈ right, ValidName name) (same : path left = path right) :
    left = right := by
  rw [path, if_neg presentLeft, path, if_neg presentRight] at same
  have split := splitOn_joined left presentLeft validLeft
  rw [same, splitOn_joined right presentRight validRight] at split
  exact (List.cons.inj split).2.symm

/-- Cleaning a path drops the empty names. -/
theorem clean_joined_filter (names : List GoString) (present : names.filter (· ≠ []) ≠ [])
    (valid : ∀ name ∈ names, name ≠ [] → ValidName name) :
    clean (joined names) = joined (names.filter (· ≠ [])) := by
  have nonempty : names ≠ [] := fun empty => present (by rw [empty]; rfl)
  have split : (joined names).splitOn slash = [] :: names := by
    rw [joined_eq_intercalate names nonempty]
    refine List.splitOn_intercalate slash (fun part inside => ?_) (by simp)
    rcases List.mem_cons.mp inside with rfl | inside
    · simp
    · by_cases blank : part = []
      · simp [blank]
      · exact (valid part inside blank).noSlash
  have kept : ∀ kept, names.foldl (cleanStep true) kept = kept ++ names.filter (· ≠ []) := by
    intro kept
    have skipped : names.foldl (cleanStep true) kept =
        (names.filter (· ≠ [])).foldl (cleanStep true) kept := by
      rw [List.foldl_filter]
      refine List.foldl_ext _ _ _ fun kept name _ => ?_
      by_cases blank : name = []
      · simp [blank, cleanStep]
      · simp [blank]
    rw [skipped]
    refine foldl_cleanStep true _ kept fun name inside => ?_
    obtain ⟨inside, some⟩ := List.mem_filter.mp inside
    exact valid name inside (by simpa using some)
  have rooted : (joined names).head? = some slash := by
    cases names with
    | nil => exact absurd rfl nonempty
    | cons name names => rfl
  have result : slash :: [slash].intercalate (names.filter (· ≠ [])) =
      joined (names.filter (· ≠ [])) := by
    rw [joined_eq_intercalate _ present]
    obtain ⟨name, rest, same⟩ := List.exists_cons_of_ne_nil present
    rw [same, List.intercalate_cons_cons]
    simp
  have first : cleanStep true [] [] = [] := by simp [cleanStep]
  simp only [clean, rooted, split, decide_true, List.foldl_cons, first, if_true, kept,
    List.nil_append]
  rw [if_neg (by simp), result]

/-- The path of a directory below the root is clean. -/
theorem clean_joined (dir : List GoString) (present : dir ≠ [])
    (valid : ∀ name ∈ dir, ValidName name) : clean (joined dir) = joined dir := by
  have all : dir.filter (· ≠ []) = dir :=
    List.filter_eq_self.mpr fun name inside => decide_eq_true (valid name inside).present
  have cleaned := clean_joined_filter dir (by rw [all]; exact present)
    fun name inside _ => valid name inside
  rwa [all] at cleaned

/-- Joining a mounted root and two valid names gives the path of the directory they name. -/
theorem joinPath_mounted (mount : List GoString) (first second : GoString)
    (present : mount ≠ []) (valid : ∀ name ∈ mount ++ [first, second], ValidName name) :
    joinPath [path mount, first, second] = path (mount ++ [first, second]) := by
  have validFirst := valid first (by simp)
  have validSecond := valid second (by simp)
  have rootPresent : path mount ≠ [] := by
    cases mount with
    | nil => exact absurd rfl present
    | cons name mount => simp [path, joined]
  have kept : [path mount, first, second].filter (· ≠ []) = [path mount, first, second] := by
    simp [rootPresent, validFirst.present, validSecond.present]
  have text : [slash].intercalate [path mount, first, second] =
      joined (mount ++ [first, second]) := by
    simp [List.intercalate, path, joined, present]
  have whole : mount ++ [first, second] ≠ [] := by simp
  rw [joinPath, kept, if_neg (by simp), text, clean_joined _ whole valid, path, if_neg whole]

/-- Names after a path, with slashes between them. -/
theorem intercalate_path (above : GoString) (names : List GoString) :
    [slash].intercalate (above :: names) = above ++ joined names := by
  induction names generalizing above with
  | nil => simp [List.intercalate, joined]
  | cons name names ih =>
    rw [List.intercalate_cons_cons, ih name, List.append_assoc]
    rfl

/-- Joining valid names to a path gives the path of the directory they name. -/
theorem joinPath_names (above names : List GoString) (present : above ≠ [])
    (valid : ∀ name ∈ above ++ names, ValidName name) :
    joinPath (path above :: names) = path (above ++ names) := by
  have whole : above ++ names ≠ [] := by simp [present]
  have root : path above ≠ [] := by
    obtain ⟨name, above, rfl⟩ := List.exists_cons_of_ne_nil present
    simp [path, joined]
  have kept : (path above :: names).filter (· ≠ []) = path above :: names := by
    refine List.filter_eq_self.mpr fun name inside => decide_eq_true ?_
    rcases List.mem_cons.mp inside with rfl | below
    · exact root
    · exact (valid name (List.mem_append_right above below)).present
  have text : path above ++ joined names = joined (above ++ names) := by
    simp [path, joined, present]
  rw [joinPath, kept, if_neg (by simp), intercalate_path, text, clean_joined _ whole valid, path,
    if_neg whole]

/-- Joining the paths of two directories gives the path of the one below the other. -/
theorem joinPath_paths (above below : List GoString) (presentAbove : above ≠ [])
    (presentBelow : below ≠ []) (valid : ∀ name ∈ above ++ below, ValidName name) :
    joinPath [path above, path below] = path (above ++ below) := by
  have present : ∀ names : List GoString, names ≠ [] → path names ≠ [] := by
    intro names nonempty
    obtain ⟨name, rest, rfl⟩ := List.exists_cons_of_ne_nil nonempty
    simp [path, joined]
  have kept : [path above, path below].filter (· ≠ []) = [path above, path below] := by
    simp [present above presentAbove, present below presentBelow]
  -- Between the two paths is an empty name.
  have text : [slash].intercalate [path above, path below] = joined (above ++ [] :: below) := by
    simp [List.intercalate, path, joined, presentAbove, presentBelow]
  have names : (above ++ [] :: below).filter (· ≠ []) = above ++ below := by
    have all : ∀ part : List GoString, (∀ name ∈ part, ValidName name) →
        part.filter (· ≠ []) = part := fun part valid =>
      List.filter_eq_self.mpr fun name inside => decide_eq_true (valid name inside).present
    rw [List.filter_append, List.filter_cons_of_neg (by simp),
      all above fun name inside => valid name (List.mem_append_left _ inside),
      all below fun name inside => valid name (List.mem_append_right _ inside)]
  have whole : above ++ below ≠ [] := by simp [presentAbove]
  have cleaned := clean_joined_filter (above ++ [] :: below) (by rw [names]; exact whole) (by
    intro name inside nonempty
    rcases List.mem_append.mp inside with left | right
    · exact valid name (List.mem_append_left _ left)
    · exact valid name (List.mem_append_right _ ((List.mem_cons.mp right).resolve_left nonempty)))
  rw [joinPath, kept, if_neg (by simp), text, cleaned, names, path, if_neg whole]

/-- The line of `/proc/<pid>/cgroup` for a process in a directory. -/
def procLine (dir : List GoString) : GoString := lit "0::" ++ path dir

/-- The line has no line feed of its own. -/
theorem newline_not_mem_procLine (dir : List GoString) (valid : ∀ name ∈ dir, ValidName name) :
    newline ∉ procLine dir := by
  have plain := newline_not_mem_path dir valid
  rw [procLine, List.mem_append]
  exact fun found => found.elim (by decide) plain

/-- The directories of a cgroup v2 hierarchy, by the names from its root: the id of each one. -/
structure Hierarchy where
  /-- The cgroup id, `none` when the directory does not exist. -/
  id : List GoString → Option UInt64
  /-- Two directories have two ids. -/
  distinct : ∀ left right cgid, id left = some cgid → id right = some cgid → left = right
  /-- A directory is in a directory. -/
  parent : ∀ dir name cgid, id (dir ++ [name]) = some cgid → ∃ above, id dir = some above
  /-- Directories have valid names. -/
  valid : ∀ dir cgid, id dir = some cgid → ∀ name ∈ dir, ValidName name

/-- Every directory above a directory exists. -/
theorem Hierarchy.above (hierarchy : Hierarchy) (dir below : List GoString) (cgid : UInt64)
    (exist : hierarchy.id (dir ++ below) = some cgid) :
    ∃ above, hierarchy.id dir = some above := by
  induction below using List.reverseRecOn generalizing cgid with
  | nil => exact ⟨cgid, by simpa using exist⟩
  | append_singleton below name ih =>
    rw [← List.append_assoc] at exist
    obtain ⟨above, found⟩ := hierarchy.parent _ _ _ exist
    exact ih above found

/-- The names of the directory systemd makes for a docker container. -/
def scopeDir (cid : GoString) : List GoString :=
  [lit "system.slice", lit "docker-" ++ cid ++ lit ".scope"]

/-- Where `PathForContainer` looks first is the scope of systemd. -/
theorem pathForContainer_eq (fs : CgroupFs) (mount : List GoString) (cid : GoString)
    (initPid : Int) (present : mount ≠ [])
    (valid : ∀ name ∈ mount ++ scopeDir cid, ValidName name) :
    pathForContainer fs (path mount) cid initPid =
      if fs.stat (path (mount ++ scopeDir cid)) then some (path (mount ++ scopeDir cid))
      else if initPid > 0 then
        match fs.procCgroup initPid with
        | none => none
        | some raw => (raw.splitOn newline).findSome? (pathOfLine (path mount) cid)
      else none := by
  have systemd := joinPath_mounted mount (lit "system.slice")
    (lit "docker-" ++ cid ++ lit ".scope") present valid
  rw [pathForContainer, systemd]
  rfl

/-- When the systemd scope of a container exists, `PathForContainer` returns it. -/
theorem pathForContainer_scope (fs : CgroupFs) (mount : List GoString) (cid : GoString)
    (initPid : Int) (present : mount ≠ [])
    (valid : ∀ name ∈ mount ++ scopeDir cid, ValidName name)
    (exist : fs.stat (path (mount ++ scopeDir cid)) = true) :
    pathForContainer fs (path mount) cid initPid = some (path (mount ++ scopeDir cid)) := by
  rw [pathForContainer_eq fs mount cid initPid present valid]
  exact if_pos exist

/-- The line of a process in a directory whose path does not end in white space. -/
theorem pathOfLine_procLine (root cid : GoString) (dir : List GoString)
    (trimmed : (path dir).trimSpace = path dir) :
    pathOfLine root cid (procLine dir) =
      if (path dir).contains cid then some (joinPath [root, path dir]) else none := by
  have colons : (procLine dir).index (lit "::") = some 1 := by
    rw [index, List.find?_range_eq_some]
    refine ⟨rfl, by simp [procLine, lit], fun j small => ?_⟩
    obtain rfl : j = 0 := by omega
    rfl
  have rest : (procLine dir).drop (1 + 2) = path dir := rfl
  rw [pathOfLine, colons]
  dsimp only
  rw [rest, trimmed]

/-- Without its scope, `PathForContainer` looks for a container where its process is. -/
theorem pathForContainer_proc (fs : CgroupFs) (mount dir : List GoString) (cid : GoString)
    (initPid : Int) (mounted : mount ≠ [])
    (valid : ∀ name ∈ mount ++ scopeDir cid, ValidName name)
    (missing : fs.stat (path (mount ++ scopeDir cid)) = false) (positive : 0 < initPid)
    (shown : fs.procCgroup initPid = some (procLine dir ++ [newline]))
    (plain : ∀ name ∈ dir, ValidName name) (trimmed : (path dir).trimSpace = path dir) :
    pathForContainer fs (path mount) cid initPid =
      if (path dir).contains cid then some (joinPath [path mount, path dir]) else none := by
  have lines : (procLine dir ++ [newline]).splitOn newline = [procLine dir, []] := by
    have joined : [newline].intercalate [procLine dir, []] = procLine dir ++ [newline] := by
      simp [List.intercalate]
    rw [← joined]
    exact List.splitOn_intercalate newline
      (by simpa using newline_not_mem_procLine dir plain) (by simp)
  have blank : pathOfLine (path mount) cid [] = none := rfl
  rw [pathForContainer_eq fs mount cid initPid mounted valid, missing,
    if_neg Bool.false_ne_true, if_pos positive, shown]
  dsimp only
  rw [lines, List.findSome?_cons, pathOfLine_procLine _ _ _ trimmed]
  split
  · rename_i found
    exact found.symm
  · rename_i none
    rw [none, List.findSome?_cons, blank]
    rfl

/-- Without its scope and without a process, `PathForContainer` finds no directory. -/
theorem pathForContainer_nowhere (fs : CgroupFs) (mount : List GoString) (cid : GoString)
    (initPid : Int) (mounted : mount ≠ [])
    (valid : ∀ name ∈ mount ++ scopeDir cid, ValidName name)
    (missing : fs.stat (path (mount ++ scopeDir cid)) = false)
    (gone : initPid ≤ 0 ∨ fs.procCgroup initPid = none) :
    pathForContainer fs (path mount) cid initPid = none := by
  rw [pathForContainer_eq fs mount cid initPid mounted valid, missing,
    if_neg Bool.false_ne_true]
  rcases gone with stopped | unread
  · rw [if_neg (by omega)]
  · rw [unread]
    exact ite_self _

end ContainerAnomaly.Cgroup
