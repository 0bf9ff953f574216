import ContainerAnomaly.Cgroup.Hierarchy
import ContainerAnomaly.Container.Resolver

/-!
# The container of a path

What `dockerCIDRe` finds in `/proc/<pid>/cgroup` of a process below the systemd scope of a
docker container: the container's id, wherever below the scope the process is, when the line
fits the scanner's buffer.
-/

namespace ContainerAnomaly.Container

open Lib GoString Cgroup

/-- The id of a docker container. -/
structure ContainerID where
  /-- The digits. -/
  text : GoString
  /-- There are 64. -/
  length : text.length = 64
  /-- They are hexadecimal. -/
  hex : text.all isHex

namespace ContainerID

/-- Such an id is not empty. -/
theorem text_ne_nil (cid : ContainerID) : cid.text ≠ [] := by
  intro empty
  have length := cid.length
  rw [empty] at length
  cases length

/-- The submatch after a slash or a dash. -/
theorem matchID_text (cid : ContainerID) (separator : UInt8) (tail : GoString)
    (allowed : separator = 47 ∨ separator = 45) :
    matchID (separator :: cid.text ++ tail) = some cid.text := by
  have digits : (cid.text ++ tail).take 64 = cid.text := by rw [← cid.length, List.take_left]
  rw [List.cons_append, matchID, digits, if_pos ⟨allowed, cid.length, cid.hex⟩]

/-- The expression matches at `docker-`. -/
theorem matchHere_docker (cid : ContainerID) (tail : GoString) :
    matchHere (lit "docker-" ++ cid.text ++ tail) = some cid.text := by
  have here : matchHere (lit "docker-" ++ cid.text ++ tail) =
      matchID (45 :: cid.text ++ tail) := rfl
  rw [here]
  exact cid.matchID_text 45 tail (.inr rfl)

/-- The leftmost match in the line of a systemd scope is the id of its container, whatever
comes after it. -/
theorem findCID_scope (cid : ContainerID) (tail : GoString) :
    findCID (lit "0::/system.slice/docker-" ++ cid.text ++ tail) = some cid.text := by
  -- No suffix that starts before `docker-` starts with either word of the expression.
  have skipped : findCID (lit "0::/system.slice/docker-" ++ cid.text ++ tail) =
      findCID (lit "docker-" ++ cid.text ++ tail) := rfl
  have start : lit "docker-" ++ cid.text ++ tail = 100 :: (lit "ocker-" ++ cid.text ++ tail) :=
    rfl
  rw [skipped, start, findCID, ← start, cid.matchHere_docker tail]

/-- The line of a process below the scope. -/
theorem procLine_scope (cid : ContainerID) (below : List GoString) :
    procLine (scopeDir cid.text ++ below) =
      lit "0::/system.slice/docker-" ++ cid.text ++ (lit ".scope" ++ joined below) := by
  have front : lit "0::/system.slice/docker-" =
      lit "0::" ++ slash :: lit "system.slice" ++ slash :: lit "docker-" := by decide
  rw [procLine, path_append _ _ (by simp [scopeDir]), front]
  simp [path, scopeDir, joined]

/-- The container of a process anywhere below the scope is read from its line, unless the line
does not fit the scanner's buffer. -/
theorem parse_scope (cid : ContainerID) (fs : ProcFs) (pid : UInt32) (below : List GoString)
    (plain : newline ∉ procLine (scopeDir cid.text ++ below))
    (shown : fs.cgroup pid = some (procLine (scopeDir cid.text ++ below) ++ [newline])) :
    parseContainerIDFromCgroup fs pid =
      if (procLine (scopeDir cid.text ++ below)).length < maxScanTokenSize then cid.text
      else [] := by
  have form := cid.procLine_scope below
  have trimmed : dropCR (procLine (scopeDir cid.text ++ below)) =
      lit "0::/system.slice/docker-" ++ cid.text ++ dropCR (lit ".scope" ++ joined below) := by
    rw [form, dropCR_append _ _ (by simp [lit])]
  simp only [parseContainerIDFromCgroup, shown, scanLines_line _ plain]
  by_cases fits : (procLine (scopeDir cid.text ++ below)).length < maxScanTokenSize
  · simp only [if_pos fits, List.findSome?_cons, trimmed, cid.findCID_scope, Option.getD_some]
  · simp only [if_neg fits, List.findSome?_nil, Option.getD_none]

end ContainerID

end ContainerAnomaly.Container
