import ContainerAnomaly.Cgroup.Hierarchy
import ContainerAnomaly.Lib.Wire

/-!
# File handles of cgroups

`pkg/cgroup/cgid.go`. The id of a cgroup is read from the first eight bytes of the file handle of
its directory. What the kernel answers is a parameter; `getCgroupID_iff` says for which answers an
id is returned, and which.
-/

namespace ContainerAnomaly.Cgroup

open Lib

/-- `fileHandle`. -/
structure FileHandle where
  /-- The bytes of the handle that are in use. -/
  handleBytes : UInt32
  /-- The type that the file system gives it. -/
  handleType : Int32
  /-- The handle, in a buffer. -/
  fHandle : List UInt8
  /-- The buffer has 128 bytes. -/
  length : fHandle.length = 128

/-- The handle that the kernel is given, with room for 128 bytes. -/
def FileHandle.room : FileHandle := ⟨128, 0, List.replicate 128 0, List.length_replicate⟩

/-- `name_to_handle_at` of a path: an error number, or what is left in the handle it is given. -/
abbrev NameToHandleAt := GoString → FileHandle → Except UInt32 FileHandle

/-- The errors of `GetCgroupID`. -/
inductive HandleError where
  /-- `EINVAL` of `BytePtrFromString`, for a path with a zero byte. -/
  | zeroByte
  | nameToHandleAt (path : GoString) (errno : UInt32)
  | tooShort (handleBytes : UInt32)
deriving DecidableEq

/-- `GetCgroupID`. -/
def getCgroupID (nameToHandleAt : NameToHandleAt) (path : GoString) : Except HandleError UInt64 :=
  if 0 ∈ path then .error .zeroByte
  else
    match nameToHandleAt path .room with
    | .error errno => .error (.nameToHandleAt path errno)
    | .ok fh =>
      if fh.handleBytes < 8 then .error (.tooShort fh.handleBytes)
      else .ok (Wire.word64.decode (fh.fHandle.take 8))

/-- An id is returned when the path can be passed to the kernel, and the kernel leaves a handle of
eight bytes or more that starts with it. -/
theorem getCgroupID_iff (nameToHandleAt : NameToHandleAt) (path : GoString) (cgid : UInt64) :
    getCgroupID nameToHandleAt path = .ok cgid ↔
      0 ∉ path ∧ ∃ fh, nameToHandleAt path .room = .ok fh ∧ 8 ≤ fh.handleBytes ∧
        fh.fHandle.take 8 = Wire.word64.encode cgid := by
  unfold getCgroupID
  by_cases zero : 0 ∈ path
  · simp [zero]
  · rw [if_neg zero]
    cases answer : nameToHandleAt path .room with
    | error errno => simp
    | ok fh =>
      have eight : (fh.fHandle.take 8).length = Wire.word64.size := by
        rw [List.length_take, fh.length]
        rfl
      dsimp only
      by_cases short : fh.handleBytes < 8
      · rw [if_pos short]
        refine iff_of_false (fun ok => by cases ok) ?_
        rintro ⟨_, other, same, long, _⟩
        obtain rfl := Except.ok.inj same
        exact absurd short (UInt32.not_lt.mpr long)
      · rw [if_neg short]
        constructor
        · intro read
          obtain rfl := Except.ok.inj read
          exact ⟨zero, fh, rfl, UInt32.not_lt.mp short,
            (Wire.word64.encode_decode _ eight).symm⟩
        · rintro ⟨_, other, same, _, starts⟩
          obtain rfl := Except.ok.inj same
          rw [starts, Wire.word64.decode_encode]

end ContainerAnomaly.Cgroup
