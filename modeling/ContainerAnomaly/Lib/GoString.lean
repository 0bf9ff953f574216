import Mathlib.Algebra.GroupWithZero.Nat
import Mathlib.Data.List.Basic

/-!
# Byte strings

A Go `string` is a sequence of bytes, and this module has the functions on it that parsers of
`/proc` and of cgroup files are written with: `strings.Fields`, `strings.TrimSpace`,
`strings.Index`, `strconv.ParseUint`, `bufio.Scanner` over lines and `filepath.Join`. Literals
are written as ASCII text and turned into bytes by `lit`.
-/

namespace ContainerAnomaly.Lib

/-- A Go `string`: its bytes. -/
abbrev GoString := List UInt8

instance : LawfulBEq GoString := List.instLawfulBEq

/-- The bytes of an ASCII literal. -/
def lit (text : String) : GoString := text.toList.map fun c => UInt8.ofNat c.toNat

namespace GoString

/-- The line feed that ends a line. -/
def newline : UInt8 := 10

/-- The separator of a path. -/
def slash : UInt8 := 47

/-- The length of the white-space character a string starts with, zero when it starts with none:
`unicode.IsSpace` on the first rune, on its UTF-8 bytes. -/
def spaceLength : GoString → Nat
  | [] => 0
  | c :: rest =>
    if c = 32 ∨ (9 ≤ c ∧ c ≤ 13) then 1
    else
      match c, rest with
      | 0xC2, d :: _ => if d = 0x85 ∨ d = 0xA0 then 2 else 0
      | 0xE1, 0x9A :: 0x80 :: _ => 3
      | 0xE2, 0x80 :: e :: _ =>
        if (0x80 ≤ e ∧ e ≤ 0x8A) ∨ e = 0xA8 ∨ e = 0xA9 ∨ e = 0xAF then 3 else 0
      | 0xE2, 0x81 :: 0x9F :: _ => 3
      | 0xE3, 0x80 :: 0x80 :: _ => 3
      | _, _ => 0

/-- The scan of `strings.Fields`: the bytes of a white-space character left to skip, and the
field read so far. -/
def fieldsFrom : Nat → GoString → GoString → List GoString
  | _, field, [] => if field = [] then [] else [field]
  | skip + 1, field, _ :: rest => fieldsFrom skip field rest
  | 0, field, c :: rest =>
    match spaceLength (c :: rest) with
    | 0 => fieldsFrom 0 (field ++ [c]) rest
    | width + 1 =>
      if field = [] then fieldsFrom width [] rest else field :: fieldsFrom width [] rest

/-- `strings.Fields`. -/
def fields (s : GoString) : List GoString := fieldsFrom 0 [] s

/-- Every character is white space; the count is the bytes left of the current one. -/
def allSpaceFrom : Nat → GoString → Bool
  | _, [] => true
  | skip + 1, _ :: rest => allSpaceFrom skip rest
  | 0, c :: rest =>
    match spaceLength (c :: rest) with
    | 0 => false
    | width + 1 => allSpaceFrom width rest

/-- Drop the longest suffix of white space. -/
def trimRight : GoString → GoString
  | [] => []
  | c :: rest => if allSpaceFrom 0 (c :: rest) then [] else c :: trimRight rest

/-- Drop the longest prefix of white space. -/
def trimLeftFrom : Nat → GoString → GoString
  | _, [] => []
  | skip + 1, _ :: rest => trimLeftFrom skip rest
  | 0, c :: rest =>
    match spaceLength (c :: rest) with
    | 0 => c :: rest
    | width + 1 => trimLeftFrom width rest

/-- `strings.TrimSpace`. -/
def trimSpace (s : GoString) : GoString := trimRight (trimLeftFrom 0 s)

/-- `strings.Index`: where the pattern occurs first. -/
def index (s pattern : GoString) : Option Nat :=
  (List.range (s.length + 1)).find? fun start => pattern.isPrefixOf (s.drop start)

/-- `strings.Contains`. -/
def contains (s pattern : GoString) : Bool := (s.index pattern).isSome

/-- `strings.LastIndexByte`: where a byte occurs last. -/
def lastIndexByte (s : GoString) (byte : UInt8) : Option Nat :=
  (s.reverse.findIdx? (· = byte)).map fun back => s.length - 1 - back

/-- The two errors of `strconv.ParseUint`. -/
inductive NumError where
  | syntaxError | rangeError
deriving DecidableEq

/-- The digits after the first: the value read so far grows until a bad byte or an overflow. -/
def parseUintFrom (value : Nat) : GoString → UInt64 × Option NumError
  | [] => (UInt64.ofNat value, none)
  | c :: rest =>
    if 48 ≤ c ∧ c ≤ 57 then
      let next := value * 10 + (c.toNat - 48)
      if next < 2 ^ 64 then parseUintFrom next rest
      else (UInt64.ofNat (2 ^ 64 - 1), some .rangeError)
    else (0, some .syntaxError)

/-- `strconv.ParseUint(s, 10, 64)`, with the value it returns beside an error. -/
def parseUint (s : GoString) : UInt64 × Option NumError :=
  if s = [] then (0, some .syntaxError) else parseUintFrom 0 s

/-- `bufio.MaxScanTokenSize`. -/
def maxScanTokenSize : Nat := 65536

/-- The lines of a text, without a last empty one. -/
def rawLines (data : GoString) : List GoString :=
  let lines := data.splitOn newline
  if lines.getLast? = some [] then lines.dropLast else lines

/-- Drop a carriage return at the end of a line. -/
def dropCR (line : GoString) : GoString :=
  if line.getLast? = some 13 then line.dropLast else line

/-- The tokens of a `bufio.Scanner` over lines: it stops at a line that does not fit its buffer
together with its line feed. -/
def scanLines (data : GoString) : List GoString :=
  ((rawLines data).takeWhile fun line => line.length < maxScanTokenSize).map dropCR

/-- A text of one line is scanned as that line, when it fits the buffer. -/
theorem scanLines_line (line : GoString) (plain : newline ∉ line) :
    scanLines (line ++ [newline]) =
      if line.length < maxScanTokenSize then [dropCR line] else [] := by
  have parts : ∀ part ∈ [line, []], newline ∉ part := by simpa using plain
  have joined : [newline].intercalate [line, []] = line ++ [newline] := by
    simp [List.intercalate]
  have split : (line ++ [newline]).splitOn newline = [line, []] := by
    rw [← joined]
    exact List.splitOn_intercalate newline parts (by simp)
  have raw : rawLines (line ++ [newline]) = [line] := by simp [rawLines, split]
  rw [scanLines, raw]
  by_cases fits : line.length < maxScanTokenSize
  · simp [fits]
  · simp [fits]

/-- A carriage return at the end of a text is at the end of its last part. -/
theorem dropCR_append (front back : GoString) (present : back ≠ []) :
    dropCR (front ++ back) = front ++ dropCR back := by
  unfold dropCR
  rw [List.getLast?_append_of_ne_nil _ present]
  by_cases ends : back.getLast? = some 13
  · rw [if_pos ends, if_pos ends, List.dropLast_append_of_ne_nil present]
  · rw [if_neg ends, if_neg ends]

/-- One element of a path in `filepath.Clean`, on the elements kept so far. -/
def cleanStep (rooted : Bool) (kept : List GoString) (element : GoString) : List GoString :=
  if element = [] ∨ element = lit "." then kept
  else if element = lit ".." then
    if kept ≠ [] ∧ kept.getLast? ≠ some (lit "..") then kept.dropLast
    else if rooted then kept else kept ++ [element]
  else kept ++ [element]

/-- `filepath.Clean`. -/
def clean (path : GoString) : GoString :=
  let rooted := path.head? = some slash
  let kept := (path.splitOn slash).foldl (cleanStep rooted) []
  let body := [slash].intercalate kept
  let result := if rooted then slash :: body else body
  if result = [] then lit "." else result

/-- `filepath.Join`. -/
def joinPath (elements : List GoString) : GoString :=
  let present := elements.filter (· ≠ [])
  if present = [] then [] else clean ([slash].intercalate present)

end GoString

end ContainerAnomaly.Lib
