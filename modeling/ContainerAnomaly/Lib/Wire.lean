import Mathlib.Data.List.TakeDrop
import Mathlib.Data.Nat.Digits.Defs
import Mathlib.Data.UInt

/-!
# Values laid out in bytes

The bytes of a value in memory: as many as its type has, a different value for each different
choice of them (`Wire`). Words are laid out least significant byte first and the fields of a record
one after the other, so that a record without padding is read back from its bytes by a cast
(`Wire.cast_encode`).
-/

namespace ContainerAnomaly.Lib

/-- The layout of a type in memory. -/
structure Wire (α : Type) where
  /-- The size of a value. -/
  size : Nat
  /-- The bytes of a value, in order of their addresses. -/
  encode : α → List UInt8
  /-- The value of as many bytes. -/
  decode : List UInt8 → α
  /-- A value has as many bytes. -/
  length_encode : ∀ value, (encode value).length = size
  /-- They are decoded to the value. -/
  decode_encode : ∀ value, decode (encode value) = value
  /-- Any so many bytes are those of a value. -/
  encode_decode : ∀ bytes, bytes.length = size → encode (decode bytes) = bytes

/-- The last bytes of a number, least significant first. -/
def leBytes : Nat → Nat → List UInt8
  | 0, _ => []
  | width + 1, value => UInt8.ofNat value :: leBytes width (value / 256)

/-- The number of some bytes. -/
def leValue (bytes : List UInt8) : Nat := Nat.ofDigits 256 (bytes.map UInt8.toNat)

@[simp] theorem leValue_nil : leValue [] = 0 := rfl

@[simp] theorem leValue_cons (byte : UInt8) (bytes : List UInt8) :
    leValue (byte :: bytes) = byte.toNat + 256 * leValue bytes := Nat.ofDigits_cons

@[simp] theorem length_leBytes (width value : Nat) : (leBytes width value).length = width := by
  induction width generalizing value with
  | zero => rfl
  | succ width ih => simp [leBytes, ih]

/-- A number is read back as far as the bytes hold it. -/
theorem leValue_leBytes (width value : Nat) :
    leValue (leBytes width value) = value % 256 ^ width := by
  induction width generalizing value with
  | zero => simp [leBytes, Nat.mod_one]
  | succ width ih =>
    have low : (UInt8.ofNat value).toNat = value % 256 := UInt8.toNat_ofNat'
    rw [leBytes, leValue_cons, ih, low, pow_succ', Nat.mod_mul]

/-- Bytes hold no more than their number allows. -/
theorem leValue_lt (bytes : List UInt8) : leValue bytes < 256 ^ bytes.length := by
  have digits : ∀ digit ∈ bytes.map UInt8.toNat, digit < 256 := by
    intro digit inside
    obtain ⟨byte, _, rfl⟩ := List.mem_map.mp inside
    exact byte.toNat_lt
  have bound := Nat.ofDigits_lt_base_pow_length (by decide : 1 < 256) digits
  rwa [List.length_map] at bound

/-- Bytes are those of their number. -/
theorem leBytes_leValue (bytes : List UInt8) : leBytes bytes.length (leValue bytes) = bytes := by
  induction bytes with
  | nil => rfl
  | cons byte bytes ih =>
    have low : UInt8.ofNat (byte.toNat + 256 * leValue bytes) = byte := by
      apply UInt8.toNat_inj.mp
      have small := byte.toNat_lt
      rw [UInt8.toNat_ofNat']
      omega
    have high : (byte.toNat + 256 * leValue bytes) / 256 = leValue bytes := by
      have small := byte.toNat_lt
      omega
    rw [leValue_cons, List.length_cons, leBytes, low, high, ih]

namespace Wire

/-- A word of 32 bits. -/
def word32 : Wire UInt32 where
  size := 4
  encode value := leBytes 4 value.toNat
  decode bytes := UInt32.ofNat (leValue bytes)
  length_encode _ := length_leBytes 4 _
  decode_encode value := by
    have bound : value.toNat < 256 ^ 4 := value.toNat_lt
    rw [leValue_leBytes, Nat.mod_eq_of_lt bound, UInt32.ofNat_toNat]
  encode_decode bytes length := by
    have bound := leValue_lt bytes
    have whole := leBytes_leValue bytes
    rw [length] at bound whole
    rw [UInt32.toNat_ofNat_of_lt' bound, whole]

/-- A word of 64 bits. -/
def word64 : Wire UInt64 where
  size := 8
  encode value := leBytes 8 value.toNat
  decode bytes := UInt64.ofNat (leValue bytes)
  length_encode _ := length_leBytes 8 _
  decode_encode value := by
    have bound : value.toNat < 256 ^ 8 := value.toNat_lt
    rw [leValue_leBytes, Nat.mod_eq_of_lt bound, UInt64.ofNat_toNat]
  encode_decode bytes length := by
    have bound := leValue_lt bytes
    have whole := leBytes_leValue bytes
    rw [length] at bound whole
    rw [UInt64.toNat_ofNat_of_lt' bound, whole]

section Records

variable {α β : Type}

/-- Two fields, one after the other. -/
def pair (first : Wire α) (second : Wire β) : Wire (α × β) where
  size := first.size + second.size
  encode value := first.encode value.1 ++ second.encode value.2
  decode bytes := (first.decode (bytes.take first.size), second.decode (bytes.drop first.size))
  length_encode value := by
    rw [List.length_append, first.length_encode, second.length_encode]
  decode_encode value := by
    have length := first.length_encode value.1
    rw [List.take_left' length, List.drop_left' length, first.decode_encode,
      second.decode_encode]
  encode_decode bytes length := by
    have front : (bytes.take first.size).length = first.size := by
      rw [List.length_take]
      omega
    have back : (bytes.drop first.size).length = second.size := by
      rw [List.length_drop]
      omega
    rw [first.encode_decode _ front, second.encode_decode _ back, List.take_append_drop]

/-- The same bytes, as another type. -/
def iso (wire : Wire α) (pack : α → β) (unpack : β → α)
    (pack_unpack : ∀ value, pack (unpack value) = value)
    (unpack_pack : ∀ value, unpack (pack value) = value) : Wire β where
  size := wire.size
  encode value := wire.encode (unpack value)
  decode bytes := pack (wire.decode bytes)
  length_encode value := wire.length_encode (unpack value)
  decode_encode value := by rw [wire.decode_encode, pack_unpack]
  encode_decode bytes length := by rw [unpack_pack, wire.encode_decode bytes length]

variable (wire : Wire α)

/-- `*(*T)(unsafe.Pointer(&bytes[0]))`, of enough bytes. -/
def cast (bytes : List UInt8) : Option α :=
  if bytes.length < wire.size then none else some (wire.decode (bytes.take wire.size))

/-- A value is cast back from its bytes, whatever comes after them. -/
theorem cast_encode (value : α) (rest : List UInt8) :
    wire.cast (wire.encode value ++ rest) = some value := by
  have length := wire.length_encode value
  have enough : ¬ (wire.encode value ++ rest).length < wire.size := by
    rw [List.length_append, length]
    omega
  rw [cast, if_neg enough, List.take_left' length, wire.decode_encode]

/-- What can be cast starts with the bytes of the value. -/
theorem cast_eq_some_iff (bytes : List UInt8) (value : α) :
    wire.cast bytes = some value ↔ ∃ rest, bytes = wire.encode value ++ rest := by
  constructor
  · intro found
    unfold cast at found
    split at found
    · cases found
    · rename_i enough
      obtain rfl := Option.some.inj found
      have length : (bytes.take wire.size).length = wire.size := by
        rw [List.length_take]
        omega
      refine ⟨bytes.drop wire.size, ?_⟩
      rw [wire.encode_decode _ length, List.take_append_drop]
  · rintro ⟨rest, rfl⟩
    exact wire.cast_encode value rest

end Records

end Wire

end ContainerAnomaly.Lib
