import ContainerAnomaly.Lib.Numeral
import Mathlib.Algebra.Order.Floor.Defs
import Mathlib.Data.Rat.Floor
import Mathlib.Tactic.FieldSimp
import Mathlib.Tactic.Linarith
import Mathlib.Tactic.Ring

/-!
# Four decimals

`fmt.Sprintf("%.4f")` of a `float64`: the exact value of the float, rounded to ten thousandths with
ties to even. Reading the text gives back the value up to half a ten thousandth, and tells
infinities and not-a-number (`readQuantity_fixed4`).
-/

namespace ContainerAnomaly.Lib

open Float.Model GoString

/-- What a float, or a text of one, stands for. -/
inductive Quantity where
  | number (q : ℚ)
  | infinite (negative : Bool)
  | nan
deriving DecidableEq

/-- Two quantities are as close as a bound; infinities are so to themselves. -/
def Quantity.Near (bound : ℚ) : Quantity → Quantity → Prop
  | .number p, .number q => |p - q| ≤ bound
  | .infinite p, .infinite q => p = q
  | .nan, .nan => True
  | _, _ => False

namespace Fixed

/-- A sign is negative. -/
def isNegative : UnpackedFloat.Sign → Bool
  | .negative => true
  | .positive => false

/-- A rational with a sign. -/
def signed (negative : Bool) (q : ℚ) : ℚ := if negative then -q else q

/-- The exact value of a float. -/
def quantity (f : Float) : Quantity :=
  match f.toModel.unpack with
  | .notANumber => .nan
  | .infinity sign => .infinite (isNegative sign)
  | .zero _ => .number 0
  | .finite sign mantissa exponent _ =>
    .number (signed (isNegative sign) (mantissa * 2 ^ exponent.toNat / 2 ^ (-exponent).toNat))

/-- A float that equals zero is one. -/
theorem quantity_eq_zero {f : Float} (zero : (f == 0) = true) : quantity f = .number 0 := by
  have unpacked_zero : (0 : Float).toModel.unpack = .zero .positive := rfl
  have equal : f.toModel.unpack.beq (0 : Float).toModel.unpack = true := zero
  rw [unpacked_zero] at equal
  unfold quantity
  cases unpacked : f.toModel.unpack with
  | zero sign => rfl
  | notANumber =>
    rw [unpacked] at equal
    cases (equal : false = true)
  | infinity sign | finite sign mantissa exponent positive =>
    rw [unpacked] at equal
    cases sign <;> cases (equal : false = true)

/-- A fraction rounded to an integer, ties to even. -/
def roundEven (num den : Nat) : Nat :=
  if den < 2 * (num % den) ∨ den = 2 * (num % den) ∧ num / den % 2 = 1 then num / den + 1
  else num / den

/-- A number of ten thousandths. -/
def decimals (n : Nat) : GoString := decimal (n / 10000) ++ [46] ++ padded 4 (n % 10000)

/-- A signed number of ten thousandths. -/
def signedDecimals (negative : Bool) (n : Nat) : GoString :=
  (if negative then [45] else []) ++ decimals n

/-- `Sprintf("%.4f")`. -/
def fixed4 (f : Float) : GoString :=
  match f.toModel.unpack with
  | .notANumber => lit "NaN"
  | .infinity sign => if isNegative sign then lit "-Inf" else lit "+Inf"
  | .zero sign => signedDecimals (isNegative sign) 0
  | .finite sign mantissa exponent _ =>
    signedDecimals (isNegative sign)
      (roundEven (mantissa * 2 ^ exponent.toNat * 10000) (2 ^ (-exponent).toNat))

/-- Rounding goes to a nearest integer. -/
theorem roundEven_near (num : Nat) {den : Nat} (positive : 0 < den) :
    |(roundEven num den : ℚ) - num / den| ≤ 1 / 2 := by
  have parts : (num : ℚ) / den = (num / den : Nat) + (num % den : Nat) / den := by
    have whole : (num : ℚ) = den * (num / den : Nat) + (num % den : Nat) := by
      exact_mod_cast (Nat.div_add_mod num den).symm
    have nonzero : (den : ℚ) ≠ 0 := by exact_mod_cast positive.ne'
    field_simp
    linarith
  have above : (0 : ℚ) < den := by exact_mod_cast positive
  have less : ((num % den : Nat) : ℚ) / den < 1 :=
    (div_lt_one above).mpr (by exact_mod_cast Nat.mod_lt num positive)
  have least : (0 : ℚ) ≤ ((num % den : Nat) : ℚ) / den := by positivity
  rw [parts]
  unfold roundEven
  split
  · have half : (1 : ℚ) / 2 ≤ ((num % den : Nat) : ℚ) / den := by
      rw [div_le_div_iff₀ (by norm_num) above]
      have twice : den ≤ (num % den) * 2 := by omega
      have cast : (den : ℚ) ≤ (num % den : Nat) * 2 := by exact_mod_cast twice
      linarith
    push_cast
    rw [abs_le]
    constructor <;> linarith
  · have half : ((num % den : Nat) : ℚ) / den ≤ 1 / 2 := by
      rw [div_le_div_iff₀ above (by norm_num)]
      have twice : (num % den) * 2 ≤ den := by omega
      have cast : ((num % den : Nat) : ℚ) * 2 ≤ den := by exact_mod_cast twice
      linarith
    rw [abs_le]
    constructor <;> linarith

/-- The value of digits with or without a point. -/
def readDecimals (text : GoString) : ℚ :=
  let whole := text.takeWhile fun c => c ≠ 46
  let fraction := text.drop (whole.length + 1)
  digitsValue whole + digitsValue fraction / 10 ^ fraction.length

/-- What a text of a float stands for. -/
def readQuantity (text : GoString) : Quantity :=
  if text = lit "NaN" then .nan
  else if text = lit "+Inf" then .infinite false
  else if text = lit "-Inf" then .infinite true
  else if text.head? = some 45 then .number (-readDecimals text.tail)
  else .number (readDecimals text)

/-- The bytes of a number with decimals. -/
theorem mem_decimals {n : Nat} {c : UInt8} (inside : c ∈ decimals n) : c = 46 ∨ IsDigit c := by
  simp only [decimals, List.mem_append, List.mem_singleton] at inside
  rcases inside with (whole | point) | fraction
  · exact .inr ((isNumeral_decimal _).digits c whole)
  · exact .inl point
  · exact .inr ((isNumeral_padded 4 _).digits c fraction)

/-- A number of ten thousandths is read back. -/
theorem readDecimals_decimals (n : Nat) : readDecimals (decimals n) = n / 10000 := by
  have whole := isNumeral_decimal (n / 10000)
  have fraction := isNumeral_padded 4 (n % 10000)
  have length : (padded 4 (n % 10000)).length = 4 := length_padded (by decide) (by omega)
  have before : (decimals n).takeWhile (fun c => c ≠ 46) = decimal (n / 10000) := by
    unfold decimals
    rw [List.append_assoc, List.takeWhile_append_of_pos]
    · simp
    · intro c inside
      have digit := whole.digits c inside
      refine decide_eq_true ?_
      rintro rfl
      exact absurd digit (by decide)
  have after : (decimals n).drop ((decimal (n / 10000)).length + 1) = padded 4 (n % 10000) := by
    simp [decimals]
  unfold readDecimals
  dsimp only
  rw [before, after, whole.value_eq, fraction.value_eq, length]
  have parts : (n : ℚ) = 10000 * (n / 10000 : Nat) + (n % 10000 : Nat) := by
    exact_mod_cast (Nat.div_add_mod n 10000).symm
  rw [parts]
  ring

/-- The bytes of a signed number with decimals. -/
theorem mem_signedDecimals {negative : Bool} {n : Nat} {c : UInt8}
    (inside : c ∈ signedDecimals negative n) : c = 45 ∨ c = 46 ∨ IsDigit c := by
  rcases List.mem_append.mp inside with sign | number
  · cases negative with
    | false => cases sign
    | true => exact .inl (List.mem_singleton.mp sign)
  · exact .inr (mem_decimals number)

/-- No byte of a printed float is below the plus sign. -/
theorem le_of_mem_fixed4 {f : Float} {c : UInt8} (inside : c ∈ fixed4 f) : 43 ≤ c := by
  have number : ∀ {negative n}, c ∈ signedDecimals negative n → 43 ≤ c := by
    intro negative n there
    rcases mem_signedDecimals there with rfl | rfl | digit
    · decide
    · decide
    · exact UInt8.le_trans (by decide) digit.1
  unfold fixed4 at inside
  split at inside
  · exact (by decide +kernel : ∀ d ∈ lit "NaN", 43 ≤ d) c inside
  · split at inside
    · exact (by decide +kernel : ∀ d ∈ lit "-Inf", 43 ≤ d) c inside
    · exact (by decide +kernel : ∀ d ∈ lit "+Inf", 43 ≤ d) c inside
  · exact number inside
  · exact number inside

/-- A signed number of ten thousandths is read back. -/
theorem readQuantity_signedDecimals (negative : Bool) (n : Nat) :
    readQuantity (signedDecimals negative n) = .number (signed negative (n / 10000)) := by
  have letters : ∀ word c, c ∈ word → ¬ (c = 45 ∨ c = 46 ∨ IsDigit c) →
      signedDecimals negative n ≠ word := by
    rintro word c inside strange rfl
    exact strange (mem_signedDecimals inside)
  unfold readQuantity
  rw [if_neg (letters _ 78 (by decide) (by decide)), if_neg (letters _ 73 (by decide) (by decide)),
    if_neg (letters _ 73 (by decide) (by decide))]
  cases negative with
  | true => simp [signedDecimals, signed, readDecimals_decimals]
  | false =>
    have unsigned : (signedDecimals false n).head? ≠ some 45 := by
      intro sign
      have there : 45 ∈ decimals n := List.mem_of_mem_head? sign
      exact absurd (mem_decimals there) (by decide)
    rw [if_neg unsigned]
    simp [signedDecimals, signed, readDecimals_decimals]

/-- What is printed of a float stands for it, up to half a ten thousandth. -/
theorem readQuantity_fixed4 (f : Float) :
    (readQuantity (fixed4 f)).Near (1 / 20000) (quantity f) := by
  unfold fixed4 quantity
  cases f.toModel.unpack with
  | notANumber => exact trivial
  | infinity sign => cases sign <;> rfl
  | zero sign =>
    show (readQuantity (signedDecimals (isNegative sign) 0)).Near _ (.number 0)
    rw [readQuantity_signedDecimals]
    cases sign <;> norm_num [signed, isNegative, Quantity.Near]
  | finite sign mantissa exponent positive =>
    show (readQuantity (signedDecimals (isNegative sign) _)).Near _ (.number (signed _ _))
    have nearest := roundEven_near (mantissa * 2 ^ exponent.toNat * 10000)
      (Nat.two_pow_pos (-exponent).toNat)
    rw [readQuantity_signedDecimals]
    generalize roundEven _ _ = n at nearest ⊢
    push_cast at nearest
    have scaled : |(n : ℚ) / 10000 - mantissa * 2 ^ exponent.toNat / 2 ^ (-exponent).toNat| ≤
        1 / 20000 := by
      have same : (n : ℚ) / 10000 - mantissa * 2 ^ exponent.toNat / 2 ^ (-exponent).toNat =
          (n - mantissa * 2 ^ exponent.toNat * 10000 / 2 ^ (-exponent).toNat) / 10000 := by
        ring
      rw [same, abs_div, abs_of_pos (by norm_num : (0 : ℚ) < 10000)]
      linarith
    cases sign with
    | positive => exact scaled
    | negative =>
      show |-_ - -_| ≤ _
      rw [← abs_neg, neg_sub_neg, neg_sub]
      exact scaled

end Fixed

end ContainerAnomaly.Lib
