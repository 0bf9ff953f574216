import ContainerAnomaly.Lib.GoString

/-!
# Decimal numerals

The numerals that `strconv.FormatUint` prints, and what `strconv.ParseUint` accepts: exactly the
digit strings of a value below `2 ^ 64` (`parseUint_eq_iff`), so what is printed is read back
(`parseUint_decimal`).
-/

namespace ContainerAnomaly.Lib.GoString

/-- A decimal digit. -/
def IsDigit (c : UInt8) : Prop := 48 ≤ c ∧ c ≤ 57

instance (c : UInt8) : Decidable (IsDigit c) := inferInstanceAs (Decidable (_ ∧ _))

/-- The value of a digit string that follows a numeral of the given value. -/
def digitsValueFrom (value : Nat) (s : GoString) : Nat :=
  s.foldl (fun value c => value * 10 + (c.toNat - 48)) value

/-- The value of a digit string. -/
def digitsValue (s : GoString) : Nat := digitsValueFrom 0 s

/-- A decimal numeral of a value. -/
structure IsNumeral (s : GoString) (value : Nat) : Prop where
  /-- There is a digit. -/
  nonempty : s ≠ []
  /-- There are digits only. -/
  digits : ∀ c ∈ s, IsDigit c
  /-- They have the value. -/
  value_eq : digitsValue s = value

/-- The numeral of a number, without leading zeros. -/
def decimal (n : Nat) : GoString := lit (toString n)

/-- The numeral of a number, with zeros before it up to a width. -/
def padded (width n : Nat) : GoString :=
  List.replicate (width - (decimal n).length) 48 ++ decimal n

/-- More digits never make a value smaller. -/
theorem le_digitsValueFrom (value : Nat) (s : GoString) : value ≤ digitsValueFrom value s := by
  induction s generalizing value with
  | nil => exact Nat.le_refl _
  | cons c s ih =>
    have more := ih (value * 10 + (c.toNat - 48))
    change value ≤ digitsValueFrom (value * 10 + (c.toNat - 48)) s
    omega

/-- The loop of `ParseUint` succeeds exactly on digits whose value fits. -/
theorem parseUintFrom_eq_iff (value : Nat) (fits : value < 2 ^ 64) (s : GoString) (n : UInt64) :
    parseUintFrom value s = (n, none) ↔
      (∀ c ∈ s, IsDigit c) ∧ digitsValueFrom value s = n.toNat := by
  induction s generalizing value with
  | nil =>
    simp only [parseUintFrom, Prod.mk.injEq, and_true, List.not_mem_nil, false_imp_iff,
      implies_true, true_and]
    change _ ↔ value = n.toNat
    rw [← UInt64.toNat_inj, UInt64.toNat_ofNat_of_lt' fits]
  | cons c s ih =>
    rw [parseUintFrom]
    change _ ↔ _ ∧ digitsValueFrom (value * 10 + (c.toNat - 48)) s = n.toNat
    by_cases digit : 48 ≤ c ∧ c ≤ 57
    · rw [if_pos digit]
      by_cases next : value * 10 + (c.toNat - 48) < 2 ^ 64
      · rw [if_pos next, ih _ next, List.forall_mem_cons, and_assoc]
        exact (and_iff_right digit).symm
      · rw [if_neg next]
        constructor
        · intro overflow
          cases overflow
        · rintro ⟨_, reached⟩
          have grown := le_digitsValueFrom (value * 10 + (c.toNat - 48)) s
          have small := n.toNat_lt
          omega
    · rw [if_neg digit]
      constructor
      · intro refused
        cases refused
      · rintro ⟨digits, _⟩
        exact absurd (digits c List.mem_cons_self) digit

/-- `ParseUint` succeeds exactly on the numerals of its result. -/
theorem parseUint_eq_iff (s : GoString) (n : UInt64) :
    s.parseUint = (n, none) ↔ IsNumeral s n.toNat := by
  unfold parseUint
  by_cases empty : s = []
  · rw [if_pos empty]
    constructor
    · intro refused
      cases refused
    · intro numeral
      exact absurd empty numeral.nonempty
  · rw [if_neg empty, parseUintFrom_eq_iff 0 (by decide)]
    exact ⟨fun ⟨digits, value⟩ => ⟨empty, digits, value⟩,
      fun numeral => ⟨numeral.digits, numeral.value_eq⟩⟩

/-- The byte of a digit character. -/
theorem ofNat_digitChar {d : Nat} (small : d < 10) :
    UInt8.ofNat (Nat.digitChar d).toNat = UInt8.ofNat (48 + d) := by
  have all : ∀ d : Fin 10, UInt8.ofNat (Nat.digitChar d).toNat = UInt8.ofNat (48 + d) := by
    decide
  exact all ⟨d, small⟩

/-- The last digit comes off the end. -/
theorem decimal_eq (n : Nat) :
    decimal n =
      (if n < 10 then [] else decimal (n / 10)) ++ [UInt8.ofNat (48 + n % 10)] := by
  have unfolded : ∀ m : Nat, decimal m =
      (Nat.toDigits 10 m).map fun c => UInt8.ofNat c.toNat := by
    intro m
    rw [decimal, lit, Nat.toString_eq_repr, Nat.toList_repr]
  rw [unfolded, Nat.toDigits_eq_if (by decide)]
  by_cases small : n < 10
  · rw [if_pos small, if_pos small, Nat.mod_eq_of_lt small, List.map_singleton,
      ofNat_digitChar small, List.nil_append]
  · rw [if_neg small, if_neg small, List.map_append, List.map_singleton, ← unfolded,
      ofNat_digitChar (Nat.mod_lt n (by decide))]

/-- The byte of a digit is one. -/
theorem isDigit_ofNat {d : Nat} (small : d < 10) :
    IsDigit (UInt8.ofNat (48 + d)) ∧ (UInt8.ofNat (48 + d)).toNat - 48 = d := by
  have all : ∀ d : Fin 10,
      IsDigit (UInt8.ofNat (48 + d)) ∧ (UInt8.ofNat (48 + d)).toNat - 48 = d := by
    decide
  exact all ⟨d, small⟩

/-- One more digit. -/
theorem digitsValue_snoc (s : GoString) (c : UInt8) :
    digitsValue (s ++ [c]) = digitsValue s * 10 + (c.toNat - 48) := by
  simp [digitsValue, digitsValueFrom]

/-- The numeral of a number is one. -/
theorem isNumeral_decimal (n : Nat) : IsNumeral (decimal n) n := by
  induction n using Nat.strongRecOn with
  | ind n ih =>
    obtain ⟨digit, own⟩ := isDigit_ofNat (Nat.mod_lt n (by decide : 0 < 10))
    rw [decimal_eq]
    by_cases small : n < 10
    · rw [if_pos small]
      refine ⟨by simp, by simpa using digit, ?_⟩
      rw [digitsValue_snoc, own, Nat.mod_eq_of_lt small]
      exact Nat.zero_add n
    · rw [if_neg small]
      have higher := ih (n / 10) (by omega)
      refine ⟨by simp, ?_, ?_⟩
      · intro c inside
        rcases List.mem_append.mp inside with front | last
        · exact higher.digits c front
        · rw [List.mem_singleton.mp last]
          exact digit
      · rw [digitsValue_snoc, higher.value_eq, own]
        omega

/-- What is printed for a `uint64` is read back. -/
theorem parseUint_decimal (n : UInt64) : (decimal n.toNat).parseUint = (n, none) :=
  (parseUint_eq_iff _ n).mpr (isNumeral_decimal n.toNat)

/-- Zeros before a numeral leave its value. -/
theorem digitsValue_replicate (zeros : Nat) (s : GoString) :
    digitsValue (List.replicate zeros 48 ++ s) = digitsValue s := by
  induction zeros with
  | zero => rfl
  | succ zeros ih =>
    rw [List.replicate_succ, List.cons_append, ← ih]
    rfl

/-- A padded numeral is one. -/
theorem isNumeral_padded (width n : Nat) : IsNumeral (padded width n) n where
  nonempty := by simp [padded, (isNumeral_decimal n).nonempty]
  digits := by
    intro c inside
    rcases List.mem_append.mp inside with zero | digit
    · rw [List.eq_of_mem_replicate zero]
      decide
    · exact (isNumeral_decimal n).digits c digit
  value_eq := (digitsValue_replicate _ _).trans (isNumeral_decimal n).value_eq

/-- A number has no more digits than it takes. -/
theorem length_decimal_le {width n : Nat} (positive : 0 < width) (fits : n < 10 ^ width) :
    (decimal n).length ≤ width := by
  induction width generalizing n with
  | zero => exact absurd positive (Nat.lt_irrefl 0)
  | succ width ih =>
    rw [decimal_eq]
    by_cases small : n < 10
    · simp [small]
    · have wide : 0 < width := by
        rcases Nat.eq_zero_or_pos width with rfl | wide
        · exact absurd fits (by simpa using small)
        · exact wide
      have higher := ih wide (show n / 10 < 10 ^ width from Nat.div_lt_of_lt_mul (by
        rw [Nat.mul_comm, ← Nat.pow_succ]
        exact fits))
      rw [if_neg small, List.length_append, List.length_singleton]
      omega

/-- A padded numeral has the width it is padded to. -/
theorem length_padded {width n : Nat} (positive : 0 < width) (fits : n < 10 ^ width) :
    (padded width n).length = width := by
  have within := length_decimal_le positive fits
  rw [padded, List.length_append, List.length_replicate]
  omega

end ContainerAnomaly.Lib.GoString
