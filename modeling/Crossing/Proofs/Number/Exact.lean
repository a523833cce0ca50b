import Crossing.Number.Double
import Mathlib.Algebra.Order.Field.Power
import Mathlib.Algebra.Order.Floor.Semifield
import Mathlib.Data.Rat.Floor
import Mathlib.Tactic.Positivity
import Mathlib.Tactic.Ring

/-!
# The exact value of a double

`Double.value` is the rational number that a finite double stands for. A double other than zero is
known by its value (`numericEq_iff_value_eq`), so the comparison of numbers is that of their values.
On this rests the rule for 32-bit integers: a number survives the way through one and back exactly
when its value is an integer in their range (`isInt32_iff`).

Values are compared by `Double.units`, the magnitude in units of the smallest positive number, which
is a natural number: it grows with the exponent field whatever the fractions are.
-/

namespace Crossing.Double

/-- The exact value of a finite number. -/
def value (x : Double) : ℚ :=
  (if x.isNegative then -1 else 1) * (x.significand * 2 ^ x.exponent)

/-- Whether the number is a 32-bit integer: it is finite, and its value is one. -/
def FitsInt32 (x : Double) : Prop :=
  x.isFinite = true ∧ ∃ n : ℤ, -2 ^ 31 ≤ n ∧ n ≤ 2 ^ 31 - 1 ∧ x.value = n

variable {x y : Double}

/-! ## Fields -/

/-- The fraction has 52 bits. -/
theorem fraction_lt (x : Double) : x.fraction < 4503599627370496 := Nat.mod_lt _ (by decide)

/-- The exponent field is the eleven bits above it. -/
theorem exponentField_eq (x : Double) :
    x.exponentField = x.bits.toNat / 4503599627370496 % 2048 := by
  rw [exponentField, Nat.shiftRight_eq_div_pow]

/-- The sign is the highest bit. -/
theorem isNegative_iff : x.isNegative = true ↔ 9223372036854775808 ≤ x.bits.toNat := by
  rw [isNegative, decide_eq_true_iff]
  rfl

/-- The bits are those of the three fields. -/
theorem toNat_bits (x : Double) :
    x.bits.toNat = (if x.isNegative then 9223372036854775808 else 0) +
      x.exponentField * 4503599627370496 + x.fraction := by
  have hlt := x.bits.toNat_lt
  have hfraction : x.fraction = x.bits.toNat % 4503599627370496 := rfl
  rw [exponentField_eq, hfraction]
  split
  · next h =>
    rw [isNegative_iff] at h
    omega
  · next h =>
    rw [isNegative_iff] at h
    omega

/-- A number is known by its sign and its two fields. -/
theorem eq_of_fields (hsign : x.isNegative = y.isNegative)
    (hfield : x.exponentField = y.exponentField) (hfraction : x.fraction = y.fraction) : x = y := by
  obtain ⟨a⟩ := x
  obtain ⟨b⟩ := y
  congr 1
  rw [← UInt64.toNat_inj]
  have ha := toNat_bits ⟨a⟩
  have hb := toNat_bits ⟨b⟩
  rw [hsign, hfield, hfraction, ← hb] at ha
  exact ha

/-! ## Magnitudes -/

/-- The magnitude of a finite number in units of `2 ^ -1074`, the smallest positive number. -/
def units (x : Double) : ℕ := x.significand * 2 ^ (max x.exponentField 1 - 1)

/-- The value is the sign and the magnitude in the smallest units. -/
theorem value_eq_units (x : Double) :
    x.value = (if x.isNegative then -1 else 1) * (x.units * 2 ^ (-1074 : ℤ)) := by
  have hexponent : x.exponent = (max x.exponentField 1 - 1 : ℕ) + (-1074 : ℤ) := by
    show (max x.exponentField 1 : ℕ) - (1075 : ℤ) = _
    omega
  rw [value, hexponent, zpow_add₀ two_ne_zero, zpow_natCast, units]
  generalize (2 : ℚ) ^ (-1074 : ℤ) = unit
  push_cast
  ring

/-- A larger exponent field makes a larger number, whatever the fractions are. -/
theorem units_lt_units (h : x.exponentField < y.exponentField) : x.units < y.units := by
  have hx := x.fraction_lt
  have hy : 4503599627370496 ≤ y.significand := by
    rw [significand, if_neg (Nat.ne_zero_of_lt h)]
    exact Nat.le_add_right _ _
  have hpow : 2 ^ x.exponentField ≤ 2 ^ (y.exponentField - 1) :=
    Nat.pow_le_pow_right two_pos (Nat.le_sub_one_of_lt h)
  have hbound : x.units < 4503599627370496 * 2 ^ x.exponentField := by
    unfold units significand
    split
    · next hzero =>
      rw [hzero]
      simpa using hx
    · next hne =>
      obtain ⟨n, hn⟩ := Nat.exists_eq_succ_of_ne_zero hne
      rw [hn, Nat.max_eq_left (Nat.succ_pos n), Nat.succ_sub_one, Nat.pow_succ]
      have : (1 <<< 52) + x.fraction < 4503599627370496 * 2 := by
        show 4503599627370496 + x.fraction < _
        omega
      calc (1 <<< 52 + x.fraction) * 2 ^ n < 4503599627370496 * 2 * 2 ^ n :=
            Nat.mul_lt_mul_of_pos_right this (Nat.two_pow_pos n)
        _ = 4503599627370496 * (2 ^ n * 2) := by ring
  calc x.units < 4503599627370496 * 2 ^ x.exponentField := hbound
    _ ≤ y.significand * 2 ^ (y.exponentField - 1) := Nat.mul_le_mul hy hpow
    _ = y.units := by rw [units, Nat.max_eq_left (Nat.one_le_of_lt h)]

/-- The magnitude tells the fields. -/
theorem fields_of_units (h : x.units = y.units) :
    x.exponentField = y.exponentField ∧ x.fraction = y.fraction := by
  have hfield : x.exponentField = y.exponentField := by
    rcases Nat.lt_trichotomy x.exponentField y.exponentField with hlt | heq | hlt
    · exact absurd h (units_lt_units hlt).ne
    · exact heq
    · exact absurd h (units_lt_units hlt).ne'
  refine ⟨hfield, ?_⟩
  rw [units, units, hfield, Nat.mul_right_cancel_iff (Nat.two_pow_pos _), significand, significand,
    hfield] at h
  split at h
  · exact h
  · exact Nat.add_left_cancel h

/-- The magnitude is zero for the two zeros only. -/
theorem units_eq_zero_iff : x.units = 0 ↔ x.isZero = true := by
  have hbits := x.toNat_bits
  have hfraction := x.fraction_lt
  have hfield : x.exponentField < 2048 := Nat.mod_lt _ (by decide)
  have hzero : x.isZero = true ↔ x.exponentField = 0 ∧ x.fraction = 0 := by
    rw [isZero, decide_eq_true_iff]
    show x.bits.toNat % 9223372036854775808 = 0 ↔ _
    split at hbits <;> omega
  rw [hzero, units, Nat.mul_eq_zero, or_iff_left (Nat.two_pow_pos _).ne', significand]
  split
  · next h => simp [h]
  · next h => simp [h]

/-! ## Signs -/

/-- The absolute value is the magnitude in the smallest units. -/
theorem abs_value (x : Double) : |x.value| = x.units * 2 ^ (-1074 : ℤ) := by
  have hunit : (0 : ℚ) ≤ x.units * 2 ^ (-1074 : ℤ) := by positivity
  rw [value_eq_units, abs_mul, abs_of_nonneg hunit]
  split
  · rw [abs_neg, abs_one, one_mul]
  · rw [abs_one, one_mul]

/-- The value is zero for the two zeros only. -/
theorem value_eq_zero_iff : x.value = 0 ↔ x.isZero = true := by
  rw [← abs_eq_zero, abs_value, ← units_eq_zero_iff]
  simp

/-- Of the numbers other than zero, the negative ones have the sign bit set. -/
theorem value_neg_iff (h : x.value ≠ 0) : x.value < 0 ↔ x.isNegative = true := by
  have habs := abs_value x
  have hpos : 0 < |x.value| := abs_pos.2 h
  rw [habs] at hpos
  rw [value_eq_units]
  split
  · next hs => simpa [hs] using hpos
  · next hs => simp [hs]

/-- A finite number is a number. -/
theorem isNaN_of_isFinite (h : x.isFinite = true) : x.isNaN = false := by
  simp_all [isFinite, isNaN]

/-- A zero is finite. -/
theorem isFinite_of_isZero (h : x.isZero = true) : x.isFinite = true := by
  rw [← units_eq_zero_iff] at h
  rw [isFinite, decide_eq_true_iff]
  intro hfield
  have hlt := units_lt_units (x := ⟨0⟩) (y := x) (by rw [hfield]; decide)
  omega

/-- Numbers are equal when they have the same bits or are both zeros. -/
theorem numericEq_iff :
    numericEq x y = true ↔
      x.isNaN = false ∧ y.isNaN = false ∧ (x = y ∨ x.isZero = true ∧ y.isZero = true) := by
  obtain ⟨a⟩ := x
  obtain ⟨b⟩ := y
  simp [numericEq, and_assoc]

/-- Numbers are equal exactly when their values are. -/
theorem numericEq_iff_value_eq (hx : x.isFinite = true) (hy : y.isFinite = true) :
    numericEq x y = true ↔ x.value = y.value := by
  rw [numericEq_iff, ← value_eq_zero_iff, ← value_eq_zero_iff]
  constructor
  · rintro ⟨-, -, rfl | ⟨hx, hy⟩⟩
    · rfl
    · rw [hx, hy]
  · intro hvalue
    refine ⟨isNaN_of_isFinite hx, isNaN_of_isFinite hy, ?_⟩
    by_cases hzero : x.value = 0
    · exact .inr ⟨hzero, hvalue ▸ hzero⟩
    left
    have hsign : x.isNegative = y.isNegative := by
      rw [Bool.eq_iff_iff, ← value_neg_iff hzero, ← value_neg_iff (hvalue ▸ hzero), hvalue]
    have hunits : x.units = y.units := by
      have habs := congrArg abs hvalue
      rw [abs_value, abs_value] at habs
      exact_mod_cast mul_right_cancel₀ (by positivity) habs
    obtain ⟨hfield, hfraction⟩ := fields_of_units hunits
    exact eq_of_fields hsign hfield hfraction

/-- What equals a finite number is finite. -/
theorem isFinite_of_numericEq (h : numericEq x y = true) (hx : x.isFinite = true) :
    y.isFinite = true := by
  obtain ⟨-, -, rfl | ⟨-, hy⟩⟩ := numericEq_iff.1 h
  · exact hx
  · exact isFinite_of_isZero hy

/-! ## Integers -/

/-- The whole part of the magnitude, with the sign. -/
theorem truncate_eq_floor (x : Double) :
    x.truncate = if x.isNegative then -(⌊|x.value|⌋₊ : ℤ) else ⌊|x.value|⌋₊ := by
  have habs : |x.value| = x.significand * 2 ^ x.exponent := by
    have hpos : (0 : ℚ) ≤ x.significand * 2 ^ x.exponent := by positivity
    rw [value, abs_mul, abs_of_nonneg hpos]
    split <;> simp
  rw [habs, truncate]
  cases x.exponent with
  | ofNat e =>
    have hfloor : ⌊(x.significand : ℚ) * 2 ^ (Int.ofNat e)⌋₊ = x.significand <<< e := by
      rw [Int.ofNat_eq_natCast, zpow_natCast, Nat.shiftLeft_eq]
      exact_mod_cast Nat.floor_natCast (x.significand * 2 ^ e)
    rw [hfloor]
  | negSucc e =>
    have hfloor : ⌊(x.significand : ℚ) * 2 ^ (Int.negSucc e)⌋₊ = x.significand >>> (e + 1) := by
      rw [zpow_negSucc, ← div_eq_mul_inv, Nat.shiftRight_eq_div_pow,
        ← Nat.floor_div_eq_div (K := ℚ)]
      push_cast
      rfl
    rw [hfloor]

/-- Cutting off the fractional part leaves an integer as it is. -/
theorem truncate_of_value {n : ℤ} (h : x.value = n) : x.truncate = n := by
  have hfloor : ⌊|x.value|⌋₊ = n.natAbs := by
    rw [h, ← Int.cast_abs, Int.abs_eq_natAbs, Int.cast_natCast, Nat.floor_natCast]
  rw [truncate_eq_floor, hfloor]
  by_cases hzero : n = 0
  · simp [hzero]
  · have hsign := value_neg_iff (x := x) (by rw [h]; exact_mod_cast hzero)
    rw [h] at hsign
    have hn : n < 0 ↔ x.isNegative = true := by exact_mod_cast hsign
    split
    · next hs =>
      have := hn.2 hs
      omega
    · next hs =>
      have := mt hn.1 hs
      omega

/-- The fields of a number are those that it is made of. -/
theorem fields_pack (negative : Bool) {field fraction : ℕ} (hfield : field < 2048)
    (hfraction : fraction < 4503599627370496) :
    (pack negative field fraction).isNegative = negative ∧
      (pack negative field fraction).exponentField = field ∧
        (pack negative field fraction).fraction = fraction := by
  have hbits : (pack negative field fraction).bits.toNat =
      (if negative then 9223372036854775808 else 0) + field * 4503599627370496 + fraction := by
    have hsum : (pack negative field fraction).bits = UInt64.ofNat
        ((if negative then 9223372036854775808 else 0) + field <<< 52 + fraction) := rfl
    rw [hsum, Nat.shiftLeft_eq, UInt64.toNat_ofNat_of_lt']
    show _ < 18446744073709551616
    split <;> omega
  refine ⟨?_, ?_, ?_⟩
  · rw [Bool.eq_iff_iff, isNegative_iff, hbits]
    cases negative <;> simp <;> omega
  · rw [exponentField_eq, hbits]
    split <;> omega
  · show (pack negative field fraction).bits.toNat % 4503599627370496 = fraction
    rw [hbits]
    split <;> omega

/-- An integer other than zero is made of its sign, the place of its leading bit and the bits behind
that one. -/
theorem ofInt_eq_pack {n : ℤ} (h : n ≠ 0) :
    ofInt n = pack (n < 0) (n.natAbs.log2 + 1023)
      (n.natAbs <<< (52 - n.natAbs.log2) - 1 <<< 52) := by
  have habs : n.natAbs ≠ 0 := Int.natAbs_ne_zero.2 h
  unfold ofInt pack bitsOfNat
  rw [if_neg habs]
  split
  · next hn => simp [hn, Nat.add_assoc]
  · next hn => simp [hn]

/-- The number of an integer of magnitude below `2 ^ 53` is finite and has that value. -/
theorem value_ofInt {n : ℤ} (h : n.natAbs < 9007199254740992) :
    (ofInt n).isFinite = true ∧ (ofInt n).value = n := by
  by_cases hzero : n = 0
  · subst hzero
    exact ⟨rfl, by rw [Int.cast_zero, value_eq_zero_iff]; rfl⟩
  have habs : n.natAbs ≠ 0 := Int.natAbs_ne_zero.2 hzero
  have hlog : n.natAbs.log2 < 53 := (Nat.log2_lt habs).2 h
  -- The leading bit is shifted into place fifty-two.
  obtain ⟨hle, hlt⟩ : 4503599627370496 ≤ n.natAbs * 2 ^ (52 - n.natAbs.log2) ∧
      n.natAbs * 2 ^ (52 - n.natAbs.log2) < 9007199254740992 := by
    have hpow : 2 ^ n.natAbs.log2 * 2 ^ (52 - n.natAbs.log2) = 4503599627370496 := by
      rw [← Nat.pow_add, Nat.add_sub_cancel' (Nat.le_of_lt_succ hlog)]
    have hpow' : 2 ^ (n.natAbs.log2 + 1) * 2 ^ (52 - n.natAbs.log2) = 9007199254740992 := by
      rw [Nat.pow_succ, Nat.mul_right_comm, hpow]
    constructor
    · rw [← hpow]
      exact Nat.mul_le_mul_right _ (Nat.log2_self_le habs)
    · rw [← hpow']
      exact Nat.mul_lt_mul_of_pos_right Nat.lt_log2_self (Nat.two_pow_pos _)
  have hone : 1 <<< 52 = 4503599627370496 := rfl
  have hfield_lt : n.natAbs.log2 + 1023 < 2048 := by omega
  have hfraction_lt : n.natAbs <<< (52 - n.natAbs.log2) - 1 <<< 52 < 4503599627370496 := by
    rw [hone, Nat.shiftLeft_eq]
    omega
  obtain ⟨hsign, hfield, hfraction⟩ := fields_pack (decide (n < 0)) hfield_lt hfraction_lt
  rw [← ofInt_eq_pack hzero] at hsign hfield hfraction
  constructor
  · rw [isFinite, hfield, decide_eq_true_iff]
    omega
  have hsignificand : (ofInt n).significand = n.natAbs * 2 ^ (52 - n.natAbs.log2) := by
    rw [significand, if_neg (by omega), hfraction, hone, Nat.shiftLeft_eq]
    omega
  have hexponent : (ofInt n).exponent = -(52 - n.natAbs.log2 : ℕ) := by
    show (max (ofInt n).exponentField 1 : ℕ) - (1075 : ℤ) = _
    omega
  have hmagnitude : ((ofInt n).significand : ℚ) * 2 ^ (ofInt n).exponent = n.natAbs := by
    rw [hsignificand, hexponent, zpow_neg, zpow_natCast]
    push_cast
    exact mul_inv_cancel_right₀ (by positivity) _
  rw [value, hmagnitude, hsign]
  rcases lt_or_ge n 0 with hn | hn
  · rw [if_pos (by simpa using hn), neg_one_mul, Nat.cast_natAbs, abs_of_neg hn]
    push_cast
    exact neg_neg _
  · rw [if_neg (by simpa using hn), one_mul, Nat.cast_natAbs, abs_of_nonneg hn]

/-- The magnitude of a 32-bit integer has at most 53 bits. -/
theorem natAbs_toInt_lt (n : Int32) : n.toInt.natAbs < 9007199254740992 := by
  have := n.le_toInt
  have := n.toInt_lt
  omega

/-- An integer that is in range is not clamped. -/
theorem toInt_toInt32 {n : ℤ} (hx : x.isFinite = true) (hn : x.value = n) (hlo : -2 ^ 31 ≤ n)
    (hhi : n ≤ 2 ^ 31 - 1) : x.toInt32.toInt = n := by
  have hclamped : max Int32.minValue.toInt (min Int32.maxValue.toInt n) = n := by
    rw [Int32.toInt_minValue, Int32.toInt_maxValue]
    omega
  rw [toInt32, isNaN_of_isFinite hx, if_neg Bool.false_ne_true, truncate_of_value hn, hclamped,
    Int32.toInt_ofInt_of_le hlo (by omega)]

/-- A number survives the way through a 32-bit integer and back when it is one. -/
theorem isInt32_iff (x : Double) : x.isInt32 = true ↔ x.FitsInt32 := by
  obtain ⟨hfinite, hvalue⟩ := value_ofInt (natAbs_toInt_lt x.toInt32)
  rw [← ofInt32] at hfinite hvalue
  constructor
  · intro h
    have hx := isFinite_of_numericEq h hfinite
    have hlo := x.toInt32.le_toInt
    have hhi := x.toInt32.toInt_lt
    exact ⟨hx, x.toInt32.toInt, hlo, by omega,
      ((numericEq_iff_value_eq hfinite hx).1 h).symm.trans hvalue⟩
  · rintro ⟨hx, n, hlo, hhi, hn⟩
    refine (numericEq_iff_value_eq hfinite hx).2 ?_
    rw [hvalue, hn, toInt_toInt32 hx hn hlo hhi]

/-! ## Zeros -/

def zero : Double := ⟨0⟩

def negativeZero : Double := ⟨0x8000000000000000⟩

/-- There are two zeros. -/
theorem eq_zero_or_of_isZero (h : x.isZero = true) : x = zero ∨ x = negativeZero := by
  obtain ⟨b⟩ := x
  have hlt := b.toNat_lt
  have hmod : b.toNat % 9223372036854775808 = 0 := of_decide_eq_true h
  have hcases : b.toNat = (0 : UInt64).toNat ∨ b.toNat = (0x8000000000000000 : UInt64).toNat := by
    show b.toNat = 0 ∨ b.toNat = 9223372036854775808
    omega
  rw [UInt64.toNat_inj, UInt64.toNat_inj] at hcases
  exact hcases.imp (congrArg mk) (congrArg mk)

/-- Both zeros are 32-bit integers. -/
theorem FitsInt32.of_isZero (h : x.isZero = true) : x.FitsInt32 :=
  ⟨isFinite_of_isZero h, 0, by decide, by decide, by rw [value_eq_zero_iff.2 h, Int.cast_zero]⟩

/-- A 32-bit integer comes back as it was, unless it is the negative zero. -/
theorem ofInt32_toInt32 (h : x.isInt32 = true) (hx : x ≠ negativeZero) :
    ofInt32 x.toInt32 = x := by
  obtain ⟨-, -, heq | ⟨-, hzero⟩⟩ := numericEq_iff.1 h
  · exact heq
  · obtain rfl := (eq_zero_or_of_isZero hzero).resolve_right hx
    rfl

end Crossing.Double
