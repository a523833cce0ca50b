/-!
# Double-precision numbers by their bits

A `Double` is the 64-bit pattern of a binary floating-point number. Everything here is exact
arithmetic on the pattern: `significand` and `exponent` give the value
`±significand · 2 ^ exponent` of a finite number, `numericEq` compares as numbers do (a NaN differs
from itself, the two zeros agree), `sameValueZero` also identifies the NaNs, and `isInt32` is the
rule that decides whether a number crosses as a 32-bit integer.
-/

namespace Crossing

/-- A double-precision number, kept as its bit pattern. -/
structure Double where
  bits : UInt64
  deriving DecidableEq, Inhabited

/-- A single-precision number, kept as its bit pattern. -/
structure Single where
  bits : UInt32
  deriving DecidableEq, Inhabited

namespace Double

/-- The eleven exponent bits. -/
def exponentField (x : Double) : Nat := (x.bits.toNat >>> 52) % 2048

/-- The fifty-two fraction bits. -/
def fraction (x : Double) : Nat := x.bits.toNat % (1 <<< 52)

/-- Whether the sign bit is set. -/
def isNegative (x : Double) : Bool := 1 <<< 63 ≤ x.bits.toNat

def isNaN (x : Double) : Bool := x.exponentField = 2047 ∧ x.fraction ≠ 0

def isInfinite (x : Double) : Bool := x.exponentField = 2047 ∧ x.fraction = 0

def isFinite (x : Double) : Bool := x.exponentField ≠ 2047

/-- Whether the number is one of the two zeros. -/
def isZero (x : Double) : Bool := x.bits.toNat % (1 <<< 63) = 0

/-- The integer `m` of the value `±m · 2 ^ e` of a finite number. -/
def significand (x : Double) : Nat :=
  if x.exponentField = 0 then x.fraction else (1 <<< 52) + x.fraction

/-- The exponent `e` of the value `±m · 2 ^ e` of a finite number. -/
def exponent (x : Double) : Int := (Nat.max x.exponentField 1 : Int) - 1075

/-! ## Comparison -/

/-- Equality of numbers: a NaN differs from every number, and the two zeros are equal. -/
def numericEq (x y : Double) : Bool :=
  !x.isNaN && !y.isNaN && (x.bits == y.bits || (x.isZero && y.isZero))

/-- Equality of values: as numbers, except that the NaNs are equal. -/
def sameValueZero (x y : Double) : Bool := numericEq x y || (x.isNaN && y.isNaN)

/-! ## Integers -/

/-- The value with its fractional part cut off. An infinity is read as `±2 ^ 1024`, which no bounded
integer reaches. -/
def truncate (x : Double) : Int :=
  let magnitude : Nat :=
    match x.exponent with
    | .ofNat e => x.significand <<< e
    | .negSucc e => x.significand >>> (e + 1)
  if x.isNegative then -(magnitude : Int) else magnitude

/-- The nearest 32-bit integer toward zero, clamped to the range; zero for a NaN. -/
def toInt32 (x : Double) : Int32 :=
  if x.isNaN then 0
  else Int32.ofInt (max Int32.minValue.toInt (min Int32.maxValue.toInt x.truncate))

/-- The bit pattern of a natural number below `2 ^ 53`, which is exact. -/
def bitsOfNat (n : Nat) : Nat :=
  if n = 0 then 0
  else ((n.log2 + 1023) <<< 52) + ((n <<< (52 - n.log2)) - (1 <<< 52))

/-- The number of an integer of magnitude below `2 ^ 53`, which is exact. -/
def ofInt (n : Int) : Double :=
  if n < 0 then ⟨((1 <<< 63) + bitsOfNat n.natAbs).toUInt64⟩ else ⟨(bitsOfNat n.natAbs).toUInt64⟩

/-- The number of a 32-bit integer. -/
def ofInt32 (n : Int32) : Double := ofInt n.toInt

/-- Whether the number survives the way through a 32-bit integer and back. -/
def isInt32 (x : Double) : Bool := numericEq (ofInt32 x.toInt32) x

/-! ## Infinity, NaN and widening -/

def infinity : Double := ⟨0x7FF0000000000000⟩

/-- The pattern with the given sign, exponent field and fraction. -/
def pack (negative : Bool) (exponentField fraction : Nat) : Double :=
  ⟨((if negative then 1 <<< 63 else 0) + (exponentField <<< 52) + fraction).toUInt64⟩

end Double

/-- The double-precision number of the same value; a NaN keeps its payload and becomes quiet. -/
def Single.widen (x : Single) : Double :=
  let negative := decide (1 <<< 31 ≤ x.bits.toNat)
  let field := (x.bits.toNat >>> 23) % 256
  let fraction := x.bits.toNat % (1 <<< 23)
  if field = 255 then
    Double.pack negative 2047
      (if fraction = 0 then 0 else (1 <<< 51) + (fraction <<< 29) % (1 <<< 51))
  else if field = 0 then
    if fraction = 0 then Double.pack negative 0 0
    else
      Double.pack negative (fraction.log2 + 874)
        ((fraction <<< (52 - fraction.log2)) - (1 <<< 52))
  else Double.pack negative (field + 896) (fraction <<< 29)

end Crossing
