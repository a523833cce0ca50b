import Crossing.Number.Double

/-!
# Shortest decimals and numbers as text

The decimal with the fewest digits that reads back as a given finite number, and among those the one
nearest to it; of two equally near the larger magnitude is taken. All arithmetic is exact: the reals
that round to the number form the interval `low … high`, and a grid of decimals of `n` digits has a
point in it exactly when the point just below or just above the number is in it. `Shortest.find`
tries the grids of one digit, two digits and so on; seventeen digits always suffice.

A number is written in positional notation whatever its size, with these digits, no mark where it is
whole, and a sign also for the negative zero.
-/

namespace Crossing

/-- The magnitude `0.d₁d₂… · 10 ^ point` for the digits `d₁d₂…` of `digits`. -/
structure Decimal where
  digits : List Nat
  point : Int
  deriving DecidableEq

namespace Shortest

-- Powers are those of core, whatever other modules are in sight.
attribute [local instance] instPowNat

/-- A positive number as a fraction with the half-gaps to its neighbours, all four over one
denominator `den`. `closed` tells whether the ends of the interval round to the number. -/
structure Target where
  value : Nat
  below : Nat
  above : Nat
  den : Nat
  closed : Bool

/-- The number and the reals that round to it: half-way to each neighbour, both ends included when
the significand is even. The neighbour below a power of two is nearer by half. -/
def Target.ofDouble (x : Double) : Target :=
  let m := x.significand
  let nearBelow := m = 1 <<< 52 ∧ 1 < x.exponentField
  let scaleUp := x.exponent.toNat
  let scaleDown := (-x.exponent).toNat
  { value := (4 * m) <<< scaleUp
    below := (if nearBelow then 1 else 2) <<< scaleUp
    above := 2 <<< scaleUp
    den := 4 <<< scaleDown
    closed := m % 2 = 0 }

/-- Whether `a` is below `b`, or equal to it where the interval is closed. -/
def Target.reaches (t : Target) (a b : Nat) : Bool :=
  if t.closed then a ≤ b else a < b

/-- Whether the decimal `n · num / gridDen` reads back as the target. -/
def Target.contains (t : Target) (n num gridDen : Nat) : Bool :=
  t.reaches ((t.value - t.below) * gridDen) (n * num * t.den) &&
    t.reaches (n * num * t.den) ((t.value + t.above) * gridDen)

/-- The place of the leading digit: the `e` with `10 ^ e ≤ value < 10 ^ (e + 1)`, found from a guess
that is at most one too small. -/
def Target.leading (t : Target) : Int :=
  let guess : Int := (((t.value.log2 : Int) - t.den.log2 - 1) * 1233) / 4096
  if Nat.pow 10 (guess + 1).toNat * t.den ≤ t.value * Nat.pow 10 (-(guess + 1)).toNat then guess + 1
  else guess

/-- The digits of a natural number, most significant first. -/
def digitsOf (n : Nat) : List Nat :=
  go n []
where
  /-- Puts the digits of `n` in front of `acc`. -/
  go (n : Nat) (acc : List Nat) : List Nat :=
    if n < 10 then n :: acc else go (n / 10) (n % 10 :: acc)

/-- Drops the zeros at the end. -/
def dropZeros (ds : List Nat) : List Nat :=
  (ds.reverse.dropWhile (· == 0)).reverse

/-- The multiple of `10 ^ place` that reads back as the target and is nearest to it, if the grid has
one. -/
def Target.onGrid (t : Target) (place : Int) : Option Nat :=
  let num := Nat.pow 10 place.toNat
  let gridDen := Nat.pow 10 (-place).toNat
  let down := t.value * gridDen / (t.den * num)
  let remainder := t.value * gridDen % (t.den * num)
  match t.contains down num gridDen && 0 < down, t.contains (down + 1) num gridDen with
  | true, true => some (if 2 * remainder < t.den * num then down else down + 1)
  | true, false => some down
  | false, true => some (down + 1)
  | false, false => none

/-- The first grid that has a point, beginning with the one whose points have their last digit at
`place`; at most `fuel` finer grids are tried. -/
def Target.search (t : Target) (place : Int) : Nat → Nat × Int
  | 0 => (t.value * Nat.pow 10 (-place).toNat / (t.den * Nat.pow 10 place.toNat), place)
  | fuel + 1 =>
    match t.onGrid place with
    | some n => (n, place)
    | none => t.search (place - 1) fuel

/-- The shortest decimal of a finite number other than zero, by magnitude. -/
def find (x : Double) : Decimal :=
  let t := Target.ofDouble x
  let (n, place) := t.search t.leading 17
  let ds := digitsOf n
  ⟨dropZeros ds, place + ds.length⟩

end Shortest

/-! ## Numbers as text -/

/-- The digit characters of a list of digits. -/
def Decimal.chars (ds : List Nat) : List Char := ds.map fun d => Char.ofNat (48 + d)

/-- Positional notation: the point stands after `point` digits, and zeros fill the places between.
-/
def Decimal.positional (d : Decimal) : String :=
  let cs := Decimal.chars d.digits
  let whole := d.point.toNat
  if d.point ≤ 0 then
    "0." ++ String.ofList (List.replicate (-d.point).toNat '0' ++ cs)
  else if cs.length ≤ whole then
    String.ofList (cs ++ List.replicate (whole - cs.length) '0')
  else
    String.ofList (cs.take whole) ++ "." ++ String.ofList (cs.drop whole)

/-- A number as text. -/
def Double.text (x : Double) : String :=
  if x.isNaN then "NaN"
  else
    let magnitude :=
      if x.isInfinite then "inf"
      else if x.isZero then "0"
      else (Shortest.find x).positional
    if x.isNegative then "-" ++ magnitude else magnitude

end Crossing
