import Crossing.Text.Scan
import Crossing.Text.Utf16

/-!
# UTF-8

The guest's text is a sequence of bytes. `ofCodePoint` emits the bytes of a code point, in the old
six-byte scheme for code points above the range of Unicode. Two readings go the other way: `repair`
puts one U+FFFD for each longest start of a sequence that cannot be completed, and `toUnits` takes
every lead byte at its word, reads missing bytes as zero and gives UTF-16 units.
-/

namespace Crossing.Utf8

/-! ## Writing -/

/-- A byte of the given high bits and the six bits of `n` above `shift`. -/
def continuation (n shift : Nat) : UInt8 := (0x80 + (n >>> shift) % 64).toUInt8

/-- How many bytes a code point takes. -/
def length (n : Nat) : Nat :=
  if n < 0x80 then 1
  else if n < 0x800 then 2
  else if n < 0x10000 then 3
  else if n < 0x200000 then 4
  else if n < 0x4000000 then 5
  else 6

/-- The bytes of a code point below `2 ^ 31`. -/
def ofCodePoint (n : Nat) : List UInt8 :=
  match length n with
  | 1 => [n.toUInt8]
  | 2 => [(0xC0 + (n >>> 6)).toUInt8, continuation n 0]
  | 3 => [(0xE0 + (n >>> 12)).toUInt8, continuation n 6, continuation n 0]
  | 4 => [(0xF0 + (n >>> 18)).toUInt8, continuation n 12, continuation n 6, continuation n 0]
  | 5 =>
    [(0xF8 + (n >>> 24)).toUInt8, continuation n 18, continuation n 12, continuation n 6,
      continuation n 0]
  | _ =>
    [(0xFC + (n >>> 30)).toUInt8, continuation n 24, continuation n 18, continuation n 12,
      continuation n 6, continuation n 0]

/-- The bytes of any sequence of UTF-16 units. -/
def ofUnits (units : List UInt16) : List UInt8 := (Utf16.codePoints units).flatMap ofCodePoint

/-- How many bytes a sequence of UTF-16 units takes. -/
def lengthOfUnits (units : List UInt16) : Nat :=
  (Utf16.codePoints units).foldl (fun total n => total + length n) 0

/-! ## Reading byte by byte -/

/-- How many bytes follow the lead byte `x`. Stray continuation bytes count as leads of two. -/
def following (x : UInt8) : Nat :=
  if x.toNat < 0x80 then 0 else if x.toNat < 0xE0 then 1 else if x.toNat < 0xF0 then 2 else 3

/-- The low six bits of the byte at position `i`, or zero behind the end. -/
def payload (rest : List UInt8) (i : Nat) : Nat := (rest.getD i 0).toNat % 64

/-- The units of the sequence that `x` leads. Only four-byte sequences give two units. -/
def unitsStep (x : UInt8) (rest : List UInt8) : List UInt16 × Nat :=
  let init := x.toNat % 32
  let units :=
    match following x with
    | 0 => [x.toNat]
    | 1 => [(init <<< 6) + payload rest 0]
    | 2 => [(init <<< 12) + (payload rest 0 <<< 6) + payload rest 1]
    | _ =>
      let point :=
        ((init % 8) <<< 18) + (payload rest 0 <<< 12) + (payload rest 1 <<< 6) + payload rest 2
      [0xD7C0 + (point >>> 10), 0xDC00 + point % 1024]
  (units.map Nat.toUInt16, following x)

/-- The UTF-16 units of any sequence of bytes. -/
def toUnits (bytes : List UInt8) : List UInt16 := scan unitsStep bytes

/-! ## Reading well-formed sequences -/

/-- Whether the byte continues a sequence. -/
def isContinuation (b : UInt8) : Bool := 0x80 ≤ b.toNat ∧ b.toNat ≤ 0xBF

/-- The length that a lead byte of a well-formed sequence announces, zero for a byte that leads
none. -/
def announced (x : UInt8) : Nat :=
  if x.toNat < 0x80 then 1
  else if x.toNat < 0xC2 then 0
  else if x.toNat < 0xE0 then 2
  else if x.toNat < 0xF0 then 3
  else if x.toNat < 0xF5 then 4
  else 0

/-- Whether `b` may be the second byte after the lead `x`: overlong forms, surrogates and code
points above U+10FFFF are ruled out here. -/
def admitsSecond (x b : UInt8) : Bool :=
  isContinuation b &&
    (x.toNat != 0xE0 || decide (0xA0 ≤ b.toNat)) && (x.toNat != 0xED || decide (b.toNat ≤ 0x9F)) &&
    (x.toNat != 0xF0 || decide (0x90 ≤ b.toNat)) && (x.toNat != 0xF4 || decide (b.toNat ≤ 0x8F))

/-- How many of the bytes after the lead `x` belong to the longest start of a well-formed sequence.
-/
def matched (x : UInt8) (rest : List UInt8) : Nat :=
  match announced x, rest with
  | 0, _ | 1, _ | _, [] => 0
  | n + 2, b :: more =>
    if admitsSecond x b then 1 + ((more.take n).takeWhile isContinuation).length else 0

/-- The character at the head of a sequence, or U+FFFD for the longest start of one. -/
def repairStep (x : UInt8) (rest : List UInt8) : List Char × Nat :=
  let n := matched x rest
  if announced x = n + 1 then
    let point :=
      match n with
      | 0 => x.toNat
      | 1 => ((x.toNat % 32) <<< 6) + payload rest 0
      | 2 => ((x.toNat % 16) <<< 12) + (payload rest 0 <<< 6) + payload rest 1
      | _ =>
        ((x.toNat % 8) <<< 18) + (payload rest 0 <<< 12) + (payload rest 1 <<< 6) + payload rest 2
    ([Char.ofNat point], n)
  else (['\uFFFD'], n)

/-- The text of a sequence of bytes, with one U+FFFD in the place of each longest start of a
sequence that is not completed. -/
def repair (bytes : List UInt8) : String := String.ofList (scan repairStep bytes)

end Crossing.Utf8
