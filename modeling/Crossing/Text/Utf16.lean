import Crossing.Text.Scan

/-!
# UTF-16

The host's text is a sequence of 16-bit units; a character above U+FFFF takes two, a lead and a
trail. `ofText` gives the units of a text. Two readings go the other way: `repair` is the one that
puts U+FFFD for each unpaired unit, and `codePoints` the one that pairs any unit of the surrogate
range with whatever follows it.
-/

namespace Crossing.Utf16

/-- Whether the unit is one of those that come in pairs. -/
def isSurrogate (u : UInt16) : Bool := 0xD800 ≤ u.toNat ∧ u.toNat ≤ 0xDFFF

/-- Whether the unit may open a pair. -/
def isLead (u : UInt16) : Bool := 0xD800 ≤ u.toNat ∧ u.toNat ≤ 0xDBFF

/-- Whether the unit may close a pair. -/
def isTrail (u : UInt16) : Bool := 0xDC00 ≤ u.toNat ∧ u.toNat ≤ 0xDFFF

/-- The code point of two units, of which the low ten bits count. -/
def join (lead trail : UInt16) : Nat :=
  0x10000 + lead.toNat % 0x400 * 0x400 + trail.toNat % 0x400

/-- The units of one character. -/
def ofChar (c : Char) : List UInt16 :=
  if c.toNat < 0x10000 then [c.toNat.toUInt16]
  else
    [(0xD800 + (c.toNat - 0x10000) / 0x400).toUInt16,
      (0xDC00 + (c.toNat - 0x10000) % 0x400).toUInt16]

/-- The units of a text. -/
def ofText (text : String) : List UInt16 := text.toList.flatMap ofChar

/-! ## Reading -/

/-- The code point at the head of a sequence: a unit of the surrogate range is joined with the unit
after it, or with zero at the end. -/
def pairStep (u : UInt16) (rest : List UInt16) : List Nat × Nat :=
  if isSurrogate u then ([join u (rest.headD 0)], 1) else ([u.toNat], 0)

/-- The code points of any sequence of units. -/
def codePoints (units : List UInt16) : List Nat := scan pairStep units

/-- The character at the head of a sequence, or U+FFFD for an unpaired unit. -/
def repairStep (u : UInt16) (rest : List UInt16) : List Char × Nat :=
  if isSurrogate u then
    match rest with
    | t :: _ =>
      if isLead u && isTrail t then ([Char.ofNat (join u t)], 1) else (['\uFFFD'], 0)
    | [] => (['\uFFFD'], 0)
  else ([Char.ofNat u.toNat], 0)

/-- The text of a sequence of units, with U+FFFD in the place of each unpaired one. -/
def repair (units : List UInt16) : String := String.ofList (scan repairStep units)

end Crossing.Utf16
