/-!
# Arithmetic on 32-bit words

Addresses, lengths and identifiers of the guest are 32-bit words. `add?`, `mul?` and `sub?` answer
`none` where the exact result is no word, `addSat`, `mulSat` and `subSat` clamp it instead. Each
`…?` has a lemma that says it is the exact operation of `Nat` where that fits; the first two have it
from `ofNat?`, the words among the natural numbers.
-/

namespace Crossing.Word

/-- The largest word. -/
def max : UInt32 := 0xFFFFFFFF

/-- The number as a word, where it is one. -/
def ofNat? (n : Nat) : Option UInt32 :=
  if h : n < UInt32.size then some (UInt32.ofNatLT n h) else none

/-- The sum, where it is a word. -/
def add? (a b : UInt32) : Option UInt32 := ofNat? (a.toNat + b.toNat)

/-- The product, where it is a word. -/
def mul? (a b : UInt32) : Option UInt32 := ofNat? (a.toNat * b.toNat)

/-- The difference, where it is a word. -/
def sub? (a b : UInt32) : Option UInt32 :=
  if b.toNat ≤ a.toNat then some (a - b) else none

/-- The sum, or the largest word where the sum is none. -/
def addSat (a b : UInt32) : UInt32 := (add? a b).getD max

/-- The product, or the largest word where the product is none. -/
def mulSat (a b : UInt32) : UInt32 := (mul? a b).getD max

/-- The difference, or zero where it would be negative. -/
def subSat (a b : UInt32) : UInt32 := (sub? a b).getD 0

/-- A number is a word exactly when it is the number of one. -/
theorem ofNat?_eq_some_iff {n : Nat} {c : UInt32} : ofNat? n = some c ↔ n = c.toNat := by
  unfold ofNat?
  have hc : c.toNat < UInt32.size := c.toNat_lt
  split
  · rename_i h
    rw [Option.some.injEq, ← UInt32.toNat_inj, UInt32.toNat_ofNatLT]
  · simp only [reduceCtorEq, false_iff]
    omega

/-- The sum is the exact one, where there is one. -/
theorem add?_eq_some_iff {a b c : UInt32} : add? a b = some c ↔ a.toNat + b.toNat = c.toNat :=
  ofNat?_eq_some_iff

/-- There is none exactly when the sum is too large. -/
theorem add?_eq_none_iff {a b : UInt32} : add? a b = none ↔ UInt32.size ≤ a.toNat + b.toNat := by
  unfold add? ofNat?
  split <;> simp only [reduceCtorEq, false_iff, true_iff] <;> omega

/-- The product is the exact one, where there is one. -/
theorem mul?_eq_some_iff {a b c : UInt32} : mul? a b = some c ↔ a.toNat * b.toNat = c.toNat :=
  ofNat?_eq_some_iff

/-- The product that is clamped is the least of the exact one and the largest word. -/
theorem toNat_mulSat (a b : UInt32) : (mulSat a b).toNat = min (a.toNat * b.toNat) max.toNat := by
  have hmax : max.toNat = UInt32.size - 1 := rfl
  unfold mulSat
  cases h : mul? a b with
  | some c =>
    rw [mul?_eq_some_iff] at h
    have hc : c.toNat < UInt32.size := c.toNat_lt
    rw [Option.getD_some]
    omega
  | none =>
    have hge : UInt32.size ≤ a.toNat * b.toNat := Nat.le_of_not_lt fun hlt => by
      rw [mul?_eq_some_iff.2 (UInt32.toNat_ofNat_of_lt' hlt).symm] at h
      cases h
    rw [Option.getD_none]
    omega

/-- The difference is the exact one, where there is one. -/
theorem sub?_eq_some_iff {a b c : UInt32} : sub? a b = some c ↔ a.toNat = b.toNat + c.toNat := by
  unfold sub?
  split
  · rename_i h
    simp only [Option.some.injEq, ← UInt32.toNat_inj]
    rw [UInt32.toNat_sub_of_le _ _ (UInt32.le_iff_toNat_le.2 h)]
    omega
  · simp only [reduceCtorEq, false_iff]
    omega

/-- One hexadecimal digit, in lower case. -/
def hexDigit (n : Nat) : Char :=
  if n < 10 then Char.ofNat (n + 48) else Char.ofNat (n + 87)

/-- The hexadecimal digits of a number, most significant first. -/
def hexDigits (n : Nat) : List Char :=
  go n []
where
  /-- Puts the digits of `n` in front of `acc`. -/
  go (n : Nat) (acc : List Char) : List Char :=
    if n < 16 then hexDigit n :: acc else go (n / 16) (hexDigit (n % 16) :: acc)

/-- An address as it is written in the journal, such as `0x1f`. -/
def hex (a : UInt32) : String := "0x" ++ String.ofList (hexDigits a.toNat)

end Crossing.Word
