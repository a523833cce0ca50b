import Crossing.Proofs.Instance.Windows

/-!
# The arithmetic of windows

The offset and the length of a window in bytes, its end, and the addresses of its elements are
words, because the window was checked against its buffer when it was made (`Window.exact_of_lt`).
The address in the fault of an index past the end is different, since nothing bounds the index: the
product is clamped, but the sum of it and the offset may be no word, and then the host panics.
`Window.inRange_iff` tells where that happens.
-/

namespace Crossing

namespace Window

variable {b : Buffer} {w : Window} {k : ElementKind} {start stop index : UInt32} {id : Nat}

/-- The offset of a window in bytes, its length in bytes and its end are the exact ones. -/
structure Exact (w : Window) : Prop where
  byteOffset : w.byteOffset.toNat = w.start.toNat * w.kind.size.toNat
  byteLength : w.byteLength.toNat = w.length.toNat * w.kind.size.toNat
  stop : (w.byteOffset + w.byteLength).toNat = w.byteOffset.toNat + w.byteLength.toNat

/-- All that reading an element of a window computes is in range. An index past the end has its
product clamped, and everything else is exact. -/
structure InRange (w : Window) (index : UInt32) : Prop extends Exact w where
  element : index < w.length →
    (w.start + index).toNat = w.start.toNat + index.toNat ∧
    ((w.start + index) * w.kind.size).toNat = (w.start + index).toNat * w.kind.size.toNat
  pastEnd : w.length ≤ index →
    w.byteOffset.toNat + (Word.mulSat index w.kind.size).toNat < UInt32.size
  /-- In whatever is left of the buffer, there is an element, or a fault that does not point below
  the window. -/
  get : ∀ b, (∃ x, w.get b index = .ok x) ∨
    ∃ a n size, w.get b index = .error (.outOfBounds a n size) ∧ w.byteOffset ≤ a

/-- The end of a window that was checked lies below the address space. -/
theorem lt_size_of_ofRange (h : b.bytes.size < UInt32.size)
    (hw : ofRange b id k start stop = .ok w) :
    w.kind = k ∧ w.start = start ∧
      (w.start.toNat + w.length.toNat) * w.kind.size.toNat < UInt32.size := by
  obtain ⟨hle, hin, rfl⟩ := (ofRange_eq_ok_iff h).1 hw
  refine ⟨rfl, rfl, ?_⟩
  rw [toNat_start_add_length hle]
  exact Nat.lt_of_le_of_lt hin h

/-- The words of a window that ends below the address space. -/
theorem exact_of_lt (h : (w.start.toNat + w.length.toNat) * w.kind.size.toNat < UInt32.size) :
    w.Exact where
  byteOffset := toNat_byteOffset h
  byteLength := toNat_byteLength h
  stop := by
    rw [UInt32.toNat_add, toNat_byteOffset h, toNat_byteLength h, ← Nat.add_mul]
    exact Nat.mod_eq_of_lt h

/-- Neither do the addresses of its elements wrap around. -/
theorem element_of_lt (h : (w.start.toNat + w.length.toNat) * w.kind.size.toNat < UInt32.size)
    (hindex : index < w.length) :
    (w.start + index).toNat = w.start.toNat + index.toNat ∧
      ((w.start + index) * w.kind.size).toNat = (w.start + index).toNat * w.kind.size.toNat := by
  have hlt : index.toNat < w.length.toNat := UInt32.lt_iff_toNat_lt.1 hindex
  have hle : w.start.toNat + index.toNat ≤ w.start.toNat + w.length.toNat := by omega
  have hproduct : (w.start.toNat + index.toNat) * w.kind.size.toNat < UInt32.size :=
    Nat.lt_of_le_of_lt (Nat.mul_le_mul_right _ hle) h
  have hsum : (w.start + index).toNat = w.start.toNat + index.toNat := by
    rw [UInt32.toNat_add]
    exact Nat.mod_eq_of_lt
      (Nat.lt_of_le_of_lt (Nat.le_mul_of_pos_right _ w.kind.size_pos) hproduct)
  refine ⟨hsum, ?_⟩
  rw [UInt32.toNat_mul, hsum]
  exact Nat.mod_eq_of_lt hproduct

/-- An element of a window is read, or its own address is out of bounds. -/
theorem get_of_lt (h : (w.start.toNat + w.length.toNat) * w.kind.size.toNat < UInt32.size)
    (hindex : index < w.length) (b : Buffer) :
    (∃ x, w.get b index = .ok x) ∨
      ∃ a n size, w.get b index = .error (.outOfBounds a n size) ∧ w.byteOffset ≤ a := by
  have hread := b.read_cases ((w.start + index) * w.kind.size) w.kind.size.toNat
  unfold get
  rw [if_neg (UInt32.not_le.2 hindex)]
  rcases hread with ⟨bytes, hread⟩ | hread
  · exact .inl ⟨_, by rw [hread]; rfl⟩
  · refine .inr ⟨_, _, _, by rw [hread]; rfl, ?_⟩
    obtain ⟨hsum, hproduct⟩ := element_of_lt h hindex
    rw [UInt32.le_iff_toNat_le, toNat_byteOffset h, hproduct, hsum]
    exact Nat.mul_le_mul_right _ (Nat.le_add_right _ _)

/-- An index past the end has its fault in any buffer, and at or above the window's first byte where
the sum that tells the address is a word. -/
theorem get_of_le (hindex : w.length ≤ index)
    (h : w.byteOffset.toNat + (Word.mulSat index w.kind.size).toNat < UInt32.size) :
    ∃ a n size, (∀ b, w.get b index = .error (.outOfBounds a n size)) ∧ w.byteOffset ≤ a := by
  have hsum : (w.byteOffset + Word.mulSat index w.kind.size).toNat =
      w.byteOffset.toNat + (Word.mulSat index w.kind.size).toNat := by
    rw [UInt32.toNat_add]
    exact Nat.mod_eq_of_lt h
  refine ⟨w.byteOffset + Word.mulSat index w.kind.size, w.kind.size,
    w.byteOffset + w.byteLength, fun b => ?_, ?_⟩
  · unfold get
    rw [if_pos hindex, pastEnd, Word.add?_eq_some_iff.2 hsum.symm]
  · rw [UInt32.le_iff_toNat_le, hsum]
    exact Nat.le_add_right _ _

/-- An index past the end makes the host panic where the sum is no word. -/
theorem get_of_overflow (hindex : w.length ≤ index)
    (h : UInt32.size ≤ w.byteOffset.toNat + (Word.mulSat index w.kind.size).toNat) (b : Buffer) :
    w.get b index = .error .overflow := by
  unfold get
  rw [if_pos hindex, pastEnd, Word.add?_eq_none_iff.2 h]

/-- For a window on a buffer that words can address: offset, length and end in bytes are exact, and
so are the sum and the product for an element inside. The address of an index past the end is the
offset plus the product, which is clamped. Everything is in range exactly for the indices inside and
for those where that sum is a word. For all others reading panics, whatever has become of the
buffer. -/
theorem inRange_iff (h : b.bytes.size < UInt32.size) (hw : ofRange b id k start stop = .ok w)
    (index : UInt32) :
    w.Exact ∧
    (index < w.length →
      (w.start + index).toNat = w.start.toNat + index.toNat ∧
      ((w.start + index) * w.kind.size).toNat = (w.start + index).toNat * w.kind.size.toNat) ∧
    (Word.mulSat index w.kind.size).toNat =
      min (index.toNat * k.size.toNat) (UInt32.size - 1) ∧
    (w.InRange index ↔ index < w.length ∨
      start.toNat * k.size.toNat + min (index.toNat * k.size.toNat) (UInt32.size - 1) <
        UInt32.size) ∧
    (¬ w.InRange index → ∀ b, w.get b index = .error .overflow) := by
  obtain ⟨rfl, rfl, hlt⟩ := lt_size_of_ofRange h hw
  have hexact := exact_of_lt hlt
  have hclamped : (Word.mulSat index w.kind.size).toNat =
      min (index.toNat * w.kind.size.toNat) (UInt32.size - 1) := Word.toNat_mulSat _ _
  have hiff : w.InRange index ↔ index < w.length ∨
      w.start.toNat * w.kind.size.toNat +
        min (index.toNat * w.kind.size.toNat) (UInt32.size - 1) < UInt32.size := by
    rw [← hclamped, ← hexact.byteOffset]
    constructor
    · exact fun hrange => (UInt32.lt_or_le index w.length).imp_right hrange.pastEnd
    · intro hcases
      refine ⟨hexact, element_of_lt hlt, fun hpast => hcases.resolve_left (UInt32.not_lt.2 hpast),
        fun b => ?_⟩
      rcases UInt32.lt_or_le index w.length with hinside | hpast
      · exact get_of_lt hlt hinside b
      · obtain ⟨a, n, size, hget, hle⟩ :=
          get_of_le hpast (hcases.resolve_left (UInt32.not_lt.2 hpast))
        exact .inr ⟨a, n, size, hget b, hle⟩
  refine ⟨hexact, element_of_lt hlt, hclamped, hiff, fun hnot => ?_⟩
  rw [hiff, not_or, ← hclamped, ← hexact.byteOffset] at hnot
  exact get_of_overflow (UInt32.not_lt.1 hnot.1) (Nat.le_of_not_lt hnot.2)

/-- The window on four bytes from the sixteenth one on. -/
def ofBytes16 : Window := ⟨.u8, 0, 16, 4⟩

/-- The window is made on a buffer of 64 zeros. -/
theorem ofRange_zeros : ofRange (.zeros 64) 0 .u8 16 20 = .ok ofBytes16 := by
  have hsize : (Buffer.zeros 64).bytes.size = 64 := Buffer.size_zeroBytes 64
  exact (ofRange_eq_ok_iff (by rw [hsize]; decide)).2 ⟨by decide, by rw [hsize]; decide, rfl⟩

/-- The first index past the end of that window is in range. -/
theorem inRange_iff_next :
    (Buffer.zeros 64).bytes.size < UInt32.size ∧
      ofRange (.zeros 64) 0 .u8 16 20 = .ok ofBytes16 ∧ ofBytes16.InRange 4 := by
  have hsize : (Buffer.zeros 64).bytes.size = 64 := Buffer.size_zeroBytes 64
  have hlt : (Buffer.zeros 64).bytes.size < UInt32.size := by rw [hsize]; decide
  obtain ⟨-, -, -, hiff, -⟩ := inRange_iff hlt ofRange_zeros 4
  exact ⟨hlt, ofRange_zeros, hiff.2 (.inr (by decide))⟩

/-- For the last index the host panics instead of telling an address. -/
theorem not_inRange_last :
    (Buffer.zeros 64).bytes.size < UInt32.size ∧
      ofRange (.zeros 64) 0 .u8 16 20 = .ok ofBytes16 ∧ ¬ ofBytes16.InRange 0xFFFFFFFF ∧
      ofBytes16.get (.zeros 64) 0xFFFFFFFF = .error .overflow := by
  have hsize : (Buffer.zeros 64).bytes.size = 64 := Buffer.size_zeroBytes 64
  refine ⟨by rw [hsize]; decide, ofRange_zeros, fun hrange => ?_,
    get_of_overflow (by decide) (by decide) _⟩
  exact absurd (hrange.pastEnd (by decide)) (by decide)

end Window

end Crossing
