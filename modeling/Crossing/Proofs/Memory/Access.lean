import Crossing.Memory.Store
import Crossing.Slot

/-!
# What a read depends on

A read of `n` bytes sees those bytes and nothing else. `Buffer.byteAt` gives a buffer's bytes one by
one, with zeros behind the end, so that growth does not change it at all (`byteAt_extended`) and a
write changes it where it writes (`byteAt_blit`). `read_congr` and `load_congr` carry a read over to
any buffer with the same bytes in the place; `read_blit` is the read of what was just written.
`Shows` says which element stands at a position, `checkTable_eq_ok_iff` and `ofRange_eq_ok_iff`
which tables and windows are accepted.
-/

namespace Crossing

/-- Every element takes a byte at least. -/
theorem ElementKind.size_pos (k : ElementKind) : 0 < k.size.toNat := by cases k <;> decide

namespace Buffer

/-- The byte at an address, zero behind the end. -/
def byteAt (b : Buffer) (a : Nat) : UInt8 := b.bytes.data.getD a 0

variable {b b' : Buffer} {address : UInt32} {data bytes : ByteArray} {n a : Nat}

/-- The byte at an address inside of the buffer is the one there. -/
theorem byteAt_of_lt (h : a < b.bytes.size) : b.byteAt a = b.bytes[a] := by
  unfold byteAt
  rw [Array.getD_eq_getD_getElem?, Array.getElem?_eq_getElem h]
  rfl

/-- Behind the end it is zero. -/
theorem byteAt_of_le (h : b.bytes.size ≤ a) : b.byteAt a = 0 := by
  unfold byteAt
  rw [Array.getD_eq_getD_getElem?, Array.getElem?_eq_none h]
  rfl

/-- In a zeroed buffer it is zero everywhere. -/
theorem byteAt_zeros (n a : Nat) : (zeros n).byteAt a = 0 := by
  by_cases h : a < (zeros n).bytes.size
  · rw [byteAt_of_lt h]
    simp [zeros, data_zeroBytes, ByteArray.getElem_eq_getElem_data]
  · exact byteAt_of_le (Nat.le_of_not_lt h)

/-- Growth changes no byte. -/
theorem byteAt_extended (b : Buffer) (n : Nat) : (b.extended n).byteAt a = b.byteAt a := by
  have hsize : (b.extended n).bytes.size = b.bytes.size + (n - b.bytes.size) := by
    simp [extended, ByteArray.size_append]
  by_cases h : a < b.bytes.size
  · rw [byteAt_of_lt (by omega), byteAt_of_lt h]
    exact ByteArray.getElem_append_left h
  · rw [byteAt_of_le (Nat.le_of_not_lt h)]
    by_cases h' : a < (b.extended n).bytes.size
    · rw [byteAt_of_lt h']
      simp only [extended]
      rw [ByteArray.getElem_append_right (Nat.le_of_not_lt h)]
      simp [data_zeroBytes, ByteArray.getElem_eq_getElem_data]
    · exact byteAt_of_le (Nat.le_of_not_lt h')

/-- A write changes no byte outside of the range that it writes. -/
theorem byteAt_blit (h : address.toNat + data.size ≤ b.bytes.size)
    (ha : a < address.toNat ∨ address.toNat + data.size ≤ a) :
    (b.blit address data).byteAt a = b.byteAt a := by
  by_cases hlt : a < b.bytes.size
  · rw [byteAt_of_lt hlt, byteAt_of_lt (by rwa [size_blit h]), getElem_blit h a hlt,
      dif_neg (by omega)]
  · rw [byteAt_of_le (Nat.le_of_not_lt hlt),
      byteAt_of_le (by rw [size_blit h]; exact Nat.le_of_not_lt hlt)]

/-- The byte that a write puts into its range. -/
theorem byteAt_blit_inside (h : address.toNat + data.size ≤ b.bytes.size)
    (ha : address.toNat ≤ a) (ha' : a < address.toNat + data.size) :
    (b.blit address data).byteAt a = data[a - address.toNat] := by
  rw [byteAt_of_lt (by rw [size_blit h]; omega), getElem_blit h a (by omega), dif_pos ⟨ha, ha'⟩]

/-- Buffers with the same bytes have the same bytes after the same write. -/
theorem byteAt_blit_congr (h : address.toNat + data.size ≤ b.bytes.size)
    (h' : address.toNat + data.size ≤ b'.bytes.size) (hb : ∀ a, b'.byteAt a = b.byteAt a) :
    (b'.blit address data).byteAt a = (b.blit address data).byteAt a := by
  by_cases ha : address.toNat ≤ a ∧ a < address.toNat + data.size
  · rw [byteAt_blit_inside h ha.1 ha.2, byteAt_blit_inside h' ha.1 ha.2]
  · rw [byteAt_blit h (by omega), byteAt_blit h' (by omega), hb]

/-- Bytes are read exactly when they lie inside of the buffer, and they are the ones there. -/
theorem read_eq_ok_iff :
    b.read address n = .ok bytes ↔
      address.toNat + n ≤ b.bytes.size ∧
        b.bytes.extract address.toNat (address.toNat + n) = bytes := by
  unfold read check
  split
  · next h => simp [h, bind, Except.bind, pure, Except.pure]
  · next h => simp [h, bind, Except.bind]

/-- A read that fails is out of bounds at its own address. -/
theorem read_cases (b : Buffer) (address : UInt32) (n : Nat) :
    (∃ bytes, b.read address n = .ok bytes) ∨
      b.read address n = .error (b.outOfBounds address n.toUInt32) := by
  unfold read check
  split
  · exact .inl ⟨_, rfl⟩
  · exact .inr rfl

/-- A read that succeeds gives the same in every buffer with the same bytes in the place. -/
theorem read_congr (h : b.read address n = .ok bytes) (hsize : b.bytes.size ≤ b'.bytes.size)
    (hkept : ∀ a, address.toNat ≤ a → a < address.toNat + n → b'.byteAt a = b.byteAt a) :
    b'.read address n = .ok bytes := by
  obtain ⟨hle, rfl⟩ := read_eq_ok_iff.1 h
  refine read_eq_ok_iff.2 ⟨Nat.le_trans hle hsize, ByteArray.ext_getElem ?_ fun i hi hi' => ?_⟩
  · simp only [ByteArray.size_extract]
    omega
  · simp only [ByteArray.size_extract] at hi hi'
    rw [ByteArray.getElem_extract, ByteArray.getElem_extract, ← byteAt_of_lt, ← byteAt_of_lt]
    exact hkept _ (by omega) (by omega)

/-- What was written is read. -/
theorem read_blit (h : address.toNat + data.size ≤ b.bytes.size) :
    (b.blit address data).read address data.size = .ok data := by
  refine read_eq_ok_iff.2 ⟨by rwa [size_blit h], ByteArray.ext_getElem ?_ fun i hi hi' => ?_⟩
  · rw [ByteArray.size_extract, size_blit h]
    omega
  · rw [ByteArray.size_extract, size_blit h] at hi
    rw [ByteArray.getElem_extract, getElem_blit h _ (by omega), dif_pos (by omega)]
    simp only [Nat.add_sub_cancel_left]

/-! ## Elements -/

variable {k : ElementKind} {x : k.Carrier}

/-- An address is aligned when the size of the elements divides it. -/
theorem mod_size_eq_zero_iff : address % k.size = 0 ↔ k.size.toNat ∣ address.toNat := by
  rw [← UInt32.toNat_inj, UInt32.toNat_mod, Nat.dvd_iff_mod_eq_zero]
  rfl

/-- The element at an aligned address, by its index. -/
theorem elementAddress_div (h : address % k.size = 0) :
    b.elementAddress k (address / k.size) = .ok address := by
  have hmul : Word.mul? (address / k.size) k.size = some address := by
    rw [Word.mul?_eq_some_iff, UInt32.toNat_div]
    exact Nat.div_mul_cancel (mod_size_eq_zero_iff.1 h)
  rw [elementAddress, hmul]

/-- An element is read at a multiple of its size, by the bytes that stand there. -/
theorem load_eq_ok_iff :
    b.load k address = .ok x ↔
      address % k.size = 0 ∧
        ∃ bytes, b.read address k.size.toNat = .ok bytes ∧ k.decode bytes = x := by
  unfold load elementIndex
  by_cases h : address % k.size = 0
  · rw [if_pos h]
    simp only [bind, Except.bind, get, elementAddress_div h, h, true_and]
    cases b.read address k.size.toNat <;> simp [pure, Except.pure]
  · simp [h, bind, Except.bind]

/-- An element of one byte is read at any address. -/
theorem load_u8 (b : Buffer) (address : UInt32) : b.load .u8 address = b.get .u8 address := by
  have hsize : ElementKind.u8.size = 1 := rfl
  unfold load elementIndex
  rw [hsize, UInt32.mod_one, if_pos rfl, UInt32.div_one]
  rfl

/-- An element is loaded from any buffer that has its bytes where they were. -/
theorem load_congr (h : b.load k address = .ok x) (hsize : b.bytes.size ≤ b'.bytes.size)
    (hkept : ∀ a, address.toNat ≤ a → a < address.toNat + k.size.toNat →
      b'.byteAt a = b.byteAt a) :
    b'.load k address = .ok x := by
  obtain ⟨hal, bytes, hread, hdec⟩ := load_eq_ok_iff.1 h
  exact load_eq_ok_iff.2 ⟨hal, bytes, read_congr hread hsize hkept, hdec⟩

/-- The element stands at position `p`: the position is a multiple of its size, its bytes lie in the
buffer, and they are its bits, least significant byte first. -/
structure Shows (b : Buffer) (k : ElementKind) (p : Nat) (x : k.Carrier) : Prop where
  aligned : k.size.toNat ∣ p
  inside : p + k.size.toNat ≤ b.bytes.size
  bytes : k.decode (b.bytes.extract p (p + k.size.toNat)) = x

/-- One element stands at a position. -/
theorem Shows.unique {p : Nat} {y : k.Carrier} (h : b.Shows k p x) (h' : b.Shows k p y) : x = y :=
  h.bytes.symm.trans h'.bytes

/-- An element can be loaded from an address when it stands there. -/
theorem load_eq_ok_iff_shows : b.load k address = .ok x ↔ b.Shows k address.toNat x := by
  rw [load_eq_ok_iff, mod_size_eq_zero_iff]
  constructor
  · rintro ⟨hal, bytes, hread, hdecode⟩
    obtain ⟨hinside, rfl⟩ := read_eq_ok_iff.1 hread
    exact ⟨hal, hinside, hdecode⟩
  · rintro ⟨hal, hinside, hdecode⟩
    exact ⟨hal, _, read_eq_ok_iff.2 ⟨hinside, rfl⟩, hdecode⟩

/-- An element that was written stands in its place. -/
theorem shows_blit (hal : k.size.toNat ∣ address.toNat)
    (hin : address.toNat + k.size.toNat ≤ b.bytes.size) :
    (b.blit address (k.encode x)).Shows k address.toNat x := by
  have hread : (b.blit address (k.encode x)).read address (k.encode x).size = .ok (k.encode x) :=
    read_blit (by rwa [k.size_encode])
  rw [k.size_encode] at hread
  exact load_eq_ok_iff_shows.1
    (load_eq_ok_iff.2 ⟨mod_size_eq_zero_iff.2 hal, _, hread, k.decode_encode x⟩)

/-- An element stays where it stands when something is written behind it. -/
theorem Shows.blit {p : Nat} (h : b.Shows k p x)
    (hle : address.toNat + data.size ≤ b.bytes.size) (hbehind : p + k.size.toNat ≤ address.toNat) :
    (b.blit address data).Shows k p x := by
  have hword : p < UInt32.size :=
    Nat.lt_of_le_of_lt (Nat.le_of_add_right_le hbehind) address.toNat_lt
  obtain ⟨a, rfl⟩ : ∃ a : UInt32, a.toNat = p := ⟨_, UInt32.toNat_ofNat_of_lt' hword⟩
  rw [← load_eq_ok_iff_shows] at h ⊢
  exact load_congr h (Nat.le_of_eq (size_blit hle).symm) fun c hc hc' =>
    byteAt_blit hle (.inl (by omega))

/-! ## Tables and windows -/

/-- A buffer that words can address has its size for a length. -/
theorem toNat_length (h : b.bytes.size < UInt32.size) : b.length.toNat = b.bytes.size :=
  UInt32.toNat_ofNat_of_lt' h

/-- So many elements are counted as lie in the buffer. -/
theorem le_count_iff (h : b.bytes.size < UInt32.size) {n : UInt32} :
    n ≤ b.count k ↔ n.toNat * k.size.toNat ≤ b.bytes.size := by
  rw [UInt32.le_iff_toNat_le, count, UInt32.toNat_div, toNat_length h,
    Nat.le_div_iff_mul_le k.size_pos]

/-- The element of an index is counted when it lies in the buffer. -/
theorem lt_count_iff (h : b.bytes.size < UInt32.size) {index : UInt32} :
    index < b.count k ↔ index.toNat * k.size.toNat + k.size.toNat ≤ b.bytes.size := by
  rw [UInt32.lt_iff_toNat_lt, count, UInt32.toNat_div, toNat_length h, ← Nat.succ_le_iff,
    Nat.le_div_iff_mul_le k.size_pos, Nat.succ_mul]

/-- A table is accepted when it ends at the buffer's length or before. -/
theorem checkTable_eq_ok_iff_length {base count stride : UInt32} :
    b.checkTable base count stride = .ok () ↔
      base.toNat + count.toNat * stride.toNat ≤ b.length.toNat := by
  have hentry (stop : UInt32) : Slot.entry? base count stride = some stop ↔
      base.toNat + count.toNat * stride.toNat = stop.toNat := Slot.entry?_eq_some_iff
  have hstop : (Word.mul? count stride).bind (Word.add? base ·) = Slot.entry? base count stride :=
    rfl
  unfold checkTable
  dsimp only
  rw [hstop]
  cases hs : Slot.entry? base count stride with
  | none =>
    simp only [reduceCtorEq, false_iff]
    intro hle
    have hword := UInt32.toNat_ofNat_of_lt' (Nat.lt_of_le_of_lt hle b.length.toNat_lt)
    rw [(hentry _).2 hword.symm] at hs
    cases hs
  | some stop =>
    rw [(hentry stop).1 hs, ← UInt32.le_iff_toNat_le]
    split <;> simp_all

/-- A table is accepted when its entries lie in the buffer. -/
theorem checkTable_eq_ok_iff {base count stride : UInt32} (h : b.bytes.size < UInt32.size) :
    b.checkTable base count stride = .ok () ↔
      base.toNat + count.toNat * stride.toNat ≤ b.bytes.size := by
  rw [checkTable_eq_ok_iff_length, toNat_length h]

end Buffer

namespace Window

/-- A window covers elements that lie in the buffer. -/
theorem ofRange_eq_ok_iff {b : Buffer} {id : Nat} {k : ElementKind} {start stop : UInt32}
    {w : Window} (h : b.bytes.size < UInt32.size) :
    ofRange b id k start stop = .ok w ↔
      start ≤ stop ∧ stop.toNat * k.size.toNat ≤ b.bytes.size ∧
        w = ⟨k, id, start, stop - start⟩ := by
  have hrange : b.checkRange k start stop = .ok () ↔
      start ≤ stop ∧ stop.toNat * k.size.toNat ≤ b.bytes.size := by
    rw [← Buffer.le_count_iff h]
    unfold Buffer.checkRange
    split
    · next hout =>
      simp only [reduceCtorEq, false_iff]
      rintro ⟨hle, hle'⟩
      rw [Bool.or_eq_true, decide_eq_true_eq, decide_eq_true_eq] at hout
      rcases hout with hlt | hlt
      · exact UInt32.not_lt.2 hle hlt
      · exact UInt32.not_lt.2 hle' hlt
    · next hin =>
      simp only [true_iff]
      simpa using hin
  rw [← and_assoc, ← hrange, ofRange]
  cases b.checkRange k start stop with
  | error x => simp [bind, Except.bind]
  | ok u => simp [bind, Except.bind, pure, Except.pure, eq_comm]

end Window

end Crossing
