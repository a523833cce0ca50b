import Crossing.Fault

/-!
# Buffers of guest memory

A buffer holds the bytes of guest memory for as long as the memory does not grow. Growth moves the
bytes to a new buffer and leaves the old one detached and empty. A read or write either lies inside
the buffer or faults; `size_blit` and `getElem_blit` say what a write does to the bytes.
-/

namespace Crossing

/-- One backing buffer of guest memory. -/
structure Buffer where
  bytes : ByteArray
  /-- Growth has moved the bytes to another buffer. -/
  detached : Bool

namespace Buffer

/-- A page of bytes, all zero. -/
def zeroPage : ByteArray := ⟨Array.replicate 65536 0⟩

/-- `n` bytes, all zero. They are put together from pages, so that no more than the bytes themselves
has to be held while a large buffer is made. -/
def zeroBytes (n : Nat) : ByteArray :=
  Nat.repeat (· ++ zeroPage) (n / 65536) (.emptyWithCapacity n) ++ ⟨Array.replicate (n % 65536) 0⟩

/-- A buffer of `n` zero bytes. -/
def zeros (n : Nat) : Buffer := ⟨zeroBytes n, false⟩

/-- What growth leaves behind. -/
def gone : Buffer := ⟨ByteArray.empty, true⟩

/-- The size as the guest counts it, in a 32-bit word. -/
def length (b : Buffer) : UInt32 := b.bytes.size.toUInt32

def isEmpty (b : Buffer) : Bool := b.length = 0

/-- The bytes followed by zeros up to `size`, as they are after growth. The size never shrinks. -/
def extended (b : Buffer) (size : Nat) : Buffer :=
  ⟨b.bytes ++ zeroBytes (size - b.bytes.size), false⟩

/-- The fault of an access to `n` bytes at `address`. -/
def outOfBounds (b : Buffer) (address n : UInt32) : Fault := .outOfBounds address n b.length

/-- Faults unless `n` bytes at `address` lie inside the buffer. -/
def check (b : Buffer) (address : UInt32) (n : Nat) : Except Fault Unit :=
  if address.toNat + n ≤ b.bytes.size then .ok () else .error (b.outOfBounds address n.toUInt32)

/-- The `n` bytes at `address`. -/
def read (b : Buffer) (address : UInt32) (n : Nat) : Except Fault ByteArray := do
  b.check address n
  return b.bytes.extract address.toNat (address.toNat + n)

/-- The buffer with `data` at `address`, where it fits. -/
def blit (b : Buffer) (address : UInt32) (data : ByteArray) : Buffer :=
  { b with bytes := data.copySlice 0 b.bytes address.toNat data.size }

/-- Writes `data` at `address`. -/
def write (b : Buffer) (address : UInt32) (data : ByteArray) : Except Fault Buffer := do
  b.check address data.size
  return b.blit address data

/-- A buffer as text. -/
def text (b : Buffer) : String :=
  s!"LinearBuffer \x7b len: {b.length}, detached: {b.detached} \x7d"

/-! ## What the operations do to the bytes -/

/-- Pages that are added one after the other are one run of zeros. -/
theorem data_repeat_zeroPage (pages : Nat) (bytes : ByteArray) :
    (Nat.repeat (· ++ zeroPage) pages bytes).data =
      bytes.data ++ Array.replicate (pages * 65536) 0 := by
  induction pages with
  | zero => simp [Nat.repeat]
  | succ pages ih =>
    rw [Nat.repeat, ByteArray.data_append, ih, zeroPage, Array.append_assoc,
      Array.replicate_append_replicate, Nat.succ_mul]

/-- Zeroed bytes are that many zeros. -/
theorem data_zeroBytes (n : Nat) : (zeroBytes n).data = Array.replicate n 0 := by
  rw [zeroBytes, ByteArray.data_append, data_repeat_zeroPage, Array.append_assoc,
    Array.replicate_append_replicate, Nat.div_add_mod']
  exact Array.empty_append

@[simp] theorem size_zeroBytes (n : Nat) : (zeroBytes n).size = n := by
  rw [← ByteArray.size_data, data_zeroBytes, Array.size_replicate]

/-- A range passes the check when it ends inside of the buffer. -/
theorem check_eq_ok_iff {b : Buffer} {address : UInt32} {n : Nat} :
    b.check address n = .ok () ↔ address.toNat + n ≤ b.bytes.size := by
  unfold check
  split <;> simp_all

/-- A write keeps what stands before and behind it. -/
theorem bytes_blit (b : Buffer) (address : UInt32) (data : ByteArray) :
    (b.blit address data).bytes =
      b.bytes.extract 0 address.toNat ++ data ++
        b.bytes.extract (address.toNat + data.size) b.bytes.size := by
  simp only [blit, ByteArray.copySlice_eq_append, Nat.zero_add, Nat.sub_zero,
    ByteArray.extract_zero_size, ByteArray.size_data, Nat.min_self]

/-- A write inside the buffer keeps the size. -/
theorem size_blit {b : Buffer} {address : UInt32} {data : ByteArray}
    (h : address.toNat + data.size ≤ b.bytes.size) :
    (b.blit address data).bytes.size = b.bytes.size := by
  rw [bytes_blit]
  simp only [ByteArray.size_append, ByteArray.size_extract]
  omega

/-- Inside the written range stands the data, elsewhere what stood there before. -/
theorem getElem_blit {b : Buffer} {address : UInt32} {data : ByteArray}
    (h : address.toNat + data.size ≤ b.bytes.size) (i : Nat) (hi : i < b.bytes.size)
    (hb : i < (b.blit address data).bytes.size) :
    (b.blit address data).bytes[i] =
      if hd : address.toNat ≤ i ∧ i < address.toNat + data.size then data[i - address.toNat]
      else b.bytes[i] := by
  have hx : (b.bytes.extract 0 address.toNat).size = address.toNat := by
    rw [ByteArray.size_extract]; omega
  simp only [bytes_blit]
  split
  · rename_i hd
    rw [ByteArray.getElem_append_left (by rw [ByteArray.size_append, hx]; omega),
      ByteArray.getElem_append_right (by omega)]
    simp only [hx]
  · rename_i hd
    by_cases hlt : i < address.toNat
    · rw [ByteArray.getElem_append_left (by rw [ByteArray.size_append, hx]; omega),
        ByteArray.getElem_append_left (by omega), ByteArray.getElem_extract]
      simp only [Nat.zero_add]
    · rw [ByteArray.getElem_append_right (by rw [ByteArray.size_append, hx]; omega),
        ByteArray.getElem_extract]
      simp only [ByteArray.size_append, hx]
      congr 1
      omega

end Buffer

end Crossing
