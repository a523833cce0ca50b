import Crossing.Fault
import Crossing.Number.Double

/-!
# Elements of typed views

Guest memory is read and written in elements of eight kinds. `ElementKind.Carrier` is the type of
the elements of a kind; `encode` and `decode` go to and from the little-endian bytes, and
`decode_encode` says that nothing is lost.
-/

namespace Crossing

/-- The kinds of elements: integers without and with sign, and floating-point numbers. -/
inductive ElementKind where
  | u8 | i8 | u16 | i16 | u32 | i32 | f32 | f64
  deriving DecidableEq, Inhabited

namespace ElementKind

/-- The type of the elements. -/
@[reducible] def Carrier : ElementKind → Type
  | u8 => UInt8
  | i8 => Int8
  | u16 => UInt16
  | i16 => Int16
  | u32 => UInt32
  | i32 => Int32
  | f32 => Single
  | f64 => Double

/-- The number of bytes of an element. -/
def size : ElementKind → UInt32
  | u8 | i8 => 1
  | u16 | i16 => 2
  | u32 | i32 | f32 => 4
  | f64 => 8

def name : ElementKind → String
  | u8 => "U8"
  | i8 => "I8"
  | u16 => "U16"
  | i16 => "I16"
  | u32 => "U32"
  | i32 => "I32"
  | f32 => "F32"
  | f64 => "F64"

/-- The number that stands for the kind in a slot. -/
def tag : ElementKind → UInt32
  | u8 => 0
  | i8 => 1
  | u16 => 2
  | i16 => 3
  | u32 => 4
  | i32 => 5
  | f32 => 6
  | f64 => 7

/-- The kind of a tag. -/
def ofTag (tag : UInt32) : Except Fault ElementKind :=
  match tag.toNat with
  | 0 => .ok u8
  | 1 => .ok i8
  | 2 => .ok u16
  | 3 => .ok i16
  | 4 => .ok u32
  | 5 => .ok i32
  | 6 => .ok f32
  | 7 => .ok f64
  | _ => .error (.invalidElementKind tag)

/-- A kind of element is the one of its tag. -/
theorem ofTag_tag (k : ElementKind) : ofTag k.tag = .ok k := by cases k <;> rfl

/-! ## Bytes -/

-- Powers are those of core, whatever other modules are in sight.
attribute [local instance] instPowNat

/-- The `n` low bytes of a number, least significant first. -/
def littleEndian : Nat → Nat → List UInt8
  | 0, _ => []
  | n + 1, v => v.toUInt8 :: littleEndian n (v / 256)

/-- The number of a list of bytes, least significant first. -/
def ofLittleEndian : List UInt8 → Nat
  | [] => 0
  | b :: rest => b.toNat + 256 * ofLittleEndian rest

@[simp] theorem length_littleEndian (n v : Nat) : (littleEndian n v).length = n := by
  induction n generalizing v with
  | zero => rfl
  | succ n ih => simp [littleEndian, ih]

/-- What `n` bytes spell is the number that was written into them, without what they have no room
for. -/
theorem ofLittleEndian_littleEndian (n v : Nat) :
    ofLittleEndian (littleEndian n v) = v % Nat.pow 256 n := by
  induction n generalizing v with
  | zero => simp [littleEndian, ofLittleEndian, Nat.mod_one]
  | succ n ih =>
    simp only [littleEndian, ofLittleEndian, ih]
    have h : v.toUInt8.toNat = v % 256 := by simp
    show _ = v % (Nat.pow 256 n * 256)
    rw [h, Nat.mul_comm (Nat.pow 256 n) 256, Nat.mod_mul]

/-- The bits of an element as a number. -/
def toBits : (k : ElementKind) → k.Carrier → Nat
  | u8, x => UInt8.toNat x
  | i8, x => (Int8.toUInt8 x).toNat
  | u16, x => UInt16.toNat x
  | i16, x => (Int16.toUInt16 x).toNat
  | u32, x => UInt32.toNat x
  | i32, x => (Int32.toUInt32 x).toNat
  | f32, x => (Single.bits x).toNat
  | f64, x => (Double.bits x).toNat

/-- The element whose bits are the low ones of a number. -/
def ofBits : (k : ElementKind) → Nat → k.Carrier
  | u8, n => n.toUInt8
  | i8, n => n.toUInt8.toInt8
  | u16, n => n.toUInt16
  | i16, n => n.toUInt16.toInt16
  | u32, n => n.toUInt32
  | i32, n => n.toUInt32.toInt32
  | f32, n => (⟨n.toUInt32⟩ : Single)
  | f64, n => (⟨n.toUInt64⟩ : Double)

/-- The little-endian bytes of an element. -/
def encode (k : ElementKind) (x : k.Carrier) : ByteArray :=
  (littleEndian k.size.toNat (k.toBits x)).toByteArray

/-- The element of a list of little-endian bytes. -/
def decode (k : ElementKind) (bytes : ByteArray) : k.Carrier :=
  k.ofBits (ofLittleEndian bytes.data.toList)

@[simp] theorem size_encode (k : ElementKind) (x : k.Carrier) :
    (k.encode x).size = k.size.toNat := by
  simp [encode]

/-- The bits of an element fit into its bytes. -/
theorem toBits_lt (k : ElementKind) (x : k.Carrier) : k.toBits x < Nat.pow 256 k.size.toNat := by
  cases k
  · exact UInt8.toNat_lt x
  · exact UInt8.toNat_lt _
  · exact UInt16.toNat_lt x
  · exact UInt16.toNat_lt _
  · exact UInt32.toNat_lt x
  · exact UInt32.toNat_lt _
  · exact UInt32.toNat_lt _
  · exact UInt64.toNat_lt _

/-- An element is the one of its bits. -/
theorem ofBits_toBits (k : ElementKind) (x : k.Carrier) : k.ofBits (k.toBits x) = x := by
  cases k <;> simp [ofBits, toBits]

/-- An element is what its bytes stand for. -/
theorem decode_encode (k : ElementKind) (x : k.Carrier) : k.decode (k.encode x) = x := by
  simp only [decode, encode, List.data_toByteArray, ofLittleEndian_littleEndian]
  rw [Nat.mod_eq_of_lt (k.toBits_lt x), ofBits_toBits]

/-! ## Widening -/

/-- The element as a number of the host. -/
def toDouble : (k : ElementKind) → k.Carrier → Double
  | u8, x => .ofInt (UInt8.toNat x)
  | i8, x => .ofInt (Int8.toInt x)
  | u16, x => .ofInt (UInt16.toNat x)
  | i16, x => .ofInt (Int16.toInt x)
  | u32, x => .ofInt (UInt32.toNat x)
  | i32, x => .ofInt32 x
  | f32, x => Single.widen x
  | f64, x => x

end ElementKind

end Crossing
