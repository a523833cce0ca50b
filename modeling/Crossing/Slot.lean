import Crossing.Fault
import Crossing.Word

/-!
# Value slots

Every value that crosses occupies a slot of sixteen bytes: three payload words, then the tag byte of
its kind, then padding.

| kind                             | payload                                       |
|----------------------------------|-----------------------------------------------|
| undefined, null, boolean         | none                                          |
| int32                            | the integer, in word 0                        |
| float64                          | the number, in words 0 and 1                  |
| string                           | pointer, length in bytes                      |
| array                            | arena offset and length of the slot table     |
| object                           | arena offset, length, arena offset of the keys |
| handle, raw                      | the id                                        |
| closure                          | adapter, function pointer, deallocator        |
| window                           | first element, length, element kind           |

`word?`, `tagAddress?` and `entry?` are the address arithmetic; they answer `none` above the address
space.
-/

namespace Crossing

/-- What a slot holds. -/
inductive SlotKind where
  | undefined
  | null
  | int32
  | float64
  | string
  | boolean (b : Bool)
  | array
  | object
  /-- A host object lent by handle. -/
  | handle
  /-- A guest closure. -/
  | closure (kind : ClosureKind)
  /-- A window into guest memory. -/
  | window
  /-- A value of the raw registry. -/
  | raw
  deriving DecidableEq

namespace SlotKind

/-- The name of the kind. -/
def name : SlotKind → String
  | undefined => "Undefined"
  | null => "Null"
  | int32 => "Int32"
  | float64 => "Float64"
  | string => "String"
  | boolean false => "False"
  | boolean true => "True"
  | array => "Array"
  | object => "Object"
  | handle => "HostRef"
  | closure kind => kind.name
  | window => "TypedView"
  | raw => "RawRef"

/-- The tag byte of the kind. -/
def tag : SlotKind → UInt8
  | undefined => 0
  | null => 1
  | int32 => 2
  | float64 => 3
  | string => 4
  | boolean false => 5
  | boolean true => 6
  | array => 7
  | object => 8
  | handle => 9
  | closure .shared => 10
  | closure .exclusive => 12
  | closure .once => 13
  | window => 14
  | raw => 15

/-- The kind of a tag byte. Eleven is no tag. -/
def ofTag (tag : UInt8) : Except Fault SlotKind :=
  match tag.toNat with
  | 0 => .ok undefined
  | 1 => .ok null
  | 2 => .ok int32
  | 3 => .ok float64
  | 4 => .ok string
  | 5 => .ok (boolean false)
  | 6 => .ok (boolean true)
  | 7 => .ok array
  | 8 => .ok object
  | 9 => .ok handle
  | 10 => .ok (closure .shared)
  | 12 => .ok (closure .exclusive)
  | 13 => .ok (closure .once)
  | 14 => .ok window
  | 15 => .ok raw
  | _ => .error (.invalidKind tag)

/-- A kind of slot is the one of its tag. -/
theorem ofTag_tag (k : SlotKind) : ofTag k.tag = .ok k := by
  rcases k with _ | _ | _ | _ | _ | (_ | _) | _ | _ | _ | (_ | _ | _) | _ | _ <;> rfl

/-- The contract of a closure kind. -/
def closureKind? : SlotKind → Option ClosureKind
  | closure kind => some kind
  | _ => none

end SlotKind

namespace Slot

/-- The size of a slot in bytes. -/
def size : UInt32 := 16

/-- Where the tag byte stands in a slot. -/
def tagOffset : UInt32 := 12

/-- The size of an object key in its table, a pointer and a length. -/
def keySize : UInt32 := 8

/-- The address of entry `index` in a table of entries of `stride` bytes. -/
def entry? (base index stride : UInt32) : Option UInt32 :=
  (Word.mul? index stride).bind (Word.add? base)

/-- The address of payload word `index`. -/
def word? (address index : UInt32) : Option UInt32 := entry? address index 4

/-- The address of the tag byte. -/
def tagAddress? (address : UInt32) : Option UInt32 := Word.add? address tagOffset

/-- The address of an entry is the exact one, and is missing where that is no word. -/
theorem entry?_eq_some_iff {base index stride a : UInt32} :
    entry? base index stride = some a ↔ base.toNat + index.toNat * stride.toNat = a.toNat := by
  unfold entry?
  constructor
  · intro h
    obtain ⟨offset, hm, ha⟩ := Option.bind_eq_some_iff.1 h
    rw [Word.mul?_eq_some_iff] at hm
    rw [Word.add?_eq_some_iff] at ha
    omega
  · intro h
    have ha := a.toNat_lt
    have hp : index.toNat * stride.toNat < UInt32.size := by
      show index.toNat * stride.toNat < 2 ^ 32
      omega
    refine Option.bind_eq_some_iff.2 ⟨UInt32.ofNat (index.toNat * stride.toNat), ?_, ?_⟩
    · rw [Word.mul?_eq_some_iff, UInt32.toNat_ofNat_of_lt' hp]
    · rw [Word.add?_eq_some_iff, UInt32.toNat_ofNat_of_lt' hp]
      exact h

/-- A payload word inside of the address space has an address. -/
theorem exists_word? (address index : UInt32)
    (h : address.toNat + 4 * index.toNat < UInt32.size) :
    ∃ a, word? address index = some a ∧ a.toNat = address.toNat + 4 * index.toNat := by
  have h4 : (4 : UInt32).toNat = 4 := rfl
  have ha := UInt32.toNat_ofNat_of_lt' h
  refine ⟨_, ?_, ha⟩
  rw [word?, entry?_eq_some_iff, h4, ha, Nat.mul_comm]

/-- The tag byte of a slot inside of the address space has an address. -/
theorem exists_tagAddress? (address : UInt32) (h : address.toNat + 12 < UInt32.size) :
    ∃ a, tagAddress? address = some a ∧ a.toNat = address.toNat + 12 := by
  have h12 : tagOffset.toNat = 12 := rfl
  have ha := UInt32.toNat_ofNat_of_lt' h
  refine ⟨_, ?_, ha⟩
  rw [tagAddress?, Word.add?_eq_some_iff, h12, ha]

end Slot

end Crossing
