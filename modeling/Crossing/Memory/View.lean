import Crossing.Memory.Buffer
import Crossing.Memory.Element
import Crossing.Word

/-!
# Typed access to a buffer

The same bytes can be addressed as elements of any of the eight kinds, either by element index
(`get`, `set`) or by byte address (`load`, `store`), which has to be aligned. `checkTable` tells
whether a table of entries lies inside the buffer.
-/

namespace Crossing.Buffer

/-- The number of whole elements. -/
def count (b : Buffer) (k : ElementKind) : UInt32 := b.length / k.size

/-- The byte address of an element. -/
def elementAddress (b : Buffer) (k : ElementKind) (index : UInt32) : Except Fault UInt32 :=
  match Word.mul? index k.size with
  | some address => .ok address
  | none => .error (b.outOfBounds Word.max k.size)

/-- The index of the element at a byte address. -/
def elementIndex (k : ElementKind) (address : UInt32) : Except Fault UInt32 :=
  if address % k.size = 0 then .ok (address / k.size) else .error (.misaligned address k.size)

/-- Reads an element by index. -/
def get (b : Buffer) (k : ElementKind) (index : UInt32) : Except Fault k.Carrier := do
  let address ← b.elementAddress k index
  return k.decode (← b.read address k.size.toNat)

/-- Writes an element by index. -/
def set (b : Buffer) (k : ElementKind) (index : UInt32) (x : k.Carrier) : Except Fault Buffer := do
  let address ← b.elementAddress k index
  b.write address (k.encode x)

/-- Reads the element at a byte address. -/
def load (b : Buffer) (k : ElementKind) (address : UInt32) : Except Fault k.Carrier := do
  b.get k (← elementIndex k address)

/-- Writes the element at a byte address. -/
def store (b : Buffer) (k : ElementKind) (address : UInt32) (x : k.Carrier) :
    Except Fault Buffer := do
  b.set k (← elementIndex k address) x

/-- Faults unless `count` entries of `stride` bytes at `base` lie inside the buffer. -/
def checkTable (b : Buffer) (base count stride : UInt32) : Except Fault Unit :=
  let bytes := Word.mul? count stride
  let fault := b.outOfBounds base (bytes.getD Word.max)
  match bytes.bind (Word.add? base ·) with
  | some stop => if stop ≤ b.length then .ok () else .error fault
  | none => .error fault

/-- Faults unless the elements from `start` up to but not including `stop` are elements of the
buffer. -/
def checkRange (b : Buffer) (k : ElementKind) (start stop : UInt32) : Except Fault Unit :=
  if stop < start || b.count k < stop then
    .error (b.outOfBounds (Word.mulSat start k.size) (Word.mulSat (Word.subSat stop start) k.size))
  else .ok ()

end Crossing.Buffer
