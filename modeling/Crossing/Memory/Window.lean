import Crossing.Memory.View

/-!
# Windows into guest memory

A window is a run of elements of one kind in one buffer. It holds no bytes: it sees later writes to
its buffer, and nothing any more once the buffer is detached. Its operations take the buffer it
looks into.
-/

namespace Crossing

/-- The elements `start`, `start + 1`, … of a buffer, `length` of them. -/
structure Window where
  kind : ElementKind
  /-- The number of the buffer. -/
  buffer : Nat
  start : UInt32
  length : UInt32
  deriving DecidableEq

namespace Window

def isEmpty (w : Window) : Bool := w.length = 0

/-- The address of the first byte. -/
def byteOffset (w : Window) : UInt32 := w.start * w.kind.size

/-- The number of bytes. -/
def byteLength (w : Window) : UInt32 := w.length * w.kind.size

/-- The window on the elements from `start` up to but not including `stop` of buffer number `id`. -/
def ofRange (b : Buffer) (id : Nat) (k : ElementKind) (start stop : UInt32) :
    Except Fault Window := do
  b.checkRange k start stop
  return ⟨k, id, start, stop - start⟩

/-- The fault of an index past the end. To tell the address, the host adds the clamped product to
the offset, and panics where that sum is no word. All other sums and products of a window are
words. -/
def pastEnd (w : Window) (index : UInt32) : Fault :=
  match Word.add? w.byteOffset (Word.mulSat index w.kind.size) with
  | some address => .outOfBounds address w.kind.size (w.byteOffset + w.byteLength)
  | none => .overflow

/-- Reads an element of the window as a number of the host. -/
def get (w : Window) (b : Buffer) (index : UInt32) : Except Fault Double :=
  if w.length ≤ index then .error (w.pastEnd index)
  else do
    let bytes ← b.read ((w.start + index) * w.kind.size) w.kind.size.toNat
    return w.kind.toDouble (w.kind.decode bytes)

/-- The bytes of the window. -/
def bytes (w : Window) (b : Buffer) : Except Fault ByteArray :=
  b.read w.byteOffset w.byteLength.toNat

/-- The window as text. -/
def text (w : Window) : String :=
  s!"TypedArray \x7b kind: {w.kind.name}, start: {w.start}, len: {w.length} \x7d"

end Window

end Crossing
