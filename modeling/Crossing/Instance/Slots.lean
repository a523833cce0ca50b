import Crossing.Instance.Basic

/-!
# Words, tags and texts in guest memory

The pieces that encoding and decoding share: payload words and tag bytes of slots, entries of
tables, and texts as a pointer and a length. The views are asked for anew at each access, because
any allocation may have moved the memory.
-/

namespace Crossing.Effect

variable {Code : Type}

/-- The address that slot arithmetic gave for the slot at `address`, or the fault of a slot that
does not fit into the address space. -/
def slotPart (v : Views) (address : UInt32) (part : Option UInt32) : Effect Code UInt32 := do
  match part with
  | some a => return a
  | none => throw ((← buffer v.buffer).outOfBounds address Slot.size)

/-- Reads payload word `index` of the slot at `address`. -/
def readWord (address index : UInt32) : Effect Code UInt32 := do
  let v ← views
  load v.buffer .u32 (← slotPart v address (Slot.word? address index))

/-- Writes payload word `index` of the slot at `address`. -/
def writeWord (address index value : UInt32) : Effect Code Unit := do
  let v ← views
  store v.buffer .u32 (← slotPart v address (Slot.word? address index)) value

/-- Reads the kind of the slot at `address`. -/
def kindAt (address : UInt32) : Effect Code SlotKind := do
  let v ← views
  let tag ← getElement v.buffer .u8 (← slotPart v address (Slot.tagAddress? address))
  SlotKind.ofTag tag

/-- Writes the kind of the slot at `address`. -/
def writeKind (address : UInt32) (kind : SlotKind) : Effect Code Unit := do
  let v ← views
  setElement v.buffer .u8 (← slotPart v address (Slot.tagAddress? address)) kind.tag

/-- The address of an entry of a table. -/
def entryAddress (base index stride : UInt32) : Effect Code UInt32 := do
  match Slot.entry? base index stride with
  | some a => return a
  | none => throw ((← buffer (← views).buffer).outOfBounds base stride)

/-- Faults when no further array or object may be opened; `room` counts those that may. -/
def checkRoom (room : Nat) : Effect Code Unit := do
  if room = 0 then throw (.tooDeep (← get).config.maxDepth)

/-- Writes the bytes of a text into a buffer. They are made only when they have room there. -/
def writeEncoded (features : Features) (id : Nat) (address : UInt32) (text : String) :
    Effect Code Unit := do
  (← buffer id).check address (features.encodedSize text)
  modify fun i =>
    let store := i.guest.store.blit id address (features.encode text)
    { i with guest := { i.guest with store } }

/-- Stages a text and writes its pointer and length at `address`. The empty text takes no block and
is written as two zeros. -/
def storeText (address : UInt32) (text : String) : Effect Code Unit := do
  let features := (← get).config.features
  let length := (features.encodedSize text).toUInt32
  let pointer ←
    if 0 < length then
      let pointer ← alloc length
      writeEncoded features (← views).buffer pointer text
      pure pointer
    else pure 0
  writeWord address 0 pointer
  writeWord address 1 length

/-- Reads the text of `length` bytes at `pointer`. -/
def loadText (pointer length : UInt32) : Effect Code String := do
  let bytes ← read (← views).buffer pointer length.toNat
  return (← get).config.features.decode bytes

end Crossing.Effect
