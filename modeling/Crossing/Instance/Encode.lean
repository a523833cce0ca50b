import Crossing.Instance.Slots

/-!
# Encoding values

`encode` writes a value into a slot of guest memory. Plain data is copied, its variable parts into
blocks of the arena; symbols are registered as raw values; host objects, closures and windows are
lent by handle. `room` is the number of arrays and objects that may still be opened inside one
another.
-/

namespace Crossing.Effect

variable {Code : Type}

/-- The size in bytes of a table of `n` entries. -/
def tableSize (n : Nat) (stride : UInt32) : Effect Code UInt32 :=
  match Word.ofNat? (n * stride.toNat) with
  | some size => return size
  | none => throw (.allocationFailed Word.max)

/-- Writes a number: as a 32-bit integer where it is one, as a double otherwise. -/
def encodeNumber (address : UInt32) (x : Double) : Effect Code Unit := do
  if x.isInt32 then
    store (← views).buffer .i32 address x.toInt32
    writeKind address .int32
  else
    store (← views).buffer .f64 address x
    writeKind address .float64

/-- Lends a value and writes its handle. -/
def encodeHandle (address : UInt32) (v : Value) : Effect Code Unit := do
  let id ← acquire v
  writeWord address 0 id
  writeKind address .handle

/-- Writes the head of an array of `n` items and gives the address of its table. -/
def openArray (address : UInt32) (room n : Nat) : Effect Code UInt32 := do
  checkRoom room
  let table ← alloc (← tableSize n Slot.size)
  let offset ← (← get).arena.offset table
  writeKind address .array
  writeWord address 0 offset
  writeWord address 1 n.toUInt32
  return table

/-- Writes the head of an object of `n` properties and gives the addresses of its two tables, keys
first. -/
def openObject (address : UInt32) (room n : Nat) : Effect Code (UInt32 × UInt32) := do
  checkRoom room
  let keys ← alloc (← tableSize n Slot.keySize)
  let values ← alloc (← tableSize n Slot.size)
  writeKind address .object
  writeWord address 0 (← (← get).arena.offset values)
  writeWord address 1 n.toUInt32
  writeWord address 2 (← (← get).arena.offset keys)
  return (keys, values)

mutual

/-- Writes a value into the slot at `address`. -/
def encodeAt (room : Nat) (address : UInt32) (v : Value) : Effect Code Unit := do
  record (.encoding v.typeName address)
  match v with
  | .undefined => writeKind address .undefined
  | .null => writeKind address .null
  | .boolean b => writeKind address (.boolean b)
  | .number x => encodeNumber address x
  | .string text =>
    storeText address text
    writeKind address .string
  | .array items => encodeItems (room - 1) (← openArray address room items.length) 0 items
  | .object entries =>
    let (keys, values) ← openObject address room entries.length
    encodeEntries (room - 1) keys values 0 entries
  | .symbol s =>
    let id ← registerRaw (.symbol s)
    writeWord address 0 id
    writeKind address .raw
  | .reference o => encodeHandle address (.reference o)
  | .closure id => encodeHandle address (.closure id)
  | .window w => encodeHandle address (.window w)

/-- Writes items into a table, beginning with entry `index`. -/
def encodeItems (room : Nat) (table index : UInt32) : List Value → Effect Code Unit
  | [] => pure ()
  | v :: rest => do
    encodeAt room (← entryAddress table index Slot.size) v
    encodeItems room table (index + 1) rest

/-- Writes properties into two tables, beginning with entry `index`. -/
def encodeEntries (room : Nat) (keys values index : UInt32) :
    List (String × Value) → Effect Code Unit
  | [] => pure ()
  | (key, v) :: rest => do
    storeText (← entryAddress keys index Slot.keySize) key
    encodeAt room (← entryAddress values index Slot.size) v
    encodeEntries room keys values (index + 1) rest

end

/-- Encodes a value into the slot at `address`. -/
def encode (address : UInt32) (v : Value) : Effect Code Unit := do
  encodeAt (← get).config.maxDepth address v

/-- Encodes items as an array into the slot at `address`. -/
def encodeArray (address : UInt32) (items : List Value) : Effect Code Unit := do
  let room := (← get).config.maxDepth
  encodeItems (room - 1) (← openArray address room items.length) 0 items

/-- Allocates a slot and encodes a value into it. -/
def prepare (v : Value) : Effect Code UInt32 := do
  let slot ← alloc Slot.size
  encode slot v
  return slot

end Crossing.Effect
