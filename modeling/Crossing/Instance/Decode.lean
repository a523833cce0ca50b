import Crossing.Instance.Slots

/-!
# Decoding slots

`decode` reads the value of a slot of guest memory. Whatever the guest has written there, decoding
comes to an end: tables are checked against the memory before they are walked, and `room`, the
number of arrays and objects that may still be opened inside one another, goes down at each one.
-/

namespace Crossing.Effect

variable {Code : Type}

/-- Faults unless a table lies inside the guest's memory. -/
def checkTable (base count stride : UInt32) : Effect Code Unit := do
  (← buffer (← views).buffer).checkTable base count stride

/-- The address of the table whose offset stands in payload word `index`. -/
def tableAt (address index : UInt32) : Effect Code UInt32 := do
  let offset ← readWord address index
  return (← get).arena.resolve offset

/-- Reads the window of the slot at `address`. -/
def decodeWindow (address : UInt32) : Effect Code Value := do
  let start ← readWord address 0
  let length ← readWord address 1
  let kind ← ElementKind.ofTag (← readWord address 2)
  let v ← views
  let b ← buffer v.buffer
  match Word.add? start length with
  | none => throw (b.outOfBounds start length)
  | some stop => return .window (← Window.ofRange b v.buffer kind start stop)

/-- Wraps the closure of the slot at `address`. -/
def decodeClosure (kind : ClosureKind) (address : UInt32) : Effect Code Value := do
  let adapter ← readWord address 0
  let pointer ← readWord address 1
  let deallocator ← readWord address 2
  wrap kind adapter pointer deallocator

/-- Reads the text whose pointer and length stand at `address`. -/
def decodeText (address : UInt32) : Effect Code String := do
  let pointer ← readWord address 0
  let length ← readWord address 1
  loadText pointer length

/-- Reads the array of the slot at `address`, its items with `item`. -/
def decodeArray (item : UInt32 → Effect Code Value) (address : UInt32) : Effect Code Value := do
  let base ← tableAt address 0
  let count ← readWord address 1
  checkTable base count Slot.size
  let items ← (List.range count.toNat).mapM fun i => do
    item (← entryAddress base i.toUInt32 Slot.size)
  return .array items

/-- Reads the object of the slot at `address`, its values with `item`. A key that comes again keeps
its place and takes the later value. -/
def decodeObject (item : UInt32 → Effect Code Value) (address : UInt32) : Effect Code Value := do
  let values ← tableAt address 0
  let count ← readWord address 1
  let keys ← tableAt address 2
  checkTable values count Slot.size
  checkTable keys count Slot.keySize
  let pairs ← (List.range count.toNat).mapM fun i => do
    let key ← decodeText (← entryAddress keys i.toUInt32 Slot.keySize)
    let value ← item (← entryAddress values i.toUInt32 Slot.size)
    return (key, value)
  return .object (Entries.ofPairs pairs)

/-- Reads the value of the slot at `address`. -/
def decodeAt (room : Nat) (address : UInt32) : Effect Code Value := do
  let kind ← kindAt address
  record (.decoding kind address)
  match kind with
  | .undefined => return .undefined
  | .null => return .null
  | .boolean b => return .boolean b
  | .int32 => return .number (.ofInt32 (← load (← views).buffer .i32 address))
  | .float64 => return .number (← load (← views).buffer .f64 address)
  | .string => return .string (← decodeText address)
  | .array =>
    match room with
    | 0 => throw (.tooDeep (← get).config.maxDepth)
    | room + 1 => decodeArray (decodeAt room) address
  | .object =>
    match room with
    | 0 => throw (.tooDeep (← get).config.maxDepth)
    | room + 1 => decodeObject (decodeAt room) address
  | .handle => getHandle (← readWord address 0)
  | .closure kind => decodeClosure kind address
  | .window => decodeWindow address
  | .raw => getRaw (← readWord address 0)

/-- Decodes the slot at `address`. -/
def decode (address : UInt32) : Effect Code Value := do
  decodeAt (← get).config.maxDepth address

/-- Decodes the slot at `address` and puts the value into the transfer slot. -/
def storeTransfer (address : UInt32) : Effect Code Unit := do
  park (← decode address)

end Crossing.Effect
