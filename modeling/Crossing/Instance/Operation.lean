import Crossing.Instance.Decode
import Crossing.Instance.Encode

/-!
# Operations

What host code and guest code can do with an instance without entering another body of code.
`Operation Code α` is an operation that answers with an `α`; `Operation.run` is its meaning.
-/

namespace Crossing

namespace Effect

variable {Code : Type}

/-- Reports an abort and leaves the instance dead. The fault is the trap with which the guest is to
be unwound. -/
def abort {α : Type} (report : AbortReport) : Effect Code α := do
  record (.aborted report)
  modify fun i => { i with dead := true, transfer := none }
  throw (.trap report.text)

/-- Reads a text that the guest may leave out: a null pointer or an unreadable range is no text. -/
def readOptionalText (pointer length : UInt32) : Effect Code (Option String) := do
  if pointer = 0 then return none
  else tryCatch (some <$> loadText pointer length) fun _ => pure none

/-- Aborts with the texts that the guest points to. -/
def abortFromGuest {α : Type} (file fileLength line message messageLength : UInt32) :
    Effect Code α := do
  let file ← readOptionalText file fileLength
  let message ← readOptionalText message messageLength
  abort ⟨file.map fun name => (name, line), message⟩

/-- Puts a function at the end of the guest's table and gives its index. -/
def register (code : Code) : Effect Code UInt32 := do
  let index := (← get).guest.functions.size.toUInt32
  modify fun i =>
    { i with guest := { i.guest with functions := i.guest.functions.push (some code) } }
  return index

/-- Takes a function out of the guest's table, where the index is one. -/
def unregister (index : UInt32) : Effect Code Unit :=
  modify fun i =>
    { i with guest :=
      { i.guest with functions := i.guest.functions.setIfInBounds index.toNat none } }

/-- Sets the guest's entry point. -/
def setEntryPoint (code : Code) : Effect Code Unit :=
  modify fun i => { i with guest := { i.guest with entryPoint := some code } }

/-- Registers a capability. -/
def addCapability (name : String) (c : Capability Code) : Effect Code Unit :=
  modify fun i => { i with capabilities := i.capabilities.add name c }

end Effect

/-- The operations that enter no other body of code, with the type of their answer. -/
inductive Operation (Code : Type) : Type → Type
  /-- The published views, which are published now if they never were. -/
  | views : Operation Code Views
  /-- Publishes views anew. -/
  | publish : Operation Code Views
  /-- Grows guest memory. -/
  | grow (pages : UInt32) : Operation Code Unit
  /-- Allocates a block in the arena. -/
  | alloc (size : UInt32) : Operation Code UInt32
  /-- Asks the guest's allocator directly. -/
  | malloc (size : UInt32) : Operation Code UInt32
  /-- Gives a block back to the guest's allocator. -/
  | free (size : UInt32) : Operation Code Unit
  /-- Writes bytes into a buffer. -/
  | write (buffer : Nat) (address : UInt32) (data : ByteArray) : Operation Code Unit
  /-- Writes an element by byte address. -/
  | store (buffer : Nat) (k : ElementKind) (address : UInt32) (x : k.Carrier) :
      Operation Code Unit
  /-- Writes an element by index. -/
  | set (buffer : Nat) (k : ElementKind) (index : UInt32) (x : k.Carrier) : Operation Code Unit
  /-- Encodes a value into a slot. -/
  | encode (address : UInt32) (v : Value) : Operation Code Unit
  /-- Encodes items into a slot, as an array. -/
  | encodeArray (address : UInt32) (items : List Value) : Operation Code Unit
  /-- Allocates a slot and encodes a value into it. -/
  | prepare (v : Value) : Operation Code UInt32
  /-- Decodes a slot. -/
  | decode (address : UInt32) : Operation Code Value
  /-- Reads the kind of a slot. -/
  | kindAt (address : UInt32) : Operation Code SlotKind
  /-- Stages a text and writes its pointer and length. -/
  | storeText (address : UInt32) (text : String) : Operation Code Unit
  /-- Reads a text. -/
  | loadText (pointer length : UInt32) : Operation Code String
  /-- Decodes a slot into the transfer slot. -/
  | storeTransfer (address : UInt32) : Operation Code Unit
  /-- Takes the value out of the transfer slot. -/
  | takeTransfer : Operation Code (Option Value)
  /-- Lends a value. -/
  | acquire (v : Value) : Operation Code UInt32
  /-- Lends a copy of guest bytes. -/
  | acquireBytes (start stop : UInt32) : Operation Code UInt32
  /-- Adds an owner to a handle. -/
  | increment (id : UInt32) : Operation Code Unit
  /-- Takes an owner away from a handle. -/
  | decrement (id : UInt32) : Operation Code Unit
  /-- Resolves a handle. -/
  | getHandle (id : UInt32) : Operation Code Value
  /-- Registers a raw value. -/
  | registerRaw (v : Value) : Operation Code UInt32
  /-- Takes a raw value out of the registry. -/
  | unregisterRaw (id : UInt32) : Operation Code (Option Value)
  /-- Resolves a raw value. -/
  | getRaw (id : UInt32) : Operation Code Value
  /-- Wraps a guest closure. -/
  | wrap (kind : ClosureKind) (adapter pointer deallocator : UInt32) : Operation Code Value
  /-- Puts a function at the end of the guest's table. -/
  | register (code : Code) : Operation Code UInt32
  /-- Takes a function out of the guest's table. -/
  | unregister (index : UInt32) : Operation Code Unit
  /-- Sets the guest's entry point. -/
  | setEntryPoint (code : Code) : Operation Code Unit
  /-- Registers a capability. -/
  | addCapability (name : String) (c : Capability Code) : Operation Code Unit
  /-- Aborts the guest with a report. -/
  | abort (report : AbortReport) : Operation Code Unit
  /-- Aborts the guest with a report from its memory. -/
  | abortFromGuest (file fileLength line message messageLength : UInt32) : Operation Code Unit

/-- The meaning of an operation. -/
def Operation.run {Code α : Type} : Operation Code α → Effect Code α
  | views => Effect.views
  | publish => Effect.publish
  | grow pages => Effect.grow pages
  | alloc size => Effect.alloc size
  | malloc size => Effect.malloc size
  | free size => Effect.free size
  | write buffer address data => Effect.write buffer address data
  | store buffer k address x => Effect.store buffer k address x
  | set buffer k index x => Effect.setElement buffer k index x
  | encode address v => Effect.encode address v
  | encodeArray address items => Effect.encodeArray address items
  | prepare v => Effect.prepare v
  | decode address => Effect.decode address
  | kindAt address => Effect.kindAt address
  | storeText address text => Effect.storeText address text
  | loadText pointer length => Effect.loadText pointer length
  | storeTransfer address => Effect.storeTransfer address
  | takeTransfer => Effect.takeTransfer
  | acquire v => Effect.acquire v
  | acquireBytes start stop => Effect.acquireBytes start stop
  | increment id => Effect.increment id
  | decrement id => Effect.decrement id
  | getHandle id => Effect.getHandle id
  | registerRaw v => Effect.registerRaw v
  | unregisterRaw id => Effect.unregisterRaw id
  | getRaw id => Effect.getRaw id
  | wrap kind adapter pointer deallocator => Effect.wrap kind adapter pointer deallocator
  | register code => Effect.register code
  | unregister index => Effect.unregister index
  | setEntryPoint code => Effect.setEntryPoint code
  | addCapability name c => Effect.addCapability name c
  | abort report => Effect.abort report
  | abortFromGuest file fileLength line message messageLength =>
    Effect.abortFromGuest file fileLength line message messageLength

end Crossing
