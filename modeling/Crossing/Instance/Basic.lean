import Crossing.Capability
import Crossing.Handle
import Crossing.Journal
import Crossing.Memory.Store
import Crossing.Text.Transcoder

/-!
# Instances

An instance is one guest with everything the host keeps about it: the published views, the tables of
lent and registered values, the wrapped closures, the transfer slot, the capabilities. `Code` stands
for whatever bodies of guest functions and capabilities are; nothing here looks into one. `Effect`
is an action on an instance that may fault; what it did before the fault stays done.

Payloads of variable length are staged in blocks that the guest allocator hands out. Tables of
arrays and objects are given as offsets from the base of the arena; `Arena.offset` and
`Arena.resolve` go between offsets and addresses. The arena also counts what was allocated.
-/

namespace Crossing

/-- How an instance marshals values. -/
structure Config where
  features : Features
  /-- How deep arrays and objects may nest. -/
  maxDepth : Nat
  /-- The address that arena offsets count from. -/
  arenaBase : UInt32

namespace Config

/-- The configuration of a host with transcoders of its own. -/
def standard : Config := ⟨.all, 128, 0⟩

/-- The configuration of a host with none. -/
def portable : Config := { standard with features := .none }

end Config

/-- The base that offsets count from, and what was allocated so far. The host counts in 64 bits. No
run gets there: the blocks lie apart in an address space of `2 ^ 32` bytes, and each takes a step of
its own. -/
structure Arena where
  base : UInt32
  /-- How many blocks were allocated. -/
  allocations : Nat := 0
  /-- How many bytes were asked for. -/
  bytes : Nat := 0

namespace Arena

/-- The offset of an address. -/
def offset (a : Arena) (address : UInt32) : Except Fault UInt32 :=
  match Word.sub? address a.base with
  | some n => .ok n
  | none => .error (.outsideArena address a.base)

/-- The address of an offset, or the last address where it would lie above the address space. -/
def resolve (a : Arena) (offset : UInt32) : UInt32 := Word.addSat a.base offset

/-- Counts a block of `size` bytes. -/
def count (a : Arena) (size : UInt32) : Arena :=
  { a with allocations := a.allocations + 1, bytes := a.bytes + size.toNat }

end Arena

/-- The guest: its memory, its allocator and its table of functions. -/
structure Guest (Code : Type) where
  store : Store
  /-- The number of the buffer that is the guest's memory now. -/
  memory : Nat
  /-- The next address that the allocator would hand out. -/
  heapTop : UInt32 := 16
  maxPages : UInt32 := 65536
  /-- The table of functions. Index zero is the null function. -/
  functions : Array (Option Code) := #[none]
  entryPoint : Option Code := none
  /-- The bytes that were given back to the allocator. The host counts them in 64 bits, which lasts
  for `2 ^ 32` blocks of any size. -/
  freed : Nat := 0
  /-- The number of requests after which the allocator answers with the null address. -/
  allowance : Option Nat := none
  /-- The number of requests so far. -/
  requests : Nat := 0

/-- A guest and what the host keeps about it. -/
structure Instance (Code : Type) where
  guest : Guest Code
  config : Config
  arena : Arena
  views : Option Views := none
  handles : HandleTable := .empty
  raw : RawRegistry := .empty
  /-- The wrapped closures by number. -/
  closures : Array Closure := #[]
  /-- The number of host objects made from guest bytes. -/
  copies : Nat := 0
  /-- The value on its way out of a guest function. -/
  transfer : Option Value := none
  capabilities : Capabilities Code := {}
  started : Bool := false
  dead : Bool := false
  journal : Array Event := #[]

/-- The size of a page of guest memory. -/
def pageSize : UInt32 := 65536

/-- A guest with `pages` pages of memory that may grow to `maxPages`. -/
def Guest.ofPages (Code : Type) (pages maxPages : UInt32) : Guest Code :=
  { store := .ofSize (pages.toNat * pageSize.toNat), memory := 0, maxPages }

section
variable {Code : Type}

/-- The buffer that is the guest's memory now. -/
def Guest.buffer (g : Guest Code) : Buffer := g.store.buffer g.memory

/-- The number of pages of guest memory. -/
def Guest.pages (g : Guest Code) : UInt32 := g.buffer.length / pageSize

/-- A fresh instance. -/
def Instance.ofGuest (guest : Guest Code) (config : Config) : Instance Code :=
  { guest, config, arena := { base := config.arenaBase } }

/-- The record of a closure. -/
def Instance.closure (i : Instance Code) (id : Nat) : Closure := i.closures.getD id default

end

/-- An action on an instance. -/
abbrev Effect (Code : Type) := ExceptT Fault (StateM (Instance Code))

namespace Effect

variable {Code : Type}

/-- Writes an event into the journal. -/
def record (e : Event) : Effect Code Unit :=
  modify fun i => { i with journal := i.journal.push e }

/-- Faults when the guest has aborted. -/
def ensureAlive : Effect Code Unit := do
  if (← get).dead then throw .dead

/-! ## Views and memory -/

/-- Publishes views on the guest's memory. -/
def publish : Effect Code Views := do
  let i ← get
  let generation :=
    match i.views with
    | some v => v.generation + 1
    | none => 0
  let views : Views := ⟨i.guest.memory, generation⟩
  record (.published generation i.guest.buffer.length)
  modify fun i => { i with views := some views }
  return views

/-- The published views; they are published now if they never were. -/
def views : Effect Code Views := do
  match (← get).views with
  | some v => return v
  | none => publish

/-- The buffer of a number. -/
def buffer (id : Nat) : Effect Code Buffer := return (← get).guest.store.buffer id

/-- Reads bytes of a buffer. -/
def read (id : Nat) (address : UInt32) (n : Nat) : Effect Code ByteArray := do
  (← buffer id).read address n

/-- Writes bytes into a buffer. -/
def write (id : Nat) (address : UInt32) (data : ByteArray) : Effect Code Unit := do
  (← buffer id).check address data.size
  modify fun i => { i with guest := { i.guest with store := i.guest.store.blit id address data } }

/-- Reads an element of a buffer by byte address. -/
def load (id : Nat) (k : ElementKind) (address : UInt32) : Effect Code k.Carrier := do
  (← buffer id).load k address

/-- Reads an element of a buffer by index. -/
def getElement (id : Nat) (k : ElementKind) (index : UInt32) : Effect Code k.Carrier := do
  (← buffer id).get k index

/-- Writes an element of a buffer by index. -/
def setElement (id : Nat) (k : ElementKind) (index : UInt32) (x : k.Carrier) :
    Effect Code Unit := do
  let address ← (← buffer id).elementAddress k index
  write id address (k.encode x)

/-- Writes an element of a buffer by byte address. -/
def store (id : Nat) (k : ElementKind) (address : UInt32) (x : k.Carrier) : Effect Code Unit := do
  setElement id k (← Buffer.elementIndex k address) x

/-! ## Allocation -/

/-- Grows guest memory by `delta` pages and publishes it. The sum of pages is computed before it is
compared with the limit, and a sum that is no word makes the host panic. -/
def grow (delta : UInt32) : Effect Code Unit := do
  let g := (← get).guest
  let pages ← Word.sum g.pages delta
  if g.maxPages < pages then
    throw (.allocationFailed (Word.mulSat delta pageSize))
  modify fun i =>
    let grown := i.guest.store.grow i.guest.memory (pages.toNat * pageSize.toNat)
    { i with guest := { i.guest with store := grown, memory := grown.newest } }
  record (.grown pages)
  discard publish

/-- The first multiple of eight at or above an address. The host adds eight before it takes one away
again, so that it panics within the last eight addresses. -/
def aligned (address : UInt32) : Except Fault UInt32 := do
  let next ← Word.sum address 8
  return (next - 1) / 8 * 8

/-- The number of pages that hold `n` bytes. -/
def pagesFor (n : Nat) : UInt32 := ((n + pageSize.toNat - 1) / pageSize.toNat).toUInt32

/-- Hands out the next free block, growing memory by what is missing. Only a refusal can be caught
here: the pages that are and those that are missing are `131071` at most. -/
def bump (size : UInt32) : Effect Code UInt32 := do
  let g := (← get).guest
  let start ← aligned g.heapTop
  match Word.add? start size with
  | none => throw (.allocationFailed size)
  | some stop =>
    let length := g.buffer.length
    if length < stop then
      tryCatch (grow (pagesFor (stop - length).toNat)) fun _ => throw (.allocationFailed size)
    modify fun i => { i with guest := { i.guest with heapTop := stop } }
    return start

/-- Asks the guest's allocator for a block. Once its allowance is used up it answers with the null
address and touches nothing. -/
def malloc (size : UInt32) : Effect Code UInt32 := do
  let g := (← get).guest
  modify fun i => { i with guest := { i.guest with requests := i.guest.requests + 1 } }
  match g.allowance with
  | some n => if n ≤ g.requests then return 0 else bump size
  | none => bump size

/-- Gives a block back to the guest's allocator, which only counts it. -/
def free (size : UInt32) : Effect Code Unit :=
  modify fun i => { i with guest := { i.guest with freed := i.guest.freed + size.toNat } }

/-- Allocates a block in the arena. The null address is no block, except of no bytes. -/
def alloc (size : UInt32) : Effect Code UInt32 := do
  let address ← malloc size
  if address = 0 && 0 < size then throw (.allocationFailed size)
  modify fun i => { i with arena := i.arena.count size }
  record (.allocated size address)
  return address

/-! ## Handles, raw values and closures -/

/-- Lends a value to the guest. The host panics where the count of owners or the next number would
overflow, and the table is as it was then. -/
def acquire (v : Value) : Effect Code UInt32 := do
  let i ← get
  if i.handles.overflows v then throw .overflow
  let (id, handles) := i.handles.acquire v
  modify fun i => { i with handles }
  match handles.owners? id with
  | none => return id
  | some owners =>
    record (if owners = 1 then .lent id v.typeName else .lentAgain id owners)
    return id

/-- Lends a copy of the guest bytes from `start` up to but not including `stop`. -/
def acquireBytes (start stop : UInt32) : Effect Code UInt32 := do
  match Word.sub? stop start with
  | none => throw (.outOfBounds start 0 stop)
  | some n =>
    let content ← read (← views).buffer start n.toNat
    let serial := (← get).copies
    modify fun i => { i with copies := serial + 1 }
    acquire (.reference (.bytes serial content))

/-- Adds an owner to a handle. The host panics where the count would overflow. -/
def increment (id : UInt32) : Effect Code Unit := do
  let i ← get
  if i.handles.isFull id then throw .overflow
  let handles ← i.handles.increment id
  modify fun i => { i with handles }

/-- Takes an owner away from a handle. -/
def decrement (id : UInt32) : Effect Code Unit := do
  let handles ← (← get).handles.decrement id
  modify fun i => { i with handles }
  unless handles.contains id do record (.givenBack id)

/-- Resolves a handle. -/
def getHandle (id : UInt32) : Effect Code Value := do
  (← get).handles.get id

/-- Registers a raw value. The host panics where the next number would overflow. -/
def registerRaw (v : Value) : Effect Code UInt32 := do
  let i ← get
  if i.raw.isFull then throw .overflow
  let (id, raw) := i.raw.register v
  modify fun i => { i with raw }
  return id

/-- Takes a raw value out of the registry. -/
def unregisterRaw (id : UInt32) : Effect Code (Option Value) := do
  let (v, raw) := (← get).raw.unregister id
  modify fun i => { i with raw }
  return v

/-- Resolves a raw value. -/
def getRaw (id : UInt32) : Effect Code Value := do
  (← get).raw.get id

/-- Wraps a guest closure. -/
def wrap (kind : ClosureKind) (adapter pointer deallocator : UInt32) : Effect Code Value := do
  let c : Closure := { kind, adapter, pointer, deallocator }
  let id := (← get).closures.size
  record (.wrapped id c)
  modify fun i => { i with closures := i.closures.push c }
  return .closure id

/-- Changes the record of a closure. -/
def updateClosure (id : Nat) (f : Closure → Closure) : Effect Code Unit :=
  modify fun i => { i with closures := i.closures.modify id f }

/-! ## The transfer slot -/

/-- Puts a value into the transfer slot. -/
def park (v : Value) : Effect Code Unit := do
  record (.parked v)
  modify fun i => { i with transfer := some v }

/-- Takes the value out of the transfer slot. -/
def takeTransfer : Effect Code (Option Value) := do
  match (← get).transfer with
  | none => return none
  | some v =>
    record (.taken v)
    modify fun i => { i with transfer := none }
    return some v

end Effect

end Crossing
