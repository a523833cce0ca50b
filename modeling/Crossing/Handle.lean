import Std.Data.HashMap
import Crossing.Value.Basic

/-!
# Handles and raw values

Host objects are lent to the guest under numbers. A handle counts its owners on the guest's side,
and the entry goes when the last owner does. Acquiring a value that is already lent gives the same
handle again: values with an identity are found through an index, all others by comparing with the
values lent so far. Handle zero stands for undefined and null; no number is used twice.

Values that no identity leads back to, such as symbols, are registered under numbers of their own,
and nobody counts their owners: the guest registers and unregisters.

Ids and counts are words for the host. The tables number with natural numbers and count modulo
`2 ^ 32`, so that they say by themselves what comes after what; `overflows` tells where a word would
run over. The host panics there, and no effect asks a table for more than that.
-/

namespace Crossing

/-- A lent value and the number of its owners. -/
structure HandleEntry where
  value : Value
  owners : UInt32

/-- The table of lent values. -/
structure HandleTable where
  entries : Std.HashMap UInt32 HandleEntry := {}
  /-- The handles of the values with an identity. -/
  byIdentity : Std.HashMap Identity UInt32 := {}
  /-- The handles of the other values, oldest first. -/
  byValue : List (Value × UInt32) := []
  /-- The number of the next handle. The handle is its low 32 bits. -/
  nextId : Nat := 1

namespace HandleTable

/-- The handle that stands for no object. -/
def nullHandle : UInt32 := 0

/-- The table with nothing lent. -/
def empty : HandleTable := {}

/-- The handle under which the indices know a value. -/
def lookup (t : HandleTable) (v : Value) : Option UInt32 :=
  match v.identity? with
  | some key => t.byIdentity[key]?
  | none => (t.byValue.find? fun held => held.1.same v).map Prod.snd

/-- Lends a value under a new handle, the low 32 bits of the next number. -/
def create (t : HandleTable) (v : Value) : UInt32 × HandleTable :=
  let id := t.nextId.toUInt32
  (id, { entries := t.entries.insert id ⟨v, 1⟩
         byIdentity :=
          match v.identity? with
          | some key => t.byIdentity.insert key id
          | none => t.byIdentity
         byValue :=
          match v.identity? with
          | some _ => t.byValue
          | none => t.byValue ++ [(v, id)]
         nextId := t.nextId + 1 })

/-- Lends a value: under its handle with one more owner, or under a new one. The owners are counted
modulo `2 ^ 32`; `overflows` tells where the count or the number of a new handle runs over. -/
def acquire (t : HandleTable) (v : Value) : UInt32 × HandleTable :=
  if v.isNullish then (nullHandle, t)
  else
    match t.lookup v with
    | some id =>
      match t.entries[id]? with
      | some e => (id, { t with entries := t.entries.insert id { e with owners := e.owners + 1 } })
      | none => t.create v
    | none => t.create v

/-- Whether the handle is live. -/
def contains (t : HandleTable) (id : UInt32) : Bool := t.entries.contains id

/-- Whether a handle has as many owners as can be counted. -/
def isFull (t : HandleTable) (id : UInt32) : Bool :=
  match t.entries[id]? with
  | some e => e.owners = Word.max
  | none => false

/-- Whether lending a value takes the count of its owners, or else the next number, out of the
words. The number after the last handle has to be a word, too. -/
def overflows (t : HandleTable) (v : Value) : Bool :=
  if v.isNullish then false
  else
    match t.lookup v with
    | some id => if t.contains id then t.isFull id else UInt32.size ≤ t.nextId + 1
    | none => UInt32.size ≤ t.nextId + 1

/-- The value of a handle. -/
def get (t : HandleTable) (id : UInt32) : Except Fault Value :=
  if id = nullHandle then .ok .null
  else
    match t.entries[id]? with
    | some e => .ok e.value
    | none => .error (.unknownHandle id)

/-- Adds an owner. They are counted modulo `2 ^ 32`; `isFull` tells where the count runs over. -/
def increment (t : HandleTable) (id : UInt32) : Except Fault HandleTable :=
  match t.entries[id]? with
  | some e => .ok { t with entries := t.entries.insert id { e with owners := e.owners + 1 } }
  | none => .error (.unknownHandle id)

/-- Forgets a handle and its place in the indices. -/
def erase (t : HandleTable) (id : UInt32) (v : Value) : HandleTable :=
  { t with
    entries := t.entries.erase id
    byIdentity :=
      match v.identity? with
      | some key => t.byIdentity.erase key
      | none => t.byIdentity
    byValue :=
      match v.identity? with
      | some _ => t.byValue
      | none => t.byValue.filter fun held => held.2 != id }

/-- Takes an owner away; the entry goes with the last one. -/
def decrement (t : HandleTable) (id : UInt32) : Except Fault HandleTable :=
  match t.entries[id]? with
  | some e =>
    if 0 < e.owners - 1 then
      .ok { t with entries := t.entries.insert id { e with owners := e.owners - 1 } }
    else .ok (t.erase id e.value)
  | none => .error (.unknownHandle id)

/-- Gives one acquisition back. -/
def release (t : HandleTable) (id : UInt32) : Except Fault HandleTable := t.decrement id

/-- The number of owners of a live handle. -/
def owners? (t : HandleTable) (id : UInt32) : Option UInt32 := (t.entries[id]?).map (·.owners)

/-- The number of live handles. -/
def size (t : HandleTable) : Nat := t.entries.size

end HandleTable

/-- The registry of raw values. -/
structure RawRegistry where
  values : Std.HashMap UInt32 Value := {}
  /-- How many values were registered so far. The id given out last is its low 32 bits. -/
  lastId : Nat := 0

namespace RawRegistry

/-- The registry with nothing in it. -/
def empty : RawRegistry := {}

/-- Whether the next number is no word. -/
def isFull (r : RawRegistry) : Bool := UInt32.size ≤ r.lastId + 1

/-- Registers a value under a new number, the low 32 bits of the count. -/
def register (r : RawRegistry) (v : Value) : UInt32 × RawRegistry :=
  let id := (r.lastId + 1).toUInt32
  (id, { values := r.values.insert id v, lastId := r.lastId + 1 })

/-- The value of a number, and the registry without it. -/
def unregister (r : RawRegistry) (id : UInt32) : Option Value × RawRegistry :=
  (r.values[id]?, { r with values := r.values.erase id })

/-- The value of a number. -/
def get (r : RawRegistry) (id : UInt32) : Except Fault Value :=
  match r.values[id]? with
  | some v => .ok v
  | none => .error (.unknownRawValue id)

/-- The number of registered values. -/
def size (r : RawRegistry) : Nat := r.values.size

end RawRegistry

end Crossing
