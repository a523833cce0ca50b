import Crossing.Word

/-!
# Faults

A fault is a broken contract between host and guest. Each constructor is one cause; `message` holds
all the wording. That a host capability fails is no fault: its failure travels as data.

Among the contracts are those of guest closures: a shared closure may be entered while it is
running, an exclusive one may not, and a single-use one is used up by its first call.

`overflow` is no answer to the guest but the end of the program. The host adds words without looking
at the carry in a few places, and its arithmetic is checked: a sum that is no word makes it panic.
Effects stop there as at any fault, and nothing that could run after one is a run of the program.
-/

namespace Crossing

/-- The calling contract of a closure. -/
inductive ClosureKind where
  /-- Any number of calls, also nested ones. -/
  | shared
  /-- Any number of calls, one at a time. -/
  | exclusive
  /-- At most one call. -/
  | once
  deriving DecidableEq, Inhabited

/-- The name of the contract in messages. -/
def ClosureKind.name : ClosureKind → String
  | .shared => "Fn"
  | .exclusive => "FnMut"
  | .once => "FnOnce"

/-- What may go wrong at the boundary. -/
inductive Fault where
  /-- The handle is not live. -/
  | unknownHandle (id : UInt32)
  /-- Nothing is registered under the raw id. -/
  | unknownRawValue (id : UInt32)
  /-- The tag byte of a slot is none of the slot kinds. -/
  | invalidKind (tag : UInt8)
  /-- The element kind of a typed view is none of the eight. -/
  | invalidElementKind (tag : UInt32)
  /-- A shared or exclusive closure was called after it was dropped. -/
  | alreadyDropped (kind : ClosureKind)
  /-- A single-use closure was called after it was called or dropped. -/
  | alreadyConsumed
  /-- A closure that admits one call at a time was entered again. -/
  | calledConcurrently (kind : ClosureKind)
  /-- The access does not lie inside the buffer. -/
  | outOfBounds (address length size : UInt32)
  /-- The address is no multiple of the element size. -/
  | misaligned (address alignment : UInt32)
  /-- The address lies below the base of the arena. -/
  | outsideArena (address base : UInt32)
  /-- The guest allocator could not serve the request. -/
  | allocationFailed (size : UInt32)
  /-- Arrays and objects nest deeper than the limit. -/
  | tooDeep (limit : Nat)
  /-- No function stands at this index of the guest's table. -/
  | unknownFunction (index : UInt32)
  /-- The guest trapped. -/
  | trap (message : String)
  /-- The guest aborted earlier. -/
  | dead
  /-- The entry point has run before. -/
  | alreadyStarted
  /-- No capability has this name. -/
  | unknownCapability (name : String)
  /-- A sum of the host's is no word: the host panics. -/
  | overflow
  deriving DecidableEq

namespace Fault

/-- The wording of a fault. -/
def message : Fault → String
  | unknownHandle id => s!"unknown handle id {id}"
  | unknownRawValue id => s!"unknown raw value id {id}"
  | invalidKind tag => s!"unrecognized value kind {tag}"
  | invalidElementKind tag => s!"unrecognized typed view element kind {tag}"
  | alreadyDropped kind => s!"already dropped {kind.name} function called"
  | alreadyConsumed => "already called or dropped FnOnce function called"
  | calledConcurrently kind => s!"{kind.name} function called multiple times concurrently"
  | outOfBounds address length size =>
    s!"memory access out of bounds: {address} + {length} > {size}"
  | misaligned address alignment => s!"misaligned access at {address} (alignment {alignment})"
  | outsideArena address base => s!"address {address} lies below arena base {base}"
  | allocationFailed size => s!"guest allocation of {size} bytes failed"
  | tooDeep limit => s!"value nesting exceeds depth limit {limit}"
  | unknownFunction index => s!"no guest function at table index {index}"
  | trap message => s!"guest trap: {message}"
  | dead => "guest instance aborted and cannot be resumed"
  | alreadyStarted => "bridge already started"
  | unknownCapability name => s!"unknown capability '{name}'"
  | overflow => "attempt to add with overflow"

/-- Whether the fault comes from using a closure against its contract. -/
def isClosureFault : Fault → Bool
  | alreadyDropped _ | alreadyConsumed | calledConcurrently _ => true
  | _ => false

end Fault

/-- The sum as the host computes it where it does not look at the carry. -/
def Word.sum (a b : UInt32) : Except Fault UInt32 :=
  match Word.add? a b with
  | some c => .ok c
  | none => .error .overflow

/-- A sum that is answered is the exact one. -/
theorem Word.sum_eq_ok_iff {a b c : UInt32} : sum a b = .ok c ↔ a.toNat + b.toNat = c.toNat := by
  rw [← add?_eq_some_iff, sum]
  cases add? a b <;> simp

/-- A sum that is a word is answered. -/
theorem Word.sum_of_lt {a b : UInt32} (h : a.toNat + b.toNat < UInt32.size) :
    sum a b = .ok (a + b) := by
  rw [sum_eq_ok_iff, UInt32.toNat_add]
  exact (Nat.mod_eq_of_lt h).symm

/-- A sum that is no word is not answered. -/
theorem Word.sum_of_le {a b : UInt32} (h : UInt32.size ≤ a.toNat + b.toNat) :
    sum a b = .error .overflow := by
  rw [sum, add?_eq_none_iff.2 h]

end Crossing
