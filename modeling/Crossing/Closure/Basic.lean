import Crossing.Fault

/-!
# Wrapped guest closures

A guest closure crosses as three words: the adapter that calls it, a function pointer, and the
deallocator. The host keeps a record of each one it was given. A dropped closure stays dropped; a
pointer of zero means that the guest has its closure back.
-/

namespace Crossing

/-- The record of one guest closure. -/
structure Closure where
  kind : ClosureKind
  /-- The table index of the function that calls the closure. -/
  adapter : UInt32
  /-- The guest's function pointer, or zero once the closure was used up or dropped. -/
  pointer : UInt32
  /-- The table index of the function that frees the closure. -/
  deallocator : UInt32
  /-- The number of calls that are running. The host counts them in 32 bits, but each of them is a
  frame on its stack, which is exhausted long before. -/
  inFlight : Nat := 0
  /-- A drop waits for the running calls to end. -/
  dropQueued : Bool := false
  dropped : Bool := false
  deriving Inhabited

namespace Closure

/-- The name of the state a closure is in. -/
def stateName (c : Closure) : String := if c.dropped then "Dropped" else "Live"

/-- Faults when the closure can no longer be called. -/
def checkLive (c : Closure) : Except Fault Unit :=
  if c.pointer = 0 || c.dropQueued then
    match c.kind with
    | .once => .error .alreadyConsumed
    | kind => .error (.alreadyDropped kind)
  else .ok ()

/-- Faults when a call of the closure is running. -/
def checkExclusive (c : Closure) : Except Fault Unit :=
  if c.inFlight = 0 then .ok () else .error (.calledConcurrently c.kind)

/-- The closure as text. -/
def text (c : Closure) : String :=
  s!"Function \x7b kind: {c.kind.name}, pointer: {c.pointer}, state: {c.stateName} \x7d"

end Closure

end Crossing
