import Crossing.Instance.Basic
import Crossing.Value.Picture

/-!
# Traces

What a scenario shows: the result of each step with a snapshot of the instance after it, and the
events in between.
-/

namespace Crossing.Scenario

/-- The result of a step that did not fault. -/
inductive Result where
  | nothing
  | word (n : UInt32)
  /-- The owners of a handle, if it is live. -/
  | owners (n : Option UInt32)
  | truth (b : Bool)
  | picture (p : Picture)
  | text (s : String)
  | bytes (data : ByteArray)
  | element (kind : ElementKind) (x : kind.Carrier)
  | number (x : Double)
  | slotKind (kind : SlotKind)
  /-- A set of views, the length of its buffer, whether that is detached, and whether it is the
  guest's memory. -/
  | views (generation : Nat) (length : UInt32) (detached current : Bool)
  | window (w : Window) (detached : Bool)
  | closure (record : Closure)

/-- The counters of an instance after a step. -/
structure Snapshot where
  heapTop : UInt32
  pages : UInt32
  allocations : Nat
  allocatedBytes : Nat
  liveHandles : Nat
  freedBytes : Nat
  started : Bool
  dead : Bool

/-- The counters of an instance. -/
def Snapshot.ofInstance {Code : Type} (i : Instance Code) : Snapshot where
  heapTop := i.guest.heapTop
  pages := i.guest.pages
  allocations := i.arena.allocations
  allocatedBytes := i.arena.bytes
  liveHandles := i.handles.size
  freedBytes := i.guest.freed
  started := i.started
  dead := i.dead

/-- An entry of a trace. -/
inductive Entry where
  | event (e : Event)
  /-- A step at a nesting depth of bodies. Steps that end their body have no outcome. -/
  | step (label : String) (depth : Nat) (outcome : Option (Except Fault Result))
      (snapshot : Snapshot)

end Crossing.Scenario
