import Crossing.Memory.Window

/-!
# Stores

A store keeps every buffer there has been, by number, the detached ones too: views and windows that
were made before the memory grew still refer to them. Growth appends the new buffer and detaches the
old one.
-/

namespace Crossing

/-- The buffers by number. -/
structure Store where
  buffers : Array Buffer

/-- A set of typed views on one buffer. -/
structure Views where
  /-- The number of the buffer. -/
  buffer : Nat
  /-- How many sets were published before this one. The host counts in 64 bits, and each growth
  publishes one set: no run grows memory `2 ^ 64` times. -/
  generation : Nat
  deriving DecidableEq

namespace Store

/-- A store with one buffer of `size` zero bytes. -/
def ofSize (size : Nat) : Store := ⟨#[.zeros size]⟩

/-- The buffer of a number; a number that names none reads as a detached buffer. -/
def buffer (s : Store) (id : Nat) : Buffer := s.buffers.getD id .gone

/-- Puts `data` at `address` of a buffer, where it fits. -/
def blit (s : Store) (id : Nat) (address : UInt32) (data : ByteArray) : Store :=
  ⟨s.buffers.modify id (·.blit address data)⟩

/-- Writes `data` at `address` of a buffer. -/
def write (s : Store) (id : Nat) (address : UInt32) (data : ByteArray) : Except Fault Store := do
  (s.buffer id).check address data.size
  return s.blit id address data

/-- Writes an element by index. -/
def set (s : Store) (id : Nat) (k : ElementKind) (index : UInt32) (x : k.Carrier) :
    Except Fault Store := do
  let address ← (s.buffer id).elementAddress k index
  s.write id address (k.encode x)

/-- Writes the element at a byte address. -/
def store (s : Store) (id : Nat) (k : ElementKind) (address : UInt32) (x : k.Carrier) :
    Except Fault Store := do
  s.set id k (← Buffer.elementIndex k address) x

/-- Moves the bytes of a buffer to a new one of at least `size` bytes, which becomes the last one of
the store. -/
def grow (s : Store) (id size : Nat) : Store :=
  let grown := (s.buffer id).extended size
  ⟨(s.buffers.setIfInBounds id .gone).push grown⟩

/-- The number of the buffer made last. -/
def newest (s : Store) : Nat := s.buffers.size - 1

/-- Writing into one buffer leaves the others as they are. -/
theorem buffer_blit {s : Store} {id : Nat} (h : id < s.buffers.size) (address : UInt32)
    (data : ByteArray) (j : Nat) :
    (s.blit id address data).buffer j =
      if id = j then (s.buffer j).blit address data else s.buffer j := by
  unfold buffer blit
  simp only [Array.getD_eq_getD_getElem?, Array.getElem?_modify]
  split
  · rename_i hj
    subst hj
    simp [Array.getElem?_eq_getElem h]
  · rfl

/-- Growth leaves the old buffer detached and every other one as it was. -/
theorem buffer_grow {s : Store} {id : Nat} (h : id < s.buffers.size) (size j : Nat)
    (hj : j < s.buffers.size) :
    (s.grow id size).buffer j = if id = j then .gone else s.buffer j := by
  unfold buffer grow
  simp only [Array.getD_eq_getD_getElem?, Array.getElem?_push, Array.size_setIfInBounds,
    Nat.ne_of_lt hj, if_false, Array.getElem?_setIfInBounds]
  split <;> simp_all

/-- The new buffer holds the old bytes, followed by zeros. -/
theorem buffer_grow_newest (s : Store) (id size : Nat) :
    (s.grow id size).buffer (s.grow id size).newest = (s.buffer id).extended size := by
  simp [buffer, grow, newest, Array.getElem_push]

end Store

end Crossing
