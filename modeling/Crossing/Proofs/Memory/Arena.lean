import Crossing.Instance.Basic

/-!
# Offsets of the arena

Offsets and addresses answer to each other wherever both are words (`Arena.Exact`): an address below
the base has no offset, and an offset that leads above the address space has no address of its own
and resolves to the last one, without wrapping around.
-/

namespace Crossing.Arena

variable {a : Arena} {address n : UInt32}

/-- The offset of an address is how far it lies behind the base. -/
theorem offset_eq_ok_iff : a.offset address = .ok n ↔ address.toNat = a.base.toNat + n.toNat := by
  rw [← Word.sub?_eq_some_iff, offset]
  cases Word.sub? address a.base <;> simp

/-- An address at or behind the base has an offset. -/
theorem offset_of_le (h : a.base.toNat ≤ address.toNat) :
    a.offset address = .ok (address - a.base) := by
  rw [offset, Word.sub?, if_pos h]

/-- One below it lies outside of the arena. -/
theorem offset_of_lt (h : address.toNat < a.base.toNat) :
    a.offset address = .error (.outsideArena address a.base) := by
  rw [offset, Word.sub?, if_neg (Nat.not_le.2 h)]

/-- An offset leads to the exact address where that is a word. -/
theorem resolve_of_lt (h : a.base.toNat + n.toNat < UInt32.size) :
    (a.resolve n).toNat = a.base.toNat + n.toNat := by
  have hsum := UInt32.toNat_ofNat_of_lt' h
  rw [resolve, Word.addSat, Word.add?_eq_some_iff.2 hsum.symm, Option.getD_some, hsum]

/-- An offset that leads above the address space resolves to the last address. -/
theorem resolve_of_size_le (h : UInt32.size ≤ a.base.toNat + n.toNat) :
    a.resolve n = Word.max := by
  rw [resolve, Word.addSat, Word.add?, Word.ofNat?, dif_neg (Nat.not_lt.2 h), Option.getD_none]

/-- An address is had back from its offset. -/
theorem resolve_of_offset (h : a.offset address = .ok n) : a.resolve n = address := by
  rw [offset_eq_ok_iff] at h
  rw [← UInt32.toNat_inj, h]
  exact resolve_of_lt (h ▸ address.toNat_lt)

/-- Offsets and addresses answer to each other from the base of the arena up to the end of the
address space. -/
structure Exact (a : Arena) : Prop where
  resolve_offset : ∀ address, a.base ≤ address →
    ∃ n, a.offset address = .ok n ∧ a.resolve n = address
  offset_below : ∀ address, address < a.base →
    a.offset address = .error (.outsideArena address a.base)
  offset_resolve : ∀ n : UInt32, a.base.toNat + n.toNat < UInt32.size →
    a.offset (a.resolve n) = .ok n

/-- So it is for every arena. -/
theorem exact (a : Arena) : a.Exact where
  resolve_offset _ h :=
    have hn := offset_of_le (UInt32.le_iff_toNat_le.1 h)
    ⟨_, hn, resolve_of_offset hn⟩
  offset_below _ h := offset_of_lt (UInt32.lt_iff_toNat_lt.1 h)
  offset_resolve _ h := offset_eq_ok_iff.2 (resolve_of_lt h)

end Crossing.Arena
