import Crossing.Proofs.Codec.Agreement

/-!
# The slots of a host

A host allocates blocks, prepares and encodes values, and decodes slots. `Slots` is what it knows of
its slots after a run of such accesses: the blocks that it was given, and those among them whose
latest encoding came to its end. `Slots.Kept` is what it relies on: its slots lie apart from one
another, and what a filled slot leads to lies apart from all of them. A host that encodes into its
own slots only, and decodes filled ones only, keeps this at every access (`Slots.Kept.access`),
whether that succeeds or fails.
-/

namespace Crossing

open Effect

/-! ## What a host does with memory -/

/-- What a host does with memory. -/
inductive Access where
  /-- Allocates a block. -/
  | alloc (size : UInt32)
  /-- Encodes a value into a slot of its own. -/
  | prepare (v : Value)
  /-- Encodes a value into a slot. -/
  | encode (address : UInt32) (v : Value)
  /-- Decodes a slot. -/
  | decode (address : UInt32)

/-- What the host is answered. -/
inductive Yield where
  | address (a : UInt32)
  | done
  | value (v : Value)

/-- The operation behind an access. -/
def Access.effect {Code : Type} : Access → Effect Code Yield
  | alloc size => .address <$> (Operation.alloc size).run
  | prepare v => .address <$> (Operation.prepare v).run
  | encode address v => (fun _ => .done) <$> (Operation.encode address v).run
  | decode address => .value <$> (Operation.decode address).run

/-- The slots of a host: the blocks that it was given, where they can hold a slot, and those among
them whose latest encoding came to its end. -/
structure Slots where
  given : List UInt32 := []
  filled : List UInt32 := []

namespace Slots

/-- The host encodes into slots that it was given, and decodes those that are filled. -/
def Allows (s : Slots) : Access → Prop
  | .alloc _ | .prepare _ => True
  | .encode address _ => address ∈ s.given
  | .decode address => address ∈ s.filled

/-- The slots after an access. -/
def after (s : Slots) : Access → Except Fault Yield → Slots
  | .alloc size, .ok (.address a) =>
    if Slot.size ≤ size then { s with given := a :: s.given } else s
  | .prepare _, .ok (.address a) => ⟨a :: s.given, a :: s.filled⟩
  | .encode address _, .ok _ => { s with filled := address :: s.filled.filter (· ≠ address) }
  | .encode address _, .error _ => { s with filled := s.filled.filter (· ≠ address) }
  | _, _ => s

end Slots

section
variable {Code : Type} {s : Slots} {i i' j : Instance Code}

/-! ## Slots stay as they are -/

/-- The slots lie below `top` and apart from one another, and what the filled ones lead to lies
there too, apart from all slots. -/
structure Slots.Kept (s : Slots) (top : Nat) (i : Instance Code) : Prop where
  sound : i.Sound
  pos : 16 ≤ top
  top_le : top ≤ i.guest.heapTop.toNat
  inside : ∀ a ∈ s.given, 16 ≤ a.toNat ∧ a.toNat + 16 ≤ top
  apart : ∀ a ∈ s.given, ∀ b ∈ s.given, a ≠ b →
    a.toNat + 16 ≤ b.toNat ∨ b.toNat + 16 ≤ a.toNat
  filled : ∀ a ∈ s.filled, a ∈ s.given ∧ ∃ v lo hi, i.Staged i.config.maxDepth lo hi a v ∧
    hi ≤ top ∧ ∀ b ∈ s.given, b.toNat + 16 ≤ lo ∨ hi ≤ b.toNat

namespace Slots.Kept

variable {top top' : Nat} {a : UInt32}

/-- A host that was given no slot keeps none. -/
theorem empty (hi : i.Sound) : Slots.Kept {} i.guest.heapTop.toNat i where
  sound := hi
  pos := hi.guest.heap_pos
  top_le := Nat.le_refl _
  inside := fun _ h => absurd h List.not_mem_nil
  apart := fun _ h => absurd h List.not_mem_nil
  filled := fun _ h => absurd h List.not_mem_nil

/-- The heap reaches behind each slot that was given. -/
theorem reaches (h : s.Kept top i) (ha : a ∈ s.given) : i.Reaches (a.toNat + 13) := by
  obtain ⟨hpos, hle⟩ := h.inside a ha
  have htop := h.top_le
  exact ⟨by omega, by omega⟩

/-- The bound on the slots may be raised up to the heap's top. -/
theorem raise (h : s.Kept top i) (hle : top ≤ top') (htop : top' ≤ i.guest.heapTop.toNat) :
    s.Kept top' i where
  sound := h.sound
  pos := Nat.le_trans h.pos hle
  top_le := htop
  inside := fun a ha => ⟨(h.inside a ha).1, Nat.le_trans (h.inside a ha).2 hle⟩
  apart := h.apart
  filled := by
    intro a ha
    obtain ⟨hgiven, v, lo, hi, hstaged, hhi, hbeside⟩ := h.filled a ha
    exact ⟨hgiven, v, lo, hi, hstaged, Nat.le_trans hhi hle, hbeside⟩

/-- What is written from `top` on touches no slot. -/
theorem frame (h : s.Kept top i) (hg : Grows (Set.Ici top) i i') : s.Kept top i' where
  sound := hg.sound
  pos := h.pos
  top_le := Nat.le_trans h.top_le hg.heapTop
  inside := h.inside
  apart := h.apart
  filled := by
    intro a ha
    obtain ⟨hgiven, v, lo, hi, hstaged, hhi, hbeside⟩ := h.filled a ha
    have hstop := (h.inside a hgiven).2
    refine ⟨hgiven, v, lo, hi, ?_, hhi, hbeside⟩
    rw [hg.config]
    exact hstaged.mono h.sound hg _ _ _ _ v (.ici (by omega)) (.ici hhi)

/-- Growth touches no slot. -/
theorem grow (h : s.Kept i.guest.heapTop.toNat i) (hg : Grows ∅ i i') :
    s.Kept i'.guest.heapTop.toNat i' :=
  (h.frame (hg.mono (Set.empty_subset _))).raise hg.heapTop (Nat.le_refl _)

/-- What is written into one slot and from `top` on touches no other slot. -/
theorem forget (h : s.Kept top i) (ha : a ∈ s.given)
    (hg : Grows (Set.Ico a.toNat (a.toNat + 13) ∪ Set.Ici top) i i') :
    Slots.Kept { s with filled := s.filled.filter (· ≠ a) } top i' where
  sound := hg.sound
  pos := h.pos
  top_le := Nat.le_trans h.top_le hg.heapTop
  inside := h.inside
  apart := h.apart
  filled := by
    intro b hb
    obtain ⟨hmem, hne⟩ := List.mem_filter.1 hb
    obtain ⟨hgiven, v, lo, hi, hstaged, hhi, hbeside⟩ := h.filled b hmem
    have hstop := (h.inside b hgiven).2
    have hapart := h.apart a ha b hgiven (Ne.symm (of_decide_eq_true hne))
    have hslot := hbeside a ha
    refine ⟨hgiven, v, lo, hi, ?_, hhi, hbeside⟩
    rw [hg.config]
    refine hstaged.mono h.sound hg _ _ _ _ v ?_ ?_
    · exact .union (.ico (by omega)) (.ici (by omega))
    · exact .union (.ico (by omega)) (.ici hhi)

/-- A block behind `top` is one more slot. -/
theorem give (h : s.Kept top i) (hfresh : top ≤ a.toNat) (hstop : a.toNat + 16 ≤ top')
    (htop : top' ≤ i.guest.heapTop.toNat) :
    Slots.Kept { s with given := a :: s.given } top' i := by
  have hpos := h.pos
  have hraised := h.raise (by omega) htop
  have hbefore : ∀ b ∈ s.given, b.toNat + 16 ≤ a.toNat := fun b hb =>
    Nat.le_trans (h.inside b hb).2 hfresh
  refine ⟨h.sound, hraised.pos, htop, ?_, ?_, ?_⟩
  · intro b hb
    rcases List.mem_cons.1 hb with rfl | hb
    · exact ⟨by omega, hstop⟩
    · exact hraised.inside b hb
  · intro b hb c hc hne
    rcases List.mem_cons.1 hb with rfl | hb'
    · rcases List.mem_cons.1 hc with rfl | hc'
      · exact absurd rfl hne
      · exact .inr (hbefore c hc')
    · rcases List.mem_cons.1 hc with rfl | hc'
      · exact .inl (hbefore b hb')
      · exact h.apart b hb' c hc' hne
  · intro b hb
    obtain ⟨hgiven, v, lo, hi, hstaged, hhi, hbeside⟩ := h.filled b hb
    refine ⟨List.mem_cons_of_mem _ hgiven, v, lo, hi, hstaged, by omega, fun c hc => ?_⟩
    rcases List.mem_cons.1 hc with rfl | hc'
    · exact .inr (Nat.le_trans hhi hfresh)
    · exact hbeside c hc'

/-- A slot that leads to a staged value apart from all slots is filled. -/
theorem fill (h : s.Kept top i) (ha : a ∈ s.given) {v : Value} {lo hi : Nat}
    (hstaged : i.Staged i.config.maxDepth lo hi a v) (hhi : hi ≤ top)
    (hbeside : ∀ b ∈ s.given, b.toNat + 16 ≤ lo ∨ hi ≤ b.toNat) :
    Slots.Kept { s with filled := a :: s.filled } top i :=
  { h with
    filled := by
      intro b hb
      rcases List.mem_cons.1 hb with rfl | hb'
      · exact ⟨ha, v, lo, hi, hstaged, hhi, hbeside⟩
      · exact h.filled b hb' }

/-! ## Accesses -/

/-- A block that the host is given lies apart from what it has. -/
theorem alloc (h : s.Kept i.guest.heapTop.toNat i) {size : UInt32} {r : Except Fault Yield}
    (hexec : exec (Access.alloc size).effect i = (r, i')) :
    (s.after (.alloc size) r).Kept i'.guest.heapTop.toNat i' := by
  obtain ⟨r, halloc, rfl⟩ := exec_map_eq_iff.1 hexec
  obtain ⟨hg, hblock⟩ := ensures_alloc (W := Set.Ici i.guest.heapTop.toNat) h.sound size
  have hexec' : exec (Effect.alloc size) i = (r, i') := halloc
  rw [hexec'] at hg hblock
  cases r with
  | error x => exact (h.frame hg).raise hg.heapTop (Nat.le_refl _)
  | ok a =>
    have h16 : Slot.size.toNat = 16 := rfl
    obtain ⟨hstart, hstop, -, -⟩ := hblock rfl
    dsimp only at hstop
    show Slots.Kept (if Slot.size ≤ size then { s with given := a :: s.given } else s) _ i'
    split
    · next hsize =>
      rw [UInt32.le_iff_toNat_le] at hsize
      exact (h.frame hg).give (by omega) (by omega) (Nat.le_refl _)
    · exact (h.frame hg).raise hg.heapTop (Nat.le_refl _)

/-- So does the slot of a value that it prepares, with all that it leads to. -/
theorem prepare (h : s.Kept i.guest.heapTop.toNat i) {v : Value} {r : Except Fault Yield}
    (hexec : exec (Access.prepare v).effect i = (r, i')) :
    (s.after (.prepare v) r).Kept i'.guest.heapTop.toNat i' := by
  obtain ⟨r, hprepare, rfl⟩ := exec_map_eq_iff.1 hexec
  obtain ⟨hg, hstaged⟩ := ensures_prepare_stored h.sound v
  have hexec' : exec (Effect.prepare v) i = (r, i') := hprepare
  rw [hexec'] at hg hstaged
  cases r with
  | error x => exact (h.frame hg).raise hg.heapTop (Nat.le_refl _)
  | ok a =>
    obtain ⟨hfresh, lo, hlo, hle, hslot⟩ := hstaged rfl
    dsimp only at hle hslot
    have hgiven : Slots.Kept { s with given := a :: s.given } i'.guest.heapTop.toNat i' :=
      (h.frame hg).give hfresh (by omega) (Nat.le_refl _)
    refine hgiven.fill (.head _) hslot (Nat.le_refl _) fun b hb => .inl ?_
    rcases List.mem_cons.1 hb with rfl | hb'
    · exact hlo
    · have hbefore := (h.inside b hb').2
      omega

/-- Encoding into a slot that was given spoils no other one. -/
theorem encode (h : s.Kept i.guest.heapTop.toNat i) (ha : a ∈ s.given) {v : Value}
    {r : Except Fault Yield} (hexec : exec (Access.encode a v).effect i = (r, i')) :
    (s.after (.encode a v) r).Kept i'.guest.heapTop.toNat i' := by
  obtain ⟨r, hencode, rfl⟩ := exec_map_eq_iff.1 hexec
  obtain ⟨hg, hstaged⟩ := ensures_encode h.sound a v
  have hexec' : exec (Effect.encode a v) i = (r, i') := hencode
  rw [hexec'] at hg hstaged
  have hforgot := (h.forget ha hg).raise hg.heapTop (Nat.le_refl _)
  cases r with
  | error x => exact hforgot
  | ok =>
    have hinside := (h.inside a ha).2
    refine hforgot.fill ha (hstaged rfl (by omega)) (Nat.le_refl _) fun b hb => .inl ?_
    exact (h.inside b hb).2

/-- A filled slot is decoded alike on twins. -/
theorem agree (h : s.Kept top i) {top' : Nat} (h' : s.Kept top' j) (ht : Twins i j)
    (ha : a ∈ s.filled) : Agree i j (Effect.decode a) := by
  obtain ⟨-, v, lo, hi, hstaged, -, -⟩ := h.filled a ha
  obtain ⟨-, v', lo', hi', hstaged', -, -⟩ := h'.filled a ha
  exact ht.decode hstaged hstaged'

/-- Decoding a filled slot spoils none. -/
theorem decode (h : s.Kept i.guest.heapTop.toNat i) (ha : a ∈ s.filled) {r : Except Fault Yield}
    (hexec : exec (Access.decode a).effect i = (r, i')) :
    (s.after (.decode a) r).Kept i'.guest.heapTop.toNat i' := by
  obtain ⟨r, hdecode, rfl⟩ := exec_map_eq_iff.1 hexec
  have hexec' : exec (Effect.decode a) i = (r, i') := hdecode
  obtain ⟨_, hgives, -⟩ := h.agree h (.refl h.sound) ha
  obtain ⟨i'', hi'', halike⟩ := hgives i (.refl h.sound)
  rw [hexec'] at hi''
  cases hi''
  have hg : Grows (Set.Ici i.guest.heapTop.toNat) i i' := halike.grows h.sound
  cases r <;> exact (h.frame hg).raise hg.heapTop (Nat.le_refl _)

/-- Every access that is allowed keeps the slots. -/
theorem access (h : s.Kept i.guest.heapTop.toNat i) {x : Access} (hx : s.Allows x)
    {r : Except Fault Yield} (hexec : exec x.effect i = (r, i')) :
    (s.after x r).Kept i'.guest.heapTop.toNat i' := by
  cases x with
  | alloc size => exact h.alloc hexec
  | prepare v => exact h.prepare hexec
  | encode a v => exact h.encode hx hexec
  | decode a => exact h.decode hx hexec

end Slots.Kept

end

end Crossing
