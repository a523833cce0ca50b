import Crossing.Proofs.Instance.Ensures

/-!
# What can be read

`Reads i e a` says that the effect `e` answers `a` on the instance `i`, and on every one that
differs from it in journal and first published views only, and that it leaves such an instance.
Decoding is made of such effects: what stands in memory (`Instance.Holds`, `Instance.HoldsText`) is
read, and nothing else is touched on the way.
-/

namespace Crossing

open Effect

section
variable {Code α β : Type} {i : Instance Code}

/-- The instance `i'` is `i` but for its journal and, where none were published, its views. -/
structure Alike (i i' : Instance Code) : Prop where
  eq : ∃ views journal, i' = { i with views, journal }
  views : ∀ v, i'.views = some v → v.buffer = i.guest.memory

namespace Alike

variable {i' : Instance Code}

/-- A sound instance is like itself. -/
theorem refl (hi : i.Sound) : Alike i i := ⟨⟨_, _, rfl⟩, hi.views⟩

/-- Reading leaves the guest as it is. -/
theorem guest (h : Alike i i') : i'.guest = i.guest := by
  obtain ⟨_, _, rfl⟩ := h.eq
  rfl

/-- It leaves the configuration as it is. -/
theorem config (h : Alike i i') : i'.config = i.config := by
  obtain ⟨_, _, rfl⟩ := h.eq
  rfl

/-- It leaves the arena as it is. -/
theorem arena (h : Alike i i') : i'.arena = i.arena := by
  obtain ⟨_, _, rfl⟩ := h.eq
  rfl

/-- It leaves the handles as they are. -/
theorem handles (h : Alike i i') : i'.handles = i.handles := by
  obtain ⟨_, _, rfl⟩ := h.eq
  rfl

/-- It leaves the registry as it is. -/
theorem raw (h : Alike i i') : i'.raw = i.raw := by
  obtain ⟨_, _, rfl⟩ := h.eq
  rfl

/-- It leaves the closures as they are. -/
theorem closures (h : Alike i i') : i'.closures = i.closures := by
  obtain ⟨_, _, rfl⟩ := h.eq
  rfl

/-- It leaves the mark of death as it is. -/
theorem dead (h : Alike i i') : i'.dead = i.dead := by
  obtain ⟨_, _, rfl⟩ := h.eq
  rfl

/-- It leaves the capabilities as they are. -/
theorem capabilities (h : Alike i i') : i'.capabilities = i.capabilities := by
  obtain ⟨_, _, rfl⟩ := h.eq
  rfl

/-- An event changes the journal only. -/
theorem log (h : Alike i i') (e : Event) : Alike i (i'.log e) where
  eq := by
    obtain ⟨_, _, rfl⟩ := h.eq
    exact ⟨_, _, rfl⟩
  views := h.views

/-- It leaves a sound instance sound. -/
theorem sound (h : Alike i i') (hi : i.Sound) : i'.Sound where
  guest := h.guest ▸ hi.guest
  views := by
    rw [h.guest]
    exact h.views
  base := by
    rw [h.arena, h.config]
    exact hi.base
  handles := h.handles ▸ hi.handles
  raw := h.raw ▸ hi.raw

/-- It takes nothing away. -/
theorem grows (h : Alike i i') (hi : i.Sound) {W : Set Nat} : Grows W i i' where
  sound := h.sound hi
  heapTop := by rw [h.guest]
  size := by rw [h.guest]
  kept := fun _ _ => by rw [h.guest]
  config := h.config
  handles := by rw [h.handles]; exact .refl _
  raw := by rw [h.raw]; exact .refl _

/-- The views that are asked for are those of guest memory. -/
theorem exec_views (h : Alike i i') :
    ∃ v i'', exec Effect.views i' = (.ok v, i'') ∧ v.buffer = i.guest.memory ∧ Alike i i'' := by
  cases hv : i'.views with
  | some v => exact ⟨v, i', exec_views_of_some hv, h.views v hv, h⟩
  | none =>
    have hmemory : i'.nextViews.buffer = i.guest.memory := by
      rw [← h.guest]
      rfl
    refine ⟨_, _, (exec_views_of_none hv).trans (exec_publish i'), hmemory, ⟨?_, ?_⟩⟩
    · obtain ⟨_, _, rfl⟩ := h.eq
      exact ⟨_, _, rfl⟩
    · rintro v ⟨⟩
      exact hmemory

end Alike

/-- The effect answers `a` and changes journal and views at most. -/
def Reads (i : Instance Code) (e : Effect Code α) (a : α) : Prop :=
  ∀ i', Alike i i' → ∃ i'', exec e i' = (.ok a, i'') ∧ Alike i i''

namespace Reads

variable {e : Effect Code α} {f : α → Effect Code β} {a : α} {b : β}

/-- An answer that is there is read. -/
theorem pure (a : α) : Reads i (pure a : Effect Code α) a := fun i' h => ⟨i', rfl, h⟩

/-- Effects in a row read what the second one does on the answer of the first. -/
theorem bind (he : Reads i e a) (hf : Reads i (f a) b) : Reads i (e >>= f) b := by
  intro i' h
  obtain ⟨i₁, he', h₁⟩ := he i' h
  obtain ⟨i₂, hf', h₂⟩ := hf i₁ h₁
  exact ⟨i₂, by rw [exec_bind_of_ok he', hf'], h₂⟩

/-- What is done with the state is done with one that is like this. -/
theorem get {f : Instance Code → Effect Code β} (hf : ∀ i', Alike i i' → Reads i (f i') b) :
    Reads i (MonadState.get >>= f : Effect Code β) b := by
  intro i' h
  rw [exec_bind_of_ok (exec_get i')]
  exact hf i' h i' h

/-- A check that passes reads its answer. -/
theorem lift {r : Except Fault α} (hr : r = .ok a) : Reads i (liftM r : Effect Code α) a :=
  fun i' h => ⟨i', by rw [exec_liftExcept, hr], h⟩

/-- Telling of an event reads nothing. -/
theorem record (e : Event) : Reads i (record e : Effect Code Unit) () :=
  fun i' h => ⟨i'.log e, rfl, h.log e⟩

/-- The views that are asked for are those of guest memory. -/
theorem views {f : Views → Effect Code β} (hf : ∀ v, v.buffer = i.guest.memory → Reads i (f v) b) :
    Reads i (Effect.views >>= f) b := by
  intro i' h
  obtain ⟨v, i'', hexec, hmemory, h''⟩ := h.exec_views
  rw [exec_bind_of_ok hexec]
  exact hf v hmemory i'' h''

/-- The buffer that is asked for. -/
theorem buffer (id : Nat) : Reads i (buffer id) (i.guest.store.buffer id) :=
  fun i' h => ⟨i', by rw [← h.guest]; rfl, h⟩

/-- The buffer of the published views is guest memory. -/
theorem memory {id : Nat} (hid : id = i.guest.memory) :
    Reads i (Effect.buffer id) i.guest.buffer := by
  subst hid
  exact buffer i.guest.memory

/-! ## Words, kinds and texts -/

variable {address : UInt32}

/-- An element that stands in memory is read. -/
theorem load {id : Nat} {k : ElementKind} {x : k.Carrier} (hid : id = i.guest.memory)
    (h : i.Holds k address.toNat x) : Reads i (load id k address) x := by
  obtain ⟨address', haddress, hload⟩ := h
  rw [UInt32.toNat_inj] at haddress
  subst haddress
  exact (memory hid).bind (lift hload)

/-- A part of a slot that has an address is found. -/
theorem slotPart {v : Views} {part : Option UInt32} {a : UInt32} (h : part = some a) :
    Reads i (slotPart v address part) a := by
  subst h
  exact pure a

/-- A word of a slot is read. -/
theorem readWord {index : UInt32} {n : Nat} {x : UInt32} (h : i.WordAt address n x)
    (hn : index.toNat = n) : Reads i (readWord address index) x := by
  subst hn
  obtain ⟨a, ha, hload⟩ := h
  have hpart : Slot.word? address index = some a := by
    rw [Slot.word?, Slot.entry?_eq_some_iff, ha, Nat.mul_comm]
    rfl
  exact views fun v hv => (slotPart hpart).bind (load hv ⟨a, rfl, hload⟩)

/-- The kind of a slot is read. -/
theorem kindAt {kind : SlotKind} (h : i.KindAt address kind) : Reads i (kindAt address) kind := by
  obtain ⟨a, ha, hload⟩ := h
  rw [Buffer.load_u8] at hload
  have hpart : Slot.tagAddress? address = some a := by
    rw [Slot.tagAddress?, Word.add?_eq_some_iff, ha]
    rfl
  exact views fun v hv => (slotPart hpart).bind
    (((memory hv).bind (lift hload)).bind (lift (SlotKind.ofTag_tag kind)))

/-- What follows when the kind of a slot has been read. -/
theorem kind {f : SlotKind → Effect Code β} {kind : SlotKind} (h : i.KindAt address kind)
    (hf : Reads i (f kind) b) :
    Reads i (do
      let kind ← Effect.kindAt address
      Effect.record (.decoding kind address)
      f kind) b :=
  (kindAt h).bind ((record _).bind hf)

/-- A text is read from its bytes. -/
theorem loadText {pointer length : UInt32} {t : String} (hbytes : i.HoldsBytes pointer t.toUTF8)
    (hlength : length.toNat = t.toUTF8.size) : Reads i (loadText pointer length) t := by
  refine views fun v hv => ?_
  have hread : i.guest.buffer.read pointer length.toNat = .ok t.toUTF8 := by
    rw [hlength]
    exact hbytes
  refine ((memory hv).bind (lift hread)).bind (get fun i' h => ?_)
  have htext := Features.decode_encode_of_any .all i'.config.features t
  rw [Features.encode_eq] at htext
  rw [htext]
  exact pure t

/-- A text is read where its pointer and length stand. -/
theorem decodeText {lo hi : Nat} {t : String} (h : i.HoldsText lo hi address t) :
    Reads i (decodeText address) t := by
  obtain ⟨pointer, length, h₀, h₁, hlength, hbytes, -⟩ := h
  exact (readWord h₀ rfl).bind ((readWord h₁ rfl).bind (loadText hbytes hlength))

/-! ## Tables -/

/-- The table is found that the offset in a slot leads to. -/
theorem tableAt {index : UInt32} {n : Nat} {offset table : UInt32} (h : i.WordAt address n offset)
    (hn : index.toNat = n) (htable : i.arena.resolve offset = table) :
    Reads i (tableAt address index) table := by
  refine (readWord h hn).bind (get fun i' h' => ?_)
  rw [h'.arena, htable]
  exact pure table

/-- A table that ends inside of memory passes the check. -/
theorem checkTable (hi : i.Sound) {base count stride : UInt32}
    (h : base.toNat + count.toNat * stride.toNat ≤ i.guest.buffer.bytes.size) :
    Reads i (checkTable base count stride) () := by
  refine views fun v hv => (memory hv).bind (lift ((Buffer.checkTable_eq_ok_iff ?_).2 h))
  exact Nat.lt_of_le_of_lt hi.guest.size_le (by decide)

/-- An entry is found at its exact address. -/
theorem entryAddress {base index stride a : UInt32}
    (h : base.toNat + index.toNat * stride.toNat = a.toNat) :
    Reads i (entryAddress base index stride) a := by
  unfold Effect.entryAddress
  rw [Slot.entry?_eq_some_iff.2 h]
  exact pure a

end Reads

/-- A value that can be read can be put into the transfer slot. -/
theorem exec_storeTransfer (hi : i.Sound) {address : UInt32} {v : Value}
    (h : Reads i (decode address) v) :
    ∃ i', Alike i i' ∧ exec (storeTransfer address) i =
      (.ok (), { i'.log (.parked v) with transfer := some v }) := by
  obtain ⟨i', hdecode, halike⟩ := h i (.refl hi)
  refine ⟨i', halike, ?_⟩
  rw [storeTransfer, exec_bind_of_ok hdecode]
  rfl

end

end Crossing
