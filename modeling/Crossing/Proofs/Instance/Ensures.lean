import Crossing.Proofs.Instance.Sound
import Crossing.Proofs.Text.RoundTrip

/-!
# What a step writes and what it puts there

`Ensures W e i Q` says that from the sound instance `i` the effect `e` changes only bytes of `W`,
whether it faults or not, and that its answer satisfies `Q` where it does not fault. The rules
follow the effect: `Ensures.bind` hands the second effect what the first one ensured.

The facts that are ensured are about single elements of memory (`Instance.Holds`), texts
(`Instance.HoldsText`), blocks, handles and raw values; `Holds.mono` carries them over any frame
that leaves their bytes alone.
-/

namespace Crossing

open Effect

section
variable {Code α β : Type} {W W' : Set Nat} {i i' : Instance Code}

/-- The effect `e` changes only bytes of `W`, and its answer satisfies `Q`. -/
structure Ensures (W : Set Nat) (e : Effect Code α) (i : Instance Code)
    (Q : α → Instance Code → Prop) : Prop where
  grows : Grows W i (exec e i).2
  answer : ∀ {a}, (exec e i).1 = .ok a → Q a (exec e i).2

namespace Ensures

variable {e : Effect Code α} {f : α → Effect Code β} {P Q : α → Instance Code → Prop}
  {Q' : β → Instance Code → Prop}

/-- An effect that comes to its end ensures what holds there. -/
theorem of_ok {a : α} (h : exec e i = (.ok a, i')) (hg : Grows W i i') (hQ : Q a i') :
    Ensures W e i Q where
  grows := by rw [h]; exact hg
  answer := by
    rw [h]
    rintro b ⟨⟩
    exact hQ

/-- An effect that faults ensures its answer, since it has none. -/
theorem of_error {x : Fault} (h : exec e i = (.error x, i')) (hg : Grows W i i') :
    Ensures W e i Q where
  grows := by rw [h]; exact hg
  answer := by
    rw [h]
    rintro b ⟨⟩

/-- An answer that is there ensures what holds of it now. -/
theorem pure (hi : i.Sound) {a : α} (h : Q a i) : Ensures W (pure a : Effect Code α) i Q :=
  of_ok rfl (.refl hi) h

/-- A fault ensures any answer. -/
theorem throw (hi : i.Sound) {x : Fault} : Ensures W (throw x : Effect Code α) i Q :=
  of_error rfl (.refl hi)

/-- A check that needs no instance. -/
theorem lift (hi : i.Sound) (r : Except Fault α) :
    Ensures W (liftM r : Effect Code α) i fun a i' => r = .ok a ∧ i' = i := by
  cases r with
  | ok a => exact of_ok (exec_liftExcept _ i) (.refl hi) ⟨rfl, rfl⟩
  | error x => exact of_error (exec_liftExcept _ i) (.refl hi)

/-- More bytes may be allowed, and less be said of the answer. -/
theorem imp (h : Ensures W' e i P) (hW : W' ⊆ W)
    (hQ : ∀ a i', Grows W' i i' → P a i' → Q a i') : Ensures W e i Q where
  grows := h.grows.mono hW
  answer := fun ha => hQ _ _ h.grows (h.answer ha)

/-- Effects in a row ensure what the second one does after the first. -/
theorem bind (he : Ensures W' e i P) (hW : W' ⊆ W)
    (hf : ∀ a i', Grows W' i i' → P a i' → Ensures W (f a) i' Q') : Ensures W (e >>= f) i Q' := by
  obtain ⟨hg, ha⟩ := he
  rcases h : exec e i with ⟨x | a, i'⟩
  · rw [h] at hg
    exact of_error (exec_bind_of_error h) (hg.mono hW)
  · rw [h] at hg ha
    obtain ⟨hg', ha'⟩ := hf a i' hg (ha rfl)
    refine ⟨?_, fun hb => ?_⟩
    · rw [exec_bind_of_ok h]
      exact (hg.mono hW).trans hg'
    · rw [exec_bind_of_ok h] at hb ⊢
      exact ha' hb

/-- The first effect changes no byte. -/
theorem andThen (he : Ensures ∅ e i P)
    (hf : ∀ a i', Grows ∅ i i' → P a i' → Ensures W (f a) i' Q') : Ensures W (e >>= f) i Q' :=
  he.bind (Set.empty_subset W) hf

/-- The first effect leaves the instance as it was. -/
theorem peek {p : α → Prop} (he : Ensures ∅ e i fun a i' => p a ∧ i' = i)
    (hf : ∀ a, p a → Ensures W (f a) i Q') : Ensures W (e >>= f) i Q' := by
  refine he.andThen fun a i' _ h => ?_
  obtain ⟨ha, rfl⟩ := h
  exact hf a ha

/-- An effect that begins by looking at the instance. -/
theorem get {f : Instance Code → Effect Code β} (h : Ensures W (f i) i Q') :
    Ensures W (MonadState.get >>= f : Effect Code β) i Q' := by
  obtain ⟨hg, ha⟩ := h
  refine ⟨?_, fun hb => ?_⟩
  · rw [exec_bind_of_ok (exec_get i)]
    exact hg
  · rw [exec_bind_of_ok (exec_get i)] at hb ⊢
    exact ha hb

end Ensures

/-! ## What stands in memory -/

/-- None of the addresses from `lo` up to `hi` is in `W`. -/
def Spared (lo hi : Nat) (W : Set Nat) : Prop := ∀ b, lo ≤ b → b < hi → b ∉ W

namespace Spared

variable {lo lo' hi hi' a c : Nat}

/-- What spares a range spares a part of it. -/
theorem narrow (h : Spared lo hi W) (hlo : lo ≤ lo') (hhi : hi' ≤ hi) : Spared lo' hi' W :=
  fun b hb hb' => h b (Nat.le_trans hlo hb) (Nat.lt_of_lt_of_le hb' hhi)

/-- What spares a range by two sets spares it by both together. -/
theorem union (h : Spared lo hi W) (h' : Spared lo hi W') : Spared lo hi (W ∪ W') := by
  rintro b hb hb' (hin | hin)
  · exact h b hb hb' hin
  · exact h' b hb hb' hin

/-- A range is spared by one that ends before it or begins behind it. -/
theorem ico (h : hi ≤ a ∨ c ≤ lo) : Spared lo hi (Set.Ico a c) := by
  rintro b hb hb' ⟨hin, hin'⟩
  omega

/-- Every range is spared by nothing. -/
theorem empty : Spared lo hi ∅ := fun _ _ _ hin => hin

/-- A range is spared by all that begins behind it. -/
theorem ici (h : hi ≤ a) : Spared lo hi (Set.Ici a) := fun _ _ hb' hin =>
  Nat.not_lt.2 (Nat.le_trans h hin) hb'

end Spared

namespace Instance

/-- An element stands at an address of guest memory. -/
def Holds (i : Instance Code) (k : ElementKind) (a : Nat) (x : k.Carrier) : Prop :=
  ∃ address : UInt32, address.toNat = a ∧ i.guest.buffer.load k address = .ok x

/-- A word stands at position `n` of a slot or key. -/
def WordAt (i : Instance Code) (address : UInt32) (n : Nat) (x : UInt32) : Prop :=
  i.Holds .u32 (address.toNat + 4 * n) x

/-- The kind of the slot at `address`. -/
def KindAt (i : Instance Code) (address : UInt32) (kind : SlotKind) : Prop :=
  i.Holds .u8 (address.toNat + 12) kind.tag

/-- Bytes stand at an address of guest memory. -/
def HoldsBytes (i : Instance Code) (address : UInt32) (bytes : ByteArray) : Prop :=
  i.guest.buffer.read address bytes.size = .ok bytes

/-- An element stays where it stands, unless its bytes are written again. -/
theorem Holds.mono {k : ElementKind} {a : Nat} {x : k.Carrier} (h : i.Holds k a x)
    (hg : Grows W i i') (hW : Spared a (a + k.size.toNat) W) : i'.Holds k a x := by
  obtain ⟨address, rfl, hload⟩ := h
  exact ⟨address, rfl, Buffer.load_congr hload hg.size fun b hb hb' => hg.kept b (hW b hb hb')⟩

/-- So do bytes. -/
theorem HoldsBytes.mono {address : UInt32} {bytes : ByteArray} (h : i.HoldsBytes address bytes)
    (hg : Grows W i i') (hW : Spared address.toNat (address.toNat + bytes.size) W) :
    i'.HoldsBytes address bytes :=
  Buffer.read_congr h hg.size fun b hb hb' => hg.kept b (hW b hb hb')

end Instance

/-! ## Elements -/

/-- The views that are in use are those of guest memory. -/
theorem ensures_views (hi : i.Sound) :
    Ensures W views i fun v i' => v.buffer = i'.guest.memory := by
  cases hv : i.views with
  | some v => exact .of_ok (exec_views_of_some hv) (.refl hi) (hi.views v hv)
  | none =>
    exact .of_ok ((exec_views_of_none hv).trans (exec_publish i)) (grows_publish hi) rfl

/-- Looking up a buffer answers that buffer. -/
theorem ensures_buffer (hi : i.Sound) (id : Nat) :
    Ensures W (buffer id) i fun b i' => b = i.guest.store.buffer id ∧ i' = i :=
  .of_ok rfl (.refl hi) ⟨rfl, rfl⟩

/-- What is written into memory is read there. -/
theorem ensures_write (hi : i.Sound) (address : UInt32) (data : ByteArray) :
    Ensures (Set.Ico address.toNat (address.toNat + data.size))
      (write i.guest.memory address data) i
      fun _ i' => i'.HoldsBytes address data := by
  refine ⟨grows_write hi _ _ _ fun _ => subset_rfl, fun ha => ?_⟩
  rw [exec_write] at ha ⊢
  cases h : (i.guest.store.buffer i.guest.memory).check address data.size with
  | error x =>
    rw [h] at ha
    cases ha
  | ok =>
    dsimp only
    rw [Instance.HoldsBytes, Instance.buffer_written hi.guest.memory]
    exact Buffer.read_blit (Buffer.check_eq_ok_iff.1 h)

/-- An element that is stored stands at its address. -/
theorem ensures_store (hi : i.Sound) (k : ElementKind) (address : UInt32) (x : k.Carrier) :
    Ensures (Set.Ico address.toNat (address.toNat + k.size.toNat))
      (store i.guest.memory k address x) i fun _ i' => i'.Holds k address.toNat x := by
  refine (Ensures.lift hi (Buffer.elementIndex k address)).peek fun index hindex => ?_
  unfold Buffer.elementIndex at hindex
  split at hindex
  · next hal =>
    cases hindex
    refine (ensures_buffer hi _).peek fun b hb => ?_
    refine (Ensures.lift hi _).peek fun address' haddress => ?_
    rw [Buffer.elementAddress_div hal] at haddress
    cases haddress
    refine (ensures_write hi address (k.encode x)).imp ?_ fun _ i' _ hread => ?_
    · rw [k.size_encode]
    · rw [Instance.HoldsBytes, k.size_encode] at hread
      exact ⟨address, rfl, Buffer.load_eq_ok_iff.2 ⟨hal, _, hread, k.decode_encode x⟩⟩
  · cases hindex

/-- The part of a slot that is asked for. -/
theorem ensures_slotPart (hi : i.Sound) (v : Views) (address : UInt32) (part : Option UInt32) :
    Ensures W (slotPart v address part) i fun a i' => part = some a ∧ i' = i := by
  unfold slotPart
  cases part with
  | some a => exact .pure hi ⟨rfl, rfl⟩
  | none =>
    refine (ensures_buffer hi _).peek fun b _ => ?_
    exact .throw hi

/-- A word that is written stands in its place. -/
theorem ensures_writeWord (hi : i.Sound) (address index : UInt32) (n : Nat)
    (hn : index.toNat = n) (x : UInt32) :
    Ensures (Set.Ico (address.toNat + 4 * n) (address.toNat + 4 * n + 4))
      (writeWord address index x) i fun _ i' => i'.WordAt address n x := by
  subst hn
  refine (ensures_views hi).andThen fun v i₁ g₁ hv => ?_
  refine (ensures_slotPart g₁.sound v address _).peek fun a ha => ?_
  rw [Slot.word?, Slot.entry?_eq_some_iff] at ha
  have h4 : (4 : UInt32).toNat = 4 := rfl
  rw [h4, Nat.mul_comm] at ha
  rw [hv, ha]
  exact (ensures_store g₁.sound .u32 a x).imp subset_rfl fun _ i' _ h => by
    rw [Instance.WordAt, ha]
    exact h

/-- A byte has its address for an index. -/
theorem setElement_u8 (id : Nat) (a : UInt32) (x : UInt8) :
    (setElement id .u8 a x : Effect Code Unit) = store id .u8 a x := by
  have h1 : ElementKind.u8.size = 1 := rfl
  unfold Effect.store Buffer.elementIndex
  rw [h1, UInt32.mod_one, if_pos rfl, UInt32.div_one]
  rfl

/-- The kind that is written is that of the slot. -/
theorem ensures_writeKind (hi : i.Sound) (address : UInt32) (kind : SlotKind) :
    Ensures (Set.Ico (address.toNat + 12) (address.toNat + 13)) (writeKind address kind) i
      fun _ i' => i'.KindAt address kind := by
  refine (ensures_views hi).andThen fun v i₁ g₁ hv => ?_
  refine (ensures_slotPart g₁.sound v address _).peek fun a ha => ?_
  rw [Slot.tagAddress?, Word.add?_eq_some_iff] at ha
  have h12 : Slot.tagOffset.toNat = 12 := rfl
  rw [h12] at ha
  rw [hv, setElement_u8]
  refine (ensures_store g₁.sound .u8 a kind.tag).imp ?_ fun _ i' _ h => ?_
  · rw [← ha]
    exact Set.Subset.refl _
  · rw [Instance.KindAt, ha]
    exact h

/-! ## Blocks and tables -/

/-- A block that is allocated lies behind all blocks before. -/
theorem ensures_alloc (hi : i.Sound) (size : UInt32) :
    Ensures W (alloc size) i fun address i' => Block i address size i' := by
  obtain ⟨i', hg, ⟨h, -⟩ | ⟨address, h, hb⟩⟩ := exec_alloc (W := W) hi size
  · exact .of_error h hg
  · exact .of_ok h hg hb

/-- The check lets through only where one more may be opened. -/
theorem ensures_checkRoom (hi : i.Sound) (room : Nat) :
    Ensures W (checkRoom room) i fun _ i' => 0 < room ∧ i' = i := by
  unfold checkRoom
  split
  · exact .get (.throw hi)
  · next h => exact .pure hi ⟨Nat.pos_of_ne_zero h, rfl⟩

/-- The size of a table is a word. -/
theorem ensures_tableSize (hi : i.Sound) (n : Nat) (stride : UInt32) :
    Ensures W (tableSize n stride) i fun size i' => n * stride.toNat = size.toNat ∧ i' = i := by
  unfold tableSize
  cases h : Word.ofNat? (n * stride.toNat) with
  | none => exact .throw hi
  | some size => exact .pure hi ⟨Word.ofNat?_eq_some_iff.1 h, rfl⟩

/-- The address of an entry of a table. -/
theorem ensures_entryAddress (hi : i.Sound) (base index stride : UInt32) :
    Ensures W (entryAddress base index stride) i
      fun a i' => base.toNat + index.toNat * stride.toNat = a.toNat ∧ i' = i := by
  unfold entryAddress
  cases h : Slot.entry? base index stride with
  | none =>
    refine (ensures_views (W := W) hi).bind subset_rfl fun v i₁ g₁ _ => ?_
    refine (ensures_buffer g₁.sound _).andThen fun b i₂ g₂ _ => ?_
    exact .throw g₂.sound
  | some a => exact .pure hi ⟨Slot.entry?_eq_some_iff.1 h, rfl⟩

/-! ## Handles and raw values -/

/-- A value that is lent can be had back by the handle, while handles fit. -/
theorem ensures_acquire (hi : i.Sound) (v : Value) :
    Ensures W (acquire v) i fun id i' =>
      v.isNullish = false → i'.handles.Fits → id ≠ 0 ∧ i'.handles.Lends id v := by
  refine ⟨grows_acquire hi v, fun {id} hid => ?_⟩
  obtain ⟨journal, h⟩ := exec_acquire v i
  rw [h] at hid ⊢
  split at hid
  · cases hid
  · next hfits =>
    cases hid
    rw [if_neg hfits]
    exact (HandleTable.acquire_lends hi.handles v).2.2

/-- What was registered stands under its number. -/
theorem ensures_registerRaw (hi : i.Sound) (v : Value) :
    Ensures W (registerRaw v) i fun id i' => i'.raw.values[id]? = some v := by
  refine ⟨grows_registerRaw hi v, fun {id} hid => ?_⟩
  rw [exec_registerRaw] at hid ⊢
  split at hid
  · cases hid
  · next hfull =>
    cases hid
    rw [if_neg hfull]
    exact (RawRegistry.register_extends hi.raw v).2.2

/-! ## Texts -/

/-- The text whose pointer and length stand at `address`; its bytes lie from `lo` up to `hi`. -/
def Instance.HoldsText (i : Instance Code) (lo hi : Nat) (address : UInt32) (t : String) : Prop :=
  ∃ pointer length : UInt32, i.WordAt address 0 pointer ∧ i.WordAt address 1 length ∧
    length.toNat = t.toUTF8.size ∧ i.HoldsBytes pointer t.toUTF8 ∧
      (0 < length.toNat → lo ≤ pointer.toNat ∧ pointer.toNat + length.toNat ≤ hi)

/-- A text stays where it stands when its bytes are left alone. -/
theorem Instance.HoldsText.mono {lo hi : Nat} {address : UInt32} {t : String}
    (h : i.HoldsText lo hi address t) (hg : Grows W i i')
    (hslot : Spared address.toNat (address.toNat + 8) W) (hblock : Spared lo hi W) :
    i'.HoldsText lo hi address t := by
  obtain ⟨pointer, length, h₀, h₁, hlength, hbytes, hlo⟩ := h
  have h4 : ElementKind.u32.size.toNat = 4 := rfl
  refine ⟨pointer, length, h₀.mono hg ?_, h₁.mono hg ?_, hlength, hbytes.mono hg ?_, hlo⟩
  · exact hslot.narrow (by omega) (by omega)
  · exact hslot.narrow (by omega) (by omega)
  · intro b hb hb'
    have := hlo (by omega)
    exact hblock b (by omega) (by omega)

/-- The bytes of a text lie below any higher bound as well. -/
theorem Instance.HoldsText.widen {lo hi hi' : Nat} {address : UInt32} {t : String}
    (h : i.HoldsText lo hi address t) (hle : hi ≤ hi') : i.HoldsText lo hi' address t := by
  obtain ⟨pointer, length, h₀, h₁, hlength, hbytes, hlo⟩ := h
  exact ⟨pointer, length, h₀, h₁, hlength, hbytes, fun hpos =>
    ⟨(hlo hpos).1, Nat.le_trans (hlo hpos).2 hle⟩⟩

/-- The length of a text does not wrap around to zero. Of the texts that are too long for a word to
count, those with another length are refused, since memory has no room for them. -/
def Countable (t : String) : Prop := t.toUTF8.size.toUInt32 = 0 → t.toUTF8.size = 0

/-- What is written of a text: nothing when its length wraps around to zero, and else all of it. -/
def storedText (t : String) : String := if t.toUTF8.size.toUInt32 = 0 then "" else t

/-- A text whose length does not wrap around to zero is written as it is. -/
theorem storedText_of_countable {t : String} (h : Countable t) : storedText t = t := by
  unfold storedText
  split
  · next hzero =>
    have hempty : t.toUTF8 = ByteArray.empty := ByteArray.size_eq_zero_iff.1 (h hzero)
    exact (String.toByteArray_inj.1 hempty).symm
  · rfl

/-- Writes the pointer and the length of a text that stands in memory already. -/
theorem ensures_writeText {lo hi : Nat} (hsound : i.Sound) (address pointer length : UInt32)
    {t : String} (hlength : length.toNat = t.toUTF8.size) (hbytes : i.HoldsBytes pointer t.toUTF8)
    (hlo : 0 < length.toNat → lo ≤ pointer.toNat ∧ pointer.toNat + length.toNat ≤ hi) :
    Ensures (Set.Ico address.toNat (address.toNat + 8))
      (do writeWord address 0 pointer; writeWord address 1 length) i
      fun _ i' => address.toNat + 8 ≤ lo → i'.HoldsText lo hi address t := by
  refine (ensures_writeWord hsound address 0 0 rfl pointer).bind ?_ fun _ i₂ g₂ h₀ => ?_
  · exact Set.Ico_subset_Ico (by omega) (by omega)
  refine (ensures_writeWord g₂.sound address 1 1 rfl length).imp ?_ fun _ i₃ g₃ h₁ hlt => ?_
  · exact Set.Ico_subset_Ico (by omega) (by omega)
  refine ⟨pointer, length, h₀.mono g₃ ?_, h₁, hlength, ?_, hlo⟩
  · have h4 : ElementKind.u32.size.toNat = 4 := rfl
    exact .ico (by omega)
  · refine (hbytes.mono g₂ ?_).mono g₃ ?_ <;>
    · rintro b hb hb' ⟨hin, hin'⟩
      have := hlo (by omega)
      omega

/-- A text that is stored stands in a block of its own. -/
theorem ensures_storeText (hi : i.Sound) (address : UInt32) (t : String) :
    Ensures (Set.Ico address.toNat (address.toNat + 8) ∪ Set.Ici i.guest.heapTop.toNat)
      (storeText address t) i fun _ i' => address.toNat + 8 ≤ i.guest.heapTop.toNat →
        i'.HoldsText i.guest.heapTop.toNat i'.guest.heapTop.toNat address (storedText t) := by
  rw [storeText_eq, storedText]
  split
  · next hpos =>
    have hne : ¬ t.toUTF8.size.toUInt32 = 0 := fun h => by
      rw [h] at hpos
      exact absurd hpos (by decide)
    rw [if_neg hne]
    refine (ensures_alloc hi _).andThen fun pointer i₁ g₁ hb => ?_
    refine (ensures_views g₁.sound).andThen fun v i₂ g₂ hv => ?_
    rw [hv]
    refine (ensures_write g₂.sound pointer t.toUTF8).bind ?_ fun _ i₃ g₃ hbytes => ?_
    · exact fun b hb' => .inr (Nat.le_trans hb.fresh hb'.1)
    -- The bytes fit into memory, so that their number is a word.
    have hroom : pointer.toNat + t.toUTF8.size ≤ i₃.guest.buffer.bytes.size :=
      (Buffer.read_eq_ok_iff.1 hbytes).1
    have hsize : t.toUTF8.size ≤ 65535 * 65536 :=
      Nat.le_trans (Nat.le_of_add_left_le hroom) g₃.sound.guest.size_le
    have hword : t.toUTF8.size.toUInt32.toNat = t.toUTF8.size :=
      UInt32.toNat_ofNat_of_lt' (Nat.lt_of_le_of_lt hsize (by decide))
    have hstop : pointer.toNat + t.toUTF8.size.toUInt32.toNat ≤ i₃.guest.heapTop.toNat := by
      rw [← hb.stop]
      exact Nat.le_trans g₂.heapTop g₃.heapTop
    rw [pure_bind]
    exact (ensures_writeText g₃.sound address pointer _ hword hbytes fun _ =>
      ⟨hb.fresh, hstop⟩).imp Set.subset_union_left
        fun _ i₄ g₄ htext haddress => (htext haddress).widen g₄.heapTop
  · next hzero =>
    have hzero' : t.toUTF8.size.toUInt32 = 0 := UInt32.le_zero_iff.1 (UInt32.not_lt.1 hzero)
    rw [pure_bind, hzero', if_pos rfl]
    have hempty : i.HoldsBytes 0 "".toUTF8 :=
      Buffer.read_eq_ok_iff.2 ⟨Nat.zero_le _, by simp⟩
    exact (ensures_writeText hi address 0 0 rfl hempty fun h =>
      absurd h (Nat.lt_irrefl 0)).imp Set.subset_union_left
        fun _ i₁ g₁ htext haddress => (htext haddress).widen g₁.heapTop

end

end Crossing
