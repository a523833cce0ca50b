import Crossing.Proofs.Instance.Reads
import Crossing.Proofs.Memory.Arena

/-!
# Steps that come to their end

`Answers n l e i` says that the effect `e` does not fault on the instance `i`, takes at most `n`
bytes of the heap and lends or registers at most `l` values. Writing slots and tables faults for a
few reasons only, and each step has a lemma that says which condition keeps it from faulting: the
element lies aligned inside of memory, the heap has room, one more array or object may be opened,
the tables have room for one loan more. `Answers.bind` puts steps together, and has from `Ensures`
what the first one leaves.
-/

namespace Crossing

open Effect

/-! ## Room in the tables -/

/-- The table has room for `l` loans more: no count of owners and no number can overflow by them. -/
structure HandleTable.RoomFor (t : HandleTable) (l : Nat) : Prop where
  number : t.nextId + l < UInt32.size
  owners : ∀ (id : UInt32) e, t.entries[id]? = some e → e.owners.toNat + l < UInt32.size

namespace HandleTable.RoomFor

variable {t : HandleTable} {l : Nat}

/-- A new table has room for as many loans as there are words behind its first number. -/
theorem empty (h : 1 + l < UInt32.size) : HandleTable.empty.RoomFor l where
  number := h
  owners := fun id e he => by simp [HandleTable.empty] at he

/-- Where there is room for one loan more, none overflows. -/
theorem overflows_eq_false (h : t.RoomFor (l + 1)) (v : Value) : t.overflows v = false := by
  have hnumber := h.number
  have hnext : decide (UInt32.size ≤ t.nextId + 1) = false := by
    rw [decide_eq_false_iff_not]
    omega
  unfold overflows
  split
  · rfl
  split
  · next id _ =>
    split
    · unfold isFull
      cases he : t.entries[id]? with
      | none => rfl
      | some e =>
        refine decide_eq_false fun hmax => ?_
        have howners := h.owners id e he
        rw [hmax] at howners
        exact absurd howners (by simp [Word.max, UInt32.size]; omega)
    · exact hnext
  · exact hnext

/-- A new handle takes the room of one loan. -/
theorem create (h : t.RoomFor (l + 1)) (v : Value) : (t.create v).2.RoomFor l where
  number := by
    have hnumber := h.number
    show t.nextId + 1 + l < _
    omega
  owners := fun id e he => by
    have hnumber := h.number
    rw [HandleTable.create, Std.HashMap.getElem?_insert] at he
    split at he
    · cases he
      show 1 + l < _
      omega
    · have howners := h.owners id e he
      omega

/-- A loan takes the room of one. -/
theorem acquire (h : t.RoomFor (l + 1)) (v : Value) : (t.acquire v).2.RoomFor l := by
  have hnumber := h.number
  have hless : t.RoomFor l :=
    ⟨by omega, fun id e he => by have howners := h.owners id e he; omega⟩
  unfold HandleTable.acquire
  split
  · exact hless
  split
  · next id _ =>
    split
    · next e he =>
      refine ⟨hless.number, fun id' e' he' => ?_⟩
      rw [Std.HashMap.getElem?_insert] at he'
      split at he'
      · cases he'
        have howners := h.owners id e he
        have hsum : (e.owners + 1).toNat ≤ e.owners.toNat + 1 := by
          rw [UInt32.toNat_add]
          exact Nat.mod_le _ _
        show (e.owners + 1).toNat + l < _
        omega
      · exact hless.owners id' e' he'
    · exact h.create v
  · exact h.create v

end HandleTable.RoomFor

section
variable {Code α β : Type} {W : Set Nat} {n k l m : Nat} {i i' i'' : Instance Code}

/-- Handles and raw values have room for `l` loans more. -/
structure Instance.RoomFor (i : Instance Code) (l : Nat) : Prop where
  handles : i.handles.RoomFor l
  raw : i.raw.lastId + l < UInt32.size

/-- Room for more loans is room for fewer. -/
theorem Instance.RoomFor.less (h : i.RoomFor (l + m)) : i.RoomFor l where
  handles := ⟨Nat.lt_of_le_of_lt (by omega) h.handles.number, fun id e he =>
    Nat.lt_of_le_of_lt (by omega) (h.handles.owners id e he)⟩
  raw := Nat.lt_of_le_of_lt (by omega) h.raw

/-- A fresh instance has room for as many loans as there are words behind the first number. -/
theorem Instance.RoomFor.ofGuest (g : Guest Code) (config : Config) (h : 1 + l < UInt32.size) :
    (Instance.ofGuest g config).RoomFor l :=
  ⟨.empty h, Nat.lt_of_le_of_lt (Nat.add_le_add_right (Nat.zero_le 1) l) h⟩

/-- The step from `i` to `i'` takes at most `n` bytes of the heap, and the room of `l` loans. -/
structure Spends (n l : Nat) (i i' : Instance Code) : Prop where
  heapTop : i'.guest.heapTop.toNat ≤ i.guest.heapTop.toNat + n
  limit : i.guest.limit ≤ i'.guest.limit
  roomFor : ∀ m, i.RoomFor (l + m) → i'.RoomFor m

namespace Spends

/-- Nothing is spent where guest memory and tables stay as they are. -/
theorem of_guest (h : i'.guest = i.guest) (hhandles : i'.handles = i.handles)
    (hraw : i'.raw = i.raw) : Spends 0 0 i i' where
  heapTop := by rw [h]; exact Nat.le_refl _
  limit := by rw [h]
  roomFor := fun m hm => by
    rw [Nat.zero_add] at hm
    exact ⟨hhandles ▸ hm.handles, hraw ▸ hm.raw⟩

/-- Steps in a row take the room of both. -/
theorem trans (h : Spends n l i i') (h' : Spends k m i' i'') : Spends (n + k) (l + m) i i'' where
  heapTop := by
    have := h.heapTop
    have := h'.heapTop
    omega
  limit := Nat.le_trans h.limit h'.limit
  roomFor := fun r hr => h'.roomFor r (h.roomFor (m + r) (Nat.add_assoc l m r ▸ hr))

/-- A step may be said to take more. -/
theorem mono (h : Spends n l i i') (hn : n ≤ k) : Spends k l i i' where
  heapTop := Nat.le_trans h.heapTop (Nat.add_le_add_left hn _)
  limit := h.limit
  roomFor := h.roomFor

/-- What is left of the room on the heap. -/
theorem room (h : Spends n l i i') (hroom : i.guest.heapTop.toNat + (n + k) ≤ i.guest.limit) :
    i'.guest.heapTop.toNat + k ≤ i'.guest.limit := by
  have := h.heapTop
  have := h.limit
  omega

end Spends

/-- The effect does not fault, takes at most `n` bytes of the heap and makes at most `l` loans. -/
def Answers (n l : Nat) (e : Effect Code α) (i : Instance Code) : Prop :=
  ∃ a i', exec e i = (.ok a, i') ∧ Spends n l i i'

namespace Answers

variable {e : Effect Code α} {f : α → Effect Code β} {P : α → Instance Code → Prop} {a : α}

/-- What leaves memory, handles and raw values as they were takes nothing. -/
theorem of_ok (h : exec e i = (.ok a, i')) (hguest : i'.guest = i.guest)
    (hhandles : i'.handles = i.handles) (hraw : i'.raw = i.raw) : Answers 0 0 e i :=
  ⟨a, i', h, .of_guest hguest hhandles hraw⟩

/-- An answer that is there takes nothing. -/
theorem pure (a : α) (i : Instance Code) : Answers 0 0 (pure a : Effect Code α) i :=
  of_ok rfl rfl rfl rfl

/-- A check that needs no instance. -/
theorem lift {r : Except Fault α} (h : r = .ok a) : Answers 0 0 (liftM r : Effect Code α) i :=
  ⟨a, i, by rw [exec_liftExcept, h], .of_guest rfl rfl rfl⟩

/-- An effect may be said to take more. -/
theorem mono (h : Answers n l e i) (hn : n ≤ k) : Answers k l e i := by
  obtain ⟨a, i', he, hs⟩ := h
  exact ⟨a, i', he, hs.mono hn⟩

/-- What is done with the state is done with this one. -/
theorem get {f : Instance Code → Effect Code β} (h : Answers n l (f i) i) :
    Answers n l (MonadState.get >>= f : Effect Code β) i := by
  obtain ⟨b, i', hb, hs⟩ := h
  exact ⟨b, i', by rw [exec_bind_of_ok (exec_get i), hb], hs⟩

/-- What an effect that does not fault leaves and answers. -/
theorem delivers (h : Answers n l e i) (he : Ensures W e i P) :
    ∃ a i', exec e i = (.ok a, i') ∧ Spends n l i i' ∧ Grows W i i' ∧ P a i' := by
  obtain ⟨a, i', hexec, hs⟩ := h
  obtain ⟨hg, ha⟩ := he
  rw [hexec] at hg ha
  exact ⟨a, i', hexec, hs, hg, ha rfl⟩

/-- The second effect does not fault on what the first one leaves. -/
theorem bind (h : Answers n l e i) (he : Ensures W e i P)
    (hf : ∀ a i', Spends n l i i' → Grows W i i' → P a i' → Answers k m (f a) i') :
    Answers (n + k) (l + m) (e >>= f) i := by
  obtain ⟨a, i', hexec, hs, hg, ha⟩ := h.delivers he
  obtain ⟨b, i'', hb, hs'⟩ := hf a i' hs hg ha
  exact ⟨b, i'', by rw [exec_bind_of_ok hexec, hb], hs.trans hs'⟩

/-- The first effect leaves the heap and the tables alone. -/
theorem andThen (h : Answers 0 0 e i) (he : Ensures W e i P)
    (hf : ∀ a i', Spends 0 0 i i' → Grows W i i' → P a i' → Answers k m (f a) i') :
    Answers k m (e >>= f) i := by
  have := h.bind he hf
  rwa [Nat.zero_add, Nat.zero_add] at this

/-- The second effect leaves the heap and the tables alone. -/
theorem before (h : Answers n l e i) (he : Ensures W e i P)
    (hf : ∀ a i', Spends n l i i' → Grows W i i' → P a i' → Answers 0 0 (f a) i') :
    Answers n l (e >>= f) i :=
  h.bind he hf

/-- What follows a note in the journal. -/
theorem note {f : Unit → Effect Code α} (hi : i.Sound) (e : Event)
    (h : ∀ j : Instance Code, j.Sound → j.guest = i.guest → j.arena = i.arena →
      j.handles = i.handles → j.raw = i.raw → Answers n l (f ()) j) :
    Answers n l (Effect.record e >>= f) i := by
  obtain ⟨a, i', ha, hs⟩ := h (i.log e) ((agrees_log i e).sound hi) rfl rfl rfl rfl
  exact ⟨a, i', by rw [exec_bind_of_ok (exec_record e i), ha], hs.heapTop, hs.limit,
    fun m hm => hs.roomFor m ⟨hm.handles, hm.raw⟩⟩

/-- The first effect leaves the instance as it was. -/
theorem peek {p : α → Prop} (h : Answers 0 0 e i)
    (he : Ensures ∅ e i fun a i' => p a ∧ i' = i) (hf : ∀ a, p a → Answers k m (f a) i) :
    Answers k m (e >>= f) i := by
  refine h.andThen he fun a i' _ _ ha => ?_
  obtain ⟨ha, rfl⟩ := ha
  exact hf a ha

end Answers

/-! ## Elements -/

/-- Views are published and take nothing. -/
theorem answers_views (i : Instance Code) : Answers 0 0 views i := by
  cases hv : i.views with
  | some v => exact .of_ok (exec_views_of_some hv) rfl rfl rfl
  | none => exact .of_ok ((exec_views_of_none hv).trans (exec_publish i)) rfl rfl rfl

/-- Looking up a buffer takes nothing. -/
theorem answers_buffer (id : Nat) (i : Instance Code) : Answers 0 0 (buffer id) i :=
  .of_ok (a := i.guest.store.buffer id) rfl rfl rfl rfl

/-- A part of a slot that has an address is found. -/
theorem answers_slotPart {v : Views} {address a : UInt32} {part : Option UInt32}
    (h : part = some a) : Answers 0 0 (slotPart v address part) i := by
  subst h
  exact .pure a i

/-- A write inside of memory does not fault. -/
theorem answers_write (hi : i.Sound) {address : UInt32} {data : ByteArray}
    (h : address.toNat + data.size ≤ i.guest.buffer.bytes.size) :
    Answers 0 0 (write i.guest.memory address data) i := by
  refine ⟨(), i.written i.guest.memory address data, ?_, Nat.le_refl _, ?_, fun m hm => ?_⟩
  · have hcheck : (i.guest.store.buffer i.guest.memory).check address data.size = .ok () :=
      Buffer.check_eq_ok_iff.2 h
    rw [exec_write, hcheck]
  · unfold Guest.limit
    rw [Instance.buffer_written hi.guest.memory, Buffer.size_blit h]
    exact Nat.le_refl _
  · rw [Nat.zero_add] at hm
    exact ⟨hm.handles, hm.raw⟩

/-- An element that lies aligned inside of memory can be stored. -/
theorem answers_store (hi : i.Sound) {k : ElementKind} {address : UInt32} (x : k.Carrier)
    (hal : address % k.size = 0)
    (h : address.toNat + k.size.toNat ≤ i.guest.buffer.bytes.size) :
    Answers 0 0 (store i.guest.memory k address x) i := by
  unfold Effect.store Buffer.elementIndex
  rw [if_pos hal]
  refine (Answers.lift rfl).peek (Ensures.lift hi _) fun index hindex => ?_
  cases hindex
  refine (answers_buffer _ i).peek (ensures_buffer hi _) fun b hb => ?_
  subst hb
  refine (Answers.lift (Buffer.elementAddress_div hal)).peek (Ensures.lift hi _)
    fun address' haddress => ?_
  rw [Buffer.elementAddress_div hal] at haddress
  cases haddress
  exact answers_write hi (by rw [k.size_encode]; exact h)

/-- A word of a slot or key that lies aligned inside of memory can be written. -/
theorem answers_writeWord (hi : i.Sound) {address : UInt32} (index x : UInt32)
    (hal : 4 ∣ address.toNat)
    (h : address.toNat + 4 * index.toNat + 4 ≤ i.guest.buffer.bytes.size) :
    Answers 0 0 (writeWord address index x) i := by
  have hword : ElementKind.u32.size.toNat = 4 := rfl
  have hsize := hi.guest.size_le
  obtain ⟨a, hpart, ha⟩ := Slot.exists_word? address index (by
    show _ < 2 ^ 32
    omega)
  refine (answers_views i).andThen (ensures_views (W := ∅) hi) fun v i₁ _ g₁ hv => ?_
  refine (answers_slotPart hpart).peek (ensures_slotPart g₁.sound v address _) fun a' ha' => ?_
  rw [hpart] at ha'
  cases ha'
  rw [hv]
  refine answers_store g₁.sound (k := .u32) x ?_ ?_
  · rw [← UInt32.toNat_inj, UInt32.toNat_mod, ha]
    show (address.toNat + 4 * index.toNat) % 4 = 0
    omega
  · have hgrown := g₁.size
    omega

/-- The kind of a slot inside of memory can be written. -/
theorem answers_writeKind (hi : i.Sound) {address : UInt32} (kind : SlotKind)
    (h : address.toNat + 13 ≤ i.guest.buffer.bytes.size) :
    Answers 0 0 (writeKind address kind) i := by
  have hbyte : ElementKind.u8.size.toNat = 1 := rfl
  have hsize := hi.guest.size_le
  obtain ⟨a, hpart, ha⟩ := Slot.exists_tagAddress? address (by
    show _ < 2 ^ 32
    omega)
  refine (answers_views i).andThen (ensures_views (W := ∅) hi) fun v i₁ _ g₁ hv => ?_
  refine (answers_slotPart hpart).peek (ensures_slotPart g₁.sound v address _) fun a' ha' => ?_
  rw [hpart] at ha'
  cases ha'
  rw [hv, setElement_u8]
  refine answers_store g₁.sound (k := .u8) kind.tag UInt32.mod_one ?_
  have hgrown := g₁.size
  omega

/-! ## Blocks and tables -/

/-- The allocator serves what the heap has room for, alignment included. -/
theorem answers_alloc (hi : i.Sound) {size : UInt32}
    (h : i.guest.heapTop.toNat + (7 + size.toNat) ≤ i.guest.limit) :
    Answers (7 + size.toNat) 0 (alloc size) i := by
  obtain ⟨i', hg, ⟨-, hno, -⟩ | ⟨address, halloc, hb⟩⟩ := exec_alloc (W := ∅) hi size
  · refine absurd ?_ hno
    unfold Guest.HasRoom
    omega
  · have hstart := hb.start
    have hstop := hb.stop
    have hconfined := Confined.writing.alloc size i
    rw [halloc] at hconfined
    refine ⟨address, i', halloc, by omega, ?_, fun m hm => ?_⟩
    · unfold Guest.limit
      rw [hb.maxPages]
      exact Nat.max_le.2 ⟨Nat.le_trans hg.size (Nat.le_max_left _ _), Nat.le_max_right _ _⟩
    · rw [Nat.zero_add] at hm
      exact ⟨hconfined.handles ▸ hm.handles, hconfined.raw ▸ hm.raw⟩

/-- Where one more may be opened, the check lets it through. -/
theorem answers_checkRoom {room : Nat} (h : 0 < room) : Answers 0 0 (checkRoom room) i := by
  unfold checkRoom
  rw [if_neg (Nat.ne_of_gt h)]
  exact .pure () i

/-- A table whose size is a word has that size. -/
theorem answers_tableSize {n : Nat} {stride : UInt32} (h : n * stride.toNat < UInt32.size) :
    Answers 0 0 (tableSize n stride) i := by
  unfold tableSize
  rw [Word.ofNat?, dif_pos h]
  exact .pure _ i

/-- An entry whose address is a word is found. -/
theorem answers_entryAddress {base index stride : UInt32}
    (h : base.toNat + index.toNat * stride.toNat < UInt32.size) :
    Answers 0 0 (entryAddress base index stride) i := by
  unfold entryAddress
  rw [Slot.entry?_eq_some_iff.2 (UInt32.toNat_ofNat_of_lt' h).symm]
  exact .pure _ i

/-- Every address above the arena's base has an offset. -/
theorem answers_offset {a : Arena} {address : UInt32} (h : a.base.toNat ≤ address.toNat) :
    Answers 0 0 (liftM (a.offset address) : Effect Code UInt32) i :=
  .lift (Arena.offset_of_le h)

/-! ## Handles and raw values -/

/-- A value can be lent where there is room for one loan more. -/
theorem answers_acquire (h : i.RoomFor 1) (v : Value) : Answers 0 1 (acquire v) i := by
  obtain ⟨journal, hexec⟩ := exec_acquire v i
  rw [h.handles.overflows_eq_false, if_neg Bool.false_ne_true] at hexec
  refine ⟨_, _, hexec, Nat.le_refl _, Nat.le_refl _, fun m hm => ⟨?_, ?_⟩⟩
  · exact (Nat.add_comm 1 m ▸ hm.handles).acquire v
  · have hraw := hm.raw
    show i.raw.lastId + m < _
    omega

/-- A raw value can be registered where there is room for one loan more. -/
theorem answers_registerRaw (h : i.RoomFor 1) (v : Value) : Answers 0 1 (registerRaw v) i := by
  have hexec := exec_registerRaw v i
  have hraw := h.raw
  have hfull : i.raw.isFull = false := decide_eq_false (Nat.not_le.2 hraw)
  rw [hfull, if_neg Bool.false_ne_true] at hexec
  refine ⟨_, _, hexec, Nat.le_refl _, Nat.le_refl _, fun m hm => ⟨⟨?_, fun id e he => ?_⟩, ?_⟩⟩
  · have hnumber := hm.handles.number
    show i.handles.nextId + m < _
    omega
  · have howners := hm.handles.owners id e he
    omega
  · have hraw := hm.raw
    show i.raw.lastId + 1 + m < _
    omega

end

end Crossing
