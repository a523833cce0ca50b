import Crossing.Proofs.Instance.Ensures
import Crossing.Proofs.Memory.Arena

/-!
# Values in guest memory

`Instance.Staged` says how a value stands in guest memory: the kind and the words of its slot, and
the tables, texts and slots that they lead to, one behind the other in a range of their own. Nothing
but a write into the slot or the range can spoil it (`Instance.Staged.mono`), and what `encodeAt`
leaves is a staged value (`ensures_encodeAt`): it writes into the slot and behind the heap's top
only, whether it faults or not, so that no block overlaps one from before. The staged value is the
encoded one, but for texts so long that their length wraps around to zero (`Value.stored`).

Handles and numbers of raw values are staged under the condition that they fit into words, since
from then on they may be given out twice.
-/

namespace Crossing

open Effect

section
variable {Code : Type} {W : Set Nat} {i i' : Instance Code}

/-! ## Values that memory can tell apart -/

namespace Value

mutual

/-- Objects have distinct keys, and no text has a length that wraps around to zero. -/
def WellFormed : Value → Prop
  | string t => Countable t
  | array items => WellFormedItems items
  | object entries => (Entries.keys entries).Nodup ∧ WellFormedEntries entries
  | _ => True

/-- The items of an array are well-formed. -/
def WellFormedItems : List Value → Prop
  | [] => True
  | v :: rest => WellFormed v ∧ WellFormedItems rest

/-- The keys and the values of an object are well-formed. -/
def WellFormedEntries : List (String × Value) → Prop
  | [] => True
  | (key, v) :: rest => Countable key ∧ WellFormed v ∧ WellFormedEntries rest

end

mutual

/-- What memory holds of a value: all of it, but for texts whose length wraps around to zero. -/
def stored : Value → Value
  | string t => string (storedText t)
  | array items => array (storedItems items)
  | object entries => object (storedEntries entries)
  | v => v

/-- What memory holds of items. -/
def storedItems : List Value → List Value
  | [] => []
  | v :: rest => stored v :: storedItems rest

/-- What memory holds of properties. -/
def storedEntries : List (String × Value) → List (String × Value)
  | [] => []
  | (key, v) :: rest => (storedText key, stored v) :: storedEntries rest

end

/-- Memory holds as many items. -/
@[simp] theorem length_storedItems (items : List Value) :
    (storedItems items).length = items.length := by
  induction items with
  | nil => rfl
  | cons v rest ih => exact congrArg Nat.succ ih

/-- Memory holds as many properties. -/
@[simp] theorem length_storedEntries (entries : List (String × Value)) :
    (storedEntries entries).length = entries.length := by
  induction entries with
  | nil => rfl
  | cons entry rest ih => exact congrArg Nat.succ ih

mutual

/-- Memory holds all of a well-formed value. -/
theorem stored_of_wellFormed : ∀ (v : Value), v.WellFormed → v.stored = v
  | .undefined, _ | .null, _ | .boolean _, _ | .number _, _ | .symbol _, _ | .reference _, _
  | .closure _, _ | .window _, _ => rfl
  | .string _, h => congrArg string (storedText_of_countable h)
  | .array items, h => congrArg array (storedItems_of_wellFormed items h)
  | .object entries, h => congrArg object (storedEntries_of_wellFormed entries h.2)

/-- Well-formed items are held as they are. -/
theorem storedItems_of_wellFormed :
    ∀ (items : List Value), WellFormedItems items → storedItems items = items
  | [], _ => rfl
  | v :: rest, h => by
    rw [storedItems, stored_of_wellFormed v h.1, storedItems_of_wellFormed rest h.2]

/-- So are well-formed properties. -/
theorem storedEntries_of_wellFormed :
    ∀ (entries : List (String × Value)), WellFormedEntries entries →
      storedEntries entries = entries
  | [], _ => rfl
  | (key, v) :: rest, h => by
    rw [storedEntries, storedText_of_countable h.1, stored_of_wellFormed v h.2.1,
      storedEntries_of_wellFormed rest h.2.2]

end

end Value

/-! ## The layout -/

namespace Instance

/-- A number stands in the slot, as a 32-bit integer where it is one. -/
def HoldsNumber (i : Instance Code) (address : UInt32) (x : Double) : Prop :=
  (x.isInt32 = true ∧ i.Holds .i32 address.toNat x.toInt32 ∧ i.KindAt address .int32) ∨
    (i.Holds .f64 address.toNat x ∧ i.KindAt address .float64)

/-- The handle of a value stands in the slot. -/
def HoldsHandle (i : Instance Code) (address : UInt32) (v : Value) : Prop :=
  ∃ id, i.WordAt address 0 id ∧ i.KindAt address .handle ∧
    (i.handles.Fits → id ≠ 0 ∧ i.handles.Lends id v)

/-- The number of a raw value stands in the slot. -/
def HoldsRaw (i : Instance Code) (address : UInt32) (v : Value) : Prop :=
  ∃ id, i.WordAt address 0 id ∧ i.KindAt address .raw ∧
    (i.raw.Fits → i.raw.values[id]? = some v)

/-- Word `n` of the slot leads to the table of `bytes` bytes at `table`, which lies from `lo` up to
`hi`. -/
structure TableAt (i : Instance Code) (lo hi : Nat) (address : UInt32) (n : Nat) (table : UInt32)
    (bytes : Nat) : Prop where
  offset : ∃ offset, i.WordAt address n offset ∧ i.arena.resolve offset = table
  lo_le : lo ≤ table.toNat
  le_hi : table.toNat + bytes ≤ hi
  inside : table.toNat + bytes ≤ i.guest.buffer.bytes.size
  aligned : 8 ∣ table.toNat

/-- The number of entries stands in the slot. -/
def CountAt (i : Instance Code) (address : UInt32) (n : Nat) : Prop :=
  ∃ count, i.WordAt address 1 count ∧ count.toNat = n

mutual

/-- The value stands in the slot at `address`, with at most `room` arrays and objects inside one
another; what the slot leads to lies from `lo` up to `hi`. -/
def Staged (i : Instance Code) (room lo hi : Nat) (address : UInt32) : Value → Prop
  | .undefined => i.KindAt address .undefined
  | .null => i.KindAt address .null
  | .boolean b => i.KindAt address (.boolean b)
  | .number x => i.HoldsNumber address x
  | .string t => i.HoldsText lo hi address t ∧ i.KindAt address .string
  | .array items =>
    ∃ table mid, 0 < room ∧ i.KindAt address .array ∧ i.CountAt address items.length ∧
      i.TableAt lo mid address 0 table (16 * items.length) ∧ mid ≤ hi ∧
        StagedItems i (room - 1) mid hi table.toNat items
  | .object entries =>
    ∃ keys values mid, 0 < room ∧ i.KindAt address .object ∧ i.CountAt address entries.length ∧
      i.TableAt lo values.toNat address 2 keys (8 * entries.length) ∧
      i.TableAt lo mid address 0 values (16 * entries.length) ∧ mid ≤ hi ∧
        StagedEntries i (room - 1) mid hi keys.toNat values.toNat entries
  | .symbol s => i.HoldsRaw address (.symbol s)
  | .reference o => i.HoldsHandle address (.reference o)
  | .closure id => i.HoldsHandle address (.closure id)
  | .window w => i.HoldsHandle address (.window w)

/-- The items stand in one slot behind the other, from `place` on. -/
def StagedItems (i : Instance Code) (room lo hi place : Nat) : List Value → Prop
  | [] => True
  | v :: rest =>
    ∃ (slot : UInt32) (mid : Nat), slot.toNat = place ∧ lo ≤ mid ∧ mid ≤ hi ∧
      Staged i room lo mid slot v ∧ StagedItems i room mid hi (place + 16) rest

/-- The keys stand one behind the other from `place` on, and the values from `place'` on. -/
def StagedEntries (i : Instance Code) (room lo hi place place' : Nat) :
    List (String × Value) → Prop
  | [] => True
  | (key, v) :: rest =>
    ∃ (slot slot' : UInt32) (mid mid' : Nat), slot.toNat = place ∧ slot'.toNat = place' ∧
      lo ≤ mid ∧ mid ≤ mid' ∧ mid' ≤ hi ∧ i.HoldsText lo mid slot key ∧
        Staged i room mid mid' slot' v ∧ StagedEntries i room mid' hi (place + 8) (place' + 16) rest

end

/-! ## What spoils a staged value -/

section
variable {lo hi room : Nat} {address : UInt32}

/-- The kind of a slot stays, unless the slot is written again. -/
theorem KindAt.mono {kind : SlotKind} (h : i.KindAt address kind) (hg : Grows W i i')
    (hslot : Spared address.toNat (address.toNat + 13) W) : i'.KindAt address kind :=
  Holds.mono h hg
    (hslot.narrow (by omega) (by have : ElementKind.u8.size.toNat = 1 := rfl; omega))

/-- So does each of its words. -/
theorem WordAt.mono {n : Nat} {x : UInt32} (h : i.WordAt address n x) (hg : Grows W i i')
    (hn : n < 3) (hslot : Spared address.toNat (address.toNat + 13) W) :
    i'.WordAt address n x :=
  Holds.mono h hg
    (hslot.narrow (by omega) (by have : ElementKind.u32.size.toNat = 4 := rfl; omega))

/-- So does a number in it. -/
theorem HoldsNumber.mono {x : Double} (h : i.HoldsNumber address x) (hg : Grows W i i')
    (hslot : Spared address.toNat (address.toNat + 13) W) :
    i'.HoldsNumber address x := by
  have h4 : ElementKind.i32.size.toNat = 4 := rfl
  have h8 : ElementKind.f64.size.toNat = 8 := rfl
  rcases h with ⟨hx, hnumber, hkind⟩ | ⟨hnumber, hkind⟩
  · exact .inl ⟨hx, hnumber.mono hg (hslot.narrow (Nat.le_refl _) (by omega)), hkind.mono hg hslot⟩
  · exact .inr ⟨hnumber.mono hg (hslot.narrow (Nat.le_refl _) (by omega)), hkind.mono hg hslot⟩

/-- So does the handle in it, and the value that the handle lends. -/
theorem HoldsHandle.mono {v : Value} (h : i.HoldsHandle address v) (hg : Grows W i i')
    (hslot : Spared address.toNat (address.toNat + 13) W) :
    i'.HoldsHandle address v := by
  obtain ⟨id, hword, hkind, hlends⟩ := h
  refine ⟨id, hword.mono hg (by omega) hslot, hkind.mono hg hslot, fun hf => ?_⟩
  obtain ⟨h0, hl⟩ := hlends (hg.handles.fits hf)
  exact ⟨h0, hg.handles.lends hf hl⟩

/-- So does the number of a raw value in it, and the value that is registered. -/
theorem HoldsRaw.mono {v : Value} (h : i.HoldsRaw address v) (hg : Grows W i i')
    (hslot : Spared address.toNat (address.toNat + 13) W) : i'.HoldsRaw address v := by
  obtain ⟨id, hword, hkind, hvalue⟩ := h
  exact ⟨id, hword.mono hg (by omega) hslot, hkind.mono hg hslot, fun hf =>
    hg.raw.values hf (hvalue (hg.raw.fits hf))⟩

/-- So does the count of entries. -/
theorem CountAt.mono {n : Nat} (h : i.CountAt address n) (hg : Grows W i i')
    (hslot : Spared address.toNat (address.toNat + 13) W) : i'.CountAt address n := by
  obtain ⟨count, hword, hcount⟩ := h
  exact ⟨count, hword.mono hg (by omega) hslot, hcount⟩

/-- The table that a slot leads to stays where it is. -/
theorem TableAt.mono {n bytes : Nat} {table : UInt32} (hs : i.Sound)
    (h : i.TableAt lo hi address n table bytes) (hg : Grows W i i') (hn : n < 3)
    (hslot : Spared address.toNat (address.toNat + 13) W) :
    i'.TableAt lo hi address n table bytes := by
  obtain ⟨offset, hword, hresolve⟩ := h.offset
  refine { h with
    offset := ⟨offset, hword.mono hg hn hslot, ?_⟩
    inside := Nat.le_trans h.inside hg.size }
  rw [Arena.resolve, hg.base hs]
  exact hresolve

mutual

/-- A staged value stays when its slot and its range are left alone. -/
theorem Staged.mono (hs : i.Sound) (hg : Grows W i i') (room lo hi : Nat) (address : UInt32) :
    ∀ (v : Value), i.Staged room lo hi address v →
      Spared address.toNat (address.toNat + 13) W → Spared lo hi W →
        i'.Staged room lo hi address v
  | .undefined, h, hslot, _ => KindAt.mono h hg hslot
  | .null, h, hslot, _ => KindAt.mono h hg hslot
  | .boolean _, h, hslot, _ => KindAt.mono h hg hslot
  | .number _, h, hslot, _ => HoldsNumber.mono h hg hslot
  | .string t, ⟨htext, hkind⟩, hslot, hblock =>
    ⟨htext.mono hg (hslot.narrow (Nat.le_refl _) (by omega)) hblock, hkind.mono hg hslot⟩
  | .array items, ⟨table, mid, hroom, hkind, hcount, htable, hmid, hitems⟩, hslot, hblock => by
    refine ⟨table, mid, hroom, hkind.mono hg hslot, hcount.mono hg hslot,
      TableAt.mono hs htable hg (by omega) hslot, hmid, ?_⟩
    have hlo := htable.lo_le
    have hle := htable.le_hi
    exact StagedItems.mono hs hg _ _ _ _ items hitems
      (hblock.narrow (by omega) (by omega)) (hblock.narrow (by omega) (Nat.le_refl _))
  | .object entries, ⟨keys, values, mid, hroom, hkind, hcount, hkeys, hvalues, hmid, hentries⟩,
      hslot, hblock => by
    refine ⟨keys, values, mid, hroom, hkind.mono hg hslot, hcount.mono hg hslot,
      TableAt.mono hs hkeys hg (by omega) hslot, TableAt.mono hs hvalues hg (by omega) hslot, hmid,
      ?_⟩
    have hlo := hkeys.lo_le
    have hle := hkeys.le_hi
    have hlo' := hvalues.lo_le
    have hle' := hvalues.le_hi
    exact StagedEntries.mono hs hg _ _ _ _ _ entries hentries
      (hblock.narrow (by omega) (by omega))
      (hblock.narrow (by omega) (by omega)) (hblock.narrow (by omega) (Nat.le_refl _))
  | .symbol _, h, hslot, _ => HoldsRaw.mono h hg hslot
  | .reference _, h, hslot, _ => HoldsHandle.mono h hg hslot
  | .closure _, h, hslot, _ => HoldsHandle.mono h hg hslot
  | .window _, h, hslot, _ => HoldsHandle.mono h hg hslot

/-- Items stay staged, unless their slots or what these lead to are written again. -/
theorem StagedItems.mono (hs : i.Sound) (hg : Grows W i i') (room lo hi place : Nat) :
    ∀ (items : List Value), i.StagedItems room lo hi place items →
      Spared place (place + 16 * items.length) W → Spared lo hi W →
        i'.StagedItems room lo hi place items
  | [], _, _, _ => trivial
  | v :: rest, ⟨slot, mid, hplace, hlo, hmid, hv, hrest⟩, hslots, hblock => by
    rw [List.length_cons] at hslots
    exact ⟨slot, mid, hplace, hlo, hmid,
      Staged.mono hs hg _ _ _ _ v hv (hslots.narrow (by omega) (by omega))
        (hblock.narrow (Nat.le_refl _) (by omega)),
      StagedItems.mono hs hg _ _ _ _ rest hrest (hslots.narrow (by omega) (by omega))
        (hblock.narrow (by omega) (Nat.le_refl _))⟩

/-- So do properties. -/
theorem StagedEntries.mono (hs : i.Sound) (hg : Grows W i i') (room lo hi place place' : Nat) :
    ∀ (entries : List (String × Value)), i.StagedEntries room lo hi place place' entries →
      Spared place (place + 8 * entries.length) W →
      Spared place' (place' + 16 * entries.length) W → Spared lo hi W →
        i'.StagedEntries room lo hi place place' entries
  | [], _, _, _, _ => trivial
  | (key, v) :: rest,
      ⟨slot, slot', mid, mid', hplace, hplace', hlo, hmid, hmid', hkey, hv, hrest⟩, hkeys, hslots,
      hblock => by
    rw [List.length_cons] at hkeys hslots
    exact ⟨slot, slot', mid, mid', hplace, hplace', hlo, hmid, hmid',
      hkey.mono hg (hkeys.narrow (by omega) (by omega))
        (hblock.narrow (Nat.le_refl _) (by omega)),
      Staged.mono hs hg _ _ _ _ v hv (hslots.narrow (by omega) (by omega))
        (hblock.narrow (by omega) (by omega)),
      StagedEntries.mono hs hg _ _ _ _ _ rest hrest
        (hkeys.narrow (by omega) (by omega))
        (hslots.narrow (by omega) (by omega))
        (hblock.narrow (by omega) (Nat.le_refl _))⟩

end

end

end Instance

/-! ## What encoding leaves -/

/-- A number is encoded into its slot, and no other byte changes. -/
theorem ensures_encodeNumber (hs : i.Sound) (address : UInt32) (x : Double) :
    Ensures (Set.Ico address.toNat (address.toNat + 13)) (encodeNumber address x) i
      fun _ i' => i'.HoldsNumber address x := by
  have h4 : ElementKind.i32.size.toNat = 4 := rfl
  have h8 : ElementKind.f64.size.toNat = 8 := rfl
  -- The kind goes behind the number.
  have hkind (k : ElementKind) (hk : k.size.toNat ≤ 8) (y : k.Carrier) (kind : SlotKind) :
      Ensures (Set.Ico address.toNat (address.toNat + 13))
        (do store (← views).buffer k address y; writeKind address kind) i
        fun _ i' => i'.Holds k address.toNat y ∧ i'.KindAt address kind := by
    refine (ensures_views hs).andThen fun v i₁ g₁ hv => ?_
    rw [hv]
    refine (ensures_store g₁.sound k address y).bind ?_ fun _ i₂ g₂ hnumber => ?_
    · exact Set.Ico_subset_Ico_right (by omega)
    refine (ensures_writeKind g₂.sound address kind).imp ?_ fun _ i₃ g₃ h => ⟨?_, h⟩
    · exact Set.Ico_subset_Ico_left (by omega)
    · exact hnumber.mono g₃ (.ico (by omega))
  unfold encodeNumber
  split
  · next hx =>
    exact (hkind .i32 (by omega) _ _).imp subset_rfl fun _ _ _ h => .inl ⟨hx, h⟩
  · exact (hkind .f64 (by omega) _ _).imp subset_rfl fun _ _ _ h => .inr h

/-- A word and a kind make up a slot. -/
theorem ensures_writeTagged (hs : i.Sound) (address x : UInt32) (kind : SlotKind) :
    Ensures (Set.Ico address.toNat (address.toNat + 13))
      (do writeWord address 0 x; writeKind address kind) i
      fun _ i' => i'.WordAt address 0 x ∧ i'.KindAt address kind := by
  refine (ensures_writeWord hs address 0 0 rfl x).bind ?_ fun _ i₁ g₁ hword => ?_
  · exact Set.Ico_subset_Ico (by omega) (by omega)
  refine (ensures_writeKind g₁.sound address kind).imp ?_ fun _ i₂ g₂ h => ⟨?_, h⟩
  · exact Set.Ico_subset_Ico_left (by omega)
  · have h4 : ElementKind.u32.size.toNat = 4 := rfl
    exact Instance.Holds.mono hword g₂ (.ico (by omega))

/-- A value that is lent is encoded into its slot, and no other byte changes. -/
theorem ensures_encodeHandle (hs : i.Sound) (address : UInt32) {v : Value}
    (hv : v.isNullish = false) :
    Ensures (Set.Ico address.toNat (address.toNat + 13)) (encodeHandle address v) i
      fun _ i' => i'.HoldsHandle address v := by
  refine (ensures_acquire hs v).andThen fun id i₁ g₁ hlends => ?_
  refine (ensures_writeTagged g₁.sound address id .handle).imp subset_rfl
    fun _ i₂ g₂ ⟨hword, hkind⟩ => ⟨id, hword, hkind, fun hf => ?_⟩
  obtain ⟨h0, hl⟩ := hlends hv (g₂.handles.fits hf)
  exact ⟨h0, g₂.handles.lends hf hl⟩

/-- So is a symbol. -/
theorem ensures_encodeRaw (hs : i.Sound) (address : UInt32) (v : Value) :
    Ensures (Set.Ico address.toNat (address.toNat + 13))
      (do
        let id ← registerRaw v
        writeWord address 0 id
        writeKind address .raw) i
      fun _ i' => i'.HoldsRaw address v := by
  refine (ensures_registerRaw hs v).andThen fun id i₁ g₁ hvalue => ?_
  exact (ensures_writeTagged g₁.sound address id .raw).imp subset_rfl
    fun _ i₂ g₂ ⟨hword, hkind⟩ => ⟨id, hword, hkind, fun hf => g₂.raw.values hf hvalue⟩

/-- The head of an array leads to a fresh table. -/
theorem ensures_openArray (hs : i.Sound) (address : UInt32) (room n : Nat) :
    Ensures (Set.Ico address.toNat (address.toNat + 13)) (openArray address room n) i
      fun table i' => 0 < room ∧ i'.KindAt address .array ∧ i'.CountAt address n ∧
        i'.TableAt i.guest.heapTop.toNat i'.guest.heapTop.toNat address 0 table (16 * n) := by
  have h4 : ElementKind.u32.size.toNat = 4 := rfl
  have h16 : Slot.size.toNat = 16 := rfl
  refine (ensures_checkRoom hs room).peek fun _ hroom => ?_
  refine (ensures_tableSize hs n _).peek fun size hn => ?_
  rw [h16] at hn
  refine (ensures_alloc hs size).andThen fun table i₃ g₃ hb => ?_
  refine .get ?_
  refine (Ensures.lift g₃.sound _).peek fun offset ho => ?_
  refine (ensures_writeKind g₃.sound address .array).bind ?_ fun _ i₅ g₅ hkind => ?_
  · exact Set.Ico_subset_Ico_left (by omega)
  refine (ensures_writeWord g₅.sound address 0 0 rfl offset).bind ?_ fun _ i₆ g₆ hoffset => ?_
  · exact Set.Ico_subset_Ico (by omega) (by omega)
  refine (ensures_writeWord g₆.sound address 1 1 rfl n.toUInt32).bind ?_ fun _ i₇ g₇ hcount => ?_
  · exact Set.Ico_subset_Ico (by omega) (by omega)
  have hword : n.toUInt32.toNat = n :=
    UInt32.toNat_ofNat_of_lt' (by
      have hsize : size.toNat < UInt32.size := size.toNat_lt
      omega)
  have hstop := hb.stop
  have hinside := hb.inside
  have htop := Nat.le_trans g₅.heapTop (Nat.le_trans g₆.heapTop g₇.heapTop)
  have hgrown := Nat.le_trans g₅.size (Nat.le_trans g₆.size g₇.size)
  have hkind' : i₇.KindAt address .array :=
    (Instance.Holds.mono hkind g₆ (.ico (by omega))).mono g₇ (.ico (by omega))
  have htable : i₇.TableAt i.guest.heapTop.toNat i₇.guest.heapTop.toNat address 0 table (16 * n) :=
    { offset := ⟨offset, Instance.Holds.mono hoffset g₇ (.ico (by omega)), by
        rw [Arena.resolve, g₇.base g₆.sound, g₆.base g₅.sound, g₅.base g₃.sound]
        exact Arena.resolve_of_offset ho⟩
      lo_le := hb.fresh
      le_hi := by omega
      inside := by omega
      aligned := hb.aligned }
  exact .pure g₇.sound ⟨hroom, hkind', ⟨_, hcount, hword⟩, htable⟩

/-- The head of an object leads to two fresh tables, keys first. -/
theorem ensures_openObject (hs : i.Sound) (address : UInt32) (room n : Nat) :
    Ensures (Set.Ico address.toNat (address.toNat + 13)) (openObject address room n) i
      fun tables i' => 0 < room ∧ i'.KindAt address .object ∧ i'.CountAt address n ∧
        i'.TableAt i.guest.heapTop.toNat tables.2.toNat address 2 tables.1 (8 * n) ∧
        i'.TableAt i.guest.heapTop.toNat i'.guest.heapTop.toNat address 0 tables.2 (16 * n) := by
  have h4 : ElementKind.u32.size.toNat = 4 := rfl
  have h8 : Slot.keySize.toNat = 8 := rfl
  have h16 : Slot.size.toNat = 16 := rfl
  refine (ensures_checkRoom hs room).peek fun _ hroom => ?_
  refine (ensures_tableSize hs n _).peek fun size hn => ?_
  rw [h8] at hn
  refine (ensures_alloc hs size).andThen fun keys i₃ g₃ hb => ?_
  refine (ensures_tableSize g₃.sound n _).peek fun size' hn' => ?_
  rw [h16] at hn'
  refine (ensures_alloc g₃.sound size').andThen fun values i₄ g₄ hb' => ?_
  refine (ensures_writeKind g₄.sound address .object).bind ?_ fun _ i₅ g₅ hkind => ?_
  · exact Set.Ico_subset_Ico_left (by omega)
  refine .get ?_
  refine (Ensures.lift g₅.sound _).peek fun offset ho => ?_
  refine (ensures_writeWord g₅.sound address 0 0 rfl offset).bind ?_ fun _ i₆ g₆ hoffset => ?_
  · exact Set.Ico_subset_Ico (by omega) (by omega)
  refine (ensures_writeWord g₆.sound address 1 1 rfl n.toUInt32).bind ?_ fun _ i₇ g₇ hcount => ?_
  · exact Set.Ico_subset_Ico (by omega) (by omega)
  refine .get ?_
  refine (Ensures.lift g₇.sound _).peek fun offset' ho' => ?_
  refine (ensures_writeWord g₇.sound address 2 2 rfl offset').bind ?_ fun _ i₈ g₈ hoffset' => ?_
  · exact Set.Ico_subset_Ico (by omega) (by omega)
  have hword : n.toUInt32.toNat = n :=
    UInt32.toNat_ofNat_of_lt' (by
      have hsize : size.toNat < UInt32.size := size.toNat_lt
      omega)
  have hfresh := hb.fresh
  have hfresh' := hb'.fresh
  have hstop := hb.stop
  have hstop' := hb'.stop
  have hinside := hb.inside
  have hinside' := hb'.inside
  have htop :=
    Nat.le_trans g₅.heapTop (Nat.le_trans g₆.heapTop (Nat.le_trans g₇.heapTop g₈.heapTop))
  have hgrown := Nat.le_trans g₅.size (Nat.le_trans g₆.size (Nat.le_trans g₇.size g₈.size))
  have hkind' : i₈.KindAt address .object :=
    ((Instance.Holds.mono hkind g₆ (.ico (by omega))).mono g₇ (.ico (by omega))).mono g₈
      (.ico (by omega))
  have hcount' : i₈.CountAt address n :=
    ⟨_, Instance.Holds.mono hcount g₈ (.ico (by omega)), hword⟩
  have hkeys : i₈.TableAt i.guest.heapTop.toNat values.toNat address 2 keys (8 * n) :=
    { offset := ⟨offset', hoffset', by
        rw [Arena.resolve, g₈.base g₇.sound]
        exact Arena.resolve_of_offset ho'⟩
      lo_le := hfresh
      le_hi := by omega
      inside := by omega
      aligned := hb.aligned }
  have hvalues :
      i₈.TableAt i.guest.heapTop.toNat i₈.guest.heapTop.toNat address 0 values (16 * n) :=
    { offset := ⟨offset,
        (Instance.Holds.mono hoffset g₇ (.ico (by omega))).mono g₈ (.ico (by omega)), by
          rw [Arena.resolve, g₈.base g₇.sound, g₇.base g₆.sound, g₆.base g₅.sound]
          exact Arena.resolve_of_offset ho⟩
      lo_le := by omega
      le_hi := by omega
      inside := by omega
      aligned := hb'.aligned }
  exact .pure g₈.sound ⟨hroom, hkind', hcount', hkeys, hvalues⟩

/-- The index of the next entry, where the table goes on. -/
theorem toNat_index_succ {index : UInt32} {n : Nat} (h : index.toNat + n + 1 < UInt32.size) :
    (index + 1).toNat = index.toNat + 1 := by
  rw [UInt32.toNat_add]
  exact Nat.mod_eq_of_lt (Nat.lt_of_le_of_lt (by rw [UInt32.toNat_one]; omega) h)

/-- What follows a note in the journal begins where the note did. -/
theorem Ensures.note {α : Type} {f : Unit → Effect Code α} {Q : α → Instance Code → Prop}
    (hs : i.Sound) (e : Event)
    (h : ∀ j : Instance Code, j.Sound → j.guest.heapTop = i.guest.heapTop → Ensures W (f ()) j Q) :
    Ensures W (record e >>= f) i Q :=
  (Ensures.of_ok (exec_record e i) ((agrees_log i e).grows hs) rfl).andThen
    (P := fun _ j => j = i.log e) fun _ j g hj => h j g.sound (by rw [hj]; rfl)

/-- An array is staged when its items are: the table is behind the slot, and what the items lead to
is behind the table. -/
theorem ensures_table (hs : i.Sound) (room : Nat) (address : UInt32) (items : List Value)
    (hitems : ∀ {i₁ : Instance Code}, i₁.Sound → ∀ table : UInt32,
      table.toNat + 16 * ((0 : UInt32).toNat + items.length) ≤ i₁.guest.heapTop.toNat →
      Ensures
        (Set.Ico (table.toNat + 16 * (0 : UInt32).toNat)
            (table.toNat + 16 * ((0 : UInt32).toNat + items.length)) ∪
          Set.Ici i₁.guest.heapTop.toNat)
        (encodeItems (room - 1) table 0 items) i₁ fun _ i' =>
          i'.StagedItems (room - 1) i₁.guest.heapTop.toNat i'.guest.heapTop.toNat
            (table.toNat + 16 * (0 : UInt32).toNat) (Value.storedItems items)) :
    Ensures (Set.Ico address.toNat (address.toNat + 13) ∪ Set.Ici i.guest.heapTop.toNat)
      (do encodeItems (room - 1) (← openArray address room items.length) 0 items) i fun _ i' =>
        address.toNat + 13 ≤ i.guest.heapTop.toNat →
          i'.Staged room i.guest.heapTop.toNat i'.guest.heapTop.toNat address
            (Value.array items).stored := by
  refine (ensures_openArray hs address room items.length).bind Set.subset_union_left
    fun table i₁ g₁ ⟨hroom, hkind, hcount, htable⟩ => ?_
  have hlo := htable.lo_le
  have hle := htable.le_hi
  refine (hitems g₁.sound table (by rw [UInt32.toNat_zero]; omega)).imp ?_
    fun _ i₂ g₂ hstaged hlt => ?_
  · rintro b (⟨hb, -⟩ | hb)
    · exact .inr (Nat.le_trans hlo (Nat.le_of_add_right_le hb))
    · exact .inr (Nat.le_trans g₁.heapTop hb)
  have htop := g₁.heapTop
  have hslot : Spared address.toNat (address.toNat + 13)
      (Set.Ico (table.toNat + 16 * (0 : UInt32).toNat)
          (table.toNat + 16 * ((0 : UInt32).toNat + items.length)) ∪
        Set.Ici i₁.guest.heapTop.toNat) := .union (.ico (by omega)) (.ici (by omega))
  rw [UInt32.toNat_zero] at hstaged
  rw [Value.stored, Instance.Staged, Value.length_storedItems]
  exact ⟨table, _, hroom, hkind.mono g₂ hslot, hcount.mono g₂ hslot,
    .mono g₁.sound htable g₂ (by omega) hslot, g₂.heapTop, hstaged⟩

/-- An object is staged when its entries are: the tables are behind the slot, that of the keys
first, and what the entries lead to is behind both. -/
theorem ensures_tables (hs : i.Sound) (room : Nat) (address : UInt32)
    (entries : List (String × Value))
    (hentries : ∀ {i₁ : Instance Code}, i₁.Sound → ∀ keys values : UInt32,
      keys.toNat + 8 * ((0 : UInt32).toNat + entries.length) ≤
        values.toNat + 16 * (0 : UInt32).toNat →
      values.toNat + 16 * ((0 : UInt32).toNat + entries.length) ≤ i₁.guest.heapTop.toNat →
      Ensures
        (Set.Ico (keys.toNat + 8 * (0 : UInt32).toNat)
            (keys.toNat + 8 * ((0 : UInt32).toNat + entries.length)) ∪
          Set.Ico (values.toNat + 16 * (0 : UInt32).toNat)
            (values.toNat + 16 * ((0 : UInt32).toNat + entries.length)) ∪
          Set.Ici i₁.guest.heapTop.toNat)
        (encodeEntries (room - 1) keys values 0 entries) i₁ fun _ i' =>
          i'.StagedEntries (room - 1) i₁.guest.heapTop.toNat i'.guest.heapTop.toNat
            (keys.toNat + 8 * (0 : UInt32).toNat) (values.toNat + 16 * (0 : UInt32).toNat)
            (Value.storedEntries entries)) :
    Ensures (Set.Ico address.toNat (address.toNat + 13) ∪ Set.Ici i.guest.heapTop.toNat)
      (openObject address room entries.length >>= fun tables =>
        encodeEntries (room - 1) tables.1 tables.2 0 entries) i fun _ i' =>
        address.toNat + 13 ≤ i.guest.heapTop.toNat →
          i'.Staged room i.guest.heapTop.toNat i'.guest.heapTop.toNat address
            (Value.object entries).stored := by
  refine (ensures_openObject hs address room entries.length).bind Set.subset_union_left
    fun ⟨keys, values⟩ i₁ g₁ ⟨hroom, hkind, hcount, hkeys, hvalues⟩ => ?_
  dsimp only at hkeys hvalues ⊢
  have hlo := hkeys.lo_le
  have hle := hkeys.le_hi
  have hlo' := hvalues.lo_le
  have hle' := hvalues.le_hi
  refine (hentries g₁.sound keys values (by rw [UInt32.toNat_zero]; omega)
    (by rw [UInt32.toNat_zero]; omega)).imp ?_ fun _ i₂ g₂ hstaged hlt => ?_
  · rintro b ((⟨hb, -⟩ | ⟨hb, -⟩) | hb)
    · exact .inr (Nat.le_trans hlo (Nat.le_of_add_right_le hb))
    · exact .inr (Nat.le_trans hlo' (Nat.le_of_add_right_le hb))
    · exact .inr (Nat.le_trans g₁.heapTop hb)
  have htop := g₁.heapTop
  have hslot : Spared address.toNat (address.toNat + 13)
      (Set.Ico (keys.toNat + 8 * (0 : UInt32).toNat)
          (keys.toNat + 8 * ((0 : UInt32).toNat + entries.length)) ∪
        Set.Ico (values.toNat + 16 * (0 : UInt32).toNat)
          (values.toNat + 16 * ((0 : UInt32).toNat + entries.length)) ∪
        Set.Ici i₁.guest.heapTop.toNat) :=
    .union (.union (.ico (by omega)) (.ico (by omega))) (.ici (by omega))
  rw [UInt32.toNat_zero] at hstaged
  rw [Value.stored, Instance.Staged, Value.length_storedEntries]
  exact ⟨keys, values, _, hroom, hkind.mono g₂ hslot, hcount.mono g₂ hslot,
    .mono g₁.sound hkeys g₂ (by omega) hslot, .mono g₁.sound hvalues g₂ (by omega) hslot,
    g₂.heapTop, hstaged⟩

mutual

/-- Encoding writes into the slot and behind the heap's top only, and leaves the value staged there,
however it nests. -/
theorem ensures_encodeAt {i : Instance Code} (hs : i.Sound) (room : Nat) (address : UInt32)
    (v : Value) :
    Ensures (Set.Ico address.toNat (address.toNat + 13) ∪ Set.Ici i.guest.heapTop.toNat)
      (encodeAt room address v) i fun _ i' => address.toNat + 13 ≤ i.guest.heapTop.toNat →
        i'.Staged room i.guest.heapTop.toNat i'.guest.heapTop.toNat address v.stored := by
  unfold encodeAt
  refine .note hs _ fun j hj htop => ?_
  rw [← htop]
  have hkind (kind : SlotKind) := ensures_writeKind hj address kind
  have hsub : Set.Ico (address.toNat + 12) (address.toNat + 13) ⊆
      Set.Ico address.toNat (address.toNat + 13) ∪ Set.Ici j.guest.heapTop.toNat := by
    rintro b ⟨hb, hb'⟩
    exact .inl ⟨by omega, hb'⟩
  cases v with
  | undefined => exact (hkind _).imp hsub fun _ _ _ h _ => h
  | null => exact (hkind _).imp hsub fun _ _ _ h _ => h
  | boolean b => exact (hkind _).imp hsub fun _ _ _ h _ => h
  | number x =>
    exact (ensures_encodeNumber hj address x).imp Set.subset_union_left fun _ _ _ h _ => h
  | string t =>
    refine (ensures_storeText hj address t).bind ?_ fun _ i₁ g₁ htext => ?_
    · exact Set.union_subset_union_left _ (Set.Ico_subset_Ico_right (by omega))
    refine (ensures_writeKind g₁.sound address .string).imp hsub fun _ i₂ g₂ h hlt => ⟨?_, h⟩
    exact ((htext (by omega)).mono g₂ (.ico (by omega)) (.ico (by omega))).widen g₂.heapTop
  | array items =>
    exact ensures_table hj room address items fun hs₁ table =>
      ensures_encodeItems hs₁ _ table 0 items
  | object entries =>
    exact ensures_tables hj room address entries fun hs₁ keys values =>
      ensures_encodeEntries hs₁ _ keys values 0 entries
  | symbol s =>
    exact (ensures_encodeRaw hj address _).imp Set.subset_union_left fun _ _ _ h _ => h
  | reference o =>
    exact (ensures_encodeHandle hj address rfl).imp Set.subset_union_left fun _ _ _ h _ => h
  | closure id =>
    exact (ensures_encodeHandle hj address rfl).imp Set.subset_union_left fun _ _ _ h _ => h
  | window w =>
    exact (ensures_encodeHandle hj address rfl).imp Set.subset_union_left fun _ _ _ h _ => h

/-- Items are encoded one behind the other, and what they lead to is written above the heap's top as
it was. -/
theorem ensures_encodeItems {i : Instance Code} (hs : i.Sound) (room : Nat)
    (table index : UInt32) (items : List Value)
    (htable : table.toNat + 16 * (index.toNat + items.length) ≤ i.guest.heapTop.toNat) :
    Ensures
      (Set.Ico (table.toNat + 16 * index.toNat) (table.toNat + 16 * (index.toNat + items.length)) ∪
        Set.Ici i.guest.heapTop.toNat)
      (encodeItems room table index items) i fun _ i' =>
        i'.StagedItems room i.guest.heapTop.toNat i'.guest.heapTop.toNat
          (table.toNat + 16 * index.toNat) (Value.storedItems items) := by
  cases items with
  | nil => exact .pure hs trivial
  | cons v rest =>
    have h16 : Slot.size.toNat = 16 := rfl
    have htop : i.guest.heapTop.toNat < UInt32.size := i.guest.heapTop.toNat_lt
    rw [List.length_cons] at htable ⊢
    have hnext : (index + 1).toNat = index.toNat + 1 :=
      toNat_index_succ (n := rest.length) (by omega)
    unfold encodeItems
    refine (ensures_entryAddress hs table index Slot.size).peek fun slot hslot => ?_
    rw [h16] at hslot
    refine (ensures_encodeAt hs room slot v).bind ?_ fun _ i₁ g₁ hv => ?_
    · rintro b (⟨hb, hb'⟩ | hb)
      · exact .inl ⟨by omega, by omega⟩
      · exact .inr hb
    have hgrown := g₁.heapTop
    refine (ensures_encodeItems g₁.sound room table (index + 1) rest (by
      rw [hnext]; omega)).imp ?_ fun _ i₂ g₂ hrest => ?_
    · rintro b (⟨hb, hb'⟩ | hb)
      · exact .inl ⟨by omega, by omega⟩
      · exact .inr (Nat.le_trans hgrown hb)
    refine ⟨slot, i₁.guest.heapTop.toNat, by omega, hgrown, g₂.heapTop, ?_, ?_⟩
    · -- The items behind write into their own slots and behind what this one leads to.
      exact .mono g₁.sound g₂ _ _ _ _ v.stored (hv (by omega))
        (.union (.ico (by omega)) (.ici (by omega)))
        (.union (.ico (by omega)) (.ici (Nat.le_refl _)))
    · have hplace : table.toNat + 16 * (index + 1).toNat = table.toNat + 16 * index.toNat + 16 := by
        omega
      rw [← hplace]
      exact hrest

/-- Keys and values are encoded one behind the other into their two tables, and what they lead to is
written above the heap's top as it was. -/
theorem ensures_encodeEntries {i : Instance Code} (hs : i.Sound) (room : Nat)
    (keys values index : UInt32) (entries : List (String × Value))
    (hkeys : keys.toNat + 8 * (index.toNat + entries.length) ≤ values.toNat + 16 * index.toNat)
    (hvalues : values.toNat + 16 * (index.toNat + entries.length) ≤ i.guest.heapTop.toNat) :
    Ensures
      (Set.Ico (keys.toNat + 8 * index.toNat) (keys.toNat + 8 * (index.toNat + entries.length)) ∪
        Set.Ico (values.toNat + 16 * index.toNat)
          (values.toNat + 16 * (index.toNat + entries.length)) ∪
        Set.Ici i.guest.heapTop.toNat)
      (encodeEntries room keys values index entries) i fun _ i' =>
        i'.StagedEntries room i.guest.heapTop.toNat i'.guest.heapTop.toNat
          (keys.toNat + 8 * index.toNat) (values.toNat + 16 * index.toNat)
          (Value.storedEntries entries) := by
  cases entries with
  | nil => exact .pure hs trivial
  | cons entry rest =>
    obtain ⟨key, v⟩ := entry
    have h8 : Slot.keySize.toNat = 8 := rfl
    have h16 : Slot.size.toNat = 16 := rfl
    have htop : i.guest.heapTop.toNat < UInt32.size := i.guest.heapTop.toNat_lt
    rw [List.length_cons] at hkeys hvalues ⊢
    have hnext : (index + 1).toNat = index.toNat + 1 :=
      toNat_index_succ (n := rest.length) (by omega)
    unfold encodeEntries
    refine (ensures_entryAddress hs keys index Slot.keySize).peek fun slot hslot => ?_
    rw [h8] at hslot
    refine (ensures_storeText hs slot key).bind ?_ fun _ i₁ g₁ hkey => ?_
    · rintro b (⟨hb, hb'⟩ | hb)
      · exact .inl (.inl ⟨by omega, by omega⟩)
      · exact .inr hb
    have hgrown := g₁.heapTop
    refine (ensures_entryAddress g₁.sound values index Slot.size).peek fun slot' hslot' => ?_
    rw [h16] at hslot'
    refine (ensures_encodeAt g₁.sound room slot' v).bind ?_ fun _ i₃ g₃ hv => ?_
    · rintro b (⟨hb, hb'⟩ | hb)
      · exact .inl (.inr ⟨by omega, by omega⟩)
      · exact .inr (Nat.le_trans hgrown hb)
    have hgrown' := g₃.heapTop
    refine (ensures_encodeEntries g₃.sound room keys values (index + 1) rest (by
      rw [hnext]; omega) (by rw [hnext]; omega)).imp ?_ fun _ i₄ g₄ hrest => ?_
    · rintro b ((⟨hb, hb'⟩ | ⟨hb, hb'⟩) | hb)
      · exact .inl (.inl ⟨by omega, by omega⟩)
      · exact .inl (.inr ⟨by omega, by omega⟩)
      · exact .inr (Nat.le_trans (Nat.le_trans hgrown hgrown') hb)
    refine ⟨slot, slot', i₁.guest.heapTop.toNat, i₃.guest.heapTop.toNat, by omega, by omega,
      hgrown, hgrown', g₄.heapTop, ?_, ?_, ?_⟩
    · -- Neither the value nor the entries behind write into the key or what it leads to.
      exact ((hkey (by omega)).mono g₃
          (.union (.ico (by omega)) (.ici (by omega)))
          (.union (.ico (by omega)) (.ici (Nat.le_refl _)))).mono g₄
        (.union (.union (.ico (by omega)) (.ico (by omega))) (.ici (by omega)))
        (.union (.union (.ico (by omega)) (.ico (by omega))) (.ici hgrown'))
    · exact .mono g₃.sound g₄ _ _ _ _ v.stored (hv (by omega))
        (.union (.union (.ico (by omega)) (.ico (by omega))) (.ici (by omega)))
        (.union (.union (.ico (by omega)) (.ico (by omega))) (.ici (Nat.le_refl _)))
    · have hplace : keys.toNat + 8 * (index + 1).toNat = keys.toNat + 8 * index.toNat + 8 := by
        omega
      have hplace' : values.toNat + 16 * (index + 1).toNat =
          values.toNat + 16 * index.toNat + 16 := by omega
      rw [← hplace, ← hplace']
      exact hrest

end

/-- Encoding items stages them as an array. -/
theorem ensures_encodeArray (hs : i.Sound) (address : UInt32) (items : List Value) :
    Ensures (Set.Ico address.toNat (address.toNat + 13) ∪ Set.Ici i.guest.heapTop.toNat)
      (encodeArray address items) i fun _ i' => address.toNat + 13 ≤ i.guest.heapTop.toNat →
        i'.Staged i.config.maxDepth i.guest.heapTop.toNat i'.guest.heapTop.toNat address
          (Value.array items).stored :=
  .get (ensures_table hs _ address items fun hs₁ table => ensures_encodeItems hs₁ _ table 0 items)

/-- Encoding a value stages it. -/
theorem ensures_encode (hs : i.Sound) (address : UInt32) (v : Value) :
    Ensures (Set.Ico address.toNat (address.toNat + 13) ∪ Set.Ici i.guest.heapTop.toNat)
      (encode address v) i fun _ i' => address.toNat + 13 ≤ i.guest.heapTop.toNat →
        i'.Staged i'.config.maxDepth i.guest.heapTop.toNat i'.guest.heapTop.toNat address
          v.stored := by
  refine .get ((ensures_encodeAt hs i.config.maxDepth address v).imp subset_rfl
    fun _ i' g h hlt => ?_)
  rw [g.config]
  exact h hlt

/-- A value that is prepared is staged behind a slot in a block of its own. -/
theorem ensures_prepare_stored (hs : i.Sound) (v : Value) :
    Ensures (Set.Ici i.guest.heapTop.toNat) (prepare v) i fun slot i' =>
      i.guest.heapTop.toNat ≤ slot.toNat ∧ ∃ lo, slot.toNat + 16 ≤ lo ∧
        lo ≤ i'.guest.heapTop.toNat ∧
          i'.Staged i'.config.maxDepth lo i'.guest.heapTop.toNat slot v.stored := by
  have h16 : Slot.size.toNat = 16 := rfl
  refine (ensures_alloc hs Slot.size).andThen fun slot i₁ g₁ hb => ?_
  have hstop := hb.stop
  have hfresh := hb.fresh
  refine (ensures_encode g₁.sound slot v).bind ?_ fun _ i₂ g₂ hstaged => ?_
  · rintro b (⟨hb, -⟩ | hb)
    · exact Nat.le_trans hfresh hb
    · exact Nat.le_trans g₁.heapTop hb
  · exact .pure g₂.sound ⟨hfresh, _, by omega, g₂.heapTop, hstaged (by omega)⟩

end

end Crossing
