import Crossing.Proofs.Codec.Loans
import Crossing.Proofs.Codec.Staged
import Crossing.Proofs.Instance.Answers

/-!
# Which values there is room for

A value takes one block of the heap for each text that is not empty and each table (`Value.extent`),
and one opening for each array or object around another (`Value.depth`). Where the heap and the
configuration leave room for that, and the tables for its loans, encoding does not fault
(`answers_encodeAt`), and neither does preparing (`answers_prepare`).

The length of a text is written as a word. A text with a length that wraps around to zero is encoded
as the empty one (`encodeAt_stored`), and any other text whose length is no word is refused, because
memory has no room for it (`exec_prepare_tooLong`). A value without texts of the second kind is
`Value.Storable`.
-/

namespace Crossing

open Effect

/-! ## What a value takes -/

namespace Value

mutual

/-- How many bytes of the heap a value takes at most, besides its slot. -/
def extent : Value → Nat
  | string t => 7 + t.toUTF8.size
  | array items => (7 + 16 * items.length) + extentItems items
  | object entries =>
    ((7 + 8 * entries.length) + (7 + 16 * entries.length)) + extentEntries entries
  | _ => 0

/-- How many bytes of the heap items take. -/
def extentItems : List Value → Nat
  | [] => 0
  | v :: rest => extent v + extentItems rest

/-- How many bytes of the heap keys and values of properties take. -/
def extentEntries : List (String × Value) → Nat
  | [] => 0
  | (key, v) :: rest => (7 + key.toUTF8.size) + (extent v + extentEntries rest)

end

mutual

/-- How deep arrays and objects nest in a value. -/
def depth : Value → Nat
  | array items => depthItems items + 1
  | object entries => depthEntries entries + 1
  | _ => 0

/-- How deep arrays and objects nest in items. -/
def depthItems : List Value → Nat
  | [] => 0
  | v :: rest => max (depth v) (depthItems rest)

/-- How deep arrays and objects nest in the values of properties. -/
def depthEntries : List (String × Value) → Nat
  | [] => 0
  | (_, v) :: rest => max (depth v) (depthEntries rest)

end

mutual

/-- Every text and every key in the value satisfies `p`. -/
def AllTexts (p : String → Prop) : Value → Prop
  | string t => p t
  | array items => AllTextsItems p items
  | object entries => AllTextsEntries p entries
  | _ => True

/-- Every text and key in the items satisfies `p`. -/
def AllTextsItems (p : String → Prop) : List Value → Prop
  | [] => True
  | v :: rest => AllTexts p v ∧ AllTextsItems p rest

/-- Every key of the properties satisfies `p`, and every text and key in their values. -/
def AllTextsEntries (p : String → Prop) : List (String × Value) → Prop
  | [] => True
  | (key, v) :: rest => p key ∧ AllTexts p v ∧ AllTextsEntries p rest

end

end Value

/-- The length of the text in bytes is a word. -/
def MeasuredText (t : String) : Prop := t.toUTF8.size < UInt32.size

/-- The length of the text is a word, or wraps around to zero and is taken for that. -/
def StorableText (t : String) : Prop := MeasuredText t ∨ t.toUTF8.size.toUInt32 = 0

namespace Value

/-- The length in bytes of every text and key is a word. -/
def Measured (v : Value) : Prop := v.AllTexts MeasuredText

/-- The length of every text and key is a word, or wraps around to zero. -/
def Storable (v : Value) : Prop := v.AllTexts StorableText

end Value

section
variable {Code : Type} {i : Instance Code}

/-- Memory may grow to 65535 pages at most. -/
theorem Instance.Sound.limit_le (hi : i.Sound) : i.guest.limit ≤ 65535 * 65536 :=
  Nat.max_le.2 ⟨hi.guest.size_le, Nat.mul_le_mul_right _ hi.guest.maxPages⟩

/-! ## Numbers, handles and texts -/

/-- A number is encoded into an aligned slot in memory. -/
theorem answers_encodeNumber (hi : i.Sound) {address : UInt32} (x : Double)
    (hal : 8 ∣ address.toNat) (h : address.toNat + 13 ≤ i.guest.buffer.bytes.size) :
    Answers 0 0 (encodeNumber address x) i := by
  have hnumber (k : ElementKind) (hk : k.size.toNat ∣ 8) (y : k.Carrier) (kind : SlotKind) :
      Answers 0 0 (do store (← views).buffer k address y; writeKind address kind) i := by
    have hle := Nat.le_of_dvd (by decide) hk
    have hmod : address % k.size = 0 := by
      rw [← UInt32.toNat_inj, UInt32.toNat_mod]
      exact Nat.mod_eq_zero_of_dvd (Nat.dvd_trans hk hal)
    refine (answers_views i).andThen (ensures_views (W := ∅) hi) fun v i₁ _ g₁ hv => ?_
    have hgrown₁ := g₁.size
    rw [hv]
    refine (answers_store g₁.sound y hmod (by omega)).andThen
      (ensures_store g₁.sound k address y) fun _ i₂ _ g₂ _ => ?_
    have hgrown₂ := g₂.size
    exact answers_writeKind g₂.sound kind (by omega)
  unfold encodeNumber
  split
  · exact hnumber .i32 ⟨2, rfl⟩ _ _
  · exact hnumber .f64 ⟨1, rfl⟩ _ _

/-- A word and a kind are written into an aligned slot in memory. -/
theorem answers_writeTagged (hi : i.Sound) {address : UInt32} (x : UInt32) (kind : SlotKind)
    (hal : 8 ∣ address.toNat) (h : address.toNat + 13 ≤ i.guest.buffer.bytes.size) :
    Answers 0 0 (do writeWord address 0 x; writeKind address kind) i := by
  have h0 : (0 : UInt32).toNat = 0 := rfl
  refine (answers_writeWord hi 0 x (Nat.dvd_trans ⟨2, rfl⟩ hal) (by omega)).andThen
    (ensures_writeWord hi address 0 0 rfl x) fun _ i₁ _ g₁ _ => ?_
  have hgrown := g₁.size
  exact answers_writeKind g₁.sound kind (by omega)

/-- A value is lent into an aligned slot in memory, where the table of handles has room for one. -/
theorem answers_encodeHandle (hi : i.Sound) {address : UInt32} (v : Value)
    (hal : 8 ∣ address.toNat) (h : address.toNat + 13 ≤ i.guest.buffer.bytes.size)
    (hloans : i.RoomFor 1) :
    Answers 0 1 (encodeHandle address v) i := by
  refine (answers_acquire hloans v).before (ensures_acquire (W := ∅) hi v) fun id i₁ _ g₁ _ => ?_
  have hgrown := g₁.size
  exact answers_writeTagged g₁.sound id .handle hal (by omega)

/-- A symbol is registered into an aligned slot in memory, where a number is left for one. -/
theorem answers_encodeRaw (hi : i.Sound) {address : UInt32} (v : Value)
    (hal : 8 ∣ address.toNat) (h : address.toNat + 13 ≤ i.guest.buffer.bytes.size)
    (hloans : i.RoomFor 1) :
    Answers 0 1 (do
      let id ← registerRaw v
      writeWord address 0 id
      writeKind address .raw) i := by
  refine (answers_registerRaw hloans v).before (ensures_registerRaw (W := ∅) hi v)
    fun id i₁ _ g₁ _ => ?_
  have hgrown := g₁.size
  exact answers_writeTagged g₁.sound id .raw hal (by omega)

/-- A text can be stored where the heap has room for its bytes. -/
theorem answers_storeText (hi : i.Sound) {address : UInt32} (t : String)
    (hal : 4 ∣ address.toNat) (h : address.toNat + 8 ≤ i.guest.buffer.bytes.size)
    (hroom : i.guest.heapTop.toNat + (7 + t.toUTF8.size) ≤ i.guest.limit) :
    Answers (7 + t.toUTF8.size) 0 (storeText address t) i := by
  have h0 : (0 : UInt32).toNat = 0 := rfl
  have h1 : (1 : UInt32).toNat = 1 := rfl
  have hwrite (i' : Instance Code) (hi' : i'.Sound) (pointer length : UInt32)
      (hle : i.guest.buffer.bytes.size ≤ i'.guest.buffer.bytes.size) :
      Answers 0 0 (do writeWord address 0 pointer; writeWord address 1 length) i' := by
    refine (answers_writeWord hi' 0 pointer hal (by omega)).andThen
      (ensures_writeWord hi' address 0 0 rfl pointer) fun _ i₁ _ g₁ _ => ?_
    have hgrown := g₁.size
    exact answers_writeWord g₁.sound 1 length hal (by omega)
  have hlimit := hi.limit_le
  have hword : t.toUTF8.size.toUInt32.toNat = t.toUTF8.size :=
    UInt32.toNat_ofNat_of_lt' (by show _ < 2 ^ 32; omega)
  rw [storeText_eq]
  split
  · have halloc : Answers (7 + t.toUTF8.size.toUInt32.toNat) 0 (alloc t.toUTF8.size.toUInt32) i :=
      answers_alloc hi (by rwa [hword])
    rw [hword] at halloc
    refine halloc.before (ensures_alloc (W := ∅) hi _) fun pointer i₁ _ g₁ hb => ?_
    refine (answers_views i₁).andThen (ensures_views (W := ∅) g₁.sound) fun v i₂ _ g₂ hv => ?_
    rw [hv]
    have hstop := hb.stop
    have hinside := hb.inside
    have hgrown₁ := g₁.size
    have hgrown₂ := g₂.size
    have hfits : pointer.toNat + t.toUTF8.size ≤ i₂.guest.buffer.bytes.size := by omega
    refine (answers_write g₂.sound hfits).andThen
      (ensures_write g₂.sound pointer t.toUTF8) fun _ i₃ _ g₃ _ => ?_
    have hgrown₃ := g₃.size
    rw [pure_bind]
    exact hwrite i₃ g₃.sound _ _ (by omega)
  · rw [pure_bind]
    exact (hwrite i hi _ _ (Nat.le_refl _)).mono (Nat.zero_le _)

/-! ## Tables -/

/-- An array can be opened where the heap has room for its table. -/
theorem answers_openArray (hi : i.Sound) {address : UInt32} {room n : Nat} (hdepth : 0 < room)
    (hal : 8 ∣ address.toNat) (h : address.toNat + 13 ≤ i.guest.buffer.bytes.size)
    (hbase : i.arena.base.toNat ≤ i.guest.heapTop.toNat)
    (hroom : i.guest.heapTop.toNat + (7 + 16 * n) ≤ i.guest.limit) :
    Answers (7 + 16 * n) 0 (openArray address room n) i := by
  have h0 : (0 : UInt32).toNat = 0 := rfl
  have h1 : (1 : UInt32).toNat = 1 := rfl
  have h16 : Slot.size.toNat = 16 := rfl
  have hal4 : 4 ∣ address.toNat := Nat.dvd_trans ⟨2, rfl⟩ hal
  have hlimit := hi.limit_le
  refine (answers_checkRoom hdepth).peek (ensures_checkRoom hi room) fun _ _ => ?_
  refine (answers_tableSize (by rw [h16]; show _ < 2 ^ 32; omega)).peek
    (ensures_tableSize hi n _) fun size hn => ?_
  rw [h16, Nat.mul_comm] at hn
  rw [hn] at hroom ⊢
  refine (answers_alloc hi hroom).before (ensures_alloc (W := ∅) hi size)
    fun table i₃ _ g₃ hb => .get ?_
  have hfresh := hb.fresh
  have hgrown₃ := g₃.size
  refine (answers_offset (by rw [g₃.base hi]; omega)).peek
    (Ensures.lift g₃.sound _) fun offset _ => ?_
  refine (answers_writeKind g₃.sound .array (by omega)).andThen
    (ensures_writeKind g₃.sound address .array) fun _ i₅ _ g₅ _ => ?_
  have hgrown₅ := g₅.size
  refine (answers_writeWord g₅.sound 0 offset hal4 (by omega)).andThen
    (ensures_writeWord g₅.sound address 0 0 rfl offset) fun _ i₆ _ g₆ _ => ?_
  have hgrown₆ := g₆.size
  refine (answers_writeWord g₆.sound 1 n.toUInt32 hal4 (by omega)).andThen
    (ensures_writeWord g₆.sound address 1 1 rfl n.toUInt32) fun _ i₇ _ _ _ => ?_
  exact .pure table i₇

/-- An object can be opened where the heap has room for its two tables. -/
theorem answers_openObject (hi : i.Sound) {address : UInt32} {room n : Nat} (hdepth : 0 < room)
    (hal : 8 ∣ address.toNat) (h : address.toNat + 13 ≤ i.guest.buffer.bytes.size)
    (hbase : i.arena.base.toNat ≤ i.guest.heapTop.toNat)
    (hroom : i.guest.heapTop.toNat + ((7 + 8 * n) + (7 + 16 * n)) ≤ i.guest.limit) :
    Answers ((7 + 8 * n) + (7 + 16 * n)) 0 (openObject address room n) i := by
  have h0 : (0 : UInt32).toNat = 0 := rfl
  have h1 : (1 : UInt32).toNat = 1 := rfl
  have h2 : (2 : UInt32).toNat = 2 := rfl
  have h8 : Slot.keySize.toNat = 8 := rfl
  have h16 : Slot.size.toNat = 16 := rfl
  have hal4 : 4 ∣ address.toNat := Nat.dvd_trans ⟨2, rfl⟩ hal
  have hlimit := hi.limit_le
  refine (answers_checkRoom hdepth).peek (ensures_checkRoom hi room) fun _ _ => ?_
  refine (answers_tableSize (by rw [h8]; show _ < 2 ^ 32; omega)).peek
    (ensures_tableSize hi n _) fun size hn => ?_
  rw [h8, Nat.mul_comm] at hn
  rw [hn] at hroom ⊢
  refine (answers_alloc hi (by omega)).bind (m := 0) (ensures_alloc (W := ∅) hi size)
    fun keys i₃ s₃ g₃ hb => ?_
  have hroom₃ := s₃.room hroom
  have hfresh := hb.fresh
  have hgrown₃ := g₃.size
  refine (answers_tableSize (by rw [h16]; show _ < 2 ^ 32; omega)).peek
    (ensures_tableSize g₃.sound n _) fun size' hn' => ?_
  rw [h16, Nat.mul_comm] at hn'
  rw [hn'] at hroom₃ ⊢
  refine (answers_alloc g₃.sound hroom₃).before (ensures_alloc (W := ∅) g₃.sound size')
    fun values i₄ _ g₄ hb' => ?_
  have hfresh' := hb'.fresh
  have htop := g₃.heapTop
  have hgrown₄ := g₄.size
  refine (answers_writeKind g₄.sound .object (by omega)).andThen
    (ensures_writeKind g₄.sound address .object) fun _ i₅ _ g₅ _ => .get ?_
  have hgrown₅ := g₅.size
  have hbase₅ := (g₅.base g₄.sound).trans ((g₄.base g₃.sound).trans (g₃.base hi))
  refine (answers_offset (by rw [hbase₅]; omega)).peek (Ensures.lift g₅.sound _) fun offset _ => ?_
  refine (answers_writeWord g₅.sound 0 offset hal4 (by omega)).andThen
    (ensures_writeWord g₅.sound address 0 0 rfl offset) fun _ i₆ _ g₆ _ => ?_
  have hgrown₆ := g₆.size
  refine (answers_writeWord g₆.sound 1 n.toUInt32 hal4 (by omega)).andThen
    (ensures_writeWord g₆.sound address 1 1 rfl n.toUInt32) fun _ i₇ _ g₇ _ => .get ?_
  have hgrown₇ := g₇.size
  refine (answers_offset (by rw [g₇.base g₆.sound, g₆.base g₅.sound, hbase₅]; omega)).peek
    (Ensures.lift g₇.sound _) fun offset' _ => ?_
  refine (answers_writeWord g₇.sound 2 offset' hal4 (by omega)).andThen
    (ensures_writeWord g₇.sound address 2 2 rfl offset') fun _ i₈ _ _ _ => ?_
  exact .pure (keys, values) i₈

/-! ## Values -/

/-- An array is encoded without a fault when its items are, on what is left of the heap. -/
theorem answers_table (hi : i.Sound) {room : Nat} {address : UInt32} (items : List Value)
    (hdepth : (Value.array items).depth ≤ room) (hal : 8 ∣ address.toNat)
    (h : address.toNat + 13 ≤ i.guest.buffer.bytes.size)
    (hbase : i.arena.base.toNat ≤ i.guest.heapTop.toNat)
    (hroom : i.guest.heapTop.toNat + (Value.array items).extent ≤ i.guest.limit)
    (hloans : i.RoomFor (Value.loansItems items).length)
    (hitems : ∀ {i₁ : Instance Code}, i₁.Sound → ∀ table : UInt32,
      Value.depthItems items ≤ room - 1 → 8 ∣ table.toNat →
      table.toNat + 16 * ((0 : UInt32).toNat + items.length) ≤ i₁.guest.buffer.bytes.size →
      i₁.arena.base.toNat ≤ i₁.guest.heapTop.toNat →
      i₁.guest.heapTop.toNat + Value.extentItems items ≤ i₁.guest.limit →
      i₁.RoomFor (Value.loansItems items).length →
      Answers (Value.extentItems items) (Value.loansItems items).length
        (encodeItems (room - 1) table 0 items) i₁) :
    Answers (Value.array items).extent (Value.loansItems items).length
      (do encodeItems (room - 1) (← openArray address room items.length) 0 items) i := by
  rw [Value.depth] at hdepth
  rw [Value.extent] at hroom ⊢
  rw [← Nat.zero_add (Value.loansItems items).length] at hloans ⊢
  refine (answers_openArray hi (by omega) hal h hbase (by omega)).bind
    (ensures_openArray hi address room items.length) fun table i₁ s₁ g₁ ⟨_, _, _, htable⟩ => ?_
  have htop := g₁.heapTop
  refine hitems g₁.sound table (by omega) htable.aligned ?_ ?_ (s₁.room hroom)
    (s₁.roomFor _ hloans)
  · rw [UInt32.toNat_zero, Nat.zero_add]
    exact htable.inside
  · rw [g₁.base hi]
    omega

mutual

/-- A value is encoded without a fault where the heap has room for it and the tables for its loans,
and it nests no deeper than arrays and objects may be opened. -/
theorem answers_encodeAt {i : Instance Code} (hi : i.Sound) {room : Nat} {address : UInt32}
    (v : Value) (hdepth : v.depth ≤ room) (hal : 8 ∣ address.toNat)
    (h : address.toNat + 13 ≤ i.guest.buffer.bytes.size)
    (hbase : i.arena.base.toNat ≤ i.guest.heapTop.toNat)
    (hroom : i.guest.heapTop.toNat + v.extent ≤ i.guest.limit)
    (hloans : i.RoomFor v.loans.length) :
    Answers v.extent v.loans.length (encodeAt room address v) i := by
  unfold encodeAt
  refine .note hi _ fun j hj hguest harena hhandles hraw => ?_
  rw [← hguest] at h hbase hroom
  rw [← harena] at hbase
  have hloans : j.RoomFor v.loans.length := ⟨hhandles ▸ hloans.handles, hraw ▸ hloans.raw⟩
  have hkind (kind : SlotKind) := answers_writeKind hj kind h
  cases v with
  | undefined => exact hkind _
  | null => exact hkind _
  | boolean b => exact hkind _
  | number x => exact answers_encodeNumber hj x hal h
  | symbol s => exact answers_encodeRaw hj _ hal h hloans
  | reference o => exact answers_encodeHandle hj _ hal h hloans
  | closure id => exact answers_encodeHandle hj _ hal h hloans
  | window w => exact answers_encodeHandle hj _ hal h hloans
  | string t =>
    refine (answers_storeText hj t (Nat.dvd_trans ⟨2, rfl⟩ hal) (by omega) hroom).before
      (ensures_storeText hj address t) fun _ i₁ _ g₁ _ => ?_
    have hgrown := g₁.size
    exact answers_writeKind g₁.sound .string (by omega)
  | array items =>
    exact answers_table hj items hdepth hal h hbase hroom hloans
      fun hi₁ table hdepth hal htable hbase => answers_encodeItems hi₁ items hdepth hal htable hbase
  | object entries =>
    rw [Value.depth] at hdepth
    rw [Value.extent] at hroom ⊢
    rw [Value.loans] at hloans ⊢
    rw [← Nat.zero_add (Value.loansEntries entries).length] at hloans ⊢
    refine (answers_openObject hj (by omega) hal h hbase (by omega)).bind
      (ensures_openObject hj address room entries.length)
      fun ⟨keys, values⟩ i₁ s₁ g₁ ⟨_, _, _, hkeys, hvalues⟩ => ?_
    have htop := g₁.heapTop
    refine answers_encodeEntries g₁.sound entries (by omega) hkeys.aligned hvalues.aligned ?_ ?_ ?_
      (s₁.room hroom) (s₁.roomFor _ hloans)
    · rw [UInt32.toNat_zero, Nat.zero_add]
      exact hkeys.inside
    · rw [UInt32.toNat_zero, Nat.zero_add]
      exact hvalues.inside
    · rw [g₁.base hj]
      omega

/-- Items are encoded where the heap has room for their texts and tables and the tables of the host
for their loans. -/
theorem answers_encodeItems {i : Instance Code} (hi : i.Sound) {room : Nat} {table index : UInt32}
    (items : List Value) (hdepth : Value.depthItems items ≤ room) (hal : 8 ∣ table.toNat)
    (htable : table.toNat + 16 * (index.toNat + items.length) ≤ i.guest.buffer.bytes.size)
    (hbase : i.arena.base.toNat ≤ i.guest.heapTop.toNat)
    (hroom : i.guest.heapTop.toNat + Value.extentItems items ≤ i.guest.limit)
    (hloans : i.RoomFor (Value.loansItems items).length) :
    Answers (Value.extentItems items) (Value.loansItems items).length
      (encodeItems room table index items) i := by
  unfold encodeItems
  cases items with
  | nil => exact .pure () i
  | cons v rest =>
    have h16 : Slot.size.toNat = 16 := rfl
    have hsize := hi.guest.size_le
    rw [List.length_cons] at htable
    rw [Value.depthItems] at hdepth
    rw [Value.extentItems] at hroom ⊢
    rw [Value.loansItems, List.length_append] at hloans ⊢
    have hnext : (index + 1).toNat = index.toNat + 1 :=
      toNat_index_succ (n := rest.length) (by show _ < 2 ^ 32; omega)
    refine (answers_entryAddress (by rw [h16]; show _ < 2 ^ 32; omega)).peek
      (ensures_entryAddress hi table index Slot.size) fun slot hslot => ?_
    rw [h16] at hslot
    refine (answers_encodeAt hi v (by omega) (by omega) (by omega) hbase (by omega)
      hloans.less).bind (ensures_encodeAt hi room slot v) fun _ i₁ s₁ g₁ _ => ?_
    have htop := g₁.heapTop
    have hgrown := g₁.size
    refine answers_encodeItems g₁.sound rest (by omega) hal (by rw [hnext]; omega) ?_
      (s₁.room hroom) (s₁.roomFor _ hloans)
    rw [g₁.base hi]
    omega

/-- Properties are encoded where the heap has room for their keys and values and the tables of the
host for their loans. -/
theorem answers_encodeEntries {i : Instance Code} (hi : i.Sound) {room : Nat}
    {keys values index : UInt32} (entries : List (String × Value))
    (hdepth : Value.depthEntries entries ≤ room) (hal : 8 ∣ keys.toNat) (hal' : 8 ∣ values.toNat)
    (hkeys : keys.toNat + 8 * (index.toNat + entries.length) ≤ i.guest.buffer.bytes.size)
    (hvalues : values.toNat + 16 * (index.toNat + entries.length) ≤ i.guest.buffer.bytes.size)
    (hbase : i.arena.base.toNat ≤ i.guest.heapTop.toNat)
    (hroom : i.guest.heapTop.toNat + Value.extentEntries entries ≤ i.guest.limit)
    (hloans : i.RoomFor (Value.loansEntries entries).length) :
    Answers (Value.extentEntries entries) (Value.loansEntries entries).length
      (encodeEntries room keys values index entries) i := by
  unfold encodeEntries
  cases entries with
  | nil => exact .pure () i
  | cons entry rest =>
    obtain ⟨key, v⟩ := entry
    have h8 : Slot.keySize.toNat = 8 := rfl
    have h16 : Slot.size.toNat = 16 := rfl
    have hsize := hi.guest.size_le
    rw [List.length_cons] at hkeys hvalues
    rw [Value.depthEntries] at hdepth
    rw [Value.extentEntries] at hroom ⊢
    rw [Value.loansEntries, List.length_append] at hloans ⊢
    rw [← Nat.zero_add (v.loans.length + _)] at hloans ⊢
    have hnext : (index + 1).toNat = index.toNat + 1 :=
      toNat_index_succ (n := rest.length) (by show _ < 2 ^ 32; omega)
    refine (answers_entryAddress (by rw [h8]; show _ < 2 ^ 32; omega)).peek
      (ensures_entryAddress hi keys index Slot.keySize) fun slot hslot => ?_
    rw [h8] at hslot
    refine (answers_storeText hi key (by omega) (by omega) (by omega)).bind
      (ensures_storeText hi slot key) fun _ i₁ s₁ g₁ _ => ?_
    have hroom₁ := s₁.room hroom
    have hloans₁ := s₁.roomFor _ hloans
    have htop₁ := g₁.heapTop
    have hgrown₁ := g₁.size
    have hsize₁ := g₁.sound.guest.size_le
    refine (answers_entryAddress (by rw [h16]; show _ < 2 ^ 32; omega)).peek
      (ensures_entryAddress g₁.sound values index Slot.size) fun slot' hslot' => ?_
    rw [h16] at hslot'
    have hbase₁ : i₁.arena.base.toNat ≤ i₁.guest.heapTop.toNat := by
      rw [g₁.base hi]
      omega
    refine (answers_encodeAt g₁.sound v (by omega) (by omega) (by omega) hbase₁ (by omega)
      hloans₁.less).bind (ensures_encodeAt g₁.sound room slot' v) fun _ i₃ s₃ g₃ _ => ?_
    have htop₃ := g₃.heapTop
    have hgrown₃ := g₃.size
    refine answers_encodeEntries g₃.sound rest (by omega) hal hal' (by rw [hnext]; omega)
      (by rw [hnext]; omega) ?_ (s₃.room hroom₁) (s₃.roomFor _ hloans₁)
    rw [g₃.base g₁.sound]
    omega

end

/-- Items can be encoded as an array on the same terms as the array that they make. -/
theorem answers_encodeArray (hi : i.Sound) {address : UInt32} (items : List Value)
    (hdepth : (Value.array items).depth ≤ i.config.maxDepth) (hal : 8 ∣ address.toNat)
    (h : address.toNat + 13 ≤ i.guest.buffer.bytes.size)
    (hbase : i.arena.base.toNat ≤ i.guest.heapTop.toNat)
    (hroom : i.guest.heapTop.toNat + (Value.array items).extent ≤ i.guest.limit)
    (hloans : i.RoomFor (Value.loansItems items).length) :
    Answers (Value.array items).extent (Value.loansItems items).length
      (encodeArray address items) i :=
  .get (answers_table hi items hdepth hal h hbase hroom hloans
    fun hi₁ _ hdepth hal htable hbase => answers_encodeItems hi₁ items hdepth hal htable hbase)

/-- A slot of its own leaves room for what comes after it. -/
theorem answers_slot {e : UInt32 → Effect Code Unit} {n l : Nat}
    {W : UInt32 → Instance Code → Set Nat} {P : UInt32 → Instance Code → Instance Code → Prop}
    (hi : i.Sound) (hbase : i.config.arenaBase.toNat ≤ i.guest.heapTop.toNat)
    (hroom : i.guest.heapTop.toNat + (23 + n) ≤ i.guest.limit) (hloans : i.RoomFor l)
    (hensures : ∀ {i₁ : Instance Code}, i₁.Sound → ∀ slot,
      Ensures (W slot i₁) (e slot) i₁ fun _ => P slot i₁)
    (hanswers : ∀ {i₁ : Instance Code} {slot : UInt32}, i₁.Sound → i₁.config = i.config →
      8 ∣ slot.toNat → slot.toNat + 13 ≤ i₁.guest.buffer.bytes.size →
      i₁.arena.base.toNat ≤ i₁.guest.heapTop.toNat →
      i₁.guest.heapTop.toNat + n ≤ i₁.guest.limit → i₁.RoomFor l → Answers n l (e slot) i₁) :
    Answers (23 + n) l (do
      let slot ← alloc Slot.size
      e slot
      return slot) i := by
  have h16 : 7 + Slot.size.toNat = 23 := rfl
  rw [← h16] at hroom ⊢
  rw [← Nat.zero_add l] at hloans ⊢
  refine (answers_alloc hi (by omega)).bind (ensures_alloc (W := ∅) hi Slot.size)
    fun slot i₁ s₁ g₁ hb => ?_
  have htop := g₁.heapTop
  have hstop := hb.stop
  have hinside := hb.inside
  refine (hanswers g₁.sound g₁.config hb.aligned (by omega) ?_ (s₁.room hroom)
    (s₁.roomFor l hloans)).before (hensures g₁.sound slot) fun _ i₂ _ _ _ => .pure slot i₂
  rw [g₁.base hi, hi.base]
  omega

/-- A value can be prepared where the heap has room for it and its slot, and the tables for its
loans, the arena begins below the heap's top, and the configuration lets it nest as deep as it
does. -/
theorem answers_prepare (hi : i.Sound) (v : Value) (hdepth : v.depth ≤ i.config.maxDepth)
    (hbase : i.config.arenaBase.toNat ≤ i.guest.heapTop.toNat)
    (hroom : i.guest.heapTop.toNat + (23 + v.extent) ≤ i.guest.limit)
    (hloans : i.RoomFor v.loans.length) :
    Answers (23 + v.extent) v.loans.length (prepare v) i :=
  answers_slot hi hbase hroom hloans (fun hi₁ slot => .get (ensures_encodeAt hi₁ _ slot v))
    fun hi₁ hconfig hal h hbase hroom hloans =>
      .get (answers_encodeAt hi₁ v (by rwa [hconfig]) hal h hbase hroom hloans)

/-- The arguments of a call can be staged on the same terms. -/
theorem answers_marshal (hi : i.Sound) (arguments : List Value)
    (hdepth : (Value.array arguments).depth ≤ i.config.maxDepth)
    (hbase : i.config.arenaBase.toNat ≤ i.guest.heapTop.toNat)
    (hroom : i.guest.heapTop.toNat + (23 + (Value.array arguments).extent) ≤ i.guest.limit)
    (hloans : i.RoomFor (Value.loansItems arguments).length) :
    Answers (23 + (Value.array arguments).extent) (Value.loansItems arguments).length
      (marshal arguments) i :=
  answers_slot hi hbase hroom hloans (fun hi₁ slot => ensures_encodeArray hi₁ slot arguments)
    fun hi₁ hconfig hal h hbase hroom hloans =>
      answers_encodeArray hi₁ arguments (by rwa [hconfig]) hal h hbase hroom hloans

/-! ## Texts whose length is no word -/

/-- What is stored of a text is stored in its place. -/
theorem storeText_storedText (address : UInt32) (t : String) :
    (storeText address (storedText t) : Effect Code Unit) = storeText address t := by
  unfold storedText
  split
  · next hzero =>
    have hempty : "".toUTF8.size.toUInt32 = 0 := by decide
    simp only [storeText_eq, hzero, hempty, UInt32.lt_irrefl, if_false]
  · rfl

mutual

/-- A value is encoded just like what memory holds of it. -/
theorem encodeAt_stored (room : Nat) (address : UInt32) : ∀ v : Value,
    (encodeAt room address v.stored : Effect Code Unit) = encodeAt room address v
  | .undefined | .null | .boolean _ | .number _ | .symbol _ | .reference _ | .closure _
  | .window _ => rfl
  | .string t => by
    rw [Value.stored]
    unfold encodeAt
    simp only [Value.typeName, storeText_storedText]
  | .array items => by
    rw [Value.stored]
    unfold encodeAt
    simp only [Value.typeName, Value.length_storedItems, encodeItems_stored]
  | .object entries => by
    rw [Value.stored]
    unfold encodeAt
    simp only [Value.typeName, Value.length_storedEntries, encodeEntries_stored]

/-- Items are encoded just like what memory holds of them. -/
theorem encodeItems_stored (room : Nat) (table index : UInt32) : ∀ items : List Value,
    (encodeItems room table index (Value.storedItems items) : Effect Code Unit) =
      encodeItems room table index items
  | [] => rfl
  | v :: rest => by
    rw [Value.storedItems]
    unfold encodeItems
    simp only [encodeAt_stored, encodeItems_stored _ _ _ rest]

/-- Properties are encoded just like what memory holds of them. -/
theorem encodeEntries_stored (room : Nat) (keys values index : UInt32) :
    ∀ entries : List (String × Value),
      (encodeEntries room keys values index (Value.storedEntries entries) : Effect Code Unit) =
        encodeEntries room keys values index entries
  | [] => rfl
  | (key, v) :: rest => by
    rw [Value.storedEntries]
    unfold encodeEntries
    simp only [storeText_storedText, encodeAt_stored, encodeEntries_stored _ _ _ _ rest]

end

/-- A value is encoded into a slot just like what memory holds of it. -/
theorem encode_stored (slot : UInt32) (v : Value) :
    (encode slot v.stored : Effect Code Unit) = encode slot v := by
  unfold encode
  simp only [encodeAt_stored]

/-- A value is prepared just like what memory holds of it. -/
theorem prepare_stored (v : Value) : (prepare v.stored : Effect Code UInt32) = prepare v := by
  unfold prepare
  simp only [encode_stored]

/-- Views are those of guest memory, which stays as it is. -/
theorem exec_views_memory (hi : i.Sound) :
    ∃ v i', exec views i = (.ok v, i') ∧ i'.guest = i.guest ∧ v.buffer = i.guest.memory := by
  cases hv : i.views with
  | some v => exact ⟨v, i, exec_views_of_some hv, rfl, hi.views v hv⟩
  | none => exact ⟨_, _, (exec_views_of_none hv).trans (exec_publish i), rfl, rfl⟩

/-- A text that cannot be stored gets a block that is too short for it, and its bytes are written
over the end of memory. -/
theorem exec_storeText_tooLong (hi : i.Sound) {t : String} (ht : ¬ StorableText t)
    (address : UInt32)
    (hroom : i.guest.heapTop.toNat + (7 + t.toUTF8.size.toUInt32.toNat) ≤
      i.guest.buffer.bytes.size) :
    ∃ pointer i', pointer.toNat = (i.guest.heapTop.toNat + 7) / 8 * 8 ∧
      exec (storeText address t) i =
        (.error (.outOfBounds pointer t.toUTF8.size.toUInt32 i.guest.buffer.length), i') := by
  obtain ⟨hlong, hzero⟩ := not_or.1 ht
  have hpos : 0 < t.toUTF8.size.toUInt32 := UInt32.pos_iff_ne_zero.2 hzero
  obtain ⟨pointer, i₁, halloc, -, g₁, hb⟩ :=
    (answers_alloc hi (Nat.le_trans hroom (Nat.le_max_left _ _))).delivers
      (ensures_alloc (W := ∅) hi t.toUTF8.size.toUInt32)
  have hstart := hb.start
  have hstop := hb.stop
  have hbuffer : i₁.guest.buffer = i.guest.buffer := hb.buffer (by omega)
  obtain ⟨v, i₂, hviews, hguest, hv⟩ := exec_views_memory g₁.sound
  have hcheck : (i₂.guest.store.buffer v.buffer).check pointer t.toUTF8.size =
      .error (.outOfBounds pointer t.toUTF8.size.toUInt32 i.guest.buffer.length) := by
    rw [hguest, hv]
    show i₁.guest.buffer.check pointer t.toUTF8.size = _
    have hsize := hi.guest.size_le
    have hbound : UInt32.size = 4294967296 := rfl
    have hlong' : UInt32.size ≤ t.toUTF8.size := Nat.le_of_not_lt hlong
    rw [hbuffer, Buffer.check, if_neg (by omega)]
    rfl
  have hwrite : exec (write v.buffer pointer t.toUTF8) i₂ =
      (.error (.outOfBounds pointer t.toUTF8.size.toUInt32 i.guest.buffer.length), i₂) := by
    rw [exec_write, hcheck]
  refine ⟨pointer, i₂, hstart, ?_⟩
  rw [storeText_eq, if_pos hpos, exec_bind_of_ok halloc, exec_bind_of_ok hviews]
  exact exec_bind_of_error hwrite

/-- On a fresh heap such a text is refused behind its slot. -/
theorem exec_prepare_tooLong (hi : i.Sound) (htop : i.guest.heapTop = 16) {t : String}
    (ht : ¬ StorableText t)
    (hroom : 39 + t.toUTF8.size.toUInt32.toNat ≤ i.guest.buffer.bytes.size) :
    ∃ i', exec (prepare (.string t)) i =
      (.error (.outOfBounds 32 t.toUTF8.size.toUInt32 i.guest.buffer.length), i') := by
  have htop' : i.guest.heapTop.toNat = 16 := by rw [htop]; rfl
  have h16 : Slot.size.toNat = 16 := rfl
  have hanswers : Answers (7 + Slot.size.toNat) 0 (alloc Slot.size) i :=
    answers_alloc hi (Nat.le_trans (by omega) (Nat.le_max_left _ _))
  obtain ⟨slot, i₁, halloc, -, g₁, hb⟩ :=
    hanswers.delivers (ensures_alloc (W := ∅) hi Slot.size)
  have hstart := hb.start
  have hstop := hb.stop
  have hbuffer : i₁.guest.buffer = i.guest.buffer := hb.buffer (by omega)
  have hagrees := agrees_log i₁ (.encoding "string" slot)
  obtain ⟨pointer, i₂, hpointer, hstore⟩ := exec_storeText_tooLong (hagrees.sound g₁.sound) ht slot
    (by rw [hagrees.heapTop, hagrees.buffer, hbuffer]; omega)
  rw [hagrees.heapTop, hstop, hstart, htop'] at hpointer
  obtain rfl : pointer = 32 := UInt32.toNat_inj.1 hpointer
  rw [hagrees.buffer, hbuffer] at hstore
  refine ⟨i₂, ?_⟩
  unfold prepare encode encodeAt
  rw [exec_bind_of_ok halloc]
  refine exec_bind_of_error ?_
  rw [exec_bind_of_ok (exec_get i₁), exec_bind_of_ok (exec_record _ i₁)]
  exact exec_bind_of_error hstore

/-- A text of this many letters. -/
def letters (n : Nat) : String := String.ofList (List.replicate n 'a')

/-- Each letter takes one byte. -/
theorem size_letters (n : Nat) : (letters n).toUTF8.size = n := by
  unfold letters
  rw [String.toUTF8_eq_toByteArray, String.toByteArray_ofList]
  induction n with
  | zero => rfl
  | succ n ih =>
    rw [List.replicate_succ, List.utf8Encode_cons, ByteArray.size_append, ih,
      List.utf8Encode_singleton, Nat.add_comm]
    rfl

/-- A text of 2³² letters passes for an empty one. -/
theorem storedText_letters : storedText (letters UInt32.size) = "" := by
  unfold storedText
  rw [size_letters, if_pos (by decide)]

/-- One of 2³² + 16 letters has no room in any memory, and passes for one of sixteen letters. -/
theorem not_storableText_letters : ¬ StorableText (letters (UInt32.size + 16)) := by
  unfold StorableText MeasuredText
  rw [size_letters]
  decide

end

end Crossing
