import Crossing.Proofs.Codec.Staged
import Crossing.Proofs.Instance.Twins

/-!
# Encoding on twins

On twins a value is encoded alike, however it nests and wherever memory grows on the way
(`parallel_encodeAt`): the slot, the tables and the texts are written at the same addresses with
the same bytes, and handles and numbers of raw values are the same. Every table and text is asked
for anew in the memory that is in use, and the allocator hands it out where the heap reaches.

A text of more bytes than a word can count (`Value.Overlong`) is refused with a fault that tells the
size of memory, unless its length wraps around to zero.
-/

namespace Crossing

open Effect

namespace Value

mutual

/-- A text in the value has more bytes than a word can count. -/
def Overlong : Value → Prop
  | string t => UInt32.size ≤ t.toUTF8.size
  | array items => OverlongItems items
  | object entries => OverlongEntries entries
  | _ => False

/-- A text in the items has more bytes than a word can count. -/
def OverlongItems : List Value → Prop
  | [] => False
  | v :: rest => Overlong v ∨ OverlongItems rest

/-- A text in the properties has more bytes than a word can count. -/
def OverlongEntries : List (String × Value) → Prop
  | [] => False
  | (key, v) :: rest => UInt32.size ≤ key.toUTF8.size ∨ Overlong v ∨ OverlongEntries rest

end

end Value

section
variable {Code : Type} {i j : Instance Code} {long : Prop} {address : UInt32}

/-! ## Slots -/

/-- The pointer and the length of a text. -/
theorem parallel_writeText (h : Twins i j) (pointer length : UInt32)
    (hreach : i.Reaches (address.toNat + 8)) :
    Parallel long i j (do writeWord address 0 pointer; writeWord address 1 length)
      (do writeWord address 0 pointer; writeWord address 1 length) := by
  have h1 : (1 : UInt32).toNat = 1 := rfl
  refine (parallel_writeWord h 0 pointer (hreach.narrow ?_)).bind
    (ensures_writeWord h.left address 0 0 rfl pointer) fun _ i₁ j₁ g₁ _ h₁ => ?_
  · rw [UInt32.toNat_zero]
    omega
  · exact parallel_writeWord h₁ 1 length ((hreach.mono g₁).narrow (by omega))

/-- A text is stored alike on twins, but where it is too long. -/
theorem parallel_storeText (h : Twins i j) (t : String) (hreach : i.Reaches (address.toNat + 8))
    (hlong : UInt32.size ≤ t.toUTF8.size → long) :
    Parallel long i j (storeText address t) (storeText address t) := by
  rw [storeText_eq]
  split
  · refine (parallel_alloc h _).bind (ensures_alloc (W := ∅) h.left _)
      fun pointer i₁ j₁ g₁ hb h₁ => ?_
    refine .views h₁ fun v v' i₂ j₂ hv hv' hguest h₂ => ?_
    have hreach₂ := (hreach.mono g₁).of_guest hguest
    have hwrite : Parallel long i₂ j₂ (write i₂.guest.memory pointer t.toUTF8)
        (write j₂.guest.memory pointer t.toUTF8) := by
      by_cases hsize : t.toUTF8.size < UInt32.size
      · have hstop := hb.stop
        rw [← hguest, UInt32.toNat_ofNat_of_lt' hsize] at hstop
        exact parallel_write h₂ ⟨hreach₂.1, Nat.le_of_eq hstop.symm⟩
      · exact parallel_write_beyond h₂ (hlong (Nat.le_of_not_lt hsize)) pointer
          (Nat.le_of_not_lt hsize)
    rw [hv, hv']
    refine hwrite.bind (ensures_write h₂.left pointer t.toUTF8) fun _ i₃ j₃ g₃ _ h₃ => ?_
    rw [pure_bind]
    exact parallel_writeText h₃ pointer _ (hreach₂.mono g₃)
  · rw [pure_bind]
    exact parallel_writeText h 0 _ hreach

/-- A word and a kind. -/
theorem parallel_writeTagged (h : Twins i j) (x : UInt32) (kind : SlotKind)
    (hreach : i.Reaches (address.toNat + 13)) :
    Parallel long i j (do writeWord address 0 x; writeKind address kind)
      (do writeWord address 0 x; writeKind address kind) := by
  refine (parallel_writeWord h 0 x (hreach.narrow ?_)).bind
    (ensures_writeWord h.left address 0 0 rfl x) fun _ i₁ j₁ g₁ _ h₁ => ?_
  · rw [UInt32.toNat_zero]
    omega
  · exact parallel_writeKind h₁ kind (hreach.mono g₁)

/-- A number is encoded alike on twins. -/
theorem parallel_encodeNumber (h : Twins i j) (x : Double)
    (hreach : i.Reaches (address.toNat + 13)) :
    Parallel long i j (encodeNumber address x) (encodeNumber address x) := by
  have hkind (k : ElementKind) (hk : k.size.toNat ≤ 8) (y : k.Carrier) (kind : SlotKind) :
      Parallel long i j (do store (← views).buffer k address y; writeKind address kind)
        (do store (← views).buffer k address y; writeKind address kind) := by
    refine .views h fun v v' i₁ j₁ hv hv' hguest h₁ => ?_
    have hreach₁ := hreach.of_guest hguest
    rw [hv, hv']
    refine (parallel_store h₁ y (hreach₁.narrow (by omega))).bind
      (ensures_store h₁.left k address y) fun _ i₂ j₂ g₂ _ h₂ => ?_
    exact parallel_writeKind h₂ kind (hreach₁.mono g₂)
  unfold encodeNumber
  split
  · exact hkind .i32 (by decide) _ _
  · exact hkind .f64 (by decide) _ _

/-- A value is lent alike on twins, under the same handle. -/
theorem parallel_encodeHandle (h : Twins i j) (v : Value)
    (hreach : i.Reaches (address.toNat + 13)) :
    Parallel long i j (encodeHandle address v) (encodeHandle address v) := by
  refine (parallel_acquire h v).bind (ensures_acquire (W := ∅) h.left v)
    fun id i₁ j₁ g₁ _ h₁ => ?_
  exact parallel_writeTagged h₁ id .handle (hreach.mono g₁)

/-- A symbol is registered alike on twins, under the same number. -/
theorem parallel_encodeRaw (h : Twins i j) (v : Value)
    (hreach : i.Reaches (address.toNat + 13)) :
    Parallel long i j
      (do
        let id ← registerRaw v
        writeWord address 0 id
        writeKind address .raw)
      (do
        let id ← registerRaw v
        writeWord address 0 id
        writeKind address .raw) := by
  refine (parallel_registerRaw h v).bind (ensures_registerRaw (W := ∅) h.left v)
    fun id i₁ j₁ g₁ _ h₁ => ?_
  exact parallel_writeTagged h₁ id .raw (hreach.mono g₁)

/-! ## Tables -/

/-- The addresses of entries that the heap reaches are words. -/
theorem parallel_entryAddress {f f' : UInt32 → Effect Code Unit} {base index stride : UInt32}
    (hreach : i.Reaches (base.toNat + index.toNat * stride.toNat))
    (hf : ∀ a : UInt32, a.toNat = base.toNat + index.toNat * stride.toNat →
      Parallel long i j (f a) (f' a)) :
    Parallel long i j (entryAddress base index stride >>= f)
      (entryAddress base index stride >>= f') := by
  have ha := UInt32.toNat_ofNat_of_lt' hreach.lt_word
  unfold entryAddress
  rw [Slot.entry?_eq_some_iff.2 ha.symm]
  exact hf _ ha

/-- An array is opened alike on twins, with the same table. -/
theorem parallel_openArray (h : Twins i j) (room n : Nat)
    (hreach : i.Reaches (address.toNat + 13)) :
    Parallel long i j (openArray address room n) (openArray address room n) := by
  have h1 : (1 : UInt32).toNat = 1 := rfl
  refine (parallel_checkRoom h room).bind (ensures_checkRoom (W := ∅) h.left room)
    fun _ i₁ j₁ g₁ _ h₁ => ?_
  refine (parallel_tableSize h₁ n _).bind (ensures_tableSize (W := ∅) h₁.left n _)
    fun size i₂ j₂ g₂ _ h₂ => ?_
  refine (parallel_alloc h₂ size).bind (ensures_alloc (W := ∅) h₂.left size)
    fun table i₃ j₃ g₃ _ h₃ => ?_
  refine .get ?_
  refine (parallel_offset h₃ table).bind (Ensures.lift (W := ∅) h₃.left _)
    fun offset i₄ j₄ g₄ _ h₄ => ?_
  have hreach₄ := (((hreach.mono g₁).mono g₂).mono g₃).mono g₄
  refine (parallel_writeKind h₄ .array hreach₄).bind (ensures_writeKind h₄.left address .array)
    fun _ i₅ j₅ g₅ _ h₅ => ?_
  have hreach₅ := hreach₄.mono g₅
  refine (parallel_writeWord h₅ 0 offset (hreach₅.narrow ?_)).bind
    (ensures_writeWord h₅.left address 0 0 rfl offset) fun _ i₆ j₆ g₆ _ h₆ => ?_
  · rw [UInt32.toNat_zero]
    omega
  refine (parallel_writeWord h₆ 1 _ ((hreach₅.mono g₆).narrow (by omega))).bind
    (ensures_writeWord h₆.left address 1 1 rfl _) fun _ i₇ j₇ g₇ _ h₇ => ?_
  exact .pure h₇ table

/-- An object is opened alike on twins, with the same tables. -/
theorem parallel_openObject (h : Twins i j) (room n : Nat)
    (hreach : i.Reaches (address.toNat + 13)) :
    Parallel long i j (openObject address room n) (openObject address room n) := by
  have h1 : (1 : UInt32).toNat = 1 := rfl
  have h2 : (2 : UInt32).toNat = 2 := rfl
  refine (parallel_checkRoom h room).bind (ensures_checkRoom (W := ∅) h.left room)
    fun _ i₁ j₁ g₁ _ h₁ => ?_
  refine (parallel_tableSize h₁ n _).bind (ensures_tableSize (W := ∅) h₁.left n _)
    fun size i₂ j₂ g₂ _ h₂ => ?_
  refine (parallel_alloc h₂ size).bind (ensures_alloc (W := ∅) h₂.left size)
    fun keys i₃ j₃ g₃ _ h₃ => ?_
  refine (parallel_tableSize h₃ n _).bind (ensures_tableSize (W := ∅) h₃.left n _)
    fun size' i₄ j₄ g₄ _ h₄ => ?_
  refine (parallel_alloc h₄ size').bind (ensures_alloc (W := ∅) h₄.left size')
    fun values i₅ j₅ g₅ _ h₅ => ?_
  have hreach₅ := ((((hreach.mono g₁).mono g₂).mono g₃).mono g₄).mono g₅
  refine (parallel_writeKind h₅ .object hreach₅).bind (ensures_writeKind h₅.left address .object)
    fun _ i₆ j₆ g₆ _ h₆ => ?_
  refine .get ?_
  refine (parallel_offset h₆ values).bind (Ensures.lift (W := ∅) h₆.left _)
    fun offset i₇ j₇ g₇ _ h₇ => ?_
  have hreach₇ := (hreach₅.mono g₆).mono g₇
  refine (parallel_writeWord h₇ 0 offset (hreach₇.narrow ?_)).bind
    (ensures_writeWord h₇.left address 0 0 rfl offset) fun _ i₈ j₈ g₈ _ h₈ => ?_
  · rw [UInt32.toNat_zero]
    omega
  have hreach₈ := hreach₇.mono g₈
  refine (parallel_writeWord h₈ 1 _ (hreach₈.narrow (by omega))).bind
    (ensures_writeWord h₈.left address 1 1 rfl _) fun _ i₉ j₉ g₉ _ h₉ => ?_
  refine .get ?_
  refine (parallel_offset h₉ keys).bind (Ensures.lift (W := ∅) h₉.left _)
    fun offset' i₁₀ j₁₀ g₁₀ _ h₁₀ => ?_
  refine (parallel_writeWord h₁₀ 2 offset' (((hreach₈.mono g₉).mono g₁₀).narrow
    (by omega))).bind (ensures_writeWord h₁₀.left address 2 2 rfl offset')
      fun _ i₁₁ j₁₁ g₁₁ _ h₁₁ => ?_
  exact .pure h₁₁ (keys, values)

/-! ## Values -/

mutual

/-- Twins encode a value alike, however it nests. -/
theorem parallel_encodeAt {i j : Instance Code} {address : UInt32} (h : Twins i j) (room : Nat)
    (v : Value) (hreach : i.Reaches (address.toNat + 13)) (hlong : v.Overlong → long) :
    Parallel long i j (encodeAt room address v) (encodeAt room address v) := by
  unfold encodeAt
  refine .note h _ fun i j hguest h => ?_
  replace hreach := hreach.of_guest hguest
  cases v with
  | undefined => exact parallel_writeKind h _ hreach
  | null => exact parallel_writeKind h _ hreach
  | boolean b => exact parallel_writeKind h _ hreach
  | number x => exact parallel_encodeNumber h x hreach
  | string t =>
    refine (parallel_storeText h t (hreach.narrow (by omega)) hlong).bind
      (ensures_storeText h.left address t) fun _ i₁ j₁ g₁ _ h₁ => ?_
    exact parallel_writeKind h₁ .string (hreach.mono g₁)
  | array items =>
    refine (parallel_openArray h room items.length hreach).bind
      (ensures_openArray h.left address room items.length)
      fun table i₁ j₁ g₁ ⟨_, _, _, htable⟩ h₁ => ?_
    have hle := htable.le_hi
    refine parallel_encodeItems h₁ (room - 1) table 0 items ⟨(hreach.mono g₁).1, ?_⟩ hlong
    rw [UInt32.toNat_zero]
    omega
  | object entries =>
    refine (parallel_openObject h room entries.length hreach).bind
      (ensures_openObject h.left address room entries.length)
      fun ⟨keys, values⟩ i₁ j₁ g₁ ⟨_, _, _, hkeys, hvalues⟩ h₁ => ?_
    have hle := hkeys.le_hi
    have hle' := hvalues.le_hi
    dsimp only at hle hle'
    refine parallel_encodeEntries h₁ (room - 1) keys values 0 entries ?_
      ⟨(hreach.mono g₁).1, ?_⟩ hlong
    · rw [UInt32.toNat_zero]
      omega
    · rw [UInt32.toNat_zero]
      omega
  | symbol s => exact parallel_encodeRaw h _ hreach
  | reference o => exact parallel_encodeHandle h _ hreach
  | closure id => exact parallel_encodeHandle h _ hreach
  | window w => exact parallel_encodeHandle h _ hreach

/-- Items are encoded alike on twins. -/
theorem parallel_encodeItems {i j : Instance Code} (h : Twins i j) (room : Nat)
    (table index : UInt32) (items : List Value)
    (hreach : i.Reaches (table.toNat + 16 * (index.toNat + items.length)))
    (hlong : Value.OverlongItems items → long) :
    Parallel long i j (encodeItems room table index items)
      (encodeItems room table index items) := by
  cases items with
  | nil => exact .pure h ()
  | cons v rest =>
    have h16 : Slot.size.toNat = 16 := rfl
    rw [List.length_cons] at hreach
    have hword := hreach.lt_word
    have hnext : (index + 1).toNat = index.toNat + 1 :=
      toNat_index_succ (n := rest.length) (by omega)
    unfold encodeItems
    refine parallel_entryAddress (hreach.narrow (by rw [h16]; omega)) fun slot hslot => ?_
    rw [h16] at hslot
    refine (parallel_encodeAt h room v (hreach.narrow (by omega)) fun hv => hlong (.inl hv)).bind
      (ensures_encodeAt h.left room slot v) fun _ i₁ j₁ g₁ _ h₁ => ?_
    refine parallel_encodeItems h₁ room table (index + 1) rest ?_ fun hrest => hlong (.inr hrest)
    exact (hreach.mono g₁).narrow (by omega)

/-- So are properties. -/
theorem parallel_encodeEntries {i j : Instance Code} (h : Twins i j) (room : Nat)
    (keys values index : UInt32) (entries : List (String × Value))
    (hkeys : keys.toNat + 8 * (index.toNat + entries.length) ≤ values.toNat + 16 * index.toNat)
    (hreach : i.Reaches (values.toNat + 16 * (index.toNat + entries.length)))
    (hlong : Value.OverlongEntries entries → long) :
    Parallel long i j (encodeEntries room keys values index entries)
      (encodeEntries room keys values index entries) := by
  cases entries with
  | nil => exact .pure h ()
  | cons entry rest =>
    obtain ⟨key, v⟩ := entry
    have h8 : Slot.keySize.toNat = 8 := rfl
    have h16 : Slot.size.toNat = 16 := rfl
    rw [List.length_cons] at hkeys hreach
    have hword := hreach.lt_word
    have hnext : (index + 1).toNat = index.toNat + 1 :=
      toNat_index_succ (n := rest.length) (by omega)
    unfold encodeEntries
    refine parallel_entryAddress (hreach.narrow (by rw [h8]; omega)) fun slot hslot => ?_
    rw [h8] at hslot
    refine (parallel_storeText h key (hreach.narrow (by omega)) fun hkey =>
      hlong (.inl hkey)).bind (ensures_storeText h.left slot key) fun _ i₁ j₁ g₁ _ h₁ => ?_
    have hreach₁ := hreach.mono g₁
    refine parallel_entryAddress (hreach₁.narrow (by rw [h16]; omega)) fun slot' hslot' => ?_
    rw [h16] at hslot'
    refine (parallel_encodeAt h₁ room v (hreach₁.narrow (by omega)) fun hv =>
      hlong (.inr (.inl hv))).bind (ensures_encodeAt h₁.left room slot' v)
        fun _ i₂ j₂ g₂ _ h₂ => ?_
    refine parallel_encodeEntries h₂ room keys values (index + 1) rest (by omega) ?_
      fun hrest => hlong (.inr (.inr hrest))
    exact (hreach₁.mono g₂).narrow (by omega)

end

/-- A value is encoded alike on twins. -/
theorem parallel_encode (h : Twins i j) (v : Value) (hreach : i.Reaches (address.toNat + 13)) :
    Parallel v.Overlong i j (encode address v) (encode address v) := by
  refine .get ?_
  rw [h.config]
  exact parallel_encodeAt h _ v hreach id

/-- A value is prepared alike on twins, in the same slot. -/
theorem parallel_prepare (h : Twins i j) (v : Value) :
    Parallel v.Overlong i j (prepare v) (prepare v) := by
  have h16 : Slot.size.toNat = 16 := rfl
  refine (parallel_alloc h Slot.size).bind (ensures_alloc (W := ∅) h.left Slot.size)
    fun slot i₁ j₁ g₁ hb h₁ => ?_
  have hpos := h.left.guest.heap_pos
  have hfresh := hb.fresh
  have hstop := hb.stop
  have hreach : i₁.Reaches (slot.toNat + 13) := ⟨by omega, by omega⟩
  refine (parallel_encode h₁ v hreach).bind (ensures_encode h₁.left slot v)
    fun _ i₂ j₂ _ _ h₂ => ?_
  exact .pure h₂ slot

end

end Crossing
