import Crossing.Proofs.Codec.RoundTrip
import Crossing.Proofs.Instance.Decides

/-!
# The depth limit

Encoding opens one array or object inside another as often as `room` counts, and each of its steps
but those comes to its end, because a table lies aligned inside of memory and all slots are entries
of tables. So how deep a value nests decides whether it can be encoded (`decides_encodeAt`), as long
as its texts can be stored. Nothing else can go wrong unless a block cannot be had or the host
panics.

`Machine.prepared_iff_depth` says so of preparing. The exception is a text whose length is no word
and does not wrap around to zero either: it is written over the end of memory, whatever its value
nests (`Machine.not_prepared_long`).
-/

namespace Crossing

open Effect

section
variable {Code : Type} {i : Instance Code}

/-! ## Numbers, handles and texts -/

/-- Encoding a number into an aligned slot in memory depends on nothing. -/
theorem decides_encodeNumber (hi : i.Ready) {address : UInt32} (x : Double)
    (hal : 8 ∣ address.toNat) (h : i.Spans address 16) :
    Decides True True (encodeNumber address x) i fun _ _ => True := by
  have hnumber (k : ElementKind) (hk : k.size.toNat ∣ 8) (y : k.Carrier) (kind : SlotKind) :
      Decides True True (do store (← views).buffer k address y; writeKind address kind) i
        fun _ _ => True := by
    have hle := Nat.le_of_dvd (by decide) hk
    have hmod : address % k.size = 0 := by
      rw [← UInt32.toNat_inj, UInt32.toNat_mod]
      exact Nat.mod_eq_zero_of_dvd (Nat.dvd_trans hk hal)
    refine (decides_views hi).andThen fun v i₁ g₁ hv => ?_
    have hinside := (h.advance g₁).inside
    rw [hv]
    refine (decides_store g₁.ready y hmod (by omega)).andThen fun _ i₂ g₂ _ => ?_
    exact decides_writeKind g₂.ready kind (h.advance (g₁.trans g₂))
  unfold encodeNumber
  split
  · exact hnumber .i32 ⟨2, rfl⟩ _ _
  · exact hnumber .f64 ⟨1, rfl⟩ _ _

/-- Nor does writing a word and a kind. -/
theorem decides_writeTagged (hi : i.Ready) {address : UInt32} (x : UInt32) (kind : SlotKind)
    (hal : 8 ∣ address.toNat) (h : i.Spans address 16) :
    Decides True True (do writeWord address 0 x; writeKind address kind) i fun _ _ => True := by
  refine (decides_writeWord hi 0 x (Nat.dvd_trans ⟨2, rfl⟩ hal) h (by decide)).andThen
    fun _ i₁ g₁ _ => ?_
  exact decides_writeKind g₁.ready kind (h.advance g₁)

/-- Nor does lending a value, but for the tables that may have come to their end. -/
theorem decides_encodeHandle (hi : i.Ready) {address : UInt32} (v : Value)
    (hal : 8 ∣ address.toNat) (h : i.Spans address 16) :
    Decides True True (encodeHandle address v) i fun _ _ => True := by
  refine (decides_acquire hi v).andThen fun id i₁ g₁ _ => ?_
  exact decides_writeTagged g₁.ready id .handle hal (h.advance g₁)

/-- Nor does registering a symbol. -/
theorem decides_encodeRaw (hi : i.Ready) {address : UInt32} (v : Value)
    (hal : 8 ∣ address.toNat) (h : i.Spans address 16) :
    Decides True True (do
      let id ← registerRaw v
      writeWord address 0 id
      writeKind address .raw) i fun _ _ => True := by
  refine (decides_registerRaw hi v).andThen fun id i₁ g₁ _ => ?_
  exact decides_writeTagged g₁.ready id .raw hal (h.advance g₁)

/-- A text is stored when it can be, and else it may be written out of bounds. -/
theorem decides_storeText (hi : i.Ready) {address : UInt32} (t : String) (hal : 4 ∣ address.toNat)
    (h : i.Spans address 8) :
    Decides True (StorableText t) (storeText address t) i fun _ _ => True := by
  have hwrite (i' : Instance Code) (g : Advances i i') (pointer length : UInt32) :
      Decides True True (do writeWord address 0 pointer; writeWord address 1 length) i'
        fun _ _ => True := by
    refine (decides_writeWord g.ready 0 pointer hal (h.advance g) (by decide)).andThen
      fun _ i₁ g₁ _ => ?_
    exact decides_writeWord g₁.ready 1 length hal (h.advance (g.trans g₁)) (by decide)
  rw [storeText_eq]
  split
  · next hpos =>
    refine (decides_alloc hi _).andThen fun pointer i₁ g₁ hr => ?_
    refine (decides_views g₁.ready).andThen fun v i₂ g₂ hv => ?_
    rw [hv]
    by_cases hinside : pointer.toNat + t.toUTF8.size ≤ i₂.guest.buffer.bytes.size
    · refine (decides_write g₂.ready hinside).andThen fun _ i₃ g₃ _ => ?_
      rw [pure_bind]
      exact (hwrite i₃ ((g₁.trans g₂).trans g₃) _ _).texts
    · -- The block is as long as the text where the length is a word.
      have hunstorable : ¬ StorableText t := by
        rintro (hword | hzero)
        · have hin := (hr.spans.advance g₂).inside
          rw [show t.toUTF8.size.toUInt32.toNat = t.toUTF8.size from
            UInt32.toNat_ofNat_of_lt' hword] at hin
          exact hinside hin
        · rw [hzero] at hpos
          exact absurd hpos (by decide)
      have hcheck : (i₂.guest.store.buffer i₂.guest.memory).check pointer t.toUTF8.size =
          .error ((i₂.guest.store.buffer i₂.guest.memory).outOfBounds pointer
            t.toUTF8.size.toUInt32) := if_neg hinside
      have hwrite : exec (write i₂.guest.memory pointer t.toUTF8) i₂ =
          (.error ((i₂.guest.store.buffer i₂.guest.memory).outOfBounds pointer
            t.toUTF8.size.toUInt32), i₂) := by
        rw [exec_write, hcheck]
      unfold Decides
      rw [exec_bind_of_error hwrite]
      exact .tooLong hunstorable
  · rw [pure_bind]
    exact (hwrite i (.refl hi) _ _).texts

/-! ## Tables -/

/-- Opening an array takes one of the openings that are left. -/
theorem decides_openArray (hi : i.Ready) {address : UInt32} (room n : Nat)
    (hal : 8 ∣ address.toNat) (h : i.Spans address 16) :
    Decides (0 < room) True (openArray address room n) i
      fun table i' => 8 ∣ table.toNat ∧ i'.Spans table (n * 16) := by
  have hal4 : 4 ∣ address.toNat := Nat.dvd_trans ⟨2, rfl⟩ hal
  refine Decides.congr ((decides_checkRoom hi room).bind fun _ i' _ heq => ?_)
    (iff_of_eq (and_true _)) (iff_of_eq (and_true _))
  subst heq
  refine (decides_tableSize hi n _).peek fun size hn => ?_
  refine (decides_alloc hi size).andThen fun table i₁ g₁ hr => .get ?_
  refine (decides_offset g₁.ready hr.above).peek fun offset _ => ?_
  have h₁ := h.advance g₁
  refine (decides_writeKind g₁.ready .array h₁).andThen fun _ i₂ g₂ _ => ?_
  have h₂ := h₁.advance g₂
  refine (decides_writeWord g₂.ready 0 offset hal4 h₂ (by decide)).andThen fun _ i₃ g₃ _ => ?_
  have h₃ := h₂.advance g₃
  refine (decides_writeWord g₃.ready 1 n.toUInt32 hal4 h₃ (by decide)).andThen
    fun _ i₄ g₄ _ => ?_
  have hspans := hr.spans.advance ((g₂.trans g₃).trans g₄)
  rw [← hn] at hspans
  exact .pure g₄.ready ⟨hr.aligned, hspans⟩

/-- Opening an object takes one of the openings that are left. -/
theorem decides_openObject (hi : i.Ready) {address : UInt32} (room n : Nat)
    (hal : 8 ∣ address.toNat) (h : i.Spans address 16) :
    Decides (0 < room) True (openObject address room n) i fun tables i' =>
      (8 ∣ tables.1.toNat ∧ i'.Spans tables.1 (n * 8)) ∧
        8 ∣ tables.2.toNat ∧ i'.Spans tables.2 (n * 16) := by
  have hal4 : 4 ∣ address.toNat := Nat.dvd_trans ⟨2, rfl⟩ hal
  refine Decides.congr ((decides_checkRoom hi room).bind fun _ i' _ heq => ?_)
    (iff_of_eq (and_true _)) (iff_of_eq (and_true _))
  subst heq
  refine (decides_tableSize hi n _).peek fun size hn => ?_
  refine (decides_alloc hi size).andThen fun keys i₁ g₁ hr => ?_
  refine (decides_tableSize g₁.ready n _).peek fun size' hn' => ?_
  refine (decides_alloc g₁.ready size').andThen fun values i₂ g₂ hr' => ?_
  have h₂ := h.advance (g₁.trans g₂)
  refine (decides_writeKind g₂.ready .object h₂).andThen fun _ i₃ g₃ _ => .get ?_
  have h₃ := h₂.advance g₃
  refine (decides_offset g₃.ready (g₃.above g₂.ready hr'.above)).peek fun offset _ => ?_
  refine (decides_writeWord g₃.ready 0 offset hal4 h₃ (by decide)).andThen fun _ i₄ g₄ _ => ?_
  have h₄ := h₃.advance g₄
  refine (decides_writeWord g₄.ready 1 n.toUInt32 hal4 h₄ (by decide)).andThen
    fun _ i₅ g₅ _ => .get ?_
  have h₅ := h₄.advance g₅
  have g₂₅ := (g₂.trans g₃).trans (g₄.trans g₅)
  refine (decides_offset g₅.ready (g₂₅.above g₁.ready hr.above)).peek fun offset' _ => ?_
  refine (decides_writeWord g₅.ready 2 offset' hal4 h₅ (by decide)).andThen fun _ i₆ g₆ _ => ?_
  have hspans := hr.spans.advance (g₂₅.trans g₆)
  have hspans' := hr'.spans.advance ((g₃.trans g₄).trans (g₅.trans g₆))
  rw [← hn] at hspans
  rw [← hn'] at hspans'
  exact .pure g₆.ready ⟨⟨hr.aligned, hspans⟩, hr'.aligned, hspans'⟩

/-! ## Values -/

mutual

/-- A value whose texts can be stored is encoded when it nests no deeper than arrays and objects may
be opened, and else refused for its depth. -/
theorem decides_encodeAt {i : Instance Code} (hi : i.Ready) {room : Nat} {address : UInt32}
    (v : Value) (hal : 8 ∣ address.toNat) (h : i.Spans address 16) :
    Decides (v.depth ≤ room) v.Storable (encodeAt room address v) i fun _ _ => True := by
  unfold encodeAt
  refine (decides_record hi _).andThen fun _ j g _ => ?_
  have hj := g.ready
  have hspan := h.advance g
  have hleaf {e : Effect Code Unit} (hdepth : v.depth = 0)
      (he : Decides True v.Storable e j fun _ _ => True) :
      Decides (v.depth ≤ room) v.Storable e j fun _ _ => True :=
    he.congr (iff_of_true trivial (hdepth ▸ Nat.zero_le room)) Iff.rfl
  have hkind (kind : SlotKind) := decides_writeKind hj kind hspan
  cases v with
  | undefined => exact hleaf rfl (hkind _).texts
  | null => exact hleaf rfl (hkind _).texts
  | boolean b => exact hleaf rfl (hkind _).texts
  | number x => exact hleaf rfl (decides_encodeNumber hj x hal hspan).texts
  | symbol s => exact hleaf rfl (decides_encodeRaw hj _ hal hspan).texts
  | reference o => exact hleaf rfl (decides_encodeHandle hj _ hal hspan).texts
  | closure id => exact hleaf rfl (decides_encodeHandle hj _ hal hspan).texts
  | window w => exact hleaf rfl (decides_encodeHandle hj _ hal hspan).texts
  | string t =>
    refine hleaf rfl ?_
    exact ((decides_storeText hj t (Nat.dvd_trans ⟨2, rfl⟩ hal) (hspan.part (by omega))).bind
      fun _ i₁ g₁ _ => decides_writeKind g₁.ready .string (hspan.advance g₁)).congr
        (iff_of_eq (and_true _)) (iff_of_eq (and_true _))
  | array items =>
    have hdepth : (0 < room ∧ Value.depthItems items ≤ room - 1) ↔
        (Value.array items).depth ≤ room := by
      rw [Value.depth]
      omega
    refine Decides.congr ?_ hdepth (iff_of_eq (true_and _))
    refine (decides_openArray hj room _ hal hspan).bind fun table i₁ g₁ ⟨hal₁, htable⟩ => ?_
    refine decides_encodeItems g₁.ready items hal₁ ?_
    rwa [UInt32.toNat_zero, Nat.zero_add]
  | object entries =>
    have hdepth : (0 < room ∧ Value.depthEntries entries ≤ room - 1) ↔
        (Value.object entries).depth ≤ room := by
      rw [Value.depth]
      omega
    refine Decides.congr ?_ hdepth (iff_of_eq (true_and _))
    refine (decides_openObject hj room _ hal hspan).bind
      fun ⟨keys, values⟩ i₁ g₁ ⟨⟨hal₁, hkeys⟩, hal₂, hvalues⟩ => ?_
    refine decides_encodeEntries g₁.ready entries hal₁ hal₂ ?_ ?_
    · rwa [UInt32.toNat_zero, Nat.zero_add]
    · rwa [UInt32.toNat_zero, Nat.zero_add]

/-- Items are encoded when none nests deeper than arrays and objects may be opened. -/
theorem decides_encodeItems {i : Instance Code} (hi : i.Ready) {room : Nat}
    {table index : UInt32} (items : List Value) (hal : 8 ∣ table.toNat)
    (h : i.Spans table ((index.toNat + items.length) * 16)) :
    Decides (Value.depthItems items ≤ room) (Value.AllTextsItems StorableText items)
      (encodeItems room table index items) i fun _ _ => True := by
  unfold encodeItems
  cases items with
  | nil => exact (Decides.pure hi trivial).congr (iff_of_true trivial (Nat.zero_le room)) Iff.rfl
  | cons v rest =>
    have h16 : Slot.size.toNat = 16 := rfl
    have hword := h.word
    rw [List.length_cons] at h hword
    have hnext : (index + 1).toNat = index.toNat + 1 :=
      toNat_index_succ (n := rest.length) (by omega)
    have hdepth : (v.depth ≤ room ∧ Value.depthItems rest ≤ room) ↔
        Value.depthItems (v :: rest) ≤ room := by
      rw [Value.depthItems]
      omega
    refine Decides.congr ?_ hdepth Iff.rfl
    refine (decides_entryAddress hi (by rw [h16]; omega)).peek fun slot hslot => ?_
    rw [h16] at hslot
    refine (decides_encodeAt hi v (by omega) (h.part (by omega))).bind fun _ i₁ g₁ _ => ?_
    exact decides_encodeItems g₁.ready rest hal ((h.advance g₁).part (by rw [hnext]; omega))

/-- Properties are encoded when no value nests deeper than arrays and objects may be opened. -/
theorem decides_encodeEntries {i : Instance Code} (hi : i.Ready) {room : Nat}
    {keys values index : UInt32} (entries : List (String × Value)) (hal : 8 ∣ keys.toNat)
    (hal' : 8 ∣ values.toNat)
    (h : i.Spans keys ((index.toNat + entries.length) * 8))
    (h' : i.Spans values ((index.toNat + entries.length) * 16)) :
    Decides (Value.depthEntries entries ≤ room) (Value.AllTextsEntries StorableText entries)
      (encodeEntries room keys values index entries) i fun _ _ => True := by
  unfold encodeEntries
  cases entries with
  | nil => exact (Decides.pure hi trivial).congr (iff_of_true trivial (Nat.zero_le room)) Iff.rfl
  | cons entry rest =>
    obtain ⟨key, v⟩ := entry
    have h8 : Slot.keySize.toNat = 8 := rfl
    have h16 : Slot.size.toNat = 16 := rfl
    have hword := h.word
    have hword' := h'.word
    rw [List.length_cons] at h h' hword hword'
    have hnext : (index + 1).toNat = index.toNat + 1 :=
      toNat_index_succ (n := rest.length) (by omega)
    have hdepth : (v.depth ≤ room ∧ Value.depthEntries rest ≤ room) ↔
        Value.depthEntries ((key, v) :: rest) ≤ room := by
      rw [Value.depthEntries]
      omega
    refine Decides.congr ?_ ((iff_of_eq (true_and _)).trans hdepth) Iff.rfl
    refine (decides_entryAddress hi (by rw [h8]; omega)).peek fun slot hslot => ?_
    rw [h8] at hslot
    refine (decides_storeText hi key (by omega) (h.part (by omega))).bind
      fun _ i₁ g₁ _ => ?_
    refine (decides_entryAddress g₁.ready (by rw [h16]; omega)).peek fun slot' hslot' => ?_
    rw [h16] at hslot'
    refine (decides_encodeAt g₁.ready v (by omega)
      ((h'.advance g₁).part (by omega))).bind fun _ i₂ g₂ _ => ?_
    have g := g₁.trans g₂
    exact decides_encodeEntries g₂.ready rest hal hal'
      ((h.advance g).part (by rw [hnext]; omega)) ((h'.advance g).part (by rw [hnext]; omega))

end

/-- A value whose texts can be stored is prepared when it nests no deeper than is configured, and
else refused for its depth. -/
theorem decides_prepare (hi : i.Ready) (v : Value) :
    Decides (v.depth ≤ i.config.maxDepth) v.Storable (prepare v) i fun _ _ => True := by
  unfold prepare
  refine (decides_alloc hi Slot.size).andThen fun slot i₁ g₁ hr => ?_
  have hencode : Decides (v.depth ≤ i.config.maxDepth) v.Storable (encode slot v) i₁
      fun _ _ => True := by
    rw [← g₁.config]
    exact .get (decides_encodeAt g₁.ready v hr.aligned hr.spans)
  exact (hencode.bind fun _ i₂ g₂ _ => .pure g₂.ready trivial).congr (iff_of_eq (and_true _))
    (iff_of_eq (and_true _))

/-! ## Texts that cannot be stored -/

/-- A text that stands in memory has a word for its length. -/
theorem Instance.HoldsText.storableText {lo hi : Nat} {address : UInt32} {t : String}
    (h : i.HoldsText lo hi address (storedText t)) : StorableText t := by
  obtain ⟨pointer, length, -, -, hlength, -⟩ := h
  by_cases hzero : t.toUTF8.size.toUInt32 = 0
  · exact .inr hzero
  · refine .inl ?_
    rw [storedText, if_neg hzero] at hlength
    show t.toUTF8.size < UInt32.size
    rw [← hlength]
    exact length.toNat_lt

mutual

/-- A value of which memory holds what it can has no text that cannot be stored. -/
theorem Instance.Staged.storable {room lo hi : Nat} {address : UInt32} : ∀ {v : Value},
    i.Staged room lo hi address v.stored → v.Storable
  | .string _, ⟨htext, _⟩ => htext.storableText
  | .array _, ⟨_, _, _, _, _, _, _, hitems⟩ => Instance.StagedItems.storable hitems
  | .object _, ⟨_, _, _, _, _, _, _, _, _, hentries⟩ => Instance.StagedEntries.storable hentries
  | .undefined, _ | .null, _ | .boolean _, _ | .number _, _ | .symbol _, _ | .reference _, _
  | .closure _, _ | .window _, _ => trivial

/-- Neither have items. -/
theorem Instance.StagedItems.storable {room lo hi place : Nat} : ∀ {items : List Value},
    i.StagedItems room lo hi place (Value.storedItems items) →
      Value.AllTextsItems StorableText items
  | [], _ => trivial
  | _ :: _, ⟨_, _, _, _, _, hv, hrest⟩ =>
    ⟨Instance.Staged.storable hv, Instance.StagedItems.storable hrest⟩

/-- Neither have properties. -/
theorem Instance.StagedEntries.storable {room lo hi place place' : Nat} :
    ∀ {entries : List (String × Value)},
      i.StagedEntries room lo hi place place' (Value.storedEntries entries) →
        Value.AllTextsEntries StorableText entries
  | [], _ => trivial
  | (_, _) :: _, ⟨_, _, _, _, _, _, _, _, _, hkey, hv, hrest⟩ =>
    ⟨hkey.storableText, Instance.Staged.storable hv, Instance.StagedEntries.storable hrest⟩

end

/-- What was prepared has no text that cannot be stored. -/
theorem storable_of_prepare (hs : i.Sound) {v : Value} {slot : UInt32} {i' : Instance Code}
    (h : exec (prepare v) i = (.ok slot, i')) : v.Storable := by
  obtain ⟨-, hanswer⟩ := ensures_prepare_stored hs v
  rw [h] at hanswer
  obtain ⟨_, _, _, _, hstaged⟩ := hanswer rfl
  exact hstaged.storable

namespace Machine

/-- Where every block can be had and the arena begins at or below the heap's top, the host panics
because the heap's top or a table has come to the end of the words, or else: a value whose texts can
be stored can be prepared exactly when it nests no deeper than is configured, and a deeper one is
refused with the limit that is configured. Of the others a guest of at most 65535 pages is given
none, and one that does not nest too deep is written out of bounds. -/
theorem prepared_iff_depth {pages maxPages : UInt32} {config : Config}
    {as : List (Action Code)} {v : Value} {m : Machine Code}
    (hm : (boot (Guest.ofPages Code pages maxPages) config).runs as = m)
    (hbase : config.arenaBase.toNat ≤ m.inst.guest.heapTop.toNat)
    (hserved : ∀ size, (m.perform (.prepare v)).1 ≠ .error (.allocationFailed size)) :
    ((m.perform (.prepare v)).1 = .error .overflow ∧ (m.perform (.prepare v)).2.inst.Crowded) ∨
      (v.Storable →
        ((∃ slot, (m.perform (.prepare v)).1 = .ok slot) ↔ v.depth ≤ config.maxDepth) ∧
        (config.maxDepth < v.depth →
          (m.perform (.prepare v)).1 = .error (.tooDeep config.maxDepth))) ∧
      (pages.toNat ≤ 65535 → maxPages.toNat ≤ 65535 →
        ((∃ slot, (m.perform (.prepare v)).1 = .ok slot) ↔
          v.depth ≤ config.maxDepth ∧ v.Storable) ∧
        (¬ v.Storable → v.depth ≤ config.maxDepth → ∃ address length size,
          (m.perform (.prepare v)).1 = .error (.outOfBounds address length size))) := by
  subst hm
  obtain ⟨hready, hconfig⟩ := ready_runs pages maxPages config as hbase
  have hsound (hpages : pages.toNat ≤ 65535) (hmax : maxPages.toNat ≤ 65535) :=
    sound_runs hpages hmax config as
  generalize (boot (Guest.ofPages Code pages maxPages) config).runs as = m at *
  subst hconfig
  refine (Decided.of_granted (decides_prepare hready v) hserved).imp_right
    fun ⟨hdepth, hlong⟩ => ⟨fun hv => ?_, fun hpages hmax => ?_⟩
  · exact ⟨(hdepth hv).1, fun hlt => (hdepth hv).2 (Nat.not_le.2 hlt)⟩
  · have hstorable : (∃ slot, (m.perform (.prepare v)).1 = .ok slot) → v.Storable :=
      fun ⟨slot, hslot⟩ => storable_of_prepare (hsound hpages hmax) (Prod.ext hslot rfl)
    refine ⟨⟨fun hok => ⟨(hdepth (hstorable hok)).1.1 hok, hstorable hok⟩,
      fun ⟨hle, hv⟩ => (hdepth hv).1.2 hle⟩, fun hv hle => ?_⟩
    exact (hlong hle).resolve_left fun hok => hv (hstorable hok)

/-- A machine on a guest of one page in which arrays and objects may not nest. -/
def flat : Machine Unit := boot (Guest.ofPages Unit 1 16) { Config.standard with maxDepth := 1 }

/-- That machine is sound. -/
theorem sound_flat : flat.inst.Sound := .ofGuest (by decide) (by decide) _

/-- Its memory may have sixteen pages. -/
theorem limit_flat : 16 * 65536 ≤ flat.inst.guest.limit := Nat.le_max_right _ _

/-- An object in an array is refused when the array has been opened. -/
theorem exec_prepare_flat :
    ∃ i, exec (prepare (.array [.object []])) flat.inst = (.error (.tooDeep 1), i) := by
  have hlimit := limit_flat
  have htop : flat.inst.guest.heapTop.toNat = 16 := rfl
  have h16 : Slot.size.toNat = 16 := rfl
  obtain ⟨slot, i, halloc, hspends, hg, hb⟩ := (answers_alloc (i := flat.inst) sound_flat
    (by omega)).delivers (ensures_alloc (W := ∅) sound_flat Slot.size)
  have hagrees := agrees_log i (.encoding "array" slot)
  have hopen : Answers (7 + 16 * 1) 0 (openArray slot 1 1) (i.log (.encoding "array" slot)) := by
    have hstop := hb.stop
    have hinside := hb.inside
    refine answers_openArray (hagrees.sound hg.sound) Nat.one_pos hb.aligned ?_ ?_ ?_
    · rw [hagrees.buffer]
      omega
    · rw [hagrees.base, hg.base sound_flat]
      exact Nat.zero_le _
    · exact hspends.room (by omega)
  obtain ⟨table, i', hopen, -, hg', -⟩ := hopen.delivers
    (ensures_openArray (hagrees.sound hg.sound) slot 1 1)
  have hconfig : i.config.maxDepth = 1 := congrArg Config.maxDepth hg.config
  have hconfig' : i'.config.maxDepth = 1 :=
    congrArg Config.maxDepth (hg'.config.trans (hagrees.config.trans hg.config))
  have hentry : exec (entryAddress table 0 Slot.size) i' = (.ok table, i') := by
    have hpart : Slot.entry? table 0 Slot.size = some table :=
      Slot.entry?_eq_some_iff.2 (by rw [UInt32.toNat_zero, Nat.zero_mul, Nat.add_zero])
    unfold entryAddress
    rw [hpart]
    rfl
  have hobject : exec (encodeAt 0 table (.object [])) i' =
      (.error (.tooDeep 1), i'.log (.encoding "object" table)) := by
    unfold encodeAt
    rw [exec_bind_of_ok (exec_record _ i')]
    refine exec_bind_of_error (exec_bind_of_error ?_)
    rw [← hconfig']
    rfl
  refine ⟨i'.log (.encoding "object" table), ?_⟩
  refine (exec_bind_of_ok halloc).trans (exec_bind_of_error ?_)
  unfold encode
  rw [exec_bind_of_ok (exec_get i), hconfig]
  unfold encodeAt
  rw [exec_bind_of_ok (exec_record _ i)]
  refine (exec_bind_of_ok hopen).trans ?_
  unfold encodeItems
  rw [exec_bind_of_ok hentry]
  exact exec_bind_of_error hobject

/-- Where arrays and objects may not nest, there are blocks for an array with a text in it, and for
one with an object in it. The one is prepared, the other is refused. -/
theorem prepared_iff_depth_flat :
    (∃ slot, (flat.perform (.prepare (.array [.string "x"]))).1 = .ok slot) ∧
      (flat.perform (.prepare (.array [.object []]))).1 = .error (.tooDeep 1) ∧
      (Value.array [.string "x"]).Storable ∧ (Value.array [.object []]).Storable := by
  have hlimit (v : Value) := prepared_iff_depth (v := v) (show ((boot (Guest.ofPages Unit 1 16)
    { Config.standard with maxDepth := 1 }).runs []) = flat from rfl) (Nat.zero_le _)
  have hstorable : (Value.array [.string "x"]).Storable :=
    ⟨.inl (by decide : "x".toUTF8.size < UInt32.size), trivial⟩
  obtain ⟨slot, i, hshallow, -⟩ := answers_prepare sound_flat (.array [.string "x"]) (Nat.le_refl 1)
    (Nat.zero_le _) (Nat.le_trans (by decide) limit_flat) (.ofGuest _ _ (by decide))
  obtain ⟨i', hdeep⟩ := exec_prepare_flat
  have hperform : flat.perform (.prepare (.array [.string "x"])) =
      (.ok slot, { flat with inst := i }) := perform_of_exec hshallow
  have hperform' : flat.perform (.prepare (.array [.object []])) =
      (.error (.tooDeep 1), { flat with inst := i' }) := perform_of_exec hdeep
  refine ⟨?_, ?_, hstorable, trivial, trivial⟩
  · rcases hlimit (.array [.string "x"]) (by rw [hperform]; nofun) with ⟨hpanic, -⟩ | hdepth
    · rw [hperform] at hpanic
      cases hpanic
    · exact (hdepth.1 hstorable).1.2 (Nat.le_refl 1)
  · rcases hlimit (.array [.object []]) (by rw [hperform']; nofun) with ⟨hpanic, -⟩ | hdepth
    · rw [hperform'] at hpanic
      cases hpanic
    · exact (hdepth.1 ⟨trivial, trivial⟩).2 (Nat.lt_succ_self 1)

/-- A text of 2³² + 16 letters nests nowhere and no block is refused for it, yet it is not prepared:
its bytes are written over the end of the only page. -/
theorem not_prepared_long :
    (Value.string (letters (UInt32.size + 16))).depth ≤ flat.inst.config.maxDepth ∧
      (flat.perform (.prepare (.string (letters (UInt32.size + 16))))).1 =
        .error (.outOfBounds 32 16 65536) := by
  have hlength := size_letters (UInt32.size + 16)
  have hunstorable := not_storableText_letters
  generalize letters (UInt32.size + 16) = t at *
  have hsize : flat.inst.guest.buffer.bytes.size = 65536 := Buffer.size_zeroBytes _
  have hword : t.toUTF8.size.toUInt32 = 16 := by rw [hlength]; decide
  obtain ⟨i, h⟩ := exec_prepare_tooLong sound_flat rfl hunstorable
    (by rw [hword, hsize]; decide)
  have hbuffer : flat.inst.guest.buffer.length = 65536 :=
    UInt32.toNat_inj.1 (sound_flat.guest.toNat_length.trans hsize)
  rw [hword, hbuffer] at h
  have hperform : flat.perform (.prepare (.string t)) =
      (.error (.outOfBounds 32 16 65536), { flat with inst := i }) := perform_of_exec h
  exact ⟨Nat.zero_le _, by rw [hperform]⟩

end Machine

end

end Crossing
