import Crossing.Proofs.Codec.Layout
import Crossing.Proofs.Codec.RoundTrip
import Crossing.Proofs.Instance.Parses
import Crossing.Proofs.Memory.Arena

/-!
# Decoding accepts the layout

A slot decodes when its value can be derived from the layout, and then to that value
(`Machine.decode_derives`). There is one lemma for each piece of the decoder, which says what the
piece allows in terms of the layout; `Parses.decodeAt` puts them together, by recursion on the
arrays and objects that may still be opened.

The decoder cuts the address of a table off at the end of the address space, and counts positions in
words. Neither shows: no table that begins behind the end lies in memory, not even an empty one
(`Instance.showsTable_iff`), and what lies in memory is counted by words.
-/

namespace Crossing

open Effect

section
variable {Code α β : Type} {i i' : Instance Code}

/-- A table inside of memory begins where its offset says, since the offset of no such table is cut
off at the end of the address space. -/
theorem Instance.showsTable_iff (hsize : i.guest.buffer.bytes.size ≤ 65535 * 65536)
    (hbase : i.arena.base = i.config.arenaBase) {p count stride : Nat} {base : UInt32} :
    (∃ offset, i.guest.buffer.Shows .u32 p offset ∧ base = i.arena.resolve offset) ∧
        base.toNat + count * stride ≤ i.guest.buffer.bytes.size ↔
      i.ShowsTable p base.toNat count stride := by
  have hmax : Word.max.toNat = 4294967295 := rfl
  constructor
  · rintro ⟨⟨offset, hoffset, hresolve⟩, hinside⟩
    refine ⟨⟨offset, hoffset, ?_⟩, hinside⟩
    rcases Nat.lt_or_ge (i.arena.base.toNat + offset.toNat) UInt32.size with hlt | hge
    · rw [hresolve, Arena.resolve_of_lt hlt, hbase]
    · rw [hresolve, Arena.resolve_of_size_le hge, hmax] at hinside
      omega
  · rintro ⟨⟨offset, hoffset, hsum⟩, hinside⟩
    refine ⟨⟨offset, hoffset, ?_⟩, hinside⟩
    rw [← hbase] at hsum
    rw [← UInt32.toNat_inj, Arena.resolve_of_lt (hsum ▸ base.toNat_lt), hsum]

/-- Slots that are read by their numbers stand one behind the other. -/
theorem Instance.each_items {depth base m : Nat} {k n : Nat} {vs : List Value}
    {cs : List Closure} :
    Layout.each (fun j => i.Derives depth (base + j * 16)) (List.range' k m) n vs cs ↔
      vs.length = m ∧ i.DerivesItems depth (base + k * 16) n vs cs := by
  induction m generalizing k n vs cs with
  | zero =>
    constructor
    · rintro ⟨rfl, rfl⟩
      exact ⟨rfl, .nil⟩
    · rintro ⟨hlength, h⟩
      cases List.length_eq_zero_iff.1 hlength
      cases h
      exact ⟨rfl, rfl⟩
  | succ m ih =>
    have hnext : base + (k + 1) * 16 = base + k * 16 + 16 := by omega
    rw [List.range'_succ]
    constructor
    · rintro ⟨v, vs, cs, ds, hv, hvs, rfl, rfl⟩
      obtain ⟨hlength, hvs⟩ := ih.1 hvs
      exact ⟨congrArg (· + 1) hlength, .cons hv (hnext ▸ hvs)⟩
    · rintro ⟨hlength, h⟩
      cases h with
      | nil => cases hlength
      | cons hv hvs =>
        exact ⟨_, _, _, _, hv, ih.2 ⟨Nat.succ.inj hlength, hnext ▸ hvs⟩, rfl, rfl⟩

/-- Keys and slots that are read by their numbers stand one behind the other. -/
theorem Instance.each_pairs {depth keys values m : Nat} {k n : Nat}
    {es : List (String × Value)} {cs : List Closure} :
    Layout.each (fun j n e cs => i.ShowsText (keys + j * 8) e.1 ∧
        i.Derives depth (values + j * 16) n e.2 cs) (List.range' k m) n es cs ↔
      es.length = m ∧ i.DerivesPairs depth (keys + k * 8) (values + k * 16) n es cs := by
  induction m generalizing k n es cs with
  | zero =>
    constructor
    · rintro ⟨rfl, rfl⟩
      exact ⟨rfl, .nil⟩
    · rintro ⟨hlength, h⟩
      cases List.length_eq_zero_iff.1 hlength
      cases h
      exact ⟨rfl, rfl⟩
  | succ m ih =>
    have hkeys : keys + (k + 1) * 8 = keys + k * 8 + 8 := by omega
    have hvalues : values + (k + 1) * 16 = values + k * 16 + 16 := by omega
    rw [List.range'_succ]
    constructor
    · rintro ⟨e, es, cs, ds, ⟨hkey, hv⟩, hes, rfl, rfl⟩
      obtain ⟨hlength, hes⟩ := ih.1 hes
      rw [hkeys, hvalues] at hes
      exact ⟨congrArg (· + 1) hlength, .cons hkey hv hes⟩
    · rintro ⟨hlength, h⟩
      cases h with
      | nil => cases hlength
      | cons hkey hv hes =>
        rw [← hkeys, ← hvalues] at hes
        exact ⟨_, _, _, _, ⟨hkey, hv⟩, ih.2 ⟨Nat.succ.inj hlength, hes⟩, rfl, rfl⟩

namespace Parses

/-! ## Kinds and texts -/

variable {address : UInt32}

section
variable (hsize : i.guest.buffer.bytes.size ≤ 65535 * 65536)
include hsize

/-- The kind of a slot is read just when its tag is that of a kind. -/
theorem kindAt : Parses i (kindAt address) (.just (i.ShowsKind address.toNat)) := by
  have h1 : ElementKind.u8.size.toNat = 1 := rfl
  have h12 : Slot.tagOffset.toNat = 12 := rfl
  refine views fun v hv => ((slotPart v _).both fun a _ => (getByte hv).both fun tag _ =>
    lift (SlotKind.ofTag tag)).just fun kind => ?_
  constructor
  · rintro ⟨a, ha, tag, htag, hkind⟩
    rw [Slot.tagAddress?, Word.add?_eq_some_iff, h12] at ha
    rw [SlotKind.ofTag_eq_ok_iff] at hkind
    rwa [Instance.ShowsKind, ha, ← hkind]
  · intro hkind
    have hinside := hkind.inside
    obtain ⟨a, ha, ha'⟩ := Slot.exists_tagAddress? address (by
      show _ < 2 ^ 32
      omega)
    exact ⟨a, ha, kind.tag, by rwa [ha'], SlotKind.ofTag_tag kind⟩

/-- A text is read just when its bytes lie in memory. -/
theorem decodeText : Parses i (decodeText address) (.just (i.ShowsText address.toNat)) := by
  have hload (pointer length : UInt32) : Parses i (loadText pointer length) (.just fun t =>
      pointer.toNat + length.toNat ≤ i.guest.buffer.bytes.size ∧
        i.config.features.decode (i.guest.buffer.bytes.extract pointer.toNat
          (pointer.toNat + length.toNat)) = t) := by
    refine views fun v hv => ((read hv).both (q := fun bytes t =>
      i.config.features.decode bytes = t) fun bytes _ => get fun ds i' hi => ?_).just fun t => ?_
    · rw [hi.config]
      exact (pure _).just fun t => eq_comm
    · simp only [and_assoc, exists_and_left, exists_eq_left']
  refine ((readWord hsize rfl).both fun pointer _ => (readWord hsize rfl).both fun length _ =>
    hload pointer length).just fun t => ?_
  unfold Instance.ShowsText
  simp only [exists_and_left]
  exact Iff.rfl

/-! ## Handles, raw values, closures and windows -/

/-- A value that is lent is read just when its handle is live. -/
theorem decodeHandle : Parses i (do Effect.getHandle (← Effect.readWord address 0))
    (.just (i.Leaf address.toNat .handle)) := by
  refine ((readWord hsize rfl).both fun id _ => getHandle id).just fun v => ⟨?_, ?_⟩
  · rintro ⟨id, hid, ⟨rfl, rfl⟩ | ⟨e, hne, he, rfl⟩⟩
    · exact .nullHandle hid
    · exact .handle hid hne he
  · rintro (_ | _ | _ | _ | _ | _ | hid | ⟨hid, hne, he⟩)
    · exact ⟨0, hid, .inl ⟨rfl, rfl⟩⟩
    · exact ⟨_, hid, .inr ⟨_, hne, he, rfl⟩⟩

/-- A symbol is read just when its number is registered. -/
theorem decodeRaw : Parses i (do Effect.getRaw (← Effect.readWord address 0))
    (.just (i.Leaf address.toNat .raw)) := by
  refine ((readWord hsize rfl).both fun id _ => getRaw id).just fun v => ⟨?_, ?_⟩
  · rintro ⟨id, hid, hv⟩
    exact .raw hid hv
  · rintro (_ | _ | _ | _ | _ | _ | _ | _ | ⟨hid, hv⟩)
    exact ⟨_, hid, hv⟩

/-- A closure is wrapped with the three words that stand in its slot. -/
theorem decodeClosure (kind : ClosureKind) :
    Parses i (decodeClosure kind address) fun n v cs => ∃ adapter pointer deallocator,
      i.guest.buffer.Shows .u32 address.toNat adapter ∧
        i.guest.buffer.Shows .u32 (address.toNat + 4) pointer ∧
          i.guest.buffer.Shows .u32 (address.toNat + 8) deallocator ∧
            v = .closure n ∧ cs = [{ kind, adapter, pointer, deallocator }] := by
  refine ((readWord hsize rfl).look fun adapter _ => (readWord hsize rfl).look fun pointer _ =>
    (readWord hsize rfl).look fun deallocator _ => wrap kind adapter pointer deallocator).imp
      fun n v cs => ?_
  simp only [exists_and_left]
  exact Iff.rfl

/-- A window is made just when its words make one on the memory of the guest. -/
theorem decodeWindow : Parses i (decodeWindow address) (.just (i.Leaf address.toNat .window)) := by
  have hword : i.guest.buffer.bytes.size < UInt32.size := Nat.lt_of_le_of_lt hsize (by decide)
  refine ((readWord hsize rfl).both fun start _ => (readWord hsize rfl).both fun length _ =>
    (readWord hsize rfl).both fun tag _ => (lift _).both
      (q := fun kind w =>
        (start.toNat + length.toNat) * kind.size.toNat ≤ i.guest.buffer.bytes.size ∧
          w = Value.window ⟨kind, i.guest.memory, start, length⟩)
      fun kind _ => views fun v hv => memory hv ?_).just fun w => ⟨?_, ?_⟩
  · cases hadd : Word.add? start length with
    | none =>
      refine refused _ ?_
      rintro w ⟨hle, -⟩
      have hlt : start.toNat + length.toNat < UInt32.size :=
        Nat.lt_of_le_of_lt (Nat.le_mul_of_pos_right _ kind.size_pos) (Nat.lt_of_le_of_lt hle hword)
      rw [Word.add?_eq_some_iff.2 (UInt32.toNat_ofNat_of_lt' hlt).symm] at hadd
      cases hadd
    | some stop =>
      have hstop := Word.add?_eq_some_iff.1 hadd
      have hle : start ≤ stop := UInt32.le_iff_toNat_le.2 (by omega)
      have hlength : stop - start = length := by
        rw [← UInt32.toNat_inj, UInt32.toNat_sub_of_le _ _ hle]
        omega
      refine ((lift _).both fun w _ => pure (Value.window w)).just fun w => ?_
      simp only [Window.ofRange_eq_ok_iff hword, hle, hlength, hstop, hv, true_and]
      constructor
      · rintro ⟨w, ⟨hin, rfl⟩, rfl⟩
        exact ⟨hin, rfl⟩
      · rintro ⟨hin, rfl⟩
        exact ⟨_, ⟨hin, rfl⟩, rfl⟩
  · rintro ⟨start, h₀, length, h₁, tag, h₂, kind, hkind, hin, rfl⟩
    rw [ElementKind.ofTag_eq_ok_iff] at hkind
    exact .window h₀ h₁ (hkind ▸ h₂) hin
  · rintro (_ | _ | _ | _ | _ | _ | _ | _ | _ | ⟨h₀, h₁, h₂, hin⟩)
    exact ⟨_, h₀, _, h₁, _, h₂, _, ElementKind.ofTag_tag _, hin, rfl⟩

/-! ## Tables -/

/-- The address of a table is the base of the arena and the offset that stands in the slot. -/
theorem tableAt {index : UInt32} {p : Nat} (hp : address.toNat + 4 * index.toNat = p) :
    Parses i (tableAt address index) (.just fun base => ∃ offset,
      i.guest.buffer.Shows .u32 p offset ∧ base = i.arena.resolve offset) := by
  refine (readWord hsize hp).both fun offset _ => get fun ds i' hi => ?_
  rw [hi.arena]
  exact pure _

/-! ## Arrays and objects -/

variable {depth : Nat} {item : UInt32 → Effect Code Value}

/-- An item that is read through its table's entry. -/
theorem entry (hitem : ∀ a, Parses i (item a) (i.Derives depth a.toNat)) (base : UInt32) {j : Nat}
    (hj : j < UInt32.size) :
    Parses i (do item (← Effect.entryAddress base j.toUInt32 Slot.size))
      (i.Derives depth (base.toNat + j * 16)) := by
  have h16 : Slot.size.toNat = 16 := rfl
  have hword : j.toUInt32.toNat = j := UInt32.toNat_ofNat_of_lt' hj
  refine ((entryAddress base _ _).look fun a _ => hitem a).imp fun n v cs => ?_
  rw [hword, h16]
  constructor
  · rintro ⟨a, ha, hv⟩
    exact ha ▸ hv
  · intro hv
    have hinside := hv.inside
    have ha : (UInt32.ofNat (base.toNat + j * 16)).toNat = base.toNat + j * 16 :=
      UInt32.toNat_ofNat_of_lt' (by
        show _ < 2 ^ 32
        omega)
    exact ⟨_, ha.symm, by rwa [ha]⟩

/-- A key that is read through its table's entry. -/
theorem key (base : UInt32) {j : Nat} (hj : j < UInt32.size) :
    Parses i (do Effect.decodeText (← Effect.entryAddress base j.toUInt32 Slot.keySize))
      (.just (i.ShowsText (base.toNat + j * 8))) := by
  have h8 : Slot.keySize.toNat = 8 := rfl
  have h4 : ElementKind.u32.size.toNat = 4 := rfl
  have hword : j.toUInt32.toNat = j := UInt32.toNat_ofNat_of_lt' hj
  refine ((entryAddress base _ _).both fun a _ => decodeText hsize).just fun t => ?_
  rw [hword, h8]
  constructor
  · rintro ⟨a, ha, ht⟩
    exact ha ▸ ht
  · intro ht
    obtain ⟨_, _, h₀, -⟩ := id ht
    have hinside := h₀.inside
    have ha : (UInt32.ofNat (base.toNat + j * 8)).toNat = base.toNat + j * 8 :=
      UInt32.toNat_ofNat_of_lt' (by
        show _ < 2 ^ 32
        omega)
    exact ⟨_, ha.symm, by rwa [ha]⟩

section
variable (hbase : i.arena.base = i.config.arenaBase)
include hbase

/-- An array is read just when its table lies in memory and its items are read. -/
theorem decodeArray (hitem : ∀ a, Parses i (item a) (i.Derives depth a.toNat)) :
    Parses i (decodeArray item address) fun n v cs => ∃ base count vs,
      i.guest.buffer.Shows .u32 (address.toNat + 4) count ∧
        i.ShowsTable address.toNat base count.toNat 16 ∧ vs.length = count.toNat ∧
          i.DerivesItems depth base n vs cs ∧ v = .array vs := by
  have h16 : Slot.size.toNat = 16 := rfl
  have hitems (base count : UInt32) : Parses i ((List.range count.toNat).mapM fun j => do
      item (← Effect.entryAddress base j.toUInt32 Slot.size)) fun n vs cs =>
        vs.length = count.toNat ∧ i.DerivesItems depth base.toNat n vs cs := by
    refine (mapM fun j hj => entry hsize hitem base ?_).imp fun n vs cs => ?_
    · exact Nat.lt_trans (List.mem_range.1 hj) count.toNat_lt
    · rw [List.range_eq_range', Instance.each_items, Nat.zero_mul, Nat.add_zero]
  refine ((tableAt hsize rfl).look fun base _ => (readWord hsize rfl).look fun count _ =>
    (checkTable hsize base count _).look fun _ _ => (hitems base count).bind fun vs _ =>
      pure (Value.array vs)).imp fun n v cs => ⟨?_, ?_⟩
  · rintro ⟨base, hb, count, hcount, _, hcheck, vs, cs, _, ⟨hlength, hvs⟩, ⟨rfl, rfl⟩, rfl⟩
    rw [List.append_nil]
    have htable := (Instance.showsTable_iff hsize hbase).1 ⟨hb, hcheck⟩
    exact ⟨base.toNat, count, vs, hcount, htable, hlength, hvs, rfl⟩
  · rintro ⟨_, count, vs, hcount, htable, hlength, hvs, rfl⟩
    obtain ⟨base, rfl⟩ := htable.exists_word hsize
    obtain ⟨hb, hcheck⟩ := (Instance.showsTable_iff hsize hbase).2 htable
    exact ⟨base, hb, count, hcount, (), hcheck, vs, cs, [], ⟨hlength, hvs⟩, ⟨rfl, rfl⟩,
      (List.append_nil cs).symm⟩

/-- An object is read just when both its tables lie in memory and its keys and values are read; a
key that comes again gives its value to the first. -/
theorem decodeObject (hitem : ∀ a, Parses i (item a) (i.Derives depth a.toNat)) :
    Parses i (decodeObject item address) fun n v cs => ∃ values keys count es,
      i.guest.buffer.Shows .u32 (address.toNat + 4) count ∧
        i.ShowsTable address.toNat values count.toNat 16 ∧
          i.ShowsTable (address.toNat + 8) keys count.toNat 8 ∧ es.length = count.toNat ∧
            i.DerivesPairs depth keys values n es cs ∧ v = .object (Entries.ofPairs es) := by
  have hpairs (values keys count : UInt32) : Parses i ((List.range count.toNat).mapM fun j => do
      let key ← Effect.decodeText (← Effect.entryAddress keys j.toUInt32 Slot.keySize)
      let value ← item (← Effect.entryAddress values j.toUInt32 Slot.size)
      return (key, value)) fun n es cs =>
        es.length = count.toNat ∧ i.DerivesPairs depth keys.toNat values.toNat n es cs := by
    refine (mapM (Q := fun j n e cs => i.ShowsText (keys.toNat + j * 8) e.1 ∧
      i.Derives depth (values.toNat + j * 16) n e.2 cs) fun j hj => ?_).imp fun n es cs => ?_
    · have hword := Nat.lt_trans (List.mem_range.1 hj) count.toNat_lt
      have hpair := (key hsize keys hword).look fun k _ =>
        (entry hsize hitem values hword).bind fun v _ => pure (k, v)
      simp only [bind_assoc] at hpair
      refine hpair.imp fun n e cs => ⟨?_, ?_⟩
      · rintro ⟨k, hk, v, cs, _, hv, ⟨rfl, rfl⟩, rfl⟩
        exact ⟨hk, by rwa [List.append_nil]⟩
      · rintro ⟨hk, hv⟩
        exact ⟨e.1, hk, e.2, cs, [], hv, ⟨rfl, rfl⟩, (List.append_nil cs).symm⟩
    · rw [List.range_eq_range', Instance.each_pairs]
      simp only [Nat.zero_mul, Nat.add_zero]
  refine ((tableAt hsize rfl).look fun values _ => (readWord hsize rfl).look fun count _ =>
    (tableAt hsize rfl).look fun keys _ => (checkTable hsize values count _).look fun _ _ =>
      (checkTable hsize keys count _).look fun _ _ => (hpairs values keys count).bind fun es _ =>
        pure (Value.object (Entries.ofPairs es))).imp fun n v cs => ⟨?_, ?_⟩
  · rintro ⟨values, hv, count, hcount, keys, hk, _, hcheck, _, hcheck', es, cs, _, ⟨hlength, hes⟩,
      ⟨rfl, rfl⟩, rfl⟩
    rw [List.append_nil]
    have hvalues := (Instance.showsTable_iff hsize hbase).1 ⟨hv, hcheck⟩
    have hkeys := (Instance.showsTable_iff hsize hbase).1 ⟨hk, hcheck'⟩
    exact ⟨values.toNat, keys.toNat, count, es, hcount, hvalues, hkeys, hlength, hes, rfl⟩
  · rintro ⟨_, _, count, es, hcount, hvalues, hkeys, hlength, hes, rfl⟩
    obtain ⟨values, rfl⟩ := hvalues.exists_word hsize
    obtain ⟨keys, rfl⟩ := hkeys.exists_word hsize
    obtain ⟨hv, hcheck⟩ := (Instance.showsTable_iff hsize hbase).2 hvalues
    obtain ⟨hk, hcheck'⟩ := (Instance.showsTable_iff hsize hbase).2 hkeys
    exact ⟨values, hv, count, hcount, keys, hk, (), hcheck, (), hcheck', es, cs, [],
      ⟨hlength, hes⟩, ⟨rfl, rfl⟩, (List.append_nil cs).symm⟩

/-! ## Slots -/

omit hsize hbase in
/-- The payload of a slot whose kind leads to no other slot and wraps no closure. -/
theorem leaf {p : Nat} {kind : SlotKind} {e : Effect Code Value} (hkind : i.ShowsKind p kind)
    (harray : kind ≠ .array) (hobject : kind ≠ .object) (hclosure : ∀ k, kind ≠ .closure k)
    (h : Parses i e (.just (i.Leaf p kind))) : Parses i e (i.Derives depth p) :=
  h.imp fun _ _ _ => (Instance.derives_leaf_iff hkind harray hobject hclosure).symm

/-- Decoding follows the layout, by recursion on the arrays and objects that may still be opened. -/
theorem decodeAt (room : Nat) {depth : Nat} (hroom : depth + room = i.config.maxDepth)
    (address : UInt32) : Parses i (decodeAt room address) (i.Derives depth address.toNat) := by
  unfold Effect.decodeAt
  refine ((kindAt hsize).look (Q := fun _ => i.Derives depth address.toNat) fun kind hkind =>
    record _ ?_).imp fun n v cs => ⟨fun ⟨_, _, hv⟩ => hv, fun hv => ?_⟩
  · cases kind with
    | undefined =>
      refine leaf hkind nofun nofun nofun ((pure _).just fun v => ⟨?_, fun | .undefined => rfl⟩)
      rintro rfl
      exact .undefined
    | null =>
      refine leaf hkind nofun nofun nofun ((pure _).just fun v => ⟨?_, fun | .null => rfl⟩)
      rintro rfl
      exact .null
    | boolean b =>
      refine leaf hkind nofun nofun nofun ((pure _).just fun v => ⟨?_, fun | .boolean b => rfl⟩)
      rintro rfl
      exact .boolean b
    | int32 =>
      refine leaf hkind nofun nofun nofun (views fun w hw => ((load hw).both
        fun x _ => pure (Value.number (.ofInt32 x))).just fun v => ⟨?_, ?_⟩)
      · rintro ⟨x, hx, rfl⟩
        exact .int32 hx
      · exact fun | .int32 hx => ⟨_, hx, rfl⟩
    | float64 =>
      refine leaf hkind nofun nofun nofun (views fun w hw => ((load hw).both
        fun x _ => pure (Value.number x)).just fun v => ⟨?_, ?_⟩)
      · rintro ⟨x, hx, rfl⟩
        exact .float64 hx
      · exact fun | .float64 hx => ⟨_, hx, rfl⟩
    | string =>
      refine leaf hkind nofun nofun nofun (((decodeText hsize).both fun t _ =>
        pure (Value.string t)).just fun v => ⟨?_, fun | .string ht => ⟨_, ht, rfl⟩⟩)
      rintro ⟨t, ht, rfl⟩
      exact .string ht
    | array =>
      refine .imp ?_ fun _ _ _ => (Instance.derives_array_iff hkind).symm
      cases room with
      | zero => exact get fun _ _ _ => (throw _).imp fun _ _ _ => by simp [← hroom]
      | succ room =>
        have hdepth : depth < i.config.maxDepth := by omega
        exact (decodeArray hsize hbase (decodeAt room (by omega))).imp fun _ _ _ =>
          (and_iff_right hdepth).symm
    | object =>
      refine .imp ?_ fun _ _ _ => (Instance.derives_object_iff hkind).symm
      cases room with
      | zero => exact get fun _ _ _ => (throw _).imp fun _ _ _ => by simp [← hroom]
      | succ room =>
        have hdepth : depth < i.config.maxDepth := by omega
        exact (decodeObject hsize hbase (decodeAt room (by omega))).imp fun _ _ _ =>
          (and_iff_right hdepth).symm
    | handle => exact leaf hkind nofun nofun nofun (decodeHandle hsize)
    | closure kind =>
      exact (decodeClosure hsize kind).imp fun _ _ _ => (Instance.derives_closure_iff hkind).symm
    | window => exact leaf hkind nofun nofun nofun (decodeWindow hsize)
    | raw => exact leaf hkind nofun nofun nofun (decodeRaw hsize)
  · obtain ⟨kind, hkind⟩ := hv.exists_kind
    exact ⟨kind, hkind, hv⟩

/-- Decoding follows the layout from the slot on, with nothing opened yet. -/
theorem decode (address : UInt32) : Parses i (decode address) (i.Derives 0 address.toNat) := by
  refine get fun ds i' hi => ?_
  rw [hi.config]
  exact decodeAt hsize hbase _ (Nat.zero_add _) address

end

end

end Parses

/-- A slot of a memory of at most 65535 pages, whatever stands in it, is decoded to a value just
when the layout gives that value, and then the closures of the derivation are wrapped and no
others. -/
theorem Machine.decode_derives (guest : Guest Code) (config : Config) (as : List (Action Code))
    {m : Machine Code} (hm : (boot guest config).runs as = m)
    (hsize : m.inst.guest.buffer.bytes.size ≤ 65535 * 65536) (address : UInt32) :
    (∀ v, (m.perform (.decode address)).1 = .ok v ↔
      ∃ cs, m.inst.Derives 0 address.toNat m.inst.closures.size v cs) ∧
    ∀ v cs, m.inst.Derives 0 address.toNat m.inst.closures.size v cs →
      (m.perform (.decode address)).2.inst.closures = m.inst.closures ++ cs.toArray := by
  have hsettled : m.inst.Settled :=
    hm ▸ Instance.Settled.acting.runs _ as ⟨by rintro v ⟨⟩, rfl⟩
  have hparses := Parses.decode hsize hsettled.base address
  have hcomplete {v : Value} {cs : List Closure}
      (h : m.inst.Derives 0 address.toNat m.inst.closures.size v cs) :
      ∃ i', m.perform (.decode address) = (.ok v, { m with inst := i' }) ∧
        i'.closures = m.inst.closures ++ cs.toArray := by
    obtain ⟨i', hexec, hi'⟩ := hparses.complete hsettled.alike h
    exact ⟨i', perform_of_exec hexec, hi'.closures⟩
  refine ⟨fun v => ⟨fun hv => ?_, ?_⟩, fun v cs h => ?_⟩
  · obtain ⟨cs, hcs, -⟩ := hparses.sound hsettled.alike (Prod.ext hv rfl)
    exact ⟨cs, hcs⟩
  · rintro ⟨cs, hcs⟩
    obtain ⟨i', hperform, -⟩ := hcomplete hcs
    rw [hperform]
  · obtain ⟨i', hperform, hclosures⟩ := hcomplete h
    rw [hperform]
    exact hclosures

/-- A guest with a page of memory that begins with the given bytes. -/
def Guest.ofBytes (Code : Type) (bytes : ByteArray) : Guest Code where
  store := ⟨#[⟨bytes ++ Buffer.zeroBytes (65536 - bytes.size), false⟩]⟩
  memory := 0

theorem Guest.bytes_ofBytes (bytes : ByteArray) : (Guest.ofBytes Code bytes).buffer.bytes =
    bytes ++ Buffer.zeroBytes (65536 - bytes.size) := rfl

/-- The bytes have room in the guest's memory. -/
theorem Guest.le_size_ofBytes (bytes : ByteArray) :
    bytes.size ≤ (Guest.ofBytes Code bytes).buffer.bytes.size := by
  rw [bytes_ofBytes, ByteArray.size_append]
  exact Nat.le_add_right _ _

/-- Up to a page of bytes, memory is that page. -/
theorem Guest.size_ofBytes {bytes : ByteArray} (h : bytes.size ≤ 65536) :
    (Guest.ofBytes Code bytes).buffer.bytes.size = 65536 := by
  rw [bytes_ofBytes, ByteArray.size_append, Buffer.size_zeroBytes, Nat.add_sub_cancel' h]

/-- The bytes that memory begins with. -/
theorem Guest.extract_ofBytes {bytes : ByteArray} {p q : Nat} (hpq : p ≤ q)
    (hinside : q ≤ bytes.size) :
    (Guest.ofBytes Code bytes).buffer.bytes.extract p q = bytes.extract p q := by
  rw [bytes_ofBytes, ByteArray.extract_append, Nat.sub_eq_zero_of_le hinside,
    Nat.sub_eq_zero_of_le (Nat.le_trans hpq hinside), ByteArray.extract_same,
    ByteArray.append_empty]

/-- What stands in the bytes that memory begins with. -/
theorem Guest.shows_ofBytes {bytes : ByteArray} {k : ElementKind} {p : Nat} {x : k.Carrier}
    (haligned : k.size.toNat ∣ p) (hinside : p + k.size.toNat ≤ bytes.size)
    (hx : k.decode (bytes.extract p (p + k.size.toNat)) = x) :
    (Guest.ofBytes Code bytes).buffer.Shows k p x where
  aligned := haligned
  inside := Nat.le_trans hinside (le_size_ofBytes bytes)
  bytes := by rw [extract_ofBytes (Nat.le_add_right _ _) hinside, hx]

/-- A text that is spelled in the bytes that memory begins with. -/
theorem Instance.showsText_ofBytes {bytes : ByteArray} {p : Nat} {t : String}
    (hguest : i.guest = .ofBytes Code bytes) (pointer length : UInt32)
    (hpointer : i.guest.buffer.Shows .u32 p pointer)
    (hlength : i.guest.buffer.Shows .u32 (p + 4) length)
    (hinside : pointer.toNat + length.toNat ≤ bytes.size)
    (ht : i.config.features.decode
      (bytes.extract pointer.toNat (pointer.toNat + length.toNat)) = t) : i.ShowsText p t := by
  refine ⟨pointer, length, hpointer, hlength, ?_, ?_⟩ <;> rw [hguest]
  · exact Nat.le_trans hinside (Guest.le_size_ofBytes bytes)
  · rw [Guest.extract_ofBytes (Nat.le_add_right _ _) hinside, ht]

/-- A guest with an array in the slot at zero, whose one item is the closure in the slot behind. -/
def Guest.withArray : Guest Unit :=
  .ofBytes Unit ⟨#[16, 0, 0, 0, 1, 0, 0, 0, 0, 0, 0, 0, 7, 0, 0, 0,
    3, 0, 0, 0, 5, 0, 0, 0, 4, 0, 0, 0, 10, 0, 0, 0]⟩

/-- The array of one closure is decoded, and the closure is wrapped with its three words. -/
theorem Machine.decode_derives_array :
    ((boot .withArray .standard).runs []).inst.guest.buffer.bytes.size ≤ 65535 * 65536 ∧
      (((boot .withArray .standard).runs []).perform (.decode 0)).1 = .ok (.array [.closure 0]) ∧
      (((boot .withArray .standard).runs []).perform (.decode 0)).2.inst.closures =
        #[{ kind := .shared, adapter := 3, pointer := 5, deallocator := 4 }] := by
  have hsize : Guest.withArray.buffer.bytes.size = 65536 := by
    show (_ ++ Buffer.zeroBytes _).size = _
    rw [ByteArray.size_append, Buffer.size_zeroBytes]
    rfl
  have hle : ((boot .withArray .standard).runs []).inst.guest.buffer.bytes.size ≤ 65535 * 65536 :=
    Nat.le_trans (Nat.le_of_eq hsize) (by decide)
  obtain ⟨haccepts, hwraps⟩ := decode_derives .withArray .standard [] rfl hle 0
  have hitem : ((boot .withArray .standard).runs []).inst.Derives 1 16 0 (.closure 0)
      [{ kind := .shared, adapter := 3, pointer := 5, deallocator := 4 }] :=
    .closure (Guest.shows_ofBytes (by decide) (by decide) rfl)
      (Guest.shows_ofBytes (by decide) (by decide) rfl)
      (Guest.shows_ofBytes (by decide) (by decide) rfl)
      (Guest.shows_ofBytes (by decide) (by decide) rfl)
  have hderives : ((boot .withArray .standard).runs []).inst.Derives 0 0 0 (.array [.closure 0])
      [{ kind := .shared, adapter := 3, pointer := 5, deallocator := 4 }] :=
    .array (Guest.shows_ofBytes (by decide) (by decide) rfl) (by decide)
      (Guest.shows_ofBytes (by decide) (by decide) (Eq.refl (1 : UInt32)))
      ⟨⟨16, Guest.shows_ofBytes (by decide) (by decide) rfl, rfl⟩,
        Nat.le_trans (by decide) (Nat.le_of_eq hsize.symm)⟩ rfl (.cons hitem .nil)
  exact ⟨hle, (haccepts _).2 ⟨_, hderives⟩, (hwraps _ _ hderives).trans rfl⟩

end

end Crossing
