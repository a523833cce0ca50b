import Crossing.Proofs.Codec.Depth

/-!
# Objects as the guest lays them out

The guest may name a key twice in a table, or spell two keys with bytes that are mended to the same
text. Decoding inserts the pairs of the two tables one after the other, so that what it makes of
them are entries that record the pairs (`Entries.Records`), whatever stands in memory.

`Instance.Built` says this of a value: of the slot it came from, and of every object inside of it,
however deep, unless the guest only named what the host had lent or registered. `Yields.decodeAt`
shows it by recursion on the arrays and objects that may still be opened.
-/

namespace Crossing

open Effect

/-- The value `w` is the other one, or a part of an item or a property of it. -/
inductive Value.Part (w : Value) : Value → Prop
  | whole : Part w w
  | item {items : List Value} {v : Value} : v ∈ items → Part w v → Part w (.array items)
  | property {es : List (String × Value)} {e : String × Value} : e ∈ es → Part w e.2 →
      Part w (.object es)

section
variable {Code α β : Type} {i : Instance Code} {address : UInt32}

/-! ## What an effect answers -/

/-- From an instance with the memory and tables of `i` the effect leads to another one if it
answers, and answers what `P` allows. -/
def Yields (i : Instance Code) (e : Effect Code α) (P : α → Prop) : Prop :=
  ∀ i' a i'', Sees i i' → exec e i' = (.ok a, i'') → Sees i i'' ∧ P a

/-- What an effect may answer that looks at slots, it yields. -/
theorem Looks.yields {e : Effect Code α} {n : Nat} {P : α → Prop} (h : Looks i e n P) :
    Yields i e P := by
  intro i' a i'' hi hexec
  have hlooks := h i' hi
  rw [hexec] at hlooks
  exact ⟨hlooks.1, hlooks.2.2 a rfl⟩

namespace Yields

variable {e : Effect Code α} {f : α → Effect Code β} {P P' : α → Prop} {Q : β → Prop}

/-- What is said of the answer may be weakened. -/
theorem imp (h : Yields i e P) (hP : ∀ a, P a → P' a) : Yields i e P' := by
  intro i' a i'' hi hexec
  obtain ⟨hi'', ha⟩ := h i' a i'' hi hexec
  exact ⟨hi'', hP a ha⟩

/-- An answer that is there is yielded. -/
theorem pure {a : α} (ha : P a) : Yields i (pure a : Effect Code α) P := (Looks.pure ha).yields

/-- What a check answers is yielded. -/
theorem lift {r : Except Fault α} (hr : ∀ a, r = .ok a → P a) :
    Yields i (liftM r : Effect Code α) P := (Looks.lift hr).yields

/-- An effect that begins by looking at the instance. -/
theorem get {f : Instance Code → Effect Code β} (hf : ∀ i', Sees i i' → Yields i (f i') Q) :
    Yields i (MonadState.get >>= f : Effect Code β) Q :=
  fun i' b i'' hi hexec => hf i' hi i' b i'' hi hexec

/-- Effects in a row yield what the second one does on an answer of the first. -/
theorem bind (he : Yields i e P) (hf : ∀ a, P a → Yields i (f a) Q) : Yields i (e >>= f) Q := by
  intro i' b i'' hi hexec
  cases hfirst : exec e i' with
  | mk r i₁ =>
    cases r with
    | error x =>
      rw [exec_bind_of_error hfirst] at hexec
      cases hexec
    | ok a =>
      rw [exec_bind_of_ok hfirst] at hexec
      obtain ⟨hi₁, ha⟩ := he i' a i₁ hi hfirst
      exact hf a ha i₁ b i'' hi₁ hexec

/-- An effect for each item of a list yields an answer for each item, in their order. -/
theorem mapM {f : α → Effect Code β} {R : α → β → Prop} {as : List α}
    (hf : ∀ a ∈ as, Yields i (f a) (R a)) : Yields i (as.mapM f) (List.Forall₂ R as) := by
  induction as with
  | nil =>
    rw [List.mapM_nil]
    exact pure .nil
  | cons a as ih =>
    rw [List.mapM_cons]
    exact (hf a (.head _)).bind fun b hb =>
      (ih fun a' ha' => hf a' (.tail _ ha')).bind fun bs hbs => pure (.cons hb hbs)

/-! ## What stands in memory -/

/-- Finding a part of a slot yields its address. -/
theorem slotPart (v : Views) (part : Option UInt32) :
    Yields i (slotPart v address part) fun a => part = some a := by
  unfold Effect.slotPart
  split
  · exact pure rfl
  · exact ((Looks.buffer _).seq fun _ _ => Looks.throw _).yields

/-- The word that is read stands there. -/
theorem readWord (index : UInt32) : Yields i (readWord address index) fun x =>
    i.guest.buffer.Shows .u32 (address.toNat + 4 * index.toNat) x := by
  have h4 : ElementKind.u32.size.toNat = 4 := rfl
  refine Looks.views.yields.bind fun v hv => (slotPart v _).bind fun a ha =>
    (Looks.buffer _).yields.bind fun b hb => lift fun x hx => ?_
  subst hb
  rw [Slot.word?, Slot.entry?_eq_some_iff, Nat.mul_comm] at ha
  rw [hv, Buffer.load_eq_ok_iff_shows, ← ha] at hx
  exact hx

/-- The kind that is read stands there. -/
theorem kindAt : Yields i (kindAt address) (i.ShowsKind address.toNat) := by
  have h12 : Slot.tagOffset.toNat = 12 := rfl
  refine Looks.views.yields.bind fun v hv => (slotPart v _).bind fun a ha =>
    ((Looks.buffer _).yields.bind fun b hb => lift fun tag htag => ?_).bind
      (P := fun tag => i.guest.buffer.Shows .u8 (address.toNat + 12) tag) fun tag htag =>
        lift fun kind hkind => ?_
  · subst hb
    rw [Slot.tagAddress?, Word.add?_eq_some_iff, h12] at ha
    rw [hv, ← Buffer.load_u8, Buffer.load_eq_ok_iff_shows, ← ha] at htag
    exact htag
  · rw [SlotKind.ofTag_eq_ok_iff] at hkind
    rwa [Instance.ShowsKind, ← hkind]

/-- A table begins where an offset that stands there leads. -/
theorem tableAt (index : UInt32) : Yields i (tableAt address index) fun base => ∃ offset,
    i.guest.buffer.Shows .u32 (address.toNat + 4 * index.toNat) offset ∧
      base = i.arena.resolve offset :=
  (readWord index).bind fun x hx => get fun i' hi => pure ⟨x, hx, by rw [hi.arena]⟩

/-- The text that is read is spelled there. -/
theorem decodeText : Yields i (decodeText address) (i.ShowsText address.toNat) := by
  refine (readWord 0).bind fun pointer hpointer => (readWord 1).bind fun length hlength =>
    Looks.views.yields.bind fun v hv =>
      ((Looks.buffer _).yields.bind fun b hb => lift fun bytes hbytes => ?_).bind
        (P := fun bytes => pointer.toNat + length.toNat ≤ i.guest.buffer.bytes.size ∧
          bytes = i.guest.buffer.bytes.extract pointer.toNat (pointer.toNat + length.toNat))
        fun bytes hbytes => get fun i' hi => pure ?_
  · subst hb
    rw [hv] at hbytes
    exact (Buffer.read_eq_ok_iff.1 hbytes).imp_right Eq.symm
  · obtain ⟨hinside, rfl⟩ := hbytes
    exact ⟨pointer, length, hpointer, hlength, hinside, by rw [hi.config]⟩

end Yields

/-! ## Objects in memory -/

namespace Instance

/-- Decoding the slot at an address, on the memory and tables of `i`, can answer the value. The
closures in it are new each time. -/
def Decodes (i : Instance Code) (a : UInt32) (v : Value) : Prop :=
  ∃ room i', Sees i i' ∧ (exec (decodeAt room a) i').1 = .ok v

/-- The value is lent by handle or registered as a raw value. -/
def Lends (i : Instance Code) (v : Value) : Prop :=
  (∃ (id : UInt32) (e : HandleEntry), i.handles.entries[id]? = some e ∧ e.value = v) ∨
    ∃ id : UInt32, i.raw.values[id]? = some v

/-- The pairs are those of the object in the slot at an address: as many as it counts, each with the
text that its entry in the table of keys spells, and with a value that its slot in the table of
values decodes to. -/
structure HasPairs (i : Instance Code) (a : UInt32) (pairs : List (String × Value)) : Prop where
  kind : i.ShowsKind a.toNat .object
  count : ∃ count : UInt32, i.guest.buffer.Shows .u32 (a.toNat + 4) count ∧
    pairs.length = count.toNat
  tables : ∃ values keys : UInt32, i.guest.buffer.Shows .u32 a.toNat values ∧
    i.guest.buffer.Shows .u32 (a.toNat + 8) keys ∧
      ∀ (k : Nat) (hk : k < pairs.length),
        i.ShowsText ((i.arena.resolve keys).toNat + 8 * k) pairs[k].1 ∧
          ∃ b : UInt32, b.toNat = (i.arena.resolve values).toNat + 16 * k ∧
            i.Decodes b pairs[k].2

/-- What is known of a value that came from the slot at an address: an object's slot gave the
entries that result from its pairs, and each object inside of the value comes from some object's
slot in this way, or is inside of a value that is lent or registered. -/
structure Built (i : Instance Code) (a : UInt32) (v : Value) : Prop where
  slot : i.ShowsKind a.toNat .object →
    ∃ pairs, i.HasPairs a pairs ∧ v = .object (Entries.ofPairs pairs)
  parts : ∀ es, (Value.object es).Part v →
    (∃ b pairs, i.HasPairs b pairs ∧ es = Entries.ofPairs pairs) ∨
      ∃ w, i.Lends w ∧ (Value.object es).Part w

variable {v : Value} {kind : SlotKind}

/-- A value that is no array and no object has no object inside of it. -/
theorem Built.leaf (hkind : i.ShowsKind address.toNat kind) (hobject : kind ≠ .object)
    (h : v.isNested = false ∨ i.Lends v) : i.Built address v where
  slot := fun hslot => absurd (hkind.unique hslot) hobject
  parts := by
    intro es hpart
    rcases h with h | h
    · cases hpart with
      | whole => cases h
      | item => cases h
      | property => cases h
    · exact .inr ⟨v, h, hpart⟩

end Instance

namespace Yields

variable {item : UInt32 → Effect Code Value} {room : Nat}

/-- What a handle leads to is null or lent. -/
theorem getHandle (id : UInt32) :
    Yields i (getHandle id) fun v => v.isNested = false ∨ i.Lends v := by
  refine get fun i' hi => lift fun v hv => ?_
  rw [hi.handles, HandleTable.get_eq_ok_iff] at hv
  rcases hv with ⟨-, rfl⟩ | ⟨e, -, he, rfl⟩
  · exact .inl rfl
  · exact .inr (.inl ⟨id, e, he, rfl⟩)

/-- Looking a number up yields a value that does not nest, or one that is registered. -/
theorem getRaw (id : UInt32) :
    Yields i (getRaw id) fun v => v.isNested = false ∨ i.Lends v := by
  refine get fun i' hi => lift fun v hv => ?_
  rw [hi.raw, RawRegistry.get_eq_ok_iff] at hv
  exact .inr (.inr ⟨id, hv⟩)

/-- An array, whose items are decoded with `item`. -/
theorem decodeArray (hkind : i.ShowsKind address.toNat .array)
    (hitem : ∀ a, Yields i (item a) (i.Built a)) :
    Yields i (decodeArray item address) (i.Built address) := by
  refine (tableAt 0).bind fun base _ => (readWord 1).bind fun count _ =>
    (Looks.checkTable _ _ _).yields.bind fun _ _ =>
      (mapM (R := fun _ v => ∃ a, i.Built a v) fun k _ =>
        (Looks.entryAddress base k.toUInt32 Slot.size).yields.bind fun b _ =>
          (hitem b).imp fun v hv => ⟨b, hv⟩).bind fun items hitems => pure ?_
  refine ⟨fun hslot => (nomatch hkind.unique hslot), fun es hpart => ?_⟩
  cases hpart with
  | item hmem hpart =>
    obtain ⟨k, hk, rfl⟩ := List.getElem_of_mem hmem
    obtain ⟨a, hbuilt⟩ := hitems.get (hitems.length_eq.symm ▸ hk) hk
    exact hbuilt.parts es hpart

/-- The entries of the two tables of an object, the values decoded with `item`. -/
theorem pairs {P : UInt32 → Value → Prop} (hitem : ∀ a, Yields i (item a) (P a))
    (keys values count : UInt32) :
    Yields i ((List.range count.toNat).mapM fun k => do
      let key ← Effect.decodeText (← Effect.entryAddress keys k.toUInt32 Slot.keySize)
      let value ← item (← Effect.entryAddress values k.toUInt32 Slot.size)
      return (key, value)) fun pairs => pairs.length = count.toNat ∧
        ∀ (k : Nat) (hk : k < pairs.length), i.ShowsText (keys.toNat + 8 * k) pairs[k].1 ∧
          ∃ b : UInt32, b.toNat = values.toNat + 16 * k ∧ P b pairs[k].2 := by
  have h8 : Slot.keySize.toNat = 8 := rfl
  have h16 : Slot.size.toNat = 16 := rfl
  refine (mapM (R := fun k e => i.ShowsText (keys.toNat + 8 * k) e.1 ∧
    ∃ b : UInt32, b.toNat = values.toNat + 16 * k ∧ P b e.2) fun k hk => ?_).imp
      fun pairs hall => ?_
  · have hword : k.toUInt32.toNat = k :=
      UInt32.toNat_ofNat_of_lt' (Nat.lt_trans (List.mem_range.1 hk) count.toNat_lt)
    refine (Looks.entryAddress keys _ _).yields.bind fun a ha => decodeText.bind fun key hkey =>
      (Looks.entryAddress values _ _).yields.bind fun b hb => (hitem b).bind fun v hv =>
        pure ⟨?_, b, ?_, hv⟩
    · rwa [← ha, hword, h8, Nat.mul_comm] at hkey
    · rw [← hb, hword, h16, Nat.mul_comm]
  · have hlength : pairs.length = count.toNat := by rw [← hall.length_eq, List.length_range]
    refine ⟨hlength, fun k hk => ?_⟩
    have hpair := hall.get (hall.length_eq.symm ▸ hk) hk
    rwa [List.get_eq_getElem, List.getElem_range, List.get_eq_getElem] at hpair

/-- An object, whose values are decoded with `item`. -/
theorem decodeObject (hkind : i.ShowsKind address.toNat .object)
    (hitem : ∀ a, Yields i (item a) fun v => i.Decodes a v ∧ i.Built a v) :
    Yields i (decodeObject item address) (i.Built address) := by
  refine (tableAt 0).bind fun base hbase => (readWord 1).bind fun count hcount =>
    (tableAt 2).bind fun base' hbase' => (Looks.checkTable _ _ _).yields.bind fun _ _ =>
      (Looks.checkTable _ _ _).yields.bind fun _ _ => (pairs hitem base' base count).bind
        fun pairs hall => pure ?_
  obtain ⟨values, hvalues, rfl⟩ := hbase
  obtain ⟨keys, hkeys, rfl⟩ := hbase'
  obtain ⟨hlength, hpair⟩ := hall
  have hpairs : i.HasPairs address pairs :=
    ⟨hkind, ⟨count, hcount, hlength⟩, values, keys, hvalues, hkeys, fun k hk =>
      (hpair k hk).imp_right fun ⟨b, hb, h⟩ => ⟨b, hb, h.1⟩⟩
  refine ⟨fun _ => ⟨pairs, hpairs, rfl⟩, fun es hpart => ?_⟩
  cases hpart with
  | whole => exact .inl ⟨address, pairs, hpairs, rfl⟩
  | property hmem hpart =>
    -- The values of the entries are among those of the pairs.
    have hbuilt : ∀ e ∈ pairs, ∃ b, i.Built b e.2 := fun e he => by
      obtain ⟨k, hk, rfl⟩ := List.getElem_of_mem he
      obtain ⟨-, b, -, -, h⟩ := hpair k hk
      exact ⟨b, h⟩
    obtain ⟨b, h⟩ := Entries.forall_ofPairs (p := fun v => ∃ b, i.Built b v) hbuilt _ hmem
    exact h.parts es hpart

/-- Whatever a slot decodes to, objects in it are built from tables. -/
theorem decodeAt (room : Nat) (address : UInt32) :
    Yields i (decodeAt room address) (i.Built address) := by
  unfold Effect.decodeAt
  refine kindAt.bind fun kind hkind => ((Looks.pure trivial).visit kind address).yields.bind
    fun _ (_ : True) => ?_
  have hleaf {e : Effect Code Value} (hobject : kind ≠ .object)
      (he : Yields i e fun v => v.isNested = false ∨ i.Lends v) :
      Yields i e (i.Built address) := he.imp fun v hv => .leaf hkind hobject hv
  cases kind with
  | undefined => exact hleaf nofun (pure (.inl rfl))
  | null => exact hleaf nofun (pure (.inl rfl))
  | boolean b => exact hleaf nofun (pure (.inl rfl))
  | int32 =>
    exact hleaf nofun (Looks.views.yields.bind fun _ _ =>
      (Looks.load _ _).yields.bind fun _ _ => pure (.inl rfl))
  | float64 =>
    exact hleaf nofun (Looks.views.yields.bind fun _ _ =>
      (Looks.load _ _).yields.bind fun _ _ => pure (.inl rfl))
  | string => exact hleaf nofun (decodeText.bind fun _ _ => pure (.inl rfl))
  | handle => exact hleaf nofun ((readWord 0).bind fun id _ => getHandle id)
  | raw => exact hleaf nofun ((readWord 0).bind fun id _ => getRaw id)
  | closure kind => exact hleaf nofun ((Looks.decodeClosure kind).yields.imp fun _ h => .inl h)
  | window => exact hleaf nofun (Looks.decodeWindow.yields.imp fun _ h => .inl h)
  | array =>
    cases room with
    | zero => exact get fun _ _ => (Looks.throw _).yields
    | succ room => exact decodeArray hkind fun a => decodeAt room a
  | object =>
    cases room with
    | zero => exact get fun _ _ => (Looks.throw _).yields
    | succ room =>
      refine decodeObject hkind fun a i' v i'' hi hexec => ?_
      obtain ⟨hi'', hbuilt⟩ := decodeAt room a i' v i'' hi hexec
      exact ⟨hi'', ⟨room, i', hi, by rw [hexec]⟩, hbuilt⟩

end Yields

/-! ## Objects in a run -/

namespace Machine

/-- What is derived from a slot is what it decodes to. -/
theorem perform_decode_of_derives {m : Machine Code} {address : UInt32} {v : Value}
    {cs : List Closure} (hsettled : m.inst.Settled)
    (hsize : m.inst.guest.buffer.bytes.size ≤ 65535 * 65536)
    (h : m.inst.Derives 0 address.toNat m.inst.closures.size v cs) :
    (m.perform (.decode address)).1 = .ok v := by
  obtain ⟨i', hexec, -⟩ := (Parses.decode hsize hsettled.base address).complete hsettled.alike h
  have hperform : m.perform (.decode address) = (.ok v, { m with inst := i' }) :=
    perform_of_exec hexec
  rw [hperform]

/-- What pairs result in, when they are inserted one after the other, records them: each key once
and in the order in which the keys first came, its last value, no value for any other key, and as
many entries as there are keys. Two such objects are equal just when they have the same keys in the
same order and equal values under them.

Objects that are decoded are of this form. In every state that a run reaches, on whatever memory, a
value that a slot decodes to is built in this way from the tables it lies in, however deep the
object stands in it, however often the guest names a key and however it spells it. -/
theorem objects_record (guest : Guest Code) (config : Config) (as : List (Action Code)) :
    (∀ pairs es : List (String × Value), Entries.Records pairs es ↔ es = Entries.ofPairs pairs) ∧
    (∀ pairs pairs' : List (String × Value),
      (Value.object (Entries.ofPairs pairs)).same (.object (Entries.ofPairs pairs')) = true ↔
        Entries.keys (Entries.ofPairs pairs) = Entries.keys (Entries.ofPairs pairs') ∧
          ∀ key, Option.Rel (fun a b : Value => a.same b = true)
            (Entries.get? key (Entries.ofPairs pairs))
            (Entries.get? key (Entries.ofPairs pairs'))) ∧
    (∀ address v, (((boot guest config).runs as).perform (.decode address)).1 = .ok v →
      ((boot guest config).runs as).inst.Decodes address v) ∧
    ∀ address v, ((boot guest config).runs as).inst.Decodes address v →
      ((boot guest config).runs as).inst.Built address v := by
  have hsettled : ((boot guest config).runs as).inst.Settled :=
    Instance.Settled.acting.runs _ as ⟨nofun, rfl⟩
  refine ⟨fun pairs es => Entries.records_iff,
    fun pairs pairs' => Value.sameEntries_iff (Entries.nodup_ofPairs pairs), ?_, ?_⟩
  · intro address v hv
    exact ⟨_, _, Sees.refl hsettled.views, hv⟩
  · rintro address v ⟨room, i', hi, hv⟩
    exact (Yields.decodeAt room address i' v _ hi (Prod.ext hv rfl)).2

/-- A guest with an object of two properties in the slot at zero, whose keys are the bytes `ff` and
`fe`, with the values true and null. -/
def twoSpellings : Guest Unit :=
  .ofBytes Unit ⟨#[32, 0, 0, 0, 2, 0, 0, 0, 16, 0, 0, 0, 8, 0, 0, 0,
    64, 0, 0, 0, 1, 0, 0, 0, 65, 0, 0, 0, 1, 0, 0, 0,
    0, 0, 0, 0, 0, 0, 0, 0, 0, 0, 0, 0, 6, 0, 0, 0,
    0, 0, 0, 0, 0, 0, 0, 0, 0, 0, 0, 0, 1, 0, 0, 0,
    0xff, 0xfe]⟩

/-- The keys are mended to one, which keeps its place and takes the later value. -/
theorem objects_record_twoSpellings :
    (((boot twoSpellings .standard).runs []).perform (.decode 0)).1 =
        .ok (.object [("\ufffd", .null)]) ∧
      ((boot twoSpellings .standard).runs []).inst.ShowsKind 0 .object ∧
      (∃ pairs, ((boot twoSpellings .standard).runs []).inst.HasPairs 0 pairs ∧
        Value.object [("\ufffd", .null)] = .object (Entries.ofPairs pairs)) ∧
      Entries.Records [("\ufffd", .boolean true), ("\ufffd", .null)]
        [("\ufffd", Value.null)] := by
  have hsize : twoSpellings.buffer.bytes.size = 65536 := Guest.size_ofBytes (by decide)
  have hkind : ((boot twoSpellings .standard).runs []).inst.ShowsKind 0 .object :=
    Guest.shows_ofBytes (by decide) (by decide) rfl
  have hkey : ((boot twoSpellings .standard).runs []).inst.ShowsText 16 "\ufffd" :=
    Instance.showsText_ofBytes rfl 64 1 (Guest.shows_ofBytes (by decide) (by decide) rfl)
      (Guest.shows_ofBytes (by decide) (by decide) rfl) (by decide) (by decide)
  have hkey' : ((boot twoSpellings .standard).runs []).inst.ShowsText 24 "\ufffd" :=
    Instance.showsText_ofBytes rfl 65 1 (Guest.shows_ofBytes (by decide) (by decide) rfl)
      (Guest.shows_ofBytes (by decide) (by decide) rfl) (by decide) (by decide)
  have htrue : ((boot twoSpellings .standard).runs []).inst.ShowsKind 32 (.boolean true) :=
    Guest.shows_ofBytes (by decide) (by decide) rfl
  have hnull : ((boot twoSpellings .standard).runs []).inst.ShowsKind 48 .null :=
    Guest.shows_ofBytes (by decide) (by decide) rfl
  have hderives : ((boot twoSpellings .standard).runs []).inst.Derives 0 0 0
      (.object (Entries.ofPairs [("\ufffd", .boolean true), ("\ufffd", .null)])) [] :=
    .object hkind (by decide)
      (Guest.shows_ofBytes (by decide) (by decide) (Eq.refl (2 : UInt32)))
      ⟨⟨32, Guest.shows_ofBytes (by decide) (by decide) rfl, rfl⟩,
        Nat.le_trans (by decide) (Nat.le_of_eq hsize.symm)⟩
      ⟨⟨16, Guest.shows_ofBytes (by decide) (by decide) rfl, rfl⟩,
        Nat.le_trans (by decide) (Nat.le_of_eq hsize.symm)⟩ rfl
      (.cons hkey (.leaf htrue (.boolean true)) (.cons hkey' (.leaf hnull .null) .nil))
  have hentries : Entries.ofPairs [("\ufffd", .boolean true), ("\ufffd", .null)] =
      [("\ufffd", Value.null)] := by
    simp [Entries.ofPairs, Entries.insert]
  rw [hentries] at hderives
  have hsettled : ((boot twoSpellings .standard).runs []).inst.Settled :=
    ⟨by rintro v ⟨⟩, rfl⟩
  have hdecode : (((boot twoSpellings .standard).runs []).perform (.decode 0)).1 =
      .ok (.object [("\ufffd", .null)]) :=
    perform_decode_of_derives hsettled (Nat.le_trans (Nat.le_of_eq hsize) (by decide)) hderives
  obtain ⟨hrecords, -, hdecodes, hbuilt⟩ := objects_record twoSpellings .standard []
  exact ⟨hdecode, hkind, (hbuilt 0 _ (hdecodes 0 _ hdecode)).slot hkind,
    (hrecords _ _).2 hentries.symm⟩

end Machine

end

end Crossing
