import Crossing.Proofs.Codec.Staged
import Crossing.Proofs.Instance.Tables
import Mathlib.Logic.Relation

/-!
# Values that nothing touches

A staged value stays what it is over any run that leaves it alone. `Instance.HasItem` leads from a
slot to the slots of its items, so that `Instance.LeadsTo` gives all the slots that a value consists
of. `Intact i i' slot` says that of the value which was prepared last on `i` nothing was
overwritten, released or unregistered up to `i'`: its bytes are the same, and the handles and the
numbers of raw values that stand in it are still in use. That is enough (`Intact.staged`), since
no number is used again for something else.
-/

namespace Crossing

open Effect

section
variable {Code : Type} {i i' : Instance Code}

/-! ## The slots of a value -/

namespace Instance

/-- The slot at `b` is the one of an item of the array, or of a property of the object, in the slot
at `a`. -/
structure HasItem (i : Instance Code) (a b : UInt32) : Prop where
  kind : i.KindAt a .array ∨ i.KindAt a .object
  place : ∃ offset count : UInt32, ∃ k < count.toNat, i.WordAt a 0 offset ∧ i.WordAt a 1 count ∧
    b.toNat = (i.arena.resolve offset).toNat + 16 * k

/-- The slot at `b` is one of those that the value in the slot at `a` consists of. -/
def LeadsTo (i : Instance Code) (a b : UInt32) : Prop := Relation.ReflTransGen i.HasItem a b

/-- A slot is one of its own value. -/
theorem LeadsTo.refl (a : UInt32) : i.LeadsTo a a := Relation.ReflTransGen.refl

/-- What an item consists of, the whole does. -/
theorem HasItem.leadsTo {a b c : UInt32} (h : i.HasItem a b) (h' : i.LeadsTo b c) :
    i.LeadsTo a c := .head h h'

/-- The items of a table are those of the slot that leads to it. -/
theorem TableAt.hasItem {lo hi n k : Nat} {a b table : UInt32} {bytes : Nat}
    (h : i.TableAt lo hi a 0 table bytes) (hkind : i.KindAt a .array ∨ i.KindAt a .object)
    (hcount : i.CountAt a n) (hk : k < n) (hb : b.toNat = table.toNat + 16 * k) :
    i.HasItem a b := by
  obtain ⟨offset, hoffset, rfl⟩ := h.offset
  obtain ⟨count, hword, rfl⟩ := hcount
  exact ⟨hkind, offset, count, k, hk, hoffset, hword, hb⟩

/-! ## Other tables -/

/-- The instance with other tables of the host. -/
def withTables (i : Instance Code) (handles : HandleTable) (raw : RawRegistry) : Instance Code :=
  { i with handles, raw }

/-- What is lent or registered by the slot at `a` is so under other tables as well. -/
structure Resolves (i : Instance Code) (handles : HandleTable) (raw : RawRegistry) (a : UInt32) :
    Prop where
  handle : ∀ {v}, i.HoldsHandle a v → (i.withTables handles raw).HoldsHandle a v
  raw : ∀ {v}, i.HoldsRaw a v → (i.withTables handles raw).HoldsRaw a v

section
variable {handles : HandleTable} {raw : RawRegistry}

/-- A table's place is read from the memory alone. -/
theorem TableAt.withTables {lo hi : Nat} {address : UInt32} {n : Nat} {table : UInt32} {bytes : Nat}
    (h : i.TableAt lo hi address n table bytes) :
    (i.withTables handles raw).TableAt lo hi address n table bytes where
  offset := h.offset
  lo_le := h.lo_le
  le_hi := h.le_hi
  inside := h.inside
  aligned := h.aligned

mutual

/-- A value is staged under other tables of the host as well, when each of its slots resolves. -/
theorem Staged.withTables (room lo hi : Nat) (address : UInt32) : ∀ (v : Value),
    i.Staged room lo hi address v → (∀ a, i.LeadsTo address a → i.Resolves handles raw a) →
      (i.withTables handles raw).Staged room lo hi address v
  | .undefined, h, _ => h
  | .null, h, _ => h
  | .boolean _, h, _ => h
  | .number _, h, _ => h
  | .string _, h, _ => h
  | .array items, ⟨table, mid, hroom, hkind, hcount, htable, hmid, hitems⟩, hr =>
    ⟨table, mid, hroom, hkind, hcount, htable.withTables, hmid,
      StagedItems.withTables _ _ _ _ items hitems fun _ _ hk hslot a ha =>
        hr a ((htable.hasItem (.inl hkind) hcount hk hslot).leadsTo ha)⟩
  | .object entries, ⟨keys, values, mid, hroom, hkind, hcount, hkeys, hvalues, hmid, hentries⟩,
      hr =>
    ⟨keys, values, mid, hroom, hkind, hcount, hkeys.withTables, hvalues.withTables, hmid,
      StagedEntries.withTables _ _ _ _ _ entries hentries fun _ _ hk hslot a ha =>
        hr a ((hvalues.hasItem (.inr hkind) hcount hk hslot).leadsTo ha)⟩
  | .symbol _, h, hr => (hr address (.refl _)).raw h
  | .reference _, h, hr => (hr address (.refl _)).handle h
  | .closure _, h, hr => (hr address (.refl _)).handle h
  | .window _, h, hr => (hr address (.refl _)).handle h

/-- Items stay staged under tables in which all their loans are still in use. -/
theorem StagedItems.withTables (room lo hi place : Nat) : ∀ (items : List Value),
    i.StagedItems room lo hi place items →
    (∀ (slot : UInt32) k, k < items.length → slot.toNat = place + 16 * k →
      ∀ a, i.LeadsTo slot a → i.Resolves handles raw a) →
      (i.withTables handles raw).StagedItems room lo hi place items
  | [], _, _ => trivial
  | v :: rest, ⟨slot, mid, hplace, hlo, hmid, hv, hrest⟩, hr =>
    ⟨slot, mid, hplace, hlo, hmid,
      Staged.withTables _ _ _ _ v hv (hr slot 0 (Nat.succ_pos _) hplace),
      StagedItems.withTables _ _ _ _ rest hrest fun slot' k hk hslot =>
        hr slot' (k + 1) (Nat.succ_lt_succ hk) (by omega)⟩

/-- So do properties. -/
theorem StagedEntries.withTables (room lo hi place place' : Nat) :
    ∀ (entries : List (String × Value)), i.StagedEntries room lo hi place place' entries →
    (∀ (slot : UInt32) k, k < entries.length → slot.toNat = place' + 16 * k →
      ∀ a, i.LeadsTo slot a → i.Resolves handles raw a) →
      (i.withTables handles raw).StagedEntries room lo hi place place' entries
  | [], _, _ => trivial
  | (_, v) :: rest,
      ⟨slot, slot', mid, mid', hplace, hplace', hlo, hmid, hmid', hkey, hv, hrest⟩, hr =>
    ⟨slot, slot', mid, mid', hplace, hplace', hlo, hmid, hmid', hkey,
      Staged.withTables _ _ _ _ v hv (hr slot' 0 (Nat.succ_pos _) hplace'),
      StagedEntries.withTables _ _ _ _ _ rest hrest fun slot'' k hk hslot =>
        hr slot'' (k + 1) (Nat.succ_lt_succ hk) (by omega)⟩

end

end

end Instance

/-! ## Values that are left alone -/

/-- Nothing of the value that was prepared in the slot to give `i` has been overwritten, released or
unregistered in `i'`: its block of memory, from the slot up to the heap's top, has the same bytes,
and the handles and the numbers that stand in its slots are still in use. -/
structure Intact (i i' : Instance Code) (slot : UInt32) : Prop where
  bytes : ∀ a, slot.toNat ≤ a → a < i.guest.heapTop.toNat →
    i'.guest.buffer.byteAt a = i.guest.buffer.byteAt a
  handles : ∀ a id, i.LeadsTo slot a → i.KindAt a .handle → i.WordAt a 0 id →
    i.handles.contains id → i'.handles.contains id
  raw : ∀ a id, i.LeadsTo slot a → i.KindAt a .raw → i.WordAt a 0 id →
    id ∈ i.raw.values → id ∈ i'.raw.values

namespace Intact

variable {slot : UInt32}

/-- What only adds touches nothing. -/
theorem of_grows (hg : Grows (Set.Ici i.guest.heapTop.toNat) i i')
    (hf : i'.Fits) (slot : UInt32) : Intact i i' slot where
  bytes a _ ha := hg.kept a fun hin => Nat.not_lt.2 hin ha
  handles a id _ _ _ hlive := by
    have hmem : id ∈ i.handles.entries := hlive
    obtain ⟨e, he, -⟩ := hg.handles.lends hf.handles
      ⟨_, Std.HashMap.getElem?_eq_some_getElem hmem, Value.same_refl _⟩
    exact Std.HashMap.mem_iff_isSome_getElem?.2 (by rw [he]; rfl)
  raw a id _ _ _ hused := Std.HashMap.mem_iff_isSome_getElem?.2 (by
    rw [hg.raw.values hf.raw (Std.HashMap.getElem?_eq_some_getElem hused)]
    rfl)

/-- The slots of an intact value resolve under the later tables. -/
theorem resolves (h : Intact i i' slot) (hs : i.Sound) (ht : TablesLater i i') {a : UInt32}
    (ha : i.LeadsTo slot a) : i.Resolves i'.handles i'.raw a where
  handle := by
    rintro v ⟨id, hword, hkind, hlends⟩
    refine ⟨id, hword, hkind, fun hf => ?_⟩
    obtain ⟨h0, hl⟩ := hlends (ht.handles.fits hf)
    have hlive : i.handles.contains id := by
      obtain ⟨e, he, -⟩ := hl
      exact Std.HashMap.mem_iff_isSome_getElem?.2 (by rw [he]; rfl)
    exact ⟨h0, ht.handles.lends hs.handles hf hl (h.handles a id ha hkind hword hlive)⟩
  raw := by
    rintro v ⟨id, hword, hkind, hvalue⟩
    refine ⟨id, hword, hkind, fun hf => ?_⟩
    have hv := hvalue (ht.raw.fits hf)
    have hused : id ∈ i.raw.values := Std.HashMap.mem_iff_isSome_getElem?.2 (by rw [hv]; rfl)
    exact ht.raw.registered hs.raw hf hv (h.raw a id ha hkind hword hused)

/-- A value that is prepared and left alone stays staged, whatever else is done. -/
theorem staged (h : Intact i i' slot) (hs : i.Sound) (he : Enlarges i i')
    (ht : TablesLater i i') {room lo : Nat} {v : Value} (hlo : slot.toNat + 13 ≤ lo)
    (hle : lo ≤ i.guest.heapTop.toNat)
    (hv : i.Staged room lo i.guest.heapTop.toNat slot v) :
    i'.Staged room lo i.guest.heapTop.toNat slot v := by
  -- First the tables change under the old memory, then the memory under the new tables.
  have hv' := Instance.Staged.withTables _ _ _ _ v hv fun a ha => h.resolves hs ht ha
  have hsound : (i.withTables i'.handles i'.raw).Sound :=
    { hs with handles := he.sound.handles, raw := he.sound.raw }
  have hg : Grows (fun a => ¬ (slot.toNat ≤ a ∧ a < i.guest.heapTop.toNat))
      (i.withTables i'.handles i'.raw) i' :=
    { he with
      kept := fun a ha => by
        have ha' := not_not.1 ha
        exact h.bytes a ha'.1 ha'.2
      handles := .refl _
      raw := .refl _ }
  refine hv'.mono hsound hg _ _ _ _ v ?_ ?_
  · exact fun b hb hb' hin => hin ⟨hb, by omega⟩
  · exact fun b hb hb' hin => hin ⟨by omega, hb'⟩

end Intact

end

end Crossing
