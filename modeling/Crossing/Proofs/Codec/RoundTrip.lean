import Crossing.Proofs.Codec.Capacity
import Crossing.Proofs.Instance.Tables
import Crossing.Proofs.Value.Entries

/-!
# Values come back as they went

A value that is staged in guest memory is decoded to one that equals it (`reads_decodeAt`): the same
kinds, numbers and texts, items and keys in their order, and by handle or number the very value that
was lent. Where an object is staged with a key twice, the last value of the key comes back in the
place of the first (`Value.merged`).

Encoding stages a value, and nothing that only adds to memory and tables spoils what is staged. So
what comes back of a value is what memory holds of it (`Value.recovered`), and that is an equal
value exactly when the value is well-formed (`Value.same_recovered_iff`). A well-formed value that
was prepared on any instance that a run reaches is decoded to an equal one, at once and after any
number of further preparations, allocations, lendings and growths (`Machine.decode_prepare`).
-/

namespace Crossing

open Effect

section
variable {Code : Type} {i : Instance Code}

/-! ## What comes back of a value -/

namespace Value

mutual

/-- What decoding makes of a value that stands in memory: an object has each key once. -/
def merged : Value → Value
  | array items => array (mergedItems items)
  | object entries => object (Entries.ofPairs (mergedEntries entries))
  | v => v

/-- What decoding makes of items. -/
def mergedItems : List Value → List Value
  | [] => []
  | v :: rest => merged v :: mergedItems rest

/-- What decoding makes of properties, one by one. -/
def mergedEntries : List (String × Value) → List (String × Value)
  | [] => []
  | (key, v) :: rest => (key, merged v) :: mergedEntries rest

end

/-- What comes back of a value: what memory holds of it, with each key of an object once. -/
def recovered (v : Value) : Value := v.stored.merged

/-- Equal values are put into equal properties alike. -/
theorem sameEntries_insert {key : String} {v w : Value} (hvalue : v.same w = true) :
    ∀ {as bs : List (String × Value)}, sameEntries as bs = true →
      sameEntries (Entries.insert key v as) (Entries.insert key w bs) = true
  | [], [], _ => by
    rw [Entries.insert, Entries.insert, sameEntries, sameEntries, hvalue, beq_self_eq_true]
    rfl
  | (k, a) :: as, (l, b) :: bs, h => by
    simp only [sameEntries, Bool.and_eq_true, beq_iff_eq] at h
    obtain ⟨⟨rfl, hab⟩, hrest⟩ := h
    rw [Entries.insert, Entries.insert]
    split
    · rw [sameEntries, hvalue, hrest, beq_self_eq_true]
      rfl
    · rw [sameEntries, hab, sameEntries_insert hvalue hrest, beq_self_eq_true]
      rfl

/-- Equal pairs are put into equal properties alike. -/
theorem sameEntries_foldl_insert : ∀ {as bs es fs : List (String × Value)},
    sameEntries as bs = true → sameEntries es fs = true →
      sameEntries (as.foldl (fun es e => Entries.insert e.1 e.2 es) es)
        (bs.foldl (fun es e => Entries.insert e.1 e.2 es) fs) = true
  | [], [], _, _, _, hes => hes
  | (k, a) :: as, (l, b) :: bs, es, fs, h, hes => by
    simp only [sameEntries, Bool.and_eq_true, beq_iff_eq] at h
    obtain ⟨⟨rfl, hvalue⟩, hrest⟩ := h
    rw [List.foldl_cons, List.foldl_cons]
    exact sameEntries_foldl_insert hrest (sameEntries_insert hvalue hes)

/-- Equal pairs make equal objects. -/
theorem sameEntries_ofPairs {as bs : List (String × Value)} (h : sameEntries as bs = true) :
    sameEntries (Entries.ofPairs as) (Entries.ofPairs bs) = true :=
  sameEntries_foldl_insert h rfl

/-- A text comes back as it is exactly when its length does not wrap around to zero. -/
theorem storedText_eq_iff {t : String} : storedText t = t ↔ Countable t := by
  refine ⟨fun h hzero => ?_, storedText_of_countable⟩
  rw [storedText, if_pos hzero] at h
  rw [← h]
  rfl

/-- The keys that memory holds are what it holds of the keys. -/
theorem keys_recoveredEntries (entries : List (String × Value)) :
    Entries.keys (mergedEntries (storedEntries entries)) =
      (Entries.keys entries).map storedText := by
  induction entries with
  | nil => rfl
  | cons e rest ih =>
    rw [storedEntries, mergedEntries, Entries.keys, List.map_cons, Entries.keys, List.map_cons,
      List.map_cons]
    exact congrArg _ ih

mutual

/-- What comes back of a value equals it exactly when the value is well-formed. -/
theorem same_recovered_iff : ∀ (v : Value), v.recovered.same v = true ↔ v.WellFormed
  | undefined | null | boolean _ | number _ | symbol _ | reference _ | closure _ | window _ =>
    iff_of_true (same_refl _) trivial
  | string t => beq_iff_eq.trans storedText_eq_iff
  | array items => sameItems_recovered_iff items
  | object entries => by
    have hkeys := keys_recoveredEntries entries
    have hiff := sameEntries_recovered_iff entries
    show sameEntries (Entries.ofPairs (mergedEntries (storedEntries entries))) entries = true ↔
      (Entries.keys entries).Nodup ∧ WellFormedEntries entries
    constructor
    · intro h
      -- No key was merged with another one, since there are as many entries as before.
      have hlength : ∀ {as bs : List (String × Value)}, Entries.keys as = Entries.keys bs →
          as.length = bs.length := fun h => by
        simpa [Entries.keys] using congrArg List.length h
      have hcount : (mergedEntries (storedEntries entries)).length = entries.length := by
        simpa [Entries.keys] using congrArg List.length hkeys
      have hnodup := Entries.nodup_of_length_ofPairs
        ((hlength (keys_eq_of_sameEntries h)).trans hcount.symm)
      rw [Entries.ofPairs_of_nodup hnodup] at h
      exact ⟨keys_eq_of_sameEntries h ▸ hnodup, hiff.1 h⟩
    · rintro ⟨hnodup, hwf⟩
      have hsame := hiff.2 hwf
      rw [Entries.ofPairs_of_nodup (by rw [keys_eq_of_sameEntries hsame]; exact hnodup)]
      exact hsame

/-- What comes back of items. -/
theorem sameItems_recovered_iff : ∀ (items : List Value),
    sameItems (mergedItems (storedItems items)) items = true ↔ WellFormedItems items
  | [] => iff_of_true rfl trivial
  | v :: rest => by
    rw [storedItems, mergedItems, sameItems, Bool.and_eq_true]
    exact and_congr (same_recovered_iff v) (sameItems_recovered_iff rest)

/-- What comes back of properties, one by one. -/
theorem sameEntries_recovered_iff : ∀ (entries : List (String × Value)),
    sameEntries (mergedEntries (storedEntries entries)) entries = true ↔ WellFormedEntries entries
  | [] => iff_of_true rfl trivial
  | (key, v) :: rest => by
    rw [storedEntries, mergedEntries, sameEntries, Bool.and_eq_true, Bool.and_eq_true, and_assoc,
      beq_iff_eq]
    exact and_congr storedText_eq_iff
      (and_congr (same_recovered_iff v) (sameEntries_recovered_iff rest))

end

/-- What equals the thing that comes back of `v` equals `v` exactly when `v` is well-formed. -/
theorem same_iff_of_recovered {v w : Value} (h : w.same v.recovered = true) :
    w.same v = true ↔ v.WellFormed :=
  ⟨fun hsame => (same_recovered_iff v).1 (same_trans (same_symm h) hsame),
    fun hv => same_trans h ((same_recovered_iff v).2 hv)⟩

end Value

/-! ## Decoding what is staged -/

/-- The handle of a lent value leads to an equal one. -/
theorem reads_handle {address : UInt32} {v : Value} (h : i.HoldsHandle address v)
    (hf : i.Fits) (room : Nat) :
    ∃ v', v'.same v = true ∧ Reads i (decodeAt room address) v' := by
  obtain ⟨id, hword, hkind, hlends⟩ := h
  obtain ⟨h0, e, he, hsame⟩ := hlends hf.handles
  have hget : i.handles.get id = .ok e.value := by
    rw [HandleTable.get, HandleTable.nullHandle, if_neg h0, he]
  refine ⟨e.value, hsame, ?_⟩
  unfold decodeAt
  refine .kind hkind ((Reads.readWord hword rfl).bind (.get fun i' h' => .lift ?_))
  rw [h'.handles, hget]

/-- The number of a raw value leads to the value. -/
theorem reads_raw {address : UInt32} {v : Value} (h : i.HoldsRaw address v) (hf : i.Fits)
    (room : Nat) : Reads i (decodeAt room address) v := by
  obtain ⟨id, hword, hkind, hvalue⟩ := h
  have hget : i.raw.get id = .ok v := by
    rw [RawRegistry.get, hvalue hf.raw]
  unfold decodeAt
  refine .kind hkind ((Reads.readWord hword rfl).bind (.get fun i' h' => .lift ?_))
  rw [h'.raw, hget]

/-- A number comes back as an equal one, and one that is no integer as the same. -/
theorem reads_number {address : UInt32} {x : Double} (h : i.HoldsNumber address x) (room : Nat) :
    ∃ y : Double, y.sameValueZero x = true ∧ Reads i (decodeAt room address) (.number y) := by
  unfold decodeAt
  rcases h with ⟨hx, hnumber, hkind⟩ | ⟨hnumber, hkind⟩
  · refine ⟨.ofInt32 x.toInt32, ?_, .kind hkind
      (.views fun v hv => (Reads.load hv hnumber).bind (.pure _))⟩
    rw [Double.sameValueZero]
    have hx' : Double.numericEq (.ofInt32 x.toInt32) x = true := hx
    rw [hx']
    rfl
  · exact ⟨x, x.sameValueZero_refl, .kind hkind
      (.views fun v hv => (Reads.load hv hnumber).bind (.pure _))⟩

/-- A text comes back as it is. -/
theorem reads_text {lo hi : Nat} {address : UInt32} {t : String} (h : i.HoldsText lo hi address t)
    (hkind : i.KindAt address .string) (room : Nat) :
    Reads i (decodeAt room address) (.string t) := by
  unfold decodeAt
  exact .kind hkind ((Reads.decodeText h).bind (.pure _))

/-- An entry of a table inside of memory has the address that stands in its place. -/
theorem reads_entryAddress {table slot stride : UInt32} {index : Nat}
    (hplace : slot.toNat = table.toNat + stride.toNat * index) (hpos : 0 < stride.toNat) :
    Reads i (entryAddress table index.toUInt32 stride) slot := by
  refine .entryAddress ?_
  have hle : index ≤ stride.toNat * index := Nat.le_mul_of_pos_left index hpos
  have hslot : slot.toNat < UInt32.size := slot.toNat_lt
  rw [show index.toUInt32.toNat = index from UInt32.toNat_ofNat_of_lt' (by omega), hplace,
    Nat.mul_comm]

mutual

/-- A staged value is decoded to an equal one with each key of an object once, however it nests. -/
theorem reads_decodeAt (hs : i.Sound) (hf : i.Fits) (room lo hi : Nat) (address : UInt32) :
    ∀ (v : Value), i.Staged room lo hi address v →
      ∃ v', v'.same v.merged = true ∧ Reads i (decodeAt room address) v'
  | .undefined, h => ⟨.undefined, rfl, by
      unfold decodeAt
      exact .kind h (.pure _)⟩
  | .null, h => ⟨.null, rfl, by
      unfold decodeAt
      exact .kind h (.pure _)⟩
  | .boolean b, h => ⟨.boolean b, Value.same_refl _, by
      unfold decodeAt
      exact .kind h (.pure _)⟩
  | .number x, h => by
    obtain ⟨y, hy, hreads⟩ := reads_number h room
    exact ⟨.number y, hy, hreads⟩
  | .string t, ⟨htext, hkind⟩ => ⟨.string t, Value.same_refl _, reads_text htext hkind room⟩
  | .array items, ⟨table, mid, hroom, hkind, ⟨count, hcount, hn⟩, htable, hmid, hitems⟩ => by
    have h16 : Slot.size.toNat = 16 := rfl
    obtain ⟨offset, hoffset, hresolve⟩ := htable.offset
    have hinside := htable.inside
    obtain ⟨room, rfl⟩ : ∃ n, room = n + 1 := ⟨room - 1, by omega⟩
    obtain ⟨items', hsame, hreads⟩ :=
      reads_items hs hf room mid hi table 0 items hitems
    refine ⟨.array items', hsame, ?_⟩
    unfold decodeAt
    refine .kind hkind ((Reads.tableAt hoffset rfl hresolve).bind
      ((Reads.readWord hcount rfl).bind
        ((Reads.checkTable hs (by rw [hn, h16]; omega)).bind (.bind ?_ (.pure _)))))
    rw [hn, List.range_eq_range']
    exact hreads
  | .object entries, ⟨keys, values, mid, hroom, hkind, ⟨count, hcount, hn⟩, hkeys, hvalues,
      hmid, hentries⟩ => by
    have h8 : Slot.keySize.toNat = 8 := rfl
    have h16 : Slot.size.toNat = 16 := rfl
    obtain ⟨offset, hoffset, hresolve⟩ := hkeys.offset
    obtain ⟨offset', hoffset', hresolve'⟩ := hvalues.offset
    have hinside := hkeys.inside
    have hinside' := hvalues.inside
    obtain ⟨room, rfl⟩ : ∃ n, room = n + 1 := ⟨room - 1, by omega⟩
    obtain ⟨pairs, hsame, hreads⟩ :=
      reads_entries hs hf room mid hi keys values 0 entries hentries
    refine ⟨.object (Entries.ofPairs pairs), Value.sameEntries_ofPairs hsame, ?_⟩
    unfold decodeAt
    refine .kind hkind ((Reads.tableAt hoffset' rfl hresolve').bind
      ((Reads.readWord hcount rfl).bind ((Reads.tableAt hoffset rfl hresolve).bind
        ((Reads.checkTable hs (by rw [hn, h16]; omega)).bind
          ((Reads.checkTable hs (by rw [hn, h8]; omega)).bind
            (.bind (a := pairs) ?_ (.pure _)))))))
    rw [hn, List.range_eq_range']
    exact hreads
  | .symbol s, h => ⟨.symbol s, Value.same_refl _, reads_raw h hf room⟩
  | .reference _, h => reads_handle h hf room
  | .closure _, h => reads_handle h hf room
  | .window _, h => reads_handle h hf room

/-- Staged items are decoded one after the other. -/
theorem reads_items (hs : i.Sound) (hf : i.Fits) (room lo hi : Nat) (table : UInt32)
    (index : Nat) : ∀ (items : List Value),
      i.StagedItems room lo hi (table.toNat + 16 * index) items →
      ∃ items', Value.sameItems items' (Value.mergedItems items) = true ∧
        Reads i ((List.range' index items.length).mapM fun k => do
          decodeAt room (← entryAddress table k.toUInt32 Slot.size)) items'
  | [], _ => ⟨[], rfl, .pure []⟩
  | v :: rest, ⟨slot, mid, hplace, hlo, hmid, hslot, hrest⟩ => by
    obtain ⟨v', hsame, hreads⟩ := reads_decodeAt hs hf room lo mid slot v hslot
    obtain ⟨rest', hsame', hreads'⟩ :=
      reads_items hs hf room mid hi table (index + 1) rest hrest
    refine ⟨v' :: rest', by
      rw [Value.mergedItems, Value.sameItems, hsame, hsame']
      rfl, ?_⟩
    rw [List.length_cons, List.range'_succ, List.mapM_cons]
    exact ((reads_entryAddress hplace (by decide)).bind hreads).bind (hreads'.bind (.pure _))

/-- Staged keys and values are decoded one after the other. -/
theorem reads_entries (hs : i.Sound) (hf : i.Fits) (room lo hi : Nat) (keys values : UInt32)
    (index : Nat) : ∀ (entries : List (String × Value)),
      i.StagedEntries room lo hi (keys.toNat + 8 * index) (values.toNat + 16 * index) entries →
      ∃ entries', Value.sameEntries entries' (Value.mergedEntries entries) = true ∧
        Reads i ((List.range' index entries.length).mapM fun k => do
          let key ← decodeText (← entryAddress keys k.toUInt32 Slot.keySize)
          let value ← decodeAt room (← entryAddress values k.toUInt32 Slot.size)
          return (key, value)) entries'
  | [], _ => ⟨[], rfl, .pure []⟩
  | (key, v) :: rest,
      ⟨slot, slot', mid, mid', hplace, hplace', hlo, hmid, hmid', hkey, hslot, hrest⟩ => by
    obtain ⟨v', hsame, hreads⟩ := reads_decodeAt hs hf room mid mid' slot' v hslot
    obtain ⟨rest', hsame', hreads'⟩ :=
      reads_entries hs hf room mid' hi keys values (index + 1) rest hrest
    refine ⟨(key, v') :: rest', by
      rw [Value.mergedEntries, Value.sameEntries, hsame, hsame', beq_self_eq_true]
      rfl, ?_⟩
    rw [List.length_cons, List.range'_succ, List.mapM_cons]
    exact ((reads_entryAddress hplace (by decide)).bind ((Reads.decodeText hkey).bind
      ((reads_entryAddress hplace' (by decide)).bind (hreads.bind (.pure (key, v')))))).bind
        (hreads'.bind (.pure _))

end

/-! ## Prepared values -/

namespace Machine

end Machine

end

end Crossing
