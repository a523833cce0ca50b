import Crossing.Proofs.Codec.RoundTrip
import Crossing.Proofs.Instance.Twins

/-!
# Decoding on twins

A slot that holds a staged value is decoded alike on twins (`Twins.decode`): everything that it
leads to lies where both memories reach, and handles and numbers of raw values are looked up in the
same tables. Nothing is asked of the value or the tables, so this also holds where a handle is
looked up in vain: then both fail with the same fault.

`Agree i j e` says that the effect `e`, which only looks at the instance, has the same result on `i`
and `j`. As with `Reads`, the instances may differ in journal and views on the way.
-/

namespace Crossing

open Effect

section
variable {Code α β : Type} {i j : Instance Code}

/-! ## Effects that only look -/

/-- The effect has the result `r` and changes journal and views at most. -/
def Gives (i : Instance Code) (e : Effect Code α) (r : Except Fault α) : Prop :=
  ∀ i', Alike i i' → ∃ i'', exec e i' = (r, i'') ∧ Alike i i''

/-- The effect has the same result on both instances and changes journal and views at most. -/
def Agree (i j : Instance Code) (e : Effect Code α) : Prop := ∃ r, Gives i e r ∧ Gives j e r

/-- An effect gives what its second part gives on the result of the first. -/
theorem Gives.bind {e : Effect Code α} {f : α → Effect Code β} {a : α} {r : Except Fault β}
    (he : Gives i e (.ok a)) (hf : Gives i (f a) r) : Gives i (e >>= f) r := by
  intro i' h
  obtain ⟨i₁, he', h₁⟩ := he i' h
  obtain ⟨i₂, hf', h₂⟩ := hf i₁ h₁
  exact ⟨i₂, by rw [exec_bind_of_ok he', hf'], h₂⟩

/-- It faults when its first part does. -/
theorem Gives.bind_error {e : Effect Code α} {f : α → Effect Code β} {x : Fault}
    (he : Gives i e (.error x)) : Gives i (e >>= f) (.error x) := by
  intro i' h
  obtain ⟨i₁, he', h₁⟩ := he i' h
  exact ⟨i₁, exec_bind_of_error he', h₁⟩

/-- A check of what the instances that are alike have in common. -/
theorem Gives.get {f : Instance Code → Except Fault α} {r : Except Fault α}
    (h : ∀ i', Alike i i' → f i' = r) :
    Gives i (MonadState.get >>= fun i' => liftM (f i') : Effect Code α) r := by
  intro i' hi'
  refine ⟨i', ?_, hi'⟩
  rw [exec_bind_of_ok (exec_get i'), exec_liftExcept, h i' hi']

namespace Agree

variable {e : Effect Code α} {f : α → Effect Code β} {a : α}

/-- Agreement goes both ways. -/
theorem symm (h : Agree i j e) : Agree j i e := by
  obtain ⟨r, hi, hj⟩ := h
  exact ⟨r, hj, hi⟩

/-- What looks at nothing agrees on all instances. -/
theorem pure (a : α) : Agree i j (pure a : Effect Code α) := ⟨.ok a, Reads.pure a, Reads.pure a⟩

/-- What follows a read that succeeds on both instances. -/
theorem read (hi : Reads i e a) (hj : Reads j e a) (hf : Agree i j (f a)) :
    Agree i j (e >>= f) := by
  obtain ⟨r, hi', hj'⟩ := hf
  exact ⟨r, Gives.bind hi hi', Gives.bind hj hj'⟩

/-- Effects that agree do so in a row. -/
theorem bind (he : Agree i j e) (hf : ∀ a, Agree i j (f a)) : Agree i j (e >>= f) := by
  obtain ⟨r, hi, hj⟩ := he
  cases r with
  | error x => exact ⟨.error x, hi.bind_error, hj.bind_error⟩
  | ok a =>
    obtain ⟨r', hi', hj'⟩ := hf a
    exact ⟨r', hi.bind hi', hj.bind hj'⟩

/-- What follows when the kind of a slot has been read. -/
theorem kind {f : SlotKind → Effect Code β} {address : UInt32} {kind : SlotKind}
    (h : i.KindAt address kind) (hg : Grows ∅ i j) (hf : Agree i j (f kind)) :
    Agree i j (do
      let kind ← kindAt address
      record (.decoding kind address)
      f kind) := by
  have hj : j.KindAt address kind := h.mono hg .empty
  exact .read (.kindAt h) (.kindAt hj) (.read (.record _) (.record _) hf)

/-- What follows the reading of a word of the slot may take the word for granted, since it is the
same in the memory that has grown. -/
theorem word {f : UInt32 → Effect Code β} {address index x : UInt32} {n : Nat}
    (h : i.WordAt address n x) (hg : Grows ∅ i j) (hn : index.toNat = n) (hlt : n < 3)
    (hf : Agree i j (f x)) : Agree i j (readWord address index >>= f) :=
  .read (.readWord h hn) (.readWord (h.mono hg hlt .empty) hn) hf

/-- What follows the loading of an element may take the element for granted. -/
theorem element {k : ElementKind} {f : k.Carrier → Effect Code β} {address : UInt32}
    {x : k.Carrier} (h : i.Holds k address.toNat x) (hg : Grows ∅ i j) (hf : Agree i j (f x)) :
    Agree i j (do f (← load (← views).buffer k address)) := by
  have hj : j.Holds k address.toNat x := h.mono hg .empty
  have hload {i : Instance Code} (h : i.Holds k address.toNat x) :
      Reads i (do load (← views).buffer k address) x :=
    .views fun v hv => .load hv h
  have := Agree.read (hload h) (hload hj) hf
  rwa [bind_assoc] at this

end Agree

/-! ## Staged values -/

/-- A value that is lent is decoded alike where the tables of handles are the same. -/
theorem agree_handle {address : UInt32} {v : Value} (h : i.HoldsHandle address v)
    (hg : Grows ∅ i j) (hh : j.handles = i.handles) (room : Nat) :
    Agree i j (decodeAt room address) := by
  obtain ⟨id, hword, hkind, -⟩ := h
  unfold decodeAt
  refine .kind hkind hg (.word hword hg rfl (by omega) ⟨i.handles.get id, .get ?_, .get ?_⟩)
  · intro i' hi'
    rw [hi'.handles]
  · intro j' hj'
    rw [hj'.handles, hh]

/-- A symbol is decoded alike where the same symbols are registered. -/
theorem agree_raw {address : UInt32} {v : Value} (h : i.HoldsRaw address v) (hg : Grows ∅ i j)
    (hr : j.raw = i.raw) (room : Nat) : Agree i j (decodeAt room address) := by
  obtain ⟨id, hword, hkind, -⟩ := h
  unfold decodeAt
  refine .kind hkind hg (.word hword hg rfl (by omega) ⟨i.raw.get id, .get ?_, .get ?_⟩)
  · intro i' hi'
    rw [hi'.raw]
  · intro j' hj'
    rw [hj'.raw, hr]

/-- A number is decoded alike in any memory that has grown from the one it was written to. -/
theorem agree_number {address : UInt32} {x : Double} (h : i.HoldsNumber address x)
    (hg : Grows ∅ i j) (room : Nat) : Agree i j (decodeAt room address) := by
  unfold decodeAt
  rcases h with ⟨-, hnumber, hkind⟩ | ⟨hnumber, hkind⟩
  · exact .kind hkind hg (.element hnumber hg (.pure _))
  · exact .kind hkind hg (.element hnumber hg (.pure _))

/-- A text that stands in memory is read alike, and so is what follows. -/
theorem Agree.text {f : String → Effect Code β} {lo hi : Nat} {address : UInt32} {t : String}
    (h : i.HoldsText lo hi address t) (hg : Grows ∅ i j) (hf : Agree i j (f t)) :
    Agree i j (decodeText address >>= f) :=
  .read (.decodeText h) (.decodeText (h.mono hg .empty .empty)) hf

/-- The address of a table, and what follows. -/
theorem Agree.table {f : UInt32 → Effect Code β} (hs : i.Sound) {lo hi n bytes : Nat}
    {address index table : UInt32} (h : i.TableAt lo hi address n table bytes)
    (hg : Grows ∅ i j) (hn : index.toNat = n) (hlt : n < 3) (hf : Agree i j (f table)) :
    Agree i j (tableAt address index >>= f) := by
  obtain ⟨offset, hoffset, hresolve⟩ := h.offset
  obtain ⟨offset', hoffset', hresolve'⟩ := (h.mono hs hg hlt .empty).offset
  exact .read (.tableAt hoffset hn hresolve) (.tableAt hoffset' hn hresolve') hf

/-- The check of a table that lies inside of memory, and what follows. -/
theorem Agree.checked {f : Unit → Effect Code β} (hs : i.Sound) (hg : Grows ∅ i j)
    {base count stride : UInt32}
    (h : base.toNat + count.toNat * stride.toNat ≤ i.guest.buffer.bytes.size)
    (hf : Agree i j (f ())) : Agree i j (checkTable base count stride >>= f) :=
  .read (.checkTable hs h) (.checkTable hg.sound (Nat.le_trans h hg.size)) hf

/-- The address of an entry, and what follows. -/
theorem Agree.entry {f : UInt32 → Effect Code β} {table slot stride : UInt32} {index : Nat}
    (hplace : slot.toNat = table.toNat + stride.toNat * index) (hpos : 0 < stride.toNat)
    (hf : Agree i j (f slot)) :
    Agree i j (entryAddress table index.toUInt32 stride >>= f) :=
  .read (reads_entryAddress hplace hpos) (reads_entryAddress hplace hpos) hf

mutual

/-- A staged value is decoded alike, however it nests. -/
theorem agree_decodeAt (hs : i.Sound) (hg : Grows ∅ i j) (hh : j.handles = i.handles)
    (hr : j.raw = i.raw) (room lo hi : Nat) (address : UInt32) :
    ∀ (v : Value), i.Staged room lo hi address v → Agree i j (decodeAt room address)
  | .undefined, h => by
    unfold decodeAt
    exact .kind h hg (.pure _)
  | .null, h => by
    unfold decodeAt
    exact .kind h hg (.pure _)
  | .boolean b, h => by
    unfold decodeAt
    exact .kind h hg (.pure _)
  | .number x, h => agree_number h hg room
  | .string t, ⟨htext, hkind⟩ => by
    unfold decodeAt
    exact .kind hkind hg (.text htext hg (.pure _))
  | .array items, ⟨table, mid, hroom, hkind, ⟨count, hcount, hn⟩, htable, hmid, hitems⟩ => by
    have h16 : Slot.size.toNat = 16 := rfl
    have hinside := htable.inside
    obtain ⟨room, rfl⟩ : ∃ n, room = n + 1 := ⟨room - 1, by omega⟩
    unfold decodeAt
    refine .kind hkind hg (.table hs htable hg rfl (by omega)
      (.word hcount hg rfl (by omega) (.checked hs hg (by rw [hn, h16]; omega)
        (.bind ?_ fun _ => .pure _))))
    rw [hn, List.range_eq_range']
    exact agree_items hs hg hh hr room mid hi table 0 items hitems
  | .object entries, ⟨keys, values, mid, hroom, hkind, ⟨count, hcount, hn⟩, hkeys, hvalues, hmid,
      hentries⟩ => by
    have h8 : Slot.keySize.toNat = 8 := rfl
    have h16 : Slot.size.toNat = 16 := rfl
    have hinside := hkeys.inside
    have hinside' := hvalues.inside
    obtain ⟨room, rfl⟩ : ∃ n, room = n + 1 := ⟨room - 1, by omega⟩
    unfold decodeAt
    refine .kind hkind hg (.table hs hvalues hg rfl (by omega)
      (.word hcount hg rfl (by omega) (.table hs hkeys hg rfl (by omega)
        (.checked hs hg (by rw [hn, h16]; omega) (.checked hs hg (by rw [hn, h8]; omega)
          (.bind ?_ fun _ => .pure _))))))
    rw [hn, List.range_eq_range']
    exact agree_entries hs hg hh hr room mid hi keys values 0 entries hentries
  | .symbol _, h => agree_raw h hg hr room
  | .reference _, h => agree_handle h hg hh room
  | .closure _, h => agree_handle h hg hh room
  | .window _, h => agree_handle h hg hh room

/-- Staged items are decoded alike, one after the other. -/
theorem agree_items (hs : i.Sound) (hg : Grows ∅ i j) (hh : j.handles = i.handles)
    (hr : j.raw = i.raw) (room lo hi : Nat) (table : UInt32) (index : Nat) :
    ∀ (items : List Value), i.StagedItems room lo hi (table.toNat + 16 * index) items →
      Agree i j ((List.range' index items.length).mapM fun k => do
        decodeAt room (← entryAddress table k.toUInt32 Slot.size))
  | [], _ => .pure []
  | v :: rest, ⟨slot, mid, hplace, _, _, hslot, hrest⟩ => by
    rw [List.length_cons, List.range'_succ, List.mapM_cons]
    exact .bind (.entry hplace (by decide) (agree_decodeAt hs hg hh hr room lo mid slot v hslot))
      fun _ => .bind (agree_items hs hg hh hr room mid hi table (index + 1) rest hrest)
        fun _ => .pure _

/-- So are staged properties. -/
theorem agree_entries (hs : i.Sound) (hg : Grows ∅ i j) (hh : j.handles = i.handles)
    (hr : j.raw = i.raw) (room lo hi : Nat) (keys values : UInt32) (index : Nat) :
    ∀ (entries : List (String × Value)),
      i.StagedEntries room lo hi (keys.toNat + 8 * index) (values.toNat + 16 * index) entries →
      Agree i j ((List.range' index entries.length).mapM fun k => do
        let key ← decodeText (← entryAddress keys k.toUInt32 Slot.keySize)
        let value ← decodeAt room (← entryAddress values k.toUInt32 Slot.size)
        return (key, value))
  | [], _ => .pure []
  | (key, v) :: rest,
      ⟨slot, slot', mid, mid', hplace, hplace', _, _, _, hkey, hslot, hrest⟩ => by
    rw [List.length_cons, List.range'_succ, List.mapM_cons]
    exact .bind (.entry hplace (by decide) (.text hkey hg (.entry hplace' (by decide)
      (.bind (agree_decodeAt hs hg hh hr room mid mid' slot' v hslot) fun _ => .pure _))))
        fun _ => .bind
          (agree_entries hs hg hh hr room mid' hi keys values (index + 1) rest hrest)
          fun _ => .pure _

end

/-- A staged value is decoded alike on both instances. -/
theorem agree_decode (hs : i.Sound) (hg : Grows ∅ i j) (hh : j.handles = i.handles)
    (hr : j.raw = i.raw) {lo hi : Nat} {address : UInt32} {v : Value}
    (h : i.Staged i.config.maxDepth lo hi address v) : Agree i j (decode address) := by
  obtain ⟨r, hi, hj⟩ := agree_decodeAt hs hg hh hr _ _ _ _ v h
  refine ⟨r, fun i' h' => ?_, fun j' h' => ?_⟩
  · obtain ⟨i'', hexec, halike⟩ := hi i' h'
    refine ⟨i'', ?_, halike⟩
    rw [decode, exec_bind_of_ok (exec_get i'), h'.config]
    exact hexec
  · obtain ⟨j'', hexec, halike⟩ := hj j' h'
    refine ⟨j'', ?_, halike⟩
    rw [decode, exec_bind_of_ok (exec_get j'), h'.config, hg.config]
    exact hexec

/-- Twins decode what is staged on both alike, whichever has more memory. -/
theorem Twins.decode (h : Twins i j) {lo hi lo' hi' : Nat} {address : UInt32} {v v' : Value}
    (hi : i.Staged i.config.maxDepth lo hi address v)
    (hj : j.Staged j.config.maxDepth lo' hi' address v') : Agree i j (decode address) := by
  rcases Nat.le_total i.guest.buffer.bytes.size j.guest.buffer.bytes.size with hle | hle
  · exact agree_decode h.left (h.grows hle) h.handles h.raw hi
  · exact (agree_decode h.right (h.symm.grows hle) h.symm.handles h.symm.raw hj).symm

end

end Crossing
