import Crossing.Proofs.Handle.Ledger

/-!
# What is lent stays lent

As long as the numbers given out fit into words, a handle table represents a ledger whatever is
done to it (`HandleTable.Sound`), and lending more takes nothing away: a table that only acquires
and adds owners `Extends` the one before. Whatever else is done, no number is given out twice: a
table that is `Later` than another one has under the numbers of that one what stood there, or
nothing. The registry of raw values has the same three notions. All are conditional on the numbers
at the end of a run, which only rise, so nothing is asked on the way.
-/

namespace Crossing

namespace HandleTable

/-- No handle was given out twice: the numbers so far are words. -/
def Fits (t : HandleTable) : Prop := t.nextId ≤ UInt32.size

/-- While the handles are still apart, the table holds what some ledger does. -/
def Sound (t : HandleTable) : Prop := t.Fits → ∃ l, Represents t l

/-- All that `t` lends, `t'` lends too. -/
structure Extends (t t' : HandleTable) : Prop where
  nextId : t.nextId ≤ t'.nextId
  lends : t'.Fits → ∀ {id v}, t.Lends id v → t'.Lends id v

namespace Extends

variable {t t' t'' : HandleTable}

/-- A table lends what it lends. -/
theorem refl (t : HandleTable) : Extends t t := ⟨Nat.le_refl _, fun _ _ _ h => h⟩

/-- Numbers that are words now were words before. -/
theorem fits (h : Extends t t') (hf : t'.Fits) : t.Fits := Nat.le_trans h.nextId hf

/-- What is lent through two steps is lent. -/
theorem trans (h : Extends t t') (h' : Extends t' t'') : Extends t t'' where
  nextId := Nat.le_trans h.nextId h'.nextId
  lends := fun hf _ _ hl => h'.lends hf (h.lends (h'.fits hf) hl)

end Extends

variable {t : HandleTable} {l : Ledger} {id : UInt32} {e : HandleEntry}

/-- Another number of owners takes nothing away. -/
theorem extends_setOwners (he : t.entries[id]? = some e) (n : UInt32) :
    Extends t { t with entries := t.entries.insert id { e with owners := n } } where
  nextId := Nat.le_refl _
  lends := by
    rintro - id' v ⟨e', he', hv⟩
    by_cases hid : id = id'
    · subst hid
      rw [he, Option.some.injEq] at he'
      subst he'
      exact ⟨{ e with owners := n }, Std.HashMap.getElem?_insert_self, hv⟩
    · refine ⟨e', ?_, hv⟩
      rw [Std.HashMap.getElem?_insert, if_neg (by simpa using hid)]
      exact he'

/-- Another number of owners keeps a table sound. -/
theorem sound_setOwners (h : t.Sound) (he : t.entries[id]? = some e) (n : UInt32) :
    Sound { t with entries := t.entries.insert id { e with owners := n } } := by
  intro hf
  obtain ⟨l, r⟩ := h hf
  rw [r.entries, Option.map_eq_some_iff] at he
  obtain ⟨g, hg, rfl⟩ := he
  have hr := r.setOwners hg n.toNat
  rw [show n.toNat.toUInt32 = n from UInt32.ofNat_toNat] at hr
  exact ⟨_, hr⟩

/-- A handle that is not given out yet. -/
theorem entries_nextId (r : Represents t l) (hl : l.last + 1 < UInt32.size) :
    t.entries[t.nextId.toUInt32]? = none := by
  have hid : t.nextId.toUInt32.toNat = l.last + 1 := by
    rw [r.nextId]
    exact UInt32.toNat_ofNat_of_lt' hl
  rw [r.entries, hid, Option.map_eq_none_iff, Ledger.holder?, List.find?_eq_none]
  intro g hg
  have := (r.ids g hg).2
  simp only [beq_iff_eq]
  omega

/-- A new handle takes nothing away, and lends its value. -/
theorem extends_create (h : t.Sound) (v : Value) :
    Extends t (t.create v).2 ∧ ((t.create v).2.Lends (t.create v).1 v) := by
  refine ⟨⟨Nat.le_succ _, ?_⟩, ⟨⟨v, 1⟩, Std.HashMap.getElem?_insert_self, Value.same_refl v⟩⟩
  rintro hf id w ⟨e, he, hw⟩
  have hf' : t.nextId + 1 ≤ UInt32.size := hf
  obtain ⟨l, r⟩ := h (Nat.le_of_succ_le hf)
  have hnext := entries_nextId r (by have := r.nextId; omega)
  refine ⟨e, ?_, hw⟩
  show (t.entries.insert t.nextId.toUInt32 ⟨v, 1⟩)[id]? = some e
  rw [Std.HashMap.getElem?_insert, if_neg, he]
  intro hid
  rw [eq_of_beq hid, he] at hnext
  cases hnext

/-- A new handle for a new value keeps a table sound. -/
theorem sound_create (h : t.Sound) {v : Value}
    (hv : ∀ l, Represents t l → l.last + 1 < UInt32.size → l.find? v = none) :
    (t.create v).2.Sound := by
  intro hf
  have hf' : t.nextId + 1 ≤ UInt32.size := hf
  obtain ⟨l, r⟩ := h (Nat.le_of_succ_le hf)
  have hl : l.last + 1 < UInt32.size := by have := r.nextId; omega
  exact ⟨_, r.create hl (hv l r hl)⟩

/-- The handle of a value that a sound table knows. -/
theorem lends_of_lookup {v : Value} (r : Represents t l) (hl : l.last < UInt32.size)
    (hid : t.lookup v = some id) : id ≠ 0 ∧ t.Lends id v := by
  rw [r.lookup, Option.map_eq_some_iff] at hid
  obtain ⟨g, hg, rfl⟩ := hid
  obtain ⟨hword, -, hholder⟩ := r.lookup_of_find? hl hg
  have ⟨hmem, hsame⟩ := Ledger.mem_of_find? hg
  refine ⟨fun h0 => ?_, r.lends_iff.2 ⟨g, hholder, hsame⟩⟩
  have hpos := (r.ids g hmem).1
  rw [← hword, h0] at hpos
  exact Nat.lt_irrefl 0 hpos

/-- A sound table that lends a value stays sound, takes nothing away, and while the handles fit the
answer is the handle of the value. -/
theorem acquire_lends (h : t.Sound) (v : Value) :
    (t.acquire v).2.Sound ∧ Extends t (t.acquire v).2 ∧
      (v.isNullish = false → (t.acquire v).2.Fits →
        (t.acquire v).1 ≠ 0 ∧ (t.acquire v).2.Lends (t.acquire v).1 v) := by
  have hcreate (hv : ∀ l, Represents t l → l.last + 1 < UInt32.size → l.find? v = none) :
      (t.create v).2.Sound ∧ Extends t (t.create v).2 ∧
        (v.isNullish = false → (t.create v).2.Fits →
          (t.create v).1 ≠ 0 ∧ (t.create v).2.Lends (t.create v).1 v) := by
    refine ⟨sound_create h hv, (extends_create h v).1, fun _ hf => ⟨?_, (extends_create h v).2⟩⟩
    have hf' : t.nextId + 1 ≤ UInt32.size := hf
    obtain ⟨l, r⟩ := h (Nat.le_of_succ_le hf)
    have hl : l.last + 1 < UInt32.size := by have := r.nextId; omega
    have hid := r.toNat_create (v := v) hl
    intro h0
    rw [h0] at hid
    exact Nat.succ_ne_zero _ hid.symm
  unfold acquire
  split
  · next hnull => exact ⟨h, .refl t, fun hv => by simp_all⟩
  cases hlookup : t.lookup v with
  | none =>
    refine hcreate fun l r _ => ?_
    rw [r.lookup, Option.map_eq_none_iff] at hlookup
    exact hlookup
  | some id =>
    dsimp only
    cases he : t.entries[id]? with
    | none =>
      -- The indices of a sound table know no handle without an entry.
      refine hcreate fun l r hl => ?_
      obtain ⟨-, e, he', -⟩ := lends_of_lookup r (Nat.lt_of_succ_lt hl) hlookup
      rw [he] at he'
      cases he'
    | some e =>
      refine ⟨sound_setOwners h he _, extends_setOwners he _, fun _ hf => ?_⟩
      obtain ⟨l, r⟩ := h hf
      have hf' : t.nextId ≤ UInt32.size := hf
      obtain ⟨h0, hl⟩ := lends_of_lookup r (by have := r.nextId; omega) hlookup
      exact ⟨h0, (extends_setOwners he _).lends hf hl⟩

/-- An acquire gives out one number at most. -/
theorem nextId_acquire_le (t : HandleTable) (v : Value) :
    (t.acquire v).2.nextId ≤ t.nextId + 1 := by
  unfold acquire
  split
  · exact Nat.le_succ _
  · split
    · split
      · exact Nat.le_succ _
      · exact Nat.le_refl _
    · exact Nat.le_refl _

/-- One more owner uses no number. -/
theorem nextId_increment {t' : HandleTable} (h : t.increment id = .ok t') :
    t'.nextId = t.nextId := by
  unfold increment at h
  split at h <;> cases h
  rfl

/-- One owner less uses no number. -/
theorem nextId_decrement {t' : HandleTable} (h : t.decrement id = .ok t') :
    t'.nextId = t.nextId := by
  unfold decrement at h
  split at h
  · split at h <;> cases h <;> rfl
  · cases h

/-- One more owner keeps a table sound and takes nothing away. -/
theorem increment_extends {t' : HandleTable} (h : t.Sound) (hi : t.increment id = .ok t') :
    t'.Sound ∧ Extends t t' := by
  unfold increment at hi
  split at hi
  · next e he =>
    cases hi
    exact ⟨sound_setOwners h he _, extends_setOwners he _⟩
  · cases hi

/-- One owner less keeps a table sound. -/
theorem decrement_sound {t' : HandleTable} (h : t.Sound) (hd : t.decrement id = .ok t') :
    t'.Sound := by
  unfold decrement at hd
  split at hd
  · next e he =>
    split at hd <;> cases hd
    · exact sound_setOwners h he _
    · intro hf
      have hf' : t.nextId ≤ UInt32.size := hf
      obtain ⟨l, r⟩ := h hf
      rw [r.entries, Option.map_eq_some_iff] at he
      obtain ⟨g, hg, rfl⟩ := he
      exact ⟨_, r.erase (by have := r.nextId; omega) hg⟩
  · cases hd

/-- An empty table is sound. -/
theorem sound_empty : Sound .empty := fun _ => ⟨.empty, .empty⟩

/-- It has given out no number yet. -/
theorem fits_empty : Fits .empty := show 1 ≤ 2 ^ 32 by decide

/-! ### No number comes again -/

/-- The numbers that `t` has given out stand in `t'` for what they did, where they are live. -/
structure Later (t t' : HandleTable) : Prop where
  nextId : t.nextId ≤ t'.nextId
  entries : t'.Fits → ∀ {id : UInt32} {e' : HandleEntry}, t'.entries[id]? = some e' →
    id.toNat < t.nextId → ∃ e, t.entries[id]? = some e ∧ e.value = e'.value

namespace Later

variable {t' t'' : HandleTable}

/-- Handles stand for what they stand for. -/
theorem refl (t : HandleTable) : Later t t := ⟨Nat.le_refl _, fun _ _ _ he _ => ⟨_, he, rfl⟩⟩

/-- Numbers that are words now were words before. -/
theorem fits (h : Later t t') (hf : t'.Fits) : t.Fits := Nat.le_trans h.nextId hf

/-- Handles that keep their meaning in two steps keep it. -/
theorem trans (h : Later t t') (h' : Later t' t'') : Later t t'' where
  nextId := Nat.le_trans h.nextId h'.nextId
  entries := by
    intro hf id e'' he'' hid
    obtain ⟨e', he', hv'⟩ := h'.entries hf he'' (Nat.lt_of_lt_of_le hid h.nextId)
    obtain ⟨e, he, hv⟩ := h.entries (h'.fits hf) he' hid
    exact ⟨e, he, hv.trans hv'⟩

/-- Another number of owners. -/
theorem setOwners (he : t.entries[id]? = some e) (n : UInt32) :
    Later t { t with entries := t.entries.insert id { e with owners := n } } where
  nextId := Nat.le_refl _
  entries := by
    intro _ id' e' he' _
    have hinsert : (t.entries.insert id { e with owners := n })[id']? = some e' := he'
    rw [Std.HashMap.getElem?_insert] at hinsert
    split at hinsert
    · next hid =>
      cases hinsert
      exact ⟨e, eq_of_beq hid ▸ he, rfl⟩
    · exact ⟨e', hinsert, rfl⟩

/-- A new number. -/
theorem create (t : HandleTable) (v : Value) : Later t (t.create v).2 where
  nextId := Nat.le_succ _
  entries := by
    intro hf id e' he' hid
    have hnext : t.nextId.toUInt32.toNat = t.nextId := UInt32.toNat_ofNat_of_lt' hf
    have hinsert : (t.entries.insert t.nextId.toUInt32 ⟨v, 1⟩)[id]? = some e' := he'
    rw [Std.HashMap.getElem?_insert, if_neg] at hinsert
    · exact ⟨e', hinsert, rfl⟩
    · intro heq
      rw [← eq_of_beq heq, hnext] at hid
      exact Nat.lt_irrefl _ hid

/-- Lending gives no handle another meaning. -/
theorem acquire (t : HandleTable) (v : Value) : Later t (t.acquire v).2 := by
  unfold HandleTable.acquire
  split
  · exact refl t
  split
  · split
    · next he => exact setOwners he _
    · exact create t v
  · exact create t v

/-- Nor does one more owner. -/
theorem increment (h : t.increment id = .ok t') : Later t t' := by
  unfold HandleTable.increment at h
  split at h
  · next he =>
    cases h
    exact setOwners he _
  · cases h

/-- The end of a handle. -/
theorem erase (t : HandleTable) (id : UInt32) (v : Value) : Later t (t.erase id v) where
  nextId := Nat.le_refl _
  entries := by
    intro _ id' e' he' _
    have herase : (t.entries.erase id)[id']? = some e' := he'
    rw [Std.HashMap.getElem?_erase] at herase
    split at herase
    · cases herase
    · exact ⟨e', herase, rfl⟩

/-- Nor does one less. -/
theorem decrement (h : t.decrement id = .ok t') : Later t t' := by
  unfold HandleTable.decrement at h
  split at h
  · next he =>
    split at h <;> cases h
    · exact setOwners he _
    · exact erase t _ _
  · cases h

/-- A value that was lent is lent as long as its handle is live. -/
theorem lends (h : Later t t') (hs : t.Sound) (hf : t'.Fits) {v : Value} (hl : t.Lends id v)
    (hlive : t'.contains id) : t'.Lends id v := by
  obtain ⟨l, r⟩ := hs (h.fits hf)
  obtain ⟨e, he, hv⟩ := hl
  have hid : id.toNat < t.nextId := by
    have hentry := he
    rw [r.entries, Option.map_eq_some_iff] at hentry
    obtain ⟨g, hg, -⟩ := hentry
    obtain ⟨hmem, hgid⟩ := Ledger.mem_of_holder? hg
    have := (r.ids g hmem).2
    have := r.nextId
    omega
  have hmem : id ∈ t'.entries := hlive
  obtain ⟨e', he'⟩ : ∃ e', t'.entries[id]? = some e' :=
    ⟨_, Std.HashMap.getElem?_eq_some_getElem hmem⟩
  obtain ⟨e₀, he₀, hvalue⟩ := h.entries hf he' hid
  rw [he, Option.some.injEq] at he₀
  subst he₀
  exact ⟨e', he', hvalue ▸ hv⟩

end Later

end HandleTable

/-! ## Raw values -/

namespace RawRegistry

/-- No number was given out twice: the numbers so far are words. -/
def Fits (r : RawRegistry) : Prop := r.lastId < UInt32.size

/-- While the numbers are still apart, those in use were given out. -/
def Sound (r : RawRegistry) : Prop :=
  r.Fits → ∀ {id : UInt32} {v}, r.values[id]? = some v → id.toNat ≤ r.lastId

/-- All that is registered in `r` is registered in `r'`. -/
structure Extends (r r' : RawRegistry) : Prop where
  lastId : r.lastId ≤ r'.lastId
  values : r'.Fits → ∀ {id : UInt32} {v}, r.values[id]? = some v → r'.values[id]? = some v

namespace Extends

variable {r r' r'' : RawRegistry}

/-- A registry has what it has. -/
theorem refl (r : RawRegistry) : Extends r r := ⟨Nat.le_refl _, fun _ _ _ h => h⟩

/-- Numbers that are words now were words before. -/
theorem fits (h : Extends r r') (hf : r'.Fits) : r.Fits := Nat.lt_of_le_of_lt h.lastId hf

/-- What is registered through two steps is registered. -/
theorem trans (h : Extends r r') (h' : Extends r' r'') : Extends r r'' where
  lastId := Nat.le_trans h.lastId h'.lastId
  values := fun hf _ _ hv => h'.values hf (h.values (h'.fits hf) hv)

end Extends

variable {r : RawRegistry}

/-- An empty registry has given out no number yet. -/
theorem fits_empty : Fits .empty := show 0 < 2 ^ 32 by decide

/-- It is sound. -/
theorem sound_empty : Sound .empty := by
  intro _ id v hv
  simp [empty] at hv

/-- A sound registry that registers a value stays sound, takes nothing away, and holds the value
under the number that it answers. -/
theorem register_extends (h : r.Sound) (v : Value) :
    (r.register v).2.Sound ∧ Extends r (r.register v).2 ∧
      (r.register v).2.values[(r.register v).1]? = some v := by
  have hid (hf : r.lastId + 1 < UInt32.size) : (r.lastId + 1).toUInt32.toNat = r.lastId + 1 :=
    UInt32.toNat_ofNat_of_lt' hf
  have hvalues (id : UInt32) : (r.register v).2.values[id]? =
      if (r.lastId + 1).toUInt32 == id then some v else r.values[id]? :=
    Std.HashMap.getElem?_insert
  refine ⟨fun hf id w hw => ?_, ⟨Nat.le_succ _, fun hf id w hw => ?_⟩, ?_⟩
  · have hlast := hid hf
    rw [hvalues] at hw
    show id.toNat ≤ r.lastId + 1
    split at hw
    · next he =>
      exact Nat.le_of_eq (by rw [← eq_of_beq he, hlast])
    · exact Nat.le_succ_of_le (h (Nat.lt_of_succ_lt hf) hw)
  · have hle := h (Nat.lt_of_succ_lt hf) hw
    have hlast := hid hf
    rw [hvalues, if_neg, hw]
    intro he
    rw [← eq_of_beq he, hlast] at hle
    exact Nat.not_succ_le_self _ hle
  · rw [hvalues]
    exact if_pos (beq_self_eq_true _)

/-- A registry from which a value is taken stays sound. -/
theorem unregister_sound (h : r.Sound) (id : UInt32) : (r.unregister id).2.Sound := by
  intro hf id' v hv
  refine h hf (v := v) ?_
  have hv' : (r.values.erase id)[id']? = some v := hv
  rw [Std.HashMap.getElem?_erase] at hv'
  split at hv'
  · cases hv'
  · exact hv'

/-- The numbers that `r` has given out stand in `r'` for what they did, where they are in use. -/
structure Later (r r' : RawRegistry) : Prop where
  lastId : r.lastId ≤ r'.lastId
  values : r'.Fits → ∀ {id : UInt32} {v}, r'.values[id]? = some v → id.toNat ≤ r.lastId →
    r.values[id]? = some v

namespace Later

variable {r' r'' : RawRegistry}

/-- Numbers stand for what they stand for. -/
theorem refl (r : RawRegistry) : Later r r := ⟨Nat.le_refl _, fun _ _ _ hv _ => hv⟩

/-- Numbers that are words now were words before. -/
theorem fits (h : Later r r') (hf : r'.Fits) : r.Fits := Nat.lt_of_le_of_lt h.lastId hf

/-- Numbers that keep their meaning in two steps keep it. -/
theorem trans (h : Later r r') (h' : Later r' r'') : Later r r'' where
  lastId := Nat.le_trans h.lastId h'.lastId
  values := fun hf _ _ hv hid =>
    h.values (h'.fits hf) (h'.values hf hv (Nat.le_trans hid h.lastId)) hid

/-- Registering gives no number another meaning. -/
theorem register (r : RawRegistry) (v : Value) : Later r (r.register v).2 where
  lastId := Nat.le_succ _
  values := by
    intro hf id w hw hid
    have hnext : (r.lastId + 1).toUInt32.toNat = r.lastId + 1 := UInt32.toNat_ofNat_of_lt' hf
    have hinsert : (r.values.insert (r.lastId + 1).toUInt32 v)[id]? = some w := hw
    rw [Std.HashMap.getElem?_insert, if_neg] at hinsert
    · exact hinsert
    · intro heq
      rw [← eq_of_beq heq, hnext] at hid
      exact Nat.not_succ_le_self _ hid

/-- Nor does taking a value out. -/
theorem unregister (r : RawRegistry) (id : UInt32) : Later r (r.unregister id).2 where
  lastId := Nat.le_refl _
  values := by
    intro _ id' v hv _
    have herase : (r.values.erase id)[id']? = some v := hv
    rw [Std.HashMap.getElem?_erase] at herase
    split at herase
    · cases herase
    · exact herase

/-- A value that was registered is so as long as its number is in use. -/
theorem registered (h : Later r r') (hs : r.Sound) (hf : r'.Fits) {id : UInt32} {v : Value}
    (hv : r.values[id]? = some v) (hused : id ∈ r'.values) : r'.values[id]? = some v := by
  have hget := Std.HashMap.getElem?_eq_some_getElem hused
  have hsame := h.values hf hget (hs (h.fits hf) hv)
  rw [hget, ← hsame, hv]

end Later

end RawRegistry

end Crossing
