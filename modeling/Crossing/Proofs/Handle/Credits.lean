import Crossing.Proofs.Handle.Accounts

/-!
# Lending many values

Encoding lends values one after the other, and registers others: `HandleTable.acquireAll` and
`RawRegistry.registerAll`. `Credited vs t t'` says what lending comes to, whatever the order: each
handle of `t` gained as many owners as `vs` has values equal to its own, and there is a new handle
for each value that had none. It holds of one value (`HandleTable.credited_acquire`), passes over
lists (`Credited.trans`), and so holds of all (`HandleTable.credited_acquireAll`).
`RawRegistry.values_registerAll` says that the registered values stand in a row behind the last one.
-/

namespace Crossing

/-- What lending the values `vs` makes of the table `t`. -/
structure Credited (vs : List Value) (t t' : HandleTable) : Prop where
  /-- A live handle gains an owner for each value equal to its own. -/
  kept : ∀ {id : UInt32} {e}, t.entries[id]? = some e →
    ∃ e', t'.entries[id]? = some e' ∧ e'.value = e.value ∧
      e'.owners.toNat = e.owners.toNat + vs.countP e.value.same
  /-- A new handle is for a value that was not lent, and has an owner for each value equal to it. -/
  opened : ∀ {id : UInt32} {e'}, t.entries[id]? = none → t'.entries[id]? = some e' →
    e'.value ∈ vs ∧ (∀ id', ¬ t.Lends id' e'.value) ∧ e'.owners.toNat = vs.countP e'.value.same
  lends : ∀ v ∈ vs, ∃ id, t'.Lends id v

namespace Credited

variable {vs ws : List Value} {t t' t'' : HandleTable}

/-- Lending nothing changes nothing. -/
theorem refl (t : HandleTable) : Credited [] t t where
  kept := fun {_ e} he => ⟨e, he, rfl, rfl⟩
  opened := by
    intro id e hnone he
    rw [hnone] at he
    cases he
  lends := by
    intro v hv
    cases hv

/-- What was lent goes on being lent. -/
theorem lends_of_lends (h : Credited vs t t') {id : UInt32} {v : Value} (hl : t.Lends id v) :
    t'.Lends id v := by
  obtain ⟨e, he, hv⟩ := hl
  obtain ⟨e', he', hvalue, -⟩ := h.kept he
  exact ⟨e', he', hvalue ▸ hv⟩

/-- Owners that are gained in two goes add up. -/
theorem trans (h : Credited vs t t') (h' : Credited ws t' t'') : Credited (vs ++ ws) t t'' where
  kept := by
    intro id e he
    obtain ⟨e', he', hvalue, hown⟩ := h.kept he
    obtain ⟨e'', he'', hvalue', hown'⟩ := h'.kept he'
    refine ⟨e'', he'', hvalue'.trans hvalue, ?_⟩
    rw [hown', hown, hvalue, List.countP_append, Nat.add_assoc]
  opened := by
    intro id e'' hnone he''
    cases he' : t'.entries[id]? with
    | some e' =>
      obtain ⟨hmem, hnot, hown⟩ := h.opened hnone he'
      obtain ⟨_, hsome, hvalue, hown'⟩ := h'.kept he'
      rw [he'', Option.some.injEq] at hsome
      subst hsome
      rw [hvalue]
      refine ⟨List.mem_append_left ws hmem, hnot, ?_⟩
      rw [hown', hown, List.countP_append]
    | none =>
      obtain ⟨hmem, hnot, hown⟩ := h'.opened he' he''
      -- A value equal to one of the first would have had a handle after them.
      have hfirst : vs.countP e''.value.same = 0 := by
        rw [List.countP_eq_zero]
        intro v hv hsame
        obtain ⟨id', e', hid', hlent⟩ := h.lends v hv
        exact hnot id' ⟨e', hid', Value.same_trans hlent (Value.same_symm hsame)⟩
      refine ⟨List.mem_append_right vs hmem, fun id' hl => hnot id' (h.lends_of_lends hl), ?_⟩
      rw [hown, List.countP_append, hfirst, Nat.zero_add]
  lends := by
    intro v hv
    rcases List.mem_append.1 hv with hv | hv
    · obtain ⟨id, hl⟩ := h.lends v hv
      exact ⟨id, h'.lends_of_lends hl⟩
    · exact h'.lends v hv

end Credited

namespace HandleTable

variable {t : HandleTable} {v : Value} {vs : List Value}

/-- Lends values one after the other. -/
def acquireAll (t : HandleTable) (vs : List Value) : HandleTable :=
  (t.serveAll (vs.map .acquire)).2

/-- Values are lent in two goes as they are in one. -/
theorem acquireAll_append (t : HandleTable) (vs ws : List Value) :
    t.acquireAll (vs ++ ws) = (t.acquireAll vs).acquireAll ws := by
  simp only [acquireAll, List.map_append, serveAll_append]

/-- How often one value is found equal to another. -/
theorem countP_singleton_same (v w : Value) :
    [v].countP w.same = if w.same v = true then 1 else 0 := by
  simp [List.countP_cons]

/-- One more owner of the handle of an equal value, where there is no other such handle. -/
theorem credited_again {id : UInt32} {e : HandleEntry} (he : t.entries[id]? = some e)
    (hsame : e.value.same v = true) (howners : e.owners ≠ Word.max)
    (hother : ∀ id', t.Lends id' v → id' = id) :
    Credited [v] t { t with entries := t.entries.insert id { e with owners := e.owners + 1 } } where
  kept := by
    intro id' e' he'
    rw [Std.HashMap.getElem?_insert, countP_singleton_same]
    by_cases h : id = id'
    · subst h
      obtain rfl : e = e' := Option.some.inj (he.symm.trans he')
      refine ⟨_, if_pos (beq_self_eq_true _), rfl, ?_⟩
      rw [if_pos hsame]
      exact Word.toNat_succ howners
    · refine ⟨e', by rw [if_neg (by simpa using h), he'], rfl, ?_⟩
      rw [if_neg fun hs => h (hother id' ⟨e', he', hs⟩).symm]
      rfl
  opened := by
    intro id' e' hnone he'
    rw [Std.HashMap.getElem?_insert] at he'
    split at he'
    · next h =>
      rw [← eq_of_beq h, he] at hnone
      cases hnone
    · rw [hnone] at he'
      cases he'
  lends := by
    intro w hw
    rw [List.mem_singleton.1 hw]
    exact ⟨id, _, Std.HashMap.getElem?_insert_self, hsame⟩

/-- A new handle for a value that was not lent. -/
theorem credited_create (h : t.Sound) (hnext : t.entries[(t.create v).1]? = none)
    (hnot : ∀ id, ¬ t.Lends id v) : Credited [v] t (t.create v).2 where
  kept := by
    intro id e he
    rw [entries_create, Std.HashMap.getElem?_insert, countP_singleton_same]
    have hne : (t.create v).1 ≠ id := by
      rintro rfl
      exact absurd (hnext.symm.trans he) (by simp)
    refine ⟨e, by rw [if_neg (by simpa using hne), he], rfl, ?_⟩
    rw [if_neg fun hs => hnot id ⟨e, he, hs⟩]
    rfl
  opened := by
    intro id e hnone he
    rw [entries_create, Std.HashMap.getElem?_insert] at he
    split at he
    · cases he
      refine ⟨List.mem_singleton_self v, hnot, ?_⟩
      rw [countP_singleton_same, if_pos (Value.same_refl v)]
      rfl
    · rw [hnone] at he
      cases he
  lends := by
    intro w hw
    rw [List.mem_singleton.1 hw]
    exact ⟨_, (extends_create h v).2⟩

/-- Lends one value that is neither undefined nor null. -/
theorem credited_acquire (h : t.Sound) (hv : v.isNullish = false) (hq : t.Admits (.acquire v)) :
    Credited [v] t (t.acquire v).2 := by
  obtain ⟨hfits, hmax⟩ := hq
  obtain ⟨hsound, hext, hlent⟩ := acquire_lends h v
  obtain ⟨hid, hnew⟩ := hlent hv hfits
  obtain ⟨l, r⟩ := h (hext.fits hfits)
  obtain ⟨l', r'⟩ := hsound hfits
  -- Whatever handle leads to an equal value before is the one that is given out.
  have hone (id : UInt32) (hl : t.Lends id v) : id = (t.acquire v).1 :=
    r'.eq_of_lends (hext.lends hfits hl) hnew
  obtain ha | ⟨id, e, he, ha⟩ | ha := t.acquire_cases v
  · rw [ha] at hid
    exact absurd rfl hid
  · rw [ha] at hnew hmax hone ⊢
    obtain ⟨e', he', hsame⟩ := hnew
    rw [Std.HashMap.getElem?_insert_self, Option.some.injEq] at he'
    subst he'
    exact credited_again he hsame (hmax e he) hone
  · have hl : l.last + 1 < UInt32.size := by
      rw [ha] at hfits
      have hle : t.nextId + 1 ≤ UInt32.size := hfits
      have hlast := r.nextId
      omega
    have hnext : t.entries[(t.create v).1]? = none := entries_nextId r hl
    rw [ha] at hone ⊢
    refine credited_create h hnext fun id hlend => ?_
    obtain rfl := hone id hlend
    obtain ⟨e, he, -⟩ := hlend
    rw [hnext] at he
    cases he

/-- Lending keeps a table sound. -/
theorem sound_acquireAll (h : t.Sound) (vs : List Value) : (t.acquireAll vs).Sound := by
  induction vs generalizing t with
  | nil => exact h
  | cons v vs ih => exact ih (acquire_lends h v).1

/-- Lends values, none of them undefined or null, when no number overflows on the way. -/
theorem credited_acquireAll (h : t.Sound) (hvs : ∀ v ∈ vs, v.isNullish = false)
    (hadmits : t.AdmitsAll (vs.map .acquire)) : Credited vs t (t.acquireAll vs) := by
  induction vs generalizing t with
  | nil => exact .refl t
  | cons v vs ih =>
    have hfirst := credited_acquire h (hvs v List.mem_cons_self) hadmits.1
    exact hfirst.trans (ih (acquire_lends h v).1
      (fun w hw => hvs w (List.mem_cons_of_mem v hw)) hadmits.2)

/-- The handles are words after values were lent and no number overflowed. -/
theorem fits_acquireAll (hadmits : t.AdmitsAll (vs.map .acquire)) (hvs : vs ≠ []) :
    (t.acquireAll vs).Fits := by
  induction vs generalizing t with
  | nil => exact absurd rfl hvs
  | cons v vs ih =>
    cases vs with
    | nil => exact hadmits.1.1
    | cons w ws => exact ih hadmits.2 (List.cons_ne_nil w ws)

end HandleTable

/-! ## Raw values -/

namespace RawRegistry

variable {r : RawRegistry}

/-- Registers values one after the other. -/
def registerAll (r : RawRegistry) (vs : List Value) : RawRegistry :=
  vs.foldl (fun r v => (r.register v).2) r

/-- Values are registered in two goes as they are in one. -/
theorem registerAll_append (r : RawRegistry) (vs ws : List Value) :
    r.registerAll (vs ++ ws) = (r.registerAll vs).registerAll ws := List.foldl_append

/-- No value stands behind the last number. -/
theorem values_of_lastId_lt (h : r.Sound) (hf : r.Fits) {id : UInt32} (hid : r.lastId < id.toNat) :
    r.values[id]? = none := by
  cases hv : r.values[id]? with
  | none => rfl
  | some v => exact absurd (h hf hv) (Nat.not_le.2 hid)

/-- Registered values stand in a row behind the last number, and all others as they stood. -/
theorem values_registerAll (h : r.Sound) (vs : List Value)
    (hfits : r.lastId + vs.length < UInt32.size) (id : UInt32) :
    (r.registerAll vs).values[id]? =
      if r.lastId < id.toNat then vs[id.toNat - (r.lastId + 1)]? else r.values[id]? := by
  induction vs generalizing r with
  | nil =>
    split
    · next hid => exact values_of_lastId_lt h hfits hid
    · rfl
  | cons v vs ih =>
    rw [List.length_cons] at hfits
    have hlast : (r.register v).2.lastId = r.lastId + 1 := rfl
    have hnew : (r.lastId + 1).toUInt32.toNat = r.lastId + 1 :=
      UInt32.toNat_ofNat_of_lt' (by omega)
    have hvalues : (r.register v).2.values[id]? =
        if (r.lastId + 1).toUInt32 == id then some v else r.values[id]? :=
      Std.HashMap.getElem?_insert
    have hrest := ih (register_extends h v).1 (by rw [hlast]; omega)
    rw [hlast] at hrest
    show ((r.register v).2.registerAll vs).values[id]? = _
    rw [hrest, hvalues]
    rcases Nat.lt_trichotomy id.toNat (r.lastId + 1) with hlt | heq | hgt
    · have hne : ¬ (r.lastId + 1).toUInt32 = id := by
        rintro rfl
        omega
      rw [if_neg (by omega), if_neg fun h => hne (eq_of_beq h), if_neg (by omega)]
    · have he : (r.lastId + 1).toUInt32 = id := UInt32.toNat_inj.1 (hnew.trans heq.symm)
      rw [if_neg (by omega), if_pos (he ▸ beq_self_eq_true _), if_pos (by omega), heq, Nat.sub_self]
      rfl
    · rw [if_pos hgt, if_pos (by omega), List.getElem?_cons,
        if_neg (by omega), Nat.sub_sub]

end RawRegistry

end Crossing
