import Crossing.Handle
import Crossing.Proofs.Value.Equality
import Mathlib.Data.List.Nodup

/-!
# The handle table as a ledger

A ledger is the plain list of what is lent: values with their handles and their owners, searched
from the front by equality of values. `Represents` says that a handle table, with its hash table of
entries and its two indices, holds exactly what a ledger does. Each change of the table is a change
of the ledger: an owner more or less is `Represents.setOwners`, the end of a handle is
`Represents.erase`, a new one `Represents.create`; `Represents.lookup` says that the indices find
what the search from the front finds.

The last two need the handles to be still apart, so they ask for numbers below `2 ^ 32`.
-/

namespace Crossing

/-- A lent value with its handle and the number of its owners. -/
structure Holding where
  value : Value
  id : Nat
  owners : Nat

/-- What is lent, oldest first, and the last handle that was given out. -/
structure Ledger where
  holdings : List Holding := []
  last : Nat := 0

namespace Ledger

/-- The ledger with nothing lent. -/
def empty : Ledger := {}

/-- The first holding of a value equal to `v`. -/
def find? (l : Ledger) (v : Value) : Option Holding := l.holdings.find? fun h => h.value.same v

/-- The holding of a handle. -/
def holder? (l : Ledger) (id : Nat) : Option Holding := l.holdings.find? fun h => h.id == id

/-- Gives the holding of a handle `n` owners. -/
def setOwners (l : Ledger) (id n : Nat) : Ledger :=
  { l with holdings := l.holdings.map fun h => if h.id = id then { h with owners := n } else h }

/-- Strikes out the holding of a handle. -/
def remove (l : Ledger) (id : Nat) : Ledger :=
  { l with holdings := l.holdings.filter fun h => h.id != id }

/-- Enters a value under the next handle, with one owner. -/
def append (l : Ledger) (v : Value) : Ledger :=
  { holdings := l.holdings ++ [⟨v, l.last + 1, 1⟩], last := l.last + 1 }

/-- Lends a value: under its handle with one more owner, or under the next one. -/
def acquire (l : Ledger) (v : Value) : Nat × Ledger :=
  if v.isNullish then (0, l)
  else
    match l.find? v with
    | some h => (h.id, l.setOwners h.id (h.owners + 1))
    | none => (l.last + 1, l.append v)

/-- The value of a handle. -/
def get (l : Ledger) (id : UInt32) : Except Fault Value :=
  if id = 0 then .ok .null
  else
    match l.holder? id.toNat with
    | some h => .ok h.value
    | none => .error (.unknownHandle id)

/-- Adds an owner. -/
def increment (l : Ledger) (id : UInt32) : Except Fault Ledger :=
  match l.holder? id.toNat with
  | some h => .ok (l.setOwners id.toNat (h.owners + 1))
  | none => .error (.unknownHandle id)

/-- Takes an owner away, and the holding with the last one. -/
def decrement (l : Ledger) (id : UInt32) : Except Fault Ledger :=
  match l.holder? id.toNat with
  | some h =>
    if h.owners = 1 then .ok (l.remove id.toNat)
    else .ok (l.setOwners id.toNat (h.owners - 1))
  | none => .error (.unknownHandle id)

/-! ## Searching a changed ledger -/

section
variable {l : Ledger} {h : Holding} {id n : Nat}

/-- The holding of a handle is one of the ledger's, and has that handle. -/
theorem mem_of_holder? (hh : l.holder? id = some h) : h ∈ l.holdings ∧ h.id = id :=
  ⟨List.mem_of_find?_eq_some hh, by simpa using List.find?_some hh⟩

/-- The holding of a value is one of the ledger's, and its value is equal. -/
theorem mem_of_find? {v : Value} (hh : l.find? v = some h) :
    h ∈ l.holdings ∧ h.value.same v = true :=
  ⟨List.mem_of_find?_eq_some hh, by simpa using List.find?_some hh⟩

/-- What is read off a holding without its owners stays the same when they change. -/
theorem read_setOwners {α : Type} {f : Holding → α} (hf : ∀ h m, f { h with owners := m } = f h)
    (h : Holding) : f (if h.id = id then { h with owners := n } else h) = f h := by
  split
  · exact hf h n
  · rfl

/-- A search that does not look at owners finds what it found, with its new owners. -/
theorem find?_setOwners (p : Holding → Bool) (hp : ∀ h m, p { h with owners := m } = p h) :
    (l.setOwners id n).holdings.find? p =
      (l.holdings.find? p).map fun h => if h.id = id then { h with owners := n } else h := by
  unfold setOwners
  rw [List.find?_map]
  congr 2
  funext h
  exact read_setOwners hp h

/-- A choice that leaves out what is struck out anyway. -/
theorem filter_remove {p : Holding → Bool} (hp : ∀ h ∈ l.holdings, h.id = id → p h = false) :
    (l.remove id).holdings.filter p = l.holdings.filter p := by
  rw [remove, List.filter_filter]
  refine List.filter_congr fun h hh => ?_
  by_cases he : h.id = id
  · simp [hp h hh he]
  · simp [he]

/-- A search that passes over what is struck out finds what it found. -/
theorem find?_remove {p : Holding → Bool} (hp : ∀ h ∈ l.holdings, h.id = id → p h = false) :
    (l.remove id).holdings.find? p = l.holdings.find? p := by
  rw [← List.head?_filter, filter_remove hp, List.head?_filter]

/-- A holding that was struck out is gone, and the others are there. -/
theorem holder?_remove (id' : Nat) :
    (l.remove id).holder? id' = if id = id' then none else l.holder? id' := by
  split
  · next he =>
    subst he
    simp [holder?, remove, List.find?_eq_none]
  · next he =>
    exact find?_remove fun h _ hid => by simp [hid, he]

/-- What is entered comes on top of the holdings that there are. -/
theorem mem_append {v : Value} :
    h ∈ (l.append v).holdings ↔ h ∈ l.holdings ∨ h = ⟨v, l.last + 1, 1⟩ := by
  simp only [append, List.mem_append, List.mem_singleton]

/-- What is entered is found under the next handle, and all else as before. -/
theorem holder?_append (v : Value) (id' : Nat) :
    (l.append v).holder? id' =
      (l.holder? id').or (if l.last + 1 = id' then some ⟨v, l.last + 1, 1⟩ else none) := by
  simp only [holder?, append, List.find?_append, List.find?_singleton, beq_iff_eq]

end

end Ledger

/-! ## Tables that represent a ledger -/

/-- The handle `id` is live and lends a value equal to `v`. -/
def HandleTable.Lends (t : HandleTable) (id : UInt32) (v : Value) : Prop :=
  ∃ e, t.entries[id]? = some e ∧ e.value.same v = true

/-- The table `t` holds what the ledger `l` does. -/
structure Represents (t : HandleTable) (l : Ledger) : Prop where
  nextId : t.nextId = l.last + 1
  /-- The handles are those given out so far. -/
  ids : ∀ h ∈ l.holdings, 0 < h.id ∧ h.id ≤ l.last
  /-- No handle stands for two values. -/
  nodup : (l.holdings.map (·.id)).Nodup
  /-- No value is lent twice. -/
  distinct : ∀ h ∈ l.holdings, ∀ h' ∈ l.holdings, h.value.same h'.value = true → h = h'
  entries : ∀ id : UInt32,
    t.entries[id]? = (l.holder? id.toNat).map fun h => ⟨h.value, h.owners.toUInt32⟩
  byIdentity : ∀ key,
    t.byIdentity[key]? =
      (l.holdings.find? fun h => h.value.identity? == some key).map (·.id.toUInt32)
  byValue : t.byValue =
    (l.holdings.filter fun h => h.value.identity?.isNone).map fun h => (h.value, h.id.toUInt32)

namespace Represents

variable {t : HandleTable} {l : Ledger} {h h' : Holding} {v : Value} {id : UInt32} {n : Nat}

/-- An empty table holds what an empty ledger does. -/
theorem empty : Represents .empty .empty where
  nextId := rfl
  ids := by simp [Ledger.empty]
  nodup := by simp [Ledger.empty]
  distinct := by simp [Ledger.empty]
  entries := by simp [Ledger.empty, Ledger.holder?, HandleTable.empty]
  byIdentity := by simp [Ledger.empty, HandleTable.empty]
  byValue := by simp [Ledger.empty, HandleTable.empty]

/-- Holdings with the same handle are one. -/
theorem eq_of_id_eq (r : Represents t l) (hh : h ∈ l.holdings) (hh' : h' ∈ l.holdings)
    (he : h.id = h'.id) : h = h' :=
  List.inj_on_of_nodup_map r.nodup hh hh' he

/-- The holding of a handle is what a search for the handle finds. -/
theorem holder?_eq (r : Represents t l) (hh : h ∈ l.holdings) : l.holder? h.id = some h := by
  cases hf : l.holder? h.id with
  | none =>
    rw [Ledger.holder?, List.find?_eq_none] at hf
    exact absurd (hf h hh) (by simp)
  | some g =>
    have ⟨hg, he⟩ := Ledger.mem_of_holder? hf
    rw [r.eq_of_id_eq hg hh he]

/-- The indices find what a search by equality finds. -/
theorem lookup (r : Represents t l) (v : Value) :
    t.lookup v = (l.find? v).map (·.id.toUInt32) := by
  unfold HandleTable.lookup Ledger.find?
  cases hv : v.identity? with
  | some key =>
    simp only [r.byIdentity]
    congr 2
    funext h
    rw [Value.same_eq_of_identity? hv, beq_eq_decide]
  | none =>
    simp only [r.byValue, List.find?_map, List.find?_filter, Option.map_map, Function.comp_def]
    congr 2
    funext h
    by_cases hs : h.value.same v = true
    · simp [hs, Value.identity?_eq_of_same hs, hv]
    · simp [hs]

/-- The handle of a lent value is the one the indices know, under which the entries hold it. -/
theorem lookup_of_find? (r : Represents t l) (hl : l.last < UInt32.size)
    (hf : l.find? v = some h) :
    h.id.toUInt32.toNat = h.id ∧ t.lookup v = some h.id.toUInt32 ∧
      l.holder? h.id.toUInt32.toNat = some h := by
  have ⟨hmem, _⟩ := Ledger.mem_of_find? hf
  have hid : h.id.toUInt32.toNat = h.id :=
    UInt32.toNat_ofNat_of_lt' (Nat.lt_of_le_of_lt (r.ids h hmem).2 hl)
  refine ⟨hid, by rw [r.lookup, hf, Option.map_some], ?_⟩
  rw [hid]
  exact r.holder?_eq hmem

/-- The handles of the table lend what the ledger's holdings hold. -/
theorem lends_iff (r : Represents t l) :
    t.Lends id v ↔ ∃ h, l.holder? id.toNat = some h ∧ h.value.same v = true := by
  unfold HandleTable.Lends
  rw [r.entries]
  cases l.holder? id.toNat <;> simp

/-- No two handles lend equal values. -/
theorem eq_of_lends {id' : UInt32} (r : Represents t l) (h : t.Lends id v) (h' : t.Lends id' v) :
    id = id' := by
  obtain ⟨g, hg, hs⟩ := r.lends_iff.1 h
  obtain ⟨g', hg', hs'⟩ := r.lends_iff.1 h'
  have ⟨hmem, he⟩ := Ledger.mem_of_holder? hg
  have ⟨hmem', he'⟩ := Ledger.mem_of_holder? hg'
  have := r.distinct g hmem g' hmem' (Value.same_trans hs (Value.same_symm hs'))
  rw [← UInt32.toNat_inj, ← he, ← he', this]

/-- A value that is lent is found in the ledger, under its handle. -/
theorem find?_of_lends (r : Represents t l) (h : t.Lends id v) :
    ∃ g, l.find? v = some g ∧ g.id = id.toNat := by
  obtain ⟨g, hg, hs⟩ := r.lends_iff.1 h
  have ⟨hmem, he⟩ := Ledger.mem_of_holder? hg
  cases hf : l.find? v with
  | none =>
    rw [Ledger.find?, List.find?_eq_none] at hf
    exact absurd hs (hf g hmem)
  | some g' =>
    have ⟨hmem', hs'⟩ := Ledger.mem_of_find? hf
    rw [← r.distinct g hmem g' hmem' (Value.same_trans hs (Value.same_symm hs'))]
    exact ⟨g, rfl, he⟩

/-- When a holding is struck out, nothing is left with its identity. -/
theorem find?_remove_eq_none (r : Represents t l) (hh : h ∈ l.holdings) (hid : h.id = n)
    {key : Identity} (hk : h.value.identity? = some key) :
    ((l.remove n).holdings.find? fun g => g.value.identity? == some key) = none := by
  rw [List.find?_eq_none]
  intro g hg hgk
  obtain ⟨hg, hne⟩ := List.mem_filter.1 hg
  have hs : g.value.same h.value = true := by
    rw [Value.same_eq_of_identity? hk]
    simpa using hgk
  rw [r.distinct g hg h hh hs, hid] at hne
  simp at hne

/-- More or fewer owners of a handle. -/
theorem setOwners (r : Represents t l) (hh : l.holder? id.toNat = some h) (n : Nat) :
    Represents { t with entries := t.entries.insert id ⟨h.value, n.toUInt32⟩ }
      (l.setOwners id.toNat n) where
  nextId := r.nextId
  ids := by
    simp only [Ledger.setOwners, List.mem_map]
    rintro _ ⟨g, hg, rfl⟩
    have := r.ids g hg
    split <;> exact this
  nodup := by
    have he : ((l.setOwners id.toNat n).holdings.map (·.id)) = l.holdings.map (·.id) := by
      simp only [Ledger.setOwners, List.map_map]
      exact List.map_congr_left fun g _ => Ledger.read_setOwners (fun _ _ => rfl) g
    rw [he]
    exact r.nodup
  distinct := by
    simp only [Ledger.setOwners, List.mem_map]
    rintro _ ⟨g, hg, rfl⟩ _ ⟨g', hg', rfl⟩ hs
    have hsame : g.value.same g'.value = true := by
      revert hs
      split <;> split <;> exact fun hs => hs
    rw [r.distinct g hg g' hg' hsame]
  entries := fun id' => by
    have ⟨_, he⟩ := Ledger.mem_of_holder? hh
    have hf : (l.setOwners id.toNat n).holder? id'.toNat =
        (l.holder? id'.toNat).map fun h => if h.id = id.toNat then { h with owners := n } else h :=
      Ledger.find?_setOwners (fun h => h.id == id'.toNat) fun _ _ => rfl
    rw [hf, Option.map_map, Std.HashMap.getElem?_insert]
    by_cases hid : id = id'
    · subst hid
      simp [hh, he]
    · have hne : id.toNat ≠ id'.toNat := fun hn => hid (UInt32.toNat_inj.1 hn)
      rw [if_neg (by simpa using hid), r.entries]
      cases hg : l.holder? id'.toNat with
      | none => rfl
      | some g => simp [(Ledger.mem_of_holder? hg).2, hne.symm]
  byIdentity := fun key => by
    rw [Ledger.find?_setOwners (fun h => h.value.identity? == some key) fun _ _ => rfl,
      Option.map_map, r.byIdentity]
    congr 1
    funext g
    exact (Ledger.read_setOwners (f := fun h => h.id.toUInt32) (fun _ _ => rfl) g).symm
  byValue := by
    simp only [Ledger.setOwners, List.filter_map, List.map_map, r.byValue]
    have hp : ((fun h : Holding => h.value.identity?.isNone) ∘ fun h : Holding =>
        if h.id = id.toNat then { h with owners := n } else h) =
        fun h => h.value.identity?.isNone := by
      funext g
      exact Ledger.read_setOwners (f := fun h => h.value.identity?.isNone) (fun _ _ => rfl) g
    rw [hp]
    exact List.map_congr_left fun g _ =>
      (Ledger.read_setOwners (f := fun h => (h.value, h.id.toUInt32)) (fun _ _ => rfl) g).symm

/-- The end of a handle. -/
theorem erase (r : Represents t l) (hl : l.last < UInt32.size) (hh : l.holder? id.toNat = some h) :
    Represents (t.erase id h.value) (l.remove id.toNat) := by
  have ⟨hmem, hid⟩ := Ledger.mem_of_holder? hh
  -- A holding is the one struck out, or keeps its handle apart from it.
  have hkeep : ∀ g ∈ l.holdings, g.id = id.toNat → g = h := fun g hg he =>
    r.eq_of_id_eq hg hmem (he.trans hid.symm)
  exact
  { nextId := r.nextId
    ids := fun g hg => r.ids g (List.mem_of_mem_filter hg)
    nodup := r.nodup.sublist (List.filter_sublist.map _)
    distinct := fun g hg g' hg' =>
      r.distinct g (List.mem_of_mem_filter hg) g' (List.mem_of_mem_filter hg')
    entries := fun id' => by
      rw [Ledger.holder?_remove]
      simp only [HandleTable.erase, Std.HashMap.getElem?_erase, beq_iff_eq, r.entries]
      by_cases he : id = id'
      · simp [he]
      · simp [he, mt UInt32.toNat_inj.1 he]
    byIdentity := fun key => by
      cases hk : h.value.identity? with
      | none =>
        simp only [HandleTable.erase, hk, r.byIdentity]
        rw [Ledger.find?_remove fun g hg he => by simp [hkeep g hg he, hk]]
      | some key' =>
        simp only [HandleTable.erase, hk, Std.HashMap.getElem?_erase, beq_iff_eq, r.byIdentity]
        by_cases he : key' = key
        · subst he
          rw [if_pos rfl, r.find?_remove_eq_none hmem hid hk, Option.map_none]
        · rw [if_neg he, Ledger.find?_remove fun g hg hgi => by simp [hkeep g hg hgi, hk, he]]
    byValue := by
      cases hk : h.value.identity? with
      | some key =>
        simp only [HandleTable.erase, hk, r.byValue]
        rw [Ledger.filter_remove fun g hg hgi => by simp [hkeep g hg hgi, hk]]
      | none =>
        simp only [HandleTable.erase, hk, Ledger.remove, List.filter_filter, r.byValue,
          List.filter_map]
        congr 1
        refine List.filter_congr fun g hg => ?_
        have hg' : g.id < UInt32.size := Nat.lt_of_le_of_lt (r.ids g hg).2 hl
        have he : (g.id.toUInt32 = id) ↔ g.id = id.toNat := by
          rw [← UInt32.toNat_inj, UInt32.toNat_ofNat_of_lt' hg']
        rw [Function.comp_apply, Bool.and_comm]
        congr 1
        rw [Bool.eq_iff_iff, bne_iff_ne, bne_iff_ne, Ne, Ne, he] }

/-- The next handle is a word of its own. -/
theorem toNat_create (r : Represents t l) (hl : l.last + 1 < UInt32.size) :
    (t.create v).1.toNat = l.last + 1 := by
  simp only [HandleTable.create, r.nextId]
  exact UInt32.toNat_ofNat_of_lt' hl

/-- No holding has the next handle. -/
theorem holder?_next (r : Represents t l) : l.holder? (l.last + 1) = none := by
  rw [Ledger.holder?, List.find?_eq_none]
  intro g hg
  have := (r.ids g hg).2
  simp only [beq_iff_eq]
  omega

/-- A value that is new to the ledger is lent under the next handle. -/
theorem create (r : Represents t l) (hl : l.last + 1 < UInt32.size) (hv : l.find? v = none) :
    Represents (t.create v).2 (l.append v) := by
  have hid : (t.create v).1.toNat = l.last + 1 := r.toNat_create hl
  have hnew : ∀ g ∈ l.holdings, g.value.same v = false := fun g hg => by
    simpa using (List.find?_eq_none.1 hv) g hg
  exact
  { nextId := by simp [HandleTable.create, Ledger.append, r.nextId]
    ids := fun g hg => by
      rcases Ledger.mem_append.1 hg with hg | rfl
      · exact ⟨(r.ids g hg).1, Nat.le_succ_of_le (r.ids g hg).2⟩
      · exact ⟨Nat.succ_pos _, Nat.le_refl _⟩
    nodup := by
      simp only [Ledger.append, List.map_append, List.map_cons, List.map_nil, List.nodup_append]
      refine ⟨r.nodup, by simp, fun a ha b hb hab => ?_⟩
      obtain ⟨g, hg, rfl⟩ := List.mem_map.1 ha
      rw [List.mem_singleton] at hb
      have := (r.ids g hg).2
      omega
    distinct := fun g hg g' hg' hs => by
      rcases Ledger.mem_append.1 hg with hg | rfl <;>
        rcases Ledger.mem_append.1 hg' with hg' | rfl
      · exact r.distinct g hg g' hg' hs
      · rw [hnew g hg] at hs
        cases hs
      · have hs' := Value.same_symm hs
        rw [hnew g' hg'] at hs'
        cases hs'
      · rfl
    entries := fun id' => by
      have hc : (t.create v).2.entries = t.entries.insert (t.create v).1 ⟨v, 1⟩ := rfl
      rw [Ledger.holder?_append, hc, Std.HashMap.getElem?_insert, r.entries]
      by_cases he : (t.create v).1 = id'
      · subst he
        rw [hid, r.holder?_next]
        simp
      · have hne : l.last + 1 ≠ id'.toNat := fun hn => he (UInt32.toNat_inj.1 (hid.trans hn))
        simp [he, hne]
    byIdentity := fun key => by
      have hb : (t.create v).2.byIdentity = v.identity?.elim t.byIdentity fun k =>
          t.byIdentity.insert k t.nextId.toUInt32 := by
        rw [HandleTable.create]
        cases v.identity? <;> rfl
      simp only [Ledger.append, List.find?_append, List.find?_singleton, hb, r.nextId]
      cases hk : v.identity? with
      | none => simp [r.byIdentity]
      | some k =>
        simp only [Option.elim_some, Std.HashMap.getElem?_insert, r.byIdentity, beq_iff_eq,
          Option.some.injEq]
        by_cases he : k = key
        · subst he
          have hfresh : (l.holdings.find? fun g => g.value.identity? == some k) = none := by
            rw [List.find?_eq_none]
            intro g hg
            have := hnew g hg
            rw [Value.same_eq_of_identity? hk] at this
            simpa using this
          simp [hfresh]
        · simp [he]
    byValue := by
      simp only [Ledger.append, List.filter_append, List.map_append, HandleTable.create, r.byValue]
      cases hk : v.identity? with
      | some key => simp [hk]
      | none => simp [hk, r.nextId] }

end Represents

end Crossing
