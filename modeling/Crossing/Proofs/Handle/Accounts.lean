import Crossing.Proofs.Handle.Refinement
import Crossing.Proofs.Handle.Lasting

/-!
# The owners of a handle are the requests that made them

A run of requests is kept as its history, each request with its answer. `Answered.gains` says which
of them brought an owner to a handle and `Answered.loses` which took one away, so that the owners of
a handle can be counted without the table. `Accounts` says that the table agrees with the history;
`HandleTable.serve_change` lists all that one request can do to a table, `Accounts.serve` is the
step and `Accounts.serveAll` the run. A handle that was used up stays so (`Accounts.spent_serve`).

`HandleTable.owners_balance` is what this comes to for a table that starts empty.
-/

namespace Crossing

namespace Word

/-- One more is one more, unless the word is the largest one. -/
theorem toNat_succ {n : UInt32} (h : n ≠ max) : (n + 1).toNat = n.toNat + 1 := by
  have hne : n.toNat ≠ 4294967295 := fun he => h (UInt32.toNat_inj.1 he)
  have hlt := n.toNat_lt
  rw [UInt32.toNat_add, UInt32.toNat_one]
  omega

/-- One less is one less, unless the word is zero. -/
theorem toNat_pred {n : UInt32} (h : 0 < n.toNat) : (n - 1).toNat = n.toNat - 1 :=
  UInt32.toNat_sub_of_le _ _ (UInt32.le_iff_toNat_le.2 h)

end Word

/-- A request with its answer. -/
abbrev Answered := Request × Answer

/-- The fault that an answer reports. -/
def Answer.fault? : Answer → Option Fault
  | .value (.error f) => some f
  | .done (.error f) => some f
  | _ => none

/-- The handle that a request is about. A request to lend a value names none. -/
def Request.target? : Request → Option UInt32
  | .acquire _ => none
  | .get id => some id
  | .increment id => some id
  | .decrement id => some id
  | .release id => some id

namespace Answered

/-- The request brought an owner to the handle: it lent a value under it, or added an owner. -/
def gains (id : UInt32) : Answered → Bool
  | (.acquire _, .handle n) => n == id.toNat
  | (.increment id', .done (.ok ())) => id' == id
  | _ => false

/-- The request took an owner of the handle away. -/
def loses (id : UInt32) : Answered → Bool
  | (.decrement id', .done (.ok ())) => id' == id
  | (.release id', .done (.ok ())) => id' == id
  | _ => false

/-- How many owners a history brought to a handle. -/
def gained (id : UInt32) (xs : List Answered) : Nat := xs.countP (gains id)

/-- How many owners of a handle a history took away. -/
def lost (id : UInt32) (xs : List Answered) : Nat := xs.countP (loses id)

/-- A request brings the owners that it brings on top of those before. -/
theorem gained_concat (id : UInt32) (xs : List Answered) (x : Answered) :
    gained id (xs ++ [x]) = gained id xs + (x.gains id).toNat := by
  cases h : x.gains id <;> simp [gained, List.countP_append, h]

/-- A request takes the owners that it takes on top of those before. -/
theorem lost_concat (id : UInt32) (xs : List Answered) (x : Answered) :
    lost id (xs ++ [x]) = lost id xs + (x.loses id).toNat := by
  cases h : x.loses id <;> simp [lost, List.countP_append, h]

end Answered

namespace HandleTable

open Answered (gained lost)

variable {t t' : HandleTable} {id : UInt32} {e : HandleEntry} {v : Value} {q : Request}

/-- The requests of a run with the answers of the table. -/
def history (t : HandleTable) (qs : List Request) : List Answered := qs.zip (t.serveAll qs).1

/-- The number of owners of a handle, which is none where it is not live. -/
def ownersOf (t : HandleTable) (id : UInt32) : Nat :=
  match t.entries[id]? with
  | some e => e.owners.toNat
  | none => 0

/-- The request brings neither a handle nor a number of owners that is no word. -/
def Admits (t : HandleTable) : Request → Prop
  | .acquire v => (t.acquire v).2.Fits ∧
      ∀ e, t.entries[(t.acquire v).1]? = some e → e.owners ≠ Word.max
  | .increment id => ∀ e, t.entries[id]? = some e → e.owners ≠ Word.max
  | _ => True

/-- No request of a run brings a handle or a number of owners that is no word. -/
def AdmitsAll (t : HandleTable) : List Request → Prop
  | [] => True
  | q :: qs => t.Admits q ∧ (t.serve q).2.AdmitsAll qs

/-! ## Runs in pieces -/

/-- Requests are answered in two goes as they are in one. -/
theorem serveAll_append (t : HandleTable) (qs rs : List Request) :
    t.serveAll (qs ++ rs) = ((t.serveAll qs).1 ++ ((t.serveAll qs).2.serveAll rs).1,
      ((t.serveAll qs).2.serveAll rs).2) := by
  induction qs generalizing t with
  | nil => rfl
  | cons q qs ih => simp only [List.cons_append, serveAll, ih]

/-- Nothing overflows in two goes exactly when nothing does in one. -/
theorem admitsAll_append {qs rs : List Request} :
    t.AdmitsAll (qs ++ rs) ↔ t.AdmitsAll qs ∧ (t.serveAll qs).2.AdmitsAll rs := by
  induction qs generalizing t with
  | nil => exact ⟨fun h => ⟨trivial, h⟩, fun h => h.2⟩
  | cons q qs ih => simp only [List.cons_append, AdmitsAll, serveAll, ih, and_assoc]

/-! ## What one request can do -/

/-- All that an answered request can have done to a table, with what it adds to the accounts. -/
inductive Change (t : HandleTable) (x : Answered) : HandleTable → Prop
  | kept (hx : ∀ id, id ≠ 0 → x.gains id = false ∧ x.loses id = false) : Change t x t
  | raised (id : UInt32) (e : HandleEntry) (he : t.entries[id]? = some e)
      (hmax : e.owners ≠ Word.max)
      (hx : ∀ id', x.gains id' = (id == id') ∧ x.loses id' = false) :
      Change t x { t with entries := t.entries.insert id { e with owners := e.owners + 1 } }
  | opened (v : Value) (hfits : (t.create v).2.Fits)
      (hx : ∀ id', x.gains id' = ((t.create v).1 == id') ∧ x.loses id' = false) :
      Change t x (t.create v).2
  | lowered (id : UInt32) (e : HandleEntry) (he : t.entries[id]? = some e)
      (hmore : 0 < e.owners - 1)
      (hx : ∀ id', x.gains id' = false ∧ x.loses id' = (id == id')) :
      Change t x { t with entries := t.entries.insert id { e with owners := e.owners - 1 } }
  | closed (id : UInt32) (e : HandleEntry) (he : t.entries[id]? = some e)
      (hlast : ¬ 0 < e.owners - 1)
      (hx : ∀ id', x.gains id' = false ∧ x.loses id' = (id == id')) :
      Change t x (t.erase id e.value)

/-- Lending a value gives nothing, a live handle one more owner, or opens a handle. -/
theorem acquire_cases (t : HandleTable) (v : Value) :
    t.acquire v = (0, t) ∨
      (∃ id e, t.entries[id]? = some e ∧ t.acquire v =
        (id, { t with entries := t.entries.insert id { e with owners := e.owners + 1 } })) ∨
      t.acquire v = t.create v := by
  unfold acquire
  split
  · exact .inl rfl
  · split
    · next id _ =>
      split
      · next e he => exact .inr (.inl ⟨id, e, he, rfl⟩)
      · exact .inr (.inr rfl)
    · exact .inr (.inr rfl)

/-- A decrement takes one owner of several away, ends the handle with its last owner, or is refused
because the handle is not live. -/
theorem decrement_cases (t : HandleTable) (id : UInt32) :
    (∃ e, t.entries[id]? = some e ∧
      ((0 < e.owners - 1 ∧ t.decrement id = .ok
          { t with entries := t.entries.insert id { e with owners := e.owners - 1 } }) ∨
        (¬ 0 < e.owners - 1 ∧ t.decrement id = .ok (t.erase id e.value)))) ∨
      (t.entries[id]? = none ∧ t.decrement id = .error (.unknownHandle id)) := by
  unfold decrement
  cases he : t.entries[id]? with
  | none => exact .inr ⟨rfl, rfl⟩
  | some e =>
    refine .inl ⟨e, rfl, ?_⟩
    by_cases hpos : 0 < e.owners - 1
    · exact .inl ⟨hpos, if_pos hpos⟩
    · exact .inr ⟨hpos, if_neg hpos⟩

/-- A request that takes an owner away, whichever of the two it is. -/
theorem change_of_decrement
    (hgains : ∀ id' r, Answered.gains id' (q, .done r) = false)
    (hok : ∀ id', Answered.loses id' (q, .done (.ok ())) = (id == id'))
    (herror : ∀ id' f, Answered.loses id' (q, .done (.error f)) = false) :
    Change t (q, (Answer.ofChange t (t.decrement id)).1)
      (Answer.ofChange t (t.decrement id)).2 := by
  obtain ⟨e, he, ⟨hmore, hd⟩ | ⟨hlast, hd⟩⟩ | ⟨-, hd⟩ := t.decrement_cases id <;> rw [hd]
  · exact .lowered id e he hmore fun id' => ⟨hgains id' _, hok id'⟩
  · exact .closed id e he hlast fun id' => ⟨hgains id' _, hok id'⟩
  · exact .kept fun id' _ => ⟨hgains id' _, herror id' _⟩

/-- The inversion of one request: each is one of the changes. -/
theorem serve_change (hq : t.Admits q) : Change t (q, (t.serve q).1) (t.serve q).2 := by
  cases q with
  | acquire v =>
    obtain ⟨hfits, hmax⟩ := hq
    have hgains (id' : UInt32) :
        Answered.gains id' (.acquire v, .handle (t.acquire v).1.toNat) =
          ((t.acquire v).1 == id') := by
      rw [Bool.eq_iff_iff]
      simp [Answered.gains, UInt32.toNat_inj]
    show Change t (.acquire v, .handle (t.acquire v).1.toNat) (t.acquire v).2
    obtain ha | ⟨id, e, he, ha⟩ | ha := t.acquire_cases v
    · rw [ha] at hgains ⊢
      exact .kept fun id' hid' => ⟨(hgains id').trans (beq_false_of_ne hid'.symm), rfl⟩
    · rw [ha] at hgains hmax ⊢
      exact .raised id e he (hmax e he) fun id' => ⟨hgains id', rfl⟩
    · rw [ha] at hgains hfits ⊢
      exact .opened v hfits fun id' => ⟨hgains id', rfl⟩
  | get id => exact .kept fun _ _ => ⟨rfl, rfl⟩
  | increment id =>
    show Change t (.increment id, (Answer.ofChange t (t.increment id)).1)
      (Answer.ofChange t (t.increment id)).2
    unfold increment
    cases he : t.entries[id]? with
    | none => exact .kept fun _ _ => ⟨rfl, rfl⟩
    | some e => exact .raised id e he (hq e he) fun _ => ⟨rfl, rfl⟩
  | decrement id => exact change_of_decrement (fun _ _ => rfl) (fun _ => rfl) fun _ _ => rfl
  | release id => exact change_of_decrement (fun _ _ => rfl) (fun _ => rfl) fun _ _ => rfl

/-- A request about a number that is no live handle is refused. -/
theorem fault?_of_target (hq : q.target? = some id) (hid : id ≠ 0) (he : t.entries[id]? = none) :
    (t.serve q).1.fault? = some (.unknownHandle id) := by
  have hdec : t.decrement id = .error (.unknownHandle id) := by simp only [decrement, he]
  cases q with
  | acquire v => cases hq
  | get id' =>
    cases hq
    simp only [serve, get, nullHandle, if_neg hid, he, Answer.fault?]
  | increment id' =>
    cases hq
    simp only [serve, increment, he, Answer.ofChange, Answer.fault?]
  | decrement id' =>
    cases hq
    simp only [serve, hdec, Answer.ofChange, Answer.fault?]
  | release id' =>
    cases hq
    simp only [serve, release, hdec, Answer.ofChange, Answer.fault?]

/-- A request that is refused changes nothing. -/
theorem serve_of_fault {f : Fault} (hf : (t.serve q).1.fault? = some f) : (t.serve q).2 = t := by
  have hchange (e : Except Fault HandleTable) (he : (Answer.ofChange t e).1.fault? = some f) :
      (Answer.ofChange t e).2 = t := by
    cases e with
    | ok => cases he
    | error => rfl
  cases q with
  | acquire v => cases hf
  | get id => rfl
  | increment id => exact hchange _ hf
  | decrement id => exact hchange _ hf
  | release id => exact hchange _ hf

/-! ## The owners after each change -/

/-- A handle has the owners that were entered for it last. -/
theorem ownersOf_insert (t : HandleTable) (id id' : UInt32) (e : HandleEntry) :
    ownersOf { t with entries := t.entries.insert id e } id' =
      if id = id' then e.owners.toNat else t.ownersOf id' := by
  by_cases h : id = id' <;> simp [ownersOf, Std.HashMap.getElem?_insert, h]

/-- A handle that is erased has no owner. -/
theorem ownersOf_erase (t : HandleTable) (id id' : UInt32) (v : Value) :
    (t.erase id v).ownersOf id' = if id = id' then 0 else t.ownersOf id' := by
  by_cases h : id = id' <;> simp [ownersOf, erase, Std.HashMap.getElem?_erase, h]

theorem entries_create (t : HandleTable) (v : Value) :
    (t.create v).2.entries = t.entries.insert (t.create v).1 ⟨v, 1⟩ := rfl

/-- The owners of a live handle are those of its entry. -/
theorem ownersOf_of_entry (he : t.entries[id]? = some e) : t.ownersOf id = e.owners.toNat := by
  simp only [ownersOf, he]

/-- A handle that is not live has none. -/
theorem ownersOf_of_none (he : t.entries[id]? = none) : t.ownersOf id = 0 := by
  simp only [ownersOf, he]

end HandleTable

/-! ## The accounts -/

open Answered (gained lost)

/-- The table `t` has, for each handle, the owners that the history `xs` brought to it and did not
take away. -/
structure Accounts (xs : List Answered) (t : HandleTable) : Prop where
  /-- The next handle is none that was given out. -/
  nextId : 0 < t.nextId
  fits : t.Fits
  /-- A live handle was given out, and someone owns it. -/
  live : ∀ {id : UInt32} {e}, t.entries[id]? = some e →
    id ≠ 0 ∧ id.toNat < t.nextId ∧ 0 < e.owners.toNat
  balance : ∀ {id : UInt32}, id ≠ 0 → t.ownersOf id + lost id xs = gained id xs
  /-- A handle that was not given out has gained nothing. -/
  unborn : ∀ {id : UInt32}, t.nextId ≤ id.toNat → gained id xs = 0

namespace Accounts

variable {xs : List Answered} {x : Answered} {t t' : HandleTable} {id : UInt32} {q : Request}

/-- The accounts of an empty table are empty. -/
theorem empty : Accounts [] .empty where
  nextId := Nat.zero_lt_one
  fits := Nat.le_of_lt (by decide : 1 < UInt32.size)
  live := by
    intro id e he
    simp [HandleTable.empty] at he
  balance := by
    intro id _
    simp [HandleTable.ownersOf, HandleTable.empty, lost, gained]
  unborn := fun _ => rfl

/-- A handle is live while more owners came to it than went. -/
theorem contains_iff (a : Accounts xs t) (hid : id ≠ 0) :
    t.contains id = true ↔ lost id xs ≠ gained id xs := by
  have hb := a.balance hid
  rw [HandleTable.contains, Std.HashMap.contains_eq_isSome_getElem?]
  cases he : t.entries[id]? with
  | none =>
    rw [HandleTable.ownersOf_of_none he] at hb
    simp only [Option.isSome_none, Bool.false_eq_true, false_iff]
    omega
  | some e =>
    have := (a.live he).2.2
    rw [HandleTable.ownersOf_of_entry he] at hb
    simp only [Option.isSome_some, true_iff]
    omega

/-- The handle that a table would open is a word, and not live. -/
theorem create_fresh (a : Accounts xs t) {v : Value} (hf : (t.create v).2.Fits) :
    (t.create v).1.toNat = t.nextId ∧ t.entries[(t.create v).1]? = none := by
  have hf' : t.nextId + 1 ≤ UInt32.size := hf
  have hid : (t.create v).1.toNat = t.nextId := UInt32.toNat_ofNat_of_lt' hf'
  refine ⟨hid, ?_⟩
  cases he : t.entries[(t.create v).1]? with
  | none => rfl
  | some e =>
    have := (a.live he).2.1
    omega

/-- A handle that a request opens, or gives another number of owners. -/
theorem insert (a : Accounts xs t) {e : HandleEntry} (hentries : t'.entries = t.entries.insert id e)
    (hnext : t.nextId ≤ t'.nextId) (hfits : t'.Fits) (hid : id ≠ 0) (hlt : id.toNat < t'.nextId)
    (hpos : 0 < e.owners.toNat)
    (hown : e.owners.toNat + (x.loses id).toNat = t.ownersOf id + (x.gains id).toNat)
    (hrest : ∀ id', id ≠ id' → x.gains id' = false ∧ x.loses id' = false) :
    Accounts (xs ++ [x]) t' where
  nextId := Nat.lt_of_lt_of_le a.nextId hnext
  fits := hfits
  live := by
    intro id' e' he'
    rw [hentries, Std.HashMap.getElem?_insert] at he'
    split at he'
    · next h =>
      cases he'
      rw [← eq_of_beq h]
      exact ⟨hid, hlt, hpos⟩
    · obtain ⟨h0, hlt', hpos'⟩ := a.live he'
      exact ⟨h0, Nat.lt_of_lt_of_le hlt' hnext, hpos'⟩
  balance := by
    intro id' hid'
    have hb := a.balance hid'
    have howners : t'.ownersOf id' = if id = id' then e.owners.toNat else t.ownersOf id' := by
      rw [← HandleTable.ownersOf_insert, HandleTable.ownersOf, hentries]
      rfl
    rw [howners, Answered.gained_concat, Answered.lost_concat]
    by_cases h : id = id'
    · subst h
      rw [if_pos rfl]
      omega
    · obtain ⟨hg, hl⟩ := hrest id' h
      rw [if_neg h, hg, hl]
      exact hb
  unborn := by
    intro id' hid'
    have hne : id ≠ id' := by
      rintro rfl
      exact absurd hlt (Nat.not_lt.2 hid')
    rw [Answered.gained_concat, (hrest id' hne).1]
    exact a.unborn (Nat.le_trans hnext hid')

/-- A handle that ends with its last owner. -/
theorem erase (a : Accounts xs t) {e : HandleEntry} (he : t.entries[id]? = some e)
    (hone : e.owners.toNat = 1)
    (hx : ∀ id', x.gains id' = false ∧ x.loses id' = (id == id')) :
    Accounts (xs ++ [x]) (t.erase id e.value) where
  nextId := a.nextId
  fits := a.fits
  live := by
    intro id' e' he'
    simp only [HandleTable.erase, Std.HashMap.getElem?_erase] at he'
    split at he'
    · cases he'
    · exact a.live he'
  balance := by
    intro id' hid'
    have hb := a.balance hid'
    rw [HandleTable.ownersOf_erase, Answered.gained_concat, Answered.lost_concat, (hx id').1,
      (hx id').2]
    by_cases h : id = id'
    · subst h
      rw [HandleTable.ownersOf_of_entry he] at hb
      rw [if_pos rfl, beq_self_eq_true, Bool.toNat_true, Bool.toNat_false]
      omega
    · rw [if_neg h, beq_false_of_ne h]
      exact hb
  unborn := by
    intro id' hid'
    rw [Answered.gained_concat, (hx id').1]
    exact a.unborn hid'

/-- One change: the owners of the table are still those that the history makes. -/
theorem change (a : Accounts xs t) (h : HandleTable.Change t x t') : Accounts (xs ++ [x]) t' := by
  cases h with
  | kept hx =>
    refine { a with balance := fun {id} hid => ?_, unborn := fun {id} hid => ?_ }
    · obtain ⟨hg, hl⟩ := hx id hid
      rw [Answered.gained_concat, Answered.lost_concat, hg, hl]
      exact a.balance hid
    · -- Only the handle zero can have been answered, and it is not beyond the given ones.
      have hid0 : id ≠ 0 := by
        rintro rfl
        exact absurd a.nextId (Nat.not_lt.2 hid)
      rw [Answered.gained_concat, (hx id hid0).1]
      exact a.unborn hid
  | raised id e he hmax hx =>
    obtain ⟨hid, hlt, hpos⟩ := a.live he
    have hsucc := Word.toNat_succ hmax
    refine a.insert rfl (Nat.le_refl _) a.fits hid hlt ?_ ?_ fun id' h => ?_
    · exact hsucc ▸ Nat.succ_pos _
    · rw [HandleTable.ownersOf_of_entry he, (hx id).1, (hx id).2, beq_self_eq_true]
      exact hsucc
    · exact ⟨by rw [(hx id').1, beq_false_of_ne h], (hx id').2⟩
  | opened v hf hx =>
    obtain ⟨hnext, hnone⟩ := a.create_fresh hf
    have hid : (t.create v).1 ≠ 0 := by
      intro h
      have hpos := a.nextId
      rw [← hnext, h] at hpos
      exact Nat.lt_irrefl 0 hpos
    refine a.insert (HandleTable.entries_create t v) (Nat.le_succ _) hf hid ?_ Nat.one_pos ?_
      fun id' h => ?_
    · exact Nat.lt_succ_of_le (Nat.le_of_eq hnext)
    · rw [HandleTable.ownersOf_of_none hnone, (hx _).1, (hx _).2, beq_self_eq_true]
      rfl
    · exact ⟨by rw [(hx id').1, beq_false_of_ne h], (hx id').2⟩
  | lowered id e he hmore hx =>
    obtain ⟨hid, hlt, hpos⟩ := a.live he
    have hpred := Word.toNat_pred hpos
    have hmore' : 0 < (e.owners - 1).toNat := UInt32.lt_iff_toNat_lt.1 hmore
    refine a.insert rfl (Nat.le_refl _) a.fits hid hlt hmore' ?_ fun id' h => ?_
    · rw [HandleTable.ownersOf_of_entry he, (hx id).1, (hx id).2, beq_self_eq_true]
      simp only [Bool.toNat_true, Bool.toNat_false]
      omega
    · exact ⟨(hx id').1, by rw [(hx id').2, beq_false_of_ne h]⟩
  | closed id e he hlast hx =>
    obtain ⟨-, -, hpos⟩ := a.live he
    have hpred := Word.toNat_pred hpos
    have hlast' : ¬ 0 < (e.owners - 1).toNat := fun h => hlast (UInt32.lt_iff_toNat_lt.2 h)
    exact a.erase he (by omega) hx

/-- One request. -/
theorem serve (a : Accounts xs t) (hq : t.Admits q) :
    Accounts (xs ++ [(q, (t.serve q).1)]) (t.serve q).2 :=
  a.change (HandleTable.serve_change hq)

/-- A run of requests. -/
theorem serveAll (a : Accounts xs t) {qs : List Request} (hqs : t.AdmitsAll qs) :
    Accounts (xs ++ t.history qs) (t.serveAll qs).2 := by
  induction qs generalizing xs t with
  | nil => simpa [HandleTable.history, HandleTable.serveAll] using a
  | cons q qs ih =>
    have h := ih (a.serve hqs.1) hqs.2
    rw [List.append_assoc] at h
    exact h

/-! ## Handles that were used up -/

/-- The handle was given out and has no owner left. -/
def Spent (t : HandleTable) (id : UInt32) : Prop :=
  id ≠ 0 ∧ id.toNat < t.nextId ∧ t.entries[id]? = none

/-- A handle that was used up stays so: no request opens it again. -/
theorem spent_serve (a : Accounts xs t) (hq : t.Admits q) (h : Spent t id) :
    Spent (t.serve q).2 id := by
  obtain ⟨hid, hlt, hnone⟩ := h
  have hother {id' : UInt32} {e : HandleEntry} (he : t.entries[id']? = some e) : ¬ id' = id := by
    rintro rfl
    rw [hnone] at he
    cases he
  have hc := HandleTable.serve_change hq
  revert hc
  generalize (t.serve q).2 = t'
  intro hc
  cases hc with
  | kept => exact ⟨hid, hlt, hnone⟩
  | raised id' e he =>
    refine ⟨hid, hlt, ?_⟩
    rw [Std.HashMap.getElem?_insert, if_neg (by simpa using hother he), hnone]
  | opened v hf =>
    obtain ⟨hnext, -⟩ := a.create_fresh hf
    refine ⟨hid, Nat.lt_succ_of_lt hlt, ?_⟩
    have hne : ¬ (t.create v).1 = id := by
      rintro rfl
      omega
    rw [HandleTable.entries_create, Std.HashMap.getElem?_insert, if_neg (by simpa using hne), hnone]
  | lowered id' e he =>
    refine ⟨hid, hlt, ?_⟩
    rw [Std.HashMap.getElem?_insert, if_neg (by simpa using hother he), hnone]
  | closed id' e he =>
    refine ⟨hid, hlt, ?_⟩
    simp only [HandleTable.erase, Std.HashMap.getElem?_erase, beq_iff_eq, hother he, if_false,
      hnone]

/-- A handle without owners never gets any again. -/
theorem spent_serveAll (a : Accounts xs t) {qs : List Request} (hqs : t.AdmitsAll qs)
    (h : Spent t id) : Spent (t.serveAll qs).2 id := by
  induction qs generalizing xs t with
  | nil => exact h
  | cons q qs ih => exact ih (a.serve hqs.1) hqs.2 (a.spent_serve hqs.1 h)

/-- A handle that gained owners and lost them all is used up. -/
theorem spent_of_lost (a : Accounts xs t) (hid : id ≠ 0) (hgained : gained id xs ≠ 0)
    (hlost : lost id xs = gained id xs) : Spent t id := by
  refine ⟨hid, Nat.lt_of_not_le fun hle => hgained (a.unborn hle), ?_⟩
  have hdead : ¬ t.contains id = true := fun hc => (a.contains_iff hid).1 hc hlost
  simpa [HandleTable.contains] using hdead

/-- Lending never answers a handle that was used up. -/
theorem acquire_ne_of_spent (a : Accounts xs t) {v : Value} (hq : t.Admits (.acquire v))
    (h : Spent t id) : (t.acquire v).1 ≠ id := by
  obtain ⟨hid, hlt, hnone⟩ := h
  obtain ha | ⟨id', e, he, ha⟩ | ha := t.acquire_cases v
  · rw [ha]
    exact hid.symm
  · rw [ha]
    rintro rfl
    rw [hnone] at he
    cases he
  · have hf : (t.create v).2.Fits := ha ▸ hq.1
    obtain ⟨hnext, -⟩ := a.create_fresh hf
    rw [ha]
    rintro rfl
    omega

end Accounts

/-! ## Runs that are short enough -/

/-- A table that follows a ledger through a few requests is far from running out of words. -/
theorem Follows.admits {n : Nat} {t : HandleTable} {l : Ledger} (f : Follows n t l)
    (hn : n + 1 < UInt32.size) (q : Request) : t.Admits q := by
  have howners {id : UInt32} {e : HandleEntry} (he : t.entries[id]? = some e) :
      e.owners ≠ Word.max := by
    rw [f.represents.entries, Option.map_eq_some_iff] at he
    obtain ⟨h, hh, rfl⟩ := he
    have hle := (f.owners h (Ledger.mem_of_holder? hh).1).2
    intro hmax
    have hnat : h.owners.toUInt32.toNat = Word.max.toNat := congrArg UInt32.toNat hmax
    rw [UInt32.toNat_ofNat_of_lt' (Nat.lt_of_le_of_lt hle (Nat.lt_of_succ_lt hn))] at hnat
    have : h.owners = 4294967295 := hnat
    have : UInt32.size = 4294967296 := rfl
    omega
  cases q with
  | acquire v =>
    refine ⟨?_, fun e he => howners he⟩
    have hnext := t.nextId_acquire_le v
    have hlast := f.last
    have hfirst := f.represents.nextId
    show (t.acquire v).2.nextId ≤ UInt32.size
    omega
  | get id => trivial
  | increment id => exact fun e he => howners he
  | decrement id => trivial
  | release id => trivial

/-- No number of a run with fewer than `2 ^ 32 - 1` requests overflows. -/
theorem Follows.admitsAll {n : Nat} {t : HandleTable} {l : Ledger} (f : Follows n t l)
    (qs : List Request) (hn : n + qs.length + 1 < UInt32.size) : t.AdmitsAll qs := by
  induction qs generalizing n t l with
  | nil => trivial
  | cons q qs ih =>
    rw [List.length_cons] at hn
    exact ⟨f.admits (by omega) q, ih (f.serve (by omega) q).2 (by omega)⟩

namespace HandleTable

/-- The accounts of a table that starts empty, after any run in which no number overflows. A live
handle has the owners that came to it and did not go, at least one; a handle is live exactly while
more came than went; once as many went as came, every request about it is refused for the rest of
any longer run and lending never answers it again. Zero is never live and reads as null, and a
request that is refused leaves the table as it was. -/
theorem owners_balance (qs : List Request) (h : AdmitsAll .empty qs) :
    (∀ id n, (serveAll .empty qs).2.owners? id = some n →
      id ≠ 0 ∧ 1 ≤ n.toNat ∧
        n.toNat + lost id (history .empty qs) = gained id (history .empty qs)) ∧
    (∀ id, id ≠ 0 → lost id (history .empty qs) ≤ gained id (history .empty qs) ∧
      ((serveAll .empty qs).2.contains id = true ↔
        lost id (history .empty qs) ≠ gained id (history .empty qs))) ∧
    (∀ ps rs id, qs = ps ++ rs → id ≠ 0 → gained id (history .empty ps) ≠ 0 →
      lost id (history .empty ps) = gained id (history .empty ps) →
        (∀ q : Request, q.target? = some id →
          ((serveAll .empty qs).2.serve q).1.fault? = some (.unknownHandle id)) ∧
        ∀ v, Admits (serveAll .empty qs).2 (.acquire v) →
          ((serveAll .empty qs).2.acquire v).1 ≠ id) ∧
    ((serveAll .empty qs).2.contains 0 = false ∧ (serveAll .empty qs).2.get 0 = .ok .null) ∧
    ∀ q f, ((serveAll .empty qs).2.serve q).1.fault? = some f →
      ((serveAll .empty qs).2.serve q).2 = (serveAll .empty qs).2 := by
  have a : Accounts (history .empty qs) (serveAll .empty qs).2 := Accounts.empty.serveAll h
  refine ⟨fun id n hn => ?_, fun id hid => ⟨?_, a.contains_iff hid⟩, ?_, ⟨?_, rfl⟩,
    fun q f hf => serve_of_fault hf⟩
  · rw [owners?, Option.map_eq_some_iff] at hn
    obtain ⟨e, he, rfl⟩ := hn
    obtain ⟨hid, -, hpos⟩ := a.live he
    exact ⟨hid, hpos, ownersOf_of_entry he ▸ a.balance hid⟩
  · have := a.balance hid
    omega
  · rintro ps rs id rfl hid hgained hlost
    obtain ⟨hps, hrs⟩ := admitsAll_append.1 h
    have b : Accounts (history .empty ps) (serveAll .empty ps).2 := Accounts.empty.serveAll hps
    have hspent := b.spent_serveAll hrs (b.spent_of_lost hid hgained hlost)
    rw [serveAll_append] at a ⊢
    exact ⟨fun q hq => fault?_of_target hq hid hspent.2.2,
      fun v hv => a.acquire_ne_of_spent hv hspent⟩
  · cases he : (serveAll .empty qs).2.entries[(0 : UInt32)]? with
    | none => simpa [contains] using he
    | some e => exact absurd rfl (a.live he).1

/-- A text is lent twice, given back twice and lent again. Its first handle gained and lost two
owners, so it stays refused; the second one is live with one owner. -/
theorem owners_balance_relent :
    AdmitsAll .empty ([.acquire (.string "a"), .acquire (.string "a"), .decrement 1, .release 1] ++
      [.increment 1, .acquire (.string "a")]) ∧
    (∀ q : Request, q.target? = some 1 →
      ((serveAll .empty ([.acquire (.string "a"), .acquire (.string "a"), .decrement 1,
        .release 1] ++ [.increment 1, .acquire (.string "a")])).2.serve q).1.fault? =
        some (.unknownHandle 1)) ∧
    (serveAll .empty ([.acquire (.string "a"), .acquire (.string "a"), .decrement 1, .release 1] ++
      [.increment 1, .acquire (.string "a")])).2.contains 2 = true := by
  have hfits := Follows.empty.admitsAll ([.acquire (.string "a"), .acquire (.string "a"),
    .decrement 1, .release 1] ++ [.increment 1, .acquire (.string "a")]) (by decide)
  obtain ⟨-, hlive, hspent, -⟩ := owners_balance _ hfits
  -- The answers are the ledger's, which can be computed.
  have hanswers (qs : List Request) (hn : 0 + qs.length + 1 < UInt32.size) :
      history .empty qs = qs.zip (Ledger.empty.serveAll qs).1 :=
    congrArg qs.zip (Follows.empty.serveAll qs hn).1
  refine ⟨hfits, (hspent _ _ 1 rfl (by decide) ?_ ?_).1, (hlive 2 (by decide)).2.2 ?_⟩
  · rw [hanswers _ (by decide)]
    decide
  · rw [hanswers _ (by decide)]
    rfl
  · rw [hanswers _ (by decide)]
    decide

end HandleTable

end Crossing
