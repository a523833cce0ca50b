import Crossing.Proofs.Handle.Ledger

/-!
# The handle table refines the ledger

`HandleTable.serve` and `Ledger.serve` answer one request; `HandleTable.serveAll` and
`Ledger.serveAll` answer a sequence. `Follows.serve` is the step of the simulation: a table that
follows a ledger gives the ledger's answer and follows what becomes of it. `Follows.serveAll` is the
run, and `HandleTable.refines_ledger` says what it comes to for a table that starts empty.
-/

namespace Crossing

/-- What is asked of a handle table. -/
inductive Request where
  | acquire (v : Value)
  | get (id : UInt32)
  | increment (id : UInt32)
  | decrement (id : UInt32)
  | release (id : UInt32)

/-- What is answered: a handle, a value, or that it is done. -/
inductive Answer where
  | handle (id : Nat)
  | value (result : Except Fault Value)
  | done (result : Except Fault Unit)

/-- The answer of a change and what the change leaves: a refused one leaves what was there. -/
def Answer.ofChange {α : Type} (before : α) : Except Fault α → Answer × α
  | .ok after => (.done (.ok ()), after)
  | .error f => (.done (.error f), before)

/-- Answers one request. -/
def HandleTable.serve (t : HandleTable) : Request → Answer × HandleTable
  | .acquire v => (.handle (t.acquire v).1.toNat, (t.acquire v).2)
  | .get id => (.value (t.get id), t)
  | .increment id => Answer.ofChange t (t.increment id)
  | .decrement id => Answer.ofChange t (t.decrement id)
  | .release id => Answer.ofChange t (t.release id)

/-- Answers requests one after the other. -/
def HandleTable.serveAll (t : HandleTable) : List Request → List Answer × HandleTable
  | [] => ([], t)
  | q :: qs => ((t.serve q).1 :: ((t.serve q).2.serveAll qs).1, ((t.serve q).2.serveAll qs).2)

/-- Answers one request. -/
def Ledger.serve (l : Ledger) : Request → Answer × Ledger
  | .acquire v => (.handle (l.acquire v).1, (l.acquire v).2)
  | .get id => (.value (l.get id), l)
  | .increment id => Answer.ofChange l (l.increment id)
  | .decrement id => Answer.ofChange l (l.decrement id)
  | .release id => Answer.ofChange l (l.decrement id)

/-- Answers requests one after the other. -/
def Ledger.serveAll (l : Ledger) : List Request → List Answer × Ledger
  | [] => ([], l)
  | q :: qs => ((l.serve q).1 :: ((l.serve q).2.serveAll qs).1, ((l.serve q).2.serveAll qs).2)

/-- The table `t` holds what `l` does after `n` requests, none of which can have brought more than
one handle or one owner. -/
structure Follows (n : Nat) (t : HandleTable) (l : Ledger) : Prop where
  represents : Represents t l
  last : l.last ≤ n
  owners : ∀ h ∈ l.holdings, 1 ≤ h.owners ∧ h.owners ≤ n

namespace Follows

variable {n : Nat} {t : HandleTable} {l : Ledger} {h : Holding} {v : Value} {id : UInt32}

/-- Before any request both are empty. -/
theorem empty : Follows 0 .empty .empty where
  represents := .empty
  last := Nat.le_refl 0
  owners := by simp [Ledger.empty]

/-- A request that changes nothing counts as well. -/
theorem mono (f : Follows n t l) : Follows (n + 1) t l where
  represents := f.represents
  last := Nat.le_succ_of_le f.last
  owners := fun h hh => ⟨(f.owners h hh).1, Nat.le_succ_of_le (f.owners h hh).2⟩

/-- Another number of owners, as a request can bring it. -/
theorem setOwners (f : Follows n t l) (hh : l.holder? id.toNat = some h) {m : Nat} (h1 : 1 ≤ m)
    (hm : m ≤ n + 1) :
    Follows (n + 1) { t with entries := t.entries.insert id ⟨h.value, m.toUInt32⟩ }
      (l.setOwners id.toNat m) where
  represents := f.represents.setOwners hh m
  last := Nat.le_succ_of_le f.last
  owners := by
    simp only [Ledger.setOwners, List.mem_map]
    rintro _ ⟨g, hg, rfl⟩
    split
    · exact ⟨h1, hm⟩
    · exact f.mono.owners g hg

/-- Lending a value: the same handle is given, and the table goes on following the ledger. -/
theorem acquire (f : Follows n t l) (hn : n + 1 < UInt32.size) (v : Value) :
    (t.acquire v).1.toNat = (l.acquire v).1 ∧ Follows (n + 1) (t.acquire v).2 (l.acquire v).2 := by
  unfold HandleTable.acquire Ledger.acquire
  split
  · exact ⟨rfl, f.mono⟩
  cases hf : l.find? v with
  | none =>
    have hlookup : t.lookup v = none := by rw [f.represents.lookup, hf, Option.map_none]
    have hlast := f.last
    have hid := f.represents.toNat_create (v := v) (by omega)
    have hr := f.represents.create (by omega) hf
    simp only [hlookup]
    refine ⟨hid, hr, by simpa [Ledger.append] using hlast, ?_⟩
    intro g hg
    rcases Ledger.mem_append.1 hg with hg | rfl
    · exact f.mono.owners g hg
    · simp
  | some h =>
    obtain ⟨hid, hlookup, hh⟩ := f.represents.lookup_of_find? (by have := f.last; omega) hf
    have hown := f.owners h (Ledger.mem_of_find? hf).1
    have hs := f.setOwners hh (m := h.owners + 1) (by omega) (by omega)
    have he : t.entries[h.id.toUInt32]? = some ⟨h.value, h.owners.toUInt32⟩ := by
      rw [f.represents.entries, hh, Option.map_some]
    have hsucc : (h.owners + 1).toUInt32 = h.owners.toUInt32 + 1 := UInt32.ofNat_add h.owners 1
    rw [hid, hsucc] at hs
    simp only [hlookup, he]
    exact ⟨hid, hs⟩

/-- The value of a handle is the one the ledger has for it. -/
theorem get (f : Follows n t l) (id : UInt32) : t.get id = l.get id := by
  unfold HandleTable.get Ledger.get
  simp only [HandleTable.nullHandle, f.represents.entries]
  cases l.holder? id.toNat <;> rfl

/-- One more owner. -/
theorem increment (f : Follows n t l) (id : UInt32) :
    (Answer.ofChange t (t.increment id)).1 = (Answer.ofChange l (l.increment id)).1 ∧
      Follows (n + 1) (Answer.ofChange t (t.increment id)).2
        (Answer.ofChange l (l.increment id)).2 := by
  unfold HandleTable.increment Ledger.increment
  rw [f.represents.entries]
  cases hh : l.holder? id.toNat with
  | none => exact ⟨rfl, f.mono⟩
  | some h =>
    have hown := f.owners h (Ledger.mem_of_holder? hh).1
    have hs := f.setOwners hh (m := h.owners + 1) (by omega) (by omega)
    exact ⟨rfl, by simpa [Answer.ofChange] using hs⟩

/-- One owner less: the handle ends in the table exactly when it ends in the ledger. -/
theorem decrement (f : Follows n t l) (hn : n + 1 < UInt32.size) (id : UInt32) :
    (Answer.ofChange t (t.decrement id)).1 = (Answer.ofChange l (l.decrement id)).1 ∧
      Follows (n + 1) (Answer.ofChange t (t.decrement id)).2
        (Answer.ofChange l (l.decrement id)).2 := by
  unfold HandleTable.decrement Ledger.decrement
  rw [f.represents.entries]
  cases hh : l.holder? id.toNat with
  | none => exact ⟨rfl, f.mono⟩
  | some h =>
    have hown := f.owners h (Ledger.mem_of_holder? hh).1
    have hsub : h.owners.toUInt32 - 1 = (h.owners - 1).toUInt32 := by
      rw [← UInt32.toNat_inj, UInt32.toNat_sub_of_le]
      · rw [UInt32.toNat_ofNat_of_lt' (by omega), UInt32.toNat_ofNat_of_lt' (by omega)]
        rfl
      · rw [UInt32.le_iff_toNat_le, UInt32.toNat_ofNat_of_lt' (by omega)]
        exact hown.1
    have hpos : 0 < h.owners.toUInt32 - 1 ↔ h.owners ≠ 1 := by
      rw [hsub, UInt32.lt_iff_toNat_lt, UInt32.toNat_ofNat_of_lt' (by omega)]
      simp only [UInt32.toNat_zero]
      omega
    by_cases h1 : h.owners = 1
    · have hlast := f.last
      have hr := f.represents.erase (by omega) hh
      simp only [Option.map_some]
      rw [if_pos h1, if_neg (mt hpos.1 (not_not_intro h1))]
      refine ⟨rfl, hr, Nat.le_succ_of_le hlast, fun g hg => ?_⟩
      exact f.mono.owners g (List.mem_of_mem_filter hg)
    · have hs := f.setOwners hh (m := h.owners - 1) (by omega) (by omega)
      rw [← hsub] at hs
      simp only [Option.map_some]
      rw [if_neg h1, if_pos (hpos.2 h1)]
      exact ⟨rfl, hs⟩

/-- One request: the table gives the ledger's answer and goes on following it. -/
theorem serve (f : Follows n t l) (hn : n + 1 < UInt32.size) (q : Request) :
    (t.serve q).1 = (l.serve q).1 ∧ Follows (n + 1) (t.serve q).2 (l.serve q).2 := by
  cases q with
  | acquire v =>
    obtain ⟨hid, hf⟩ := f.acquire hn v
    exact ⟨congrArg Answer.handle hid, hf⟩
  | get id => exact ⟨congrArg Answer.value (f.get id), f.mono⟩
  | increment id => exact f.increment id
  | decrement id => exact f.decrement hn id
  | release id => exact f.decrement hn id

/-- A sequence of requests: the table gives the ledger's answers and goes on following it. -/
theorem serveAll (f : Follows n t l) (qs : List Request) (hn : n + qs.length + 1 < UInt32.size) :
    (t.serveAll qs).1 = (l.serveAll qs).1 ∧
      Follows (n + qs.length) (t.serveAll qs).2 (l.serveAll qs).2 := by
  induction qs generalizing n t l with
  | nil => exact ⟨rfl, f⟩
  | cons q qs ih =>
    rw [List.length_cons] at hn
    obtain ⟨ha, hf⟩ := f.serve (by omega) q
    obtain ⟨has, hfs⟩ := ih hf (by omega)
    refine ⟨congrArg₂ List.cons ha has, ?_⟩
    rw [List.length_cons, Nat.add_comm qs.length, ← Nat.add_assoc]
    exact hfs

end Follows

/-! ## The handles that were given out -/

/-- The last handle only grows. -/
theorem Ledger.last_le_serve (l : Ledger) (q : Request) : l.last ≤ (l.serve q).2.last := by
  have hchange : ∀ e : Except Fault Ledger, (∀ l', e = .ok l' → l'.last = l.last) →
      l.last ≤ (Answer.ofChange l e).2.last := by
    intro e he
    cases e with
    | ok l' => exact Nat.le_of_eq (he l' rfl).symm
    | error => exact Nat.le_refl _
  have hdec : ∀ id l', l.decrement id = .ok l' → l'.last = l.last := by
    intro id l' he
    unfold Ledger.decrement at he
    split at he
    · split at he <;> cases he <;> rfl
    · cases he
  cases q with
  | acquire v =>
    simp only [Ledger.serve, Ledger.acquire]
    split
    · exact Nat.le_refl _
    · split
      · exact Nat.le_refl _
      · exact Nat.le_succ _
  | get id => exact Nat.le_refl _
  | increment id =>
    refine hchange _ fun l' he => ?_
    unfold Ledger.increment at he
    split at he <;> cases he
    rfl
  | decrement id => exact hchange _ (hdec id)
  | release id => exact hchange _ (hdec id)

/-- The last handle only grows over a sequence of requests. -/
theorem Ledger.last_le_serveAll (l : Ledger) (qs : List Request) :
    l.last ≤ (l.serveAll qs).2.last := by
  induction qs generalizing l with
  | nil => exact Nat.le_refl _
  | cons q qs ih => exact Nat.le_trans (l.last_le_serve q) (ih _)

namespace Follows

variable {n m : Nat} {t : HandleTable} {l : Ledger}

/-- A handle that is answered is not beyond the last one. -/
theorem handle_le (f : Follows n t l) {q : Request} (ha : (l.serve q).1 = .handle m) :
    m ≤ (l.serve q).2.last := by
  have hchange : ∀ e : Except Fault Ledger, (Answer.ofChange l e).1 ≠ .handle m := by
    rintro (_ | _) he <;> cases he
  cases q with
  | acquire v =>
    simp only [Ledger.serve, Answer.handle.injEq] at ha ⊢
    subst ha
    unfold Ledger.acquire
    split
    · exact Nat.zero_le _
    · split
      · next h hf => exact (f.represents.ids h (Ledger.mem_of_find? hf).1).2
      · exact Nat.le_refl _
  | get id => cases ha
  | increment id => exact absurd ha (hchange _)
  | decrement id => exact absurd ha (hchange _)
  | release id => exact absurd ha (hchange _)

/-- No handle that was ever answered is beyond the last one. -/
theorem handle_le_last (f : Follows n t l) (qs : List Request)
    (hn : n + qs.length + 1 < UInt32.size) (ha : .handle m ∈ (l.serveAll qs).1) :
    m ≤ (l.serveAll qs).2.last := by
  induction qs generalizing n t l with
  | nil => cases ha
  | cons q qs ih =>
    rw [List.length_cons] at hn
    rcases List.mem_cons.1 ha with ha | ha
    · exact Nat.le_trans (f.handle_le ha.symm) ((l.serve q).2.last_le_serveAll qs)
    · exact ih (f.serve (by omega) q).2 (by omega) ha

/-- A value that is lent is lent again under the same handle. -/
theorem acquire_of_lends (f : Follows n t l) (hn : n + 1 < UInt32.size) {v : Value} {id : UInt32}
    (hv : ¬ v.isNullish) (h : t.Lends id v) : (t.acquire v).1 = id := by
  obtain ⟨g, hf, hid⟩ := f.represents.find?_of_lends h
  have he := (f.acquire hn v).1
  rw [Ledger.acquire, if_neg hv, hf] at he
  exact UInt32.toNat_inj.1 (he.trans hid)

/-- A value that is not lent is lent under the next handle. -/
theorem acquire_of_not_lends (f : Follows n t l) (hn : n + 1 < UInt32.size) {v : Value}
    (hv : ¬ v.isNullish) (h : ∀ id, ¬ t.Lends id v) : (t.acquire v).1.toNat = l.last + 1 := by
  have he := (f.acquire hn v).1
  rw [Ledger.acquire, if_neg hv] at he
  cases hf : l.find? v with
  | none => rwa [hf] at he
  | some g =>
    obtain ⟨-, -, hh⟩ := f.represents.lookup_of_find? (by have := f.last; omega) hf
    exact absurd (f.represents.lends_iff.2 ⟨g, hh, (Ledger.mem_of_find? hf).2⟩) (h _)

end Follows

/-! ## The refinement -/

namespace HandleTable

/-- A table that starts empty refines the ledger: it answers every sequence of requests, short
enough for the numbers to fit, as the ledger does. So no two live handles lend equal values, null
and undefined have the handle zero, and any other value is lent under the live handle of an equal
one if there is such a handle, and under a handle beyond every one that was answered if not. -/
theorem refines_ledger (qs : List Request) (hn : qs.length + 1 < UInt32.size) :
    (serveAll .empty qs).1 = (Ledger.empty.serveAll qs).1 ∧
      (∀ id id' v, (serveAll .empty qs).2.Lends id v → (serveAll .empty qs).2.Lends id' v →
        id = id') ∧
      ∀ v, (v.isNullish → ((serveAll .empty qs).2.acquire v).1 = 0) ∧
        (¬ v.isNullish →
          (∀ id, (serveAll .empty qs).2.Lends id v → ((serveAll .empty qs).2.acquire v).1 = id) ∧
          ((∀ id, ¬ (serveAll .empty qs).2.Lends id v) → ∀ m, .handle m ∈ (serveAll .empty qs).1 →
            m < ((serveAll .empty qs).2.acquire v).1.toNat)) := by
  obtain ⟨has, f⟩ := Follows.empty.serveAll qs (by omega)
  have hle := fun m => Follows.empty.handle_le_last (m := m) qs (by omega)
  rw [← has] at hle
  generalize (serveAll .empty qs).2 = t at *
  generalize (Ledger.empty.serveAll qs).2 = l at *
  refine ⟨has, fun id id' v h h' => ?_, fun v =>
    ⟨fun hv => ?_, fun hv => ⟨fun id h => ?_, fun h m hm => ?_⟩⟩⟩
  · exact f.represents.eq_of_lends h h'
  · simp [acquire, hv, nullHandle]
  · exact f.acquire_of_lends (by omega) hv h
  · have := hle m hm
    rw [f.acquire_of_not_lends (by omega) hv h]
    omega

/-- The answers to a run in which a lent text is lent again, a handle ends, and its text comes back
under a new one. -/
theorem refines_ledger_reacquired :
    (serveAll .empty [.acquire (.string "a"), .acquire .null, .acquire (.string "a"), .decrement 1,
      .release 1, .get 1, .acquire (.string "a")]).1 =
      [.handle 1, .handle 0, .handle 1, .done (.ok ()), .done (.ok ()),
        .value (.error (.unknownHandle 1)), .handle 2] := by
  rw [(refines_ledger _ (by decide)).1]
  rfl

end HandleTable

end Crossing
