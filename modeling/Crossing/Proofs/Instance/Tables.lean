import Crossing.Proofs.Instance.Chronicle
import Crossing.Proofs.Instance.Sound

/-!
# The tables of a run

The tables of lent and of registered values change in a few steps only; what touches memory,
closures or the transfer slot leaves them as they were. `Tabular` says that a relation looks at the
tables alone, and `Tabular.acting` that it is kept by every action when those few steps keep it.

So the tables stay sound whatever is done to an instance, and whatever guest it was made of
(`Machine.tables_runs`), and no number that they have given out is ever used for something else
(`TablesLater.acting`).
-/

namespace Crossing

open Effect

section
variable {Code : Type}

/-- The relation `R` looks at the tables only, and is kept by the steps that change them. -/
structure Tabular (R : Instance Code → Instance Code → Prop) : Prop extends Steady R where
  modify : ∀ f : Instance Code → Instance Code,
    (∀ i, (f i).handles = i.handles ∧ (f i).raw = i.raw) → Keeps R (modify f)
  acquire : ∀ v, Keeps R (acquire v)
  registerRaw : ∀ v, Keeps R (registerRaw v)
  increment : ∀ id, Keeps R (increment id)
  decrement : ∀ id, Keeps R (decrement id)
  unregisterRaw : ∀ id, Keeps R (unregisterRaw id)

namespace Tabular

variable {R : Instance Code → Instance Code → Prop}

/-- An event keeps the relation. -/
theorem record (h : Tabular R) (e : Event) : Keeps R (record e) := h.modify _ fun _ => ⟨rfl, rfl⟩

/-- A relation that looks at the tables only passes over allocations. -/
theorem allocating (h : Tabular R) : Allocating R where
  toSteady := h.toSteady
  modify f hf := h.modify f fun i => ⟨(hf i).1.handles, (hf i).1.raw⟩
  record e _ := h.record e

/-- Such a relation is kept by every action. -/
theorem acting (h : Tabular R) : Acting R :=
  Overlooking.acting
    { toWriting := h.allocating.writing
      acquire := h.acquire
      registerRaw := h.registerRaw
      started := h.modify _ fun _ => ⟨rfl, rfl⟩
      modify := fun f hf => h.modify f fun i => ⟨(hf i).handles, (hf i).raw⟩
      record := fun e _ => h.record e
      grow := h.allocating.grow
      increment := h.increment
      decrement := h.decrement
      unregisterRaw := h.unregisterRaw
      abort := h.toSteady.abort (fun _ => h.record _) (h.modify _ fun _ => ⟨rfl, rfl⟩) }

end Tabular

/-! ## Soundness -/

/-- Both tables are sound. -/
structure Instance.TablesSound (i : Instance Code) : Prop where
  handles : i.handles.Sound
  raw : i.raw.Sound

/-- The second instance has sound tables if the first one has. -/
def TablesKept (i i' : Instance Code) : Prop := i.TablesSound → i'.TablesSound

/-- Every action keeps the tables sound. -/
theorem TablesKept.acting : Acting (@TablesKept Code) := by
  have hsteady : Steady (@TablesKept Code) := ⟨fun _ h => h, fun h h' hi => h' (h hi)⟩
  exact Tabular.acting
    { hsteady with
      modify := fun f hf i hi => ⟨(hf i).1 ▸ hi.handles, (hf i).2 ▸ hi.raw⟩
      acquire := fun v => hsteady.lending fun i _ _ hi =>
        ⟨(HandleTable.acquire_lends hi.handles v).1, hi.raw⟩
      registerRaw := fun v => hsteady.registering fun i _ hi =>
        ⟨hi.handles, (RawRegistry.register_extends hi.raw v).1⟩
      increment := fun id => hsteady.gaining fun i _ h hi =>
        ⟨(HandleTable.increment_extends hi.handles h).1, hi.raw⟩
      decrement := fun id => hsteady.losing fun i _ _ h hi =>
        ⟨HandleTable.decrement_sound hi.handles h, hi.raw⟩
      unregisterRaw := fun id i hi => ⟨hi.handles, RawRegistry.unregister_sound hi.raw id⟩ }

/-- The tables of every instance that a run reaches are sound, whatever guest it began with. -/
theorem Machine.tables_runs (guest : Guest Code) (config : Config) (as : List (Action Code)) :
    ((Machine.boot guest config).runs as).inst.TablesSound :=
  TablesKept.acting.runs _ as ⟨HandleTable.sound_empty, RawRegistry.sound_empty⟩

/-! ## Numbers that are words -/

/-- A loan that does not overflow leaves a next number that is a word. -/
theorem HandleTable.fits_acquire {t : HandleTable} (hf : t.Fits) {v : Value}
    (h : t.overflows v = false) : (t.acquire v).2.Fits := by
  have hcreate (hnext : decide (UInt32.size ≤ t.nextId + 1) = false) : (t.create v).2.Fits :=
    Nat.le_of_not_le (of_decide_eq_false hnext)
  unfold overflows at h
  unfold acquire
  split
  · exact hf
  · next hv =>
    rw [if_neg hv] at h
    split
    · next id hid =>
      rw [hid] at h
      split
      · exact hf
      · next hnone =>
        have habsent : t.contains id = false := by
          rw [contains, Std.HashMap.contains_eq_isSome_getElem?, hnone]
          rfl
        dsimp only at h
        rw [habsent] at h
        exact hcreate h
    · next hnone =>
      rw [hnone] at h
      exact hcreate h

/-- The numbers of both tables are words. -/
structure Instance.Fits (i : Instance Code) : Prop where
  handles : i.handles.Fits
  raw : i.raw.Fits

/-- The second instance has numbers that are words if the first one has. -/
def FitsKept (i i' : Instance Code) : Prop := i.Fits → i'.Fits

/-- No action makes a number too large: the host panics first. -/
theorem FitsKept.acting : Acting (@FitsKept Code) := by
  have hsteady : Steady (@FitsKept Code) := ⟨fun _ h => h, fun h h' hi => h' (h hi)⟩
  exact Tabular.acting
    { hsteady with
      modify := fun f hf i hi => ⟨(hf i).1 ▸ hi.handles, (hf i).2 ▸ hi.raw⟩
      acquire := fun v => hsteady.lending fun i _ hfits hi =>
        ⟨HandleTable.fits_acquire hi.handles hfits, hi.raw⟩
      registerRaw := fun v => hsteady.registering fun i hfits hi =>
        ⟨hi.handles, Nat.lt_of_not_le (of_decide_eq_false hfits)⟩
      increment := fun id => hsteady.gaining fun i _ h hi =>
        ⟨Nat.le_trans (Nat.le_of_eq (HandleTable.nextId_increment h)) hi.handles, hi.raw⟩
      decrement := fun id => hsteady.losing fun i _ _ h hi =>
        ⟨Nat.le_trans (Nat.le_of_eq (HandleTable.nextId_decrement h)) hi.handles, hi.raw⟩
      unregisterRaw := fun id i hi => ⟨hi.handles, hi.raw⟩ }

/-- The numbers of every instance that a run reaches are words, so that no two values have the
same. -/
theorem Machine.fits_runs (guest : Guest Code) (config : Config) (as : List (Action Code)) :
    ((Machine.boot guest config).runs as).inst.Fits :=
  FitsKept.acting.runs _ as ⟨HandleTable.fits_empty, RawRegistry.fits_empty⟩

/-! ## Numbers -/

/-- The numbers that the tables of `i` have given out stand in those of `i'` for what they did,
where they are in use. -/
structure TablesLater (i i' : Instance Code) : Prop where
  handles : i.handles.Later i'.handles
  raw : i.raw.Later i'.raw

/-- No action uses a number again. -/
theorem TablesLater.acting : Acting (@TablesLater Code) := by
  have hsteady : Steady (@TablesLater Code) :=
    ⟨fun _ => ⟨.refl _, .refl _⟩, fun h h' => ⟨h.handles.trans h'.handles, h.raw.trans h'.raw⟩⟩
  exact Tabular.acting
    { hsteady with
      modify := fun f hf i => ⟨(hf i).1 ▸ .refl _, (hf i).2 ▸ .refl _⟩
      acquire := fun v => hsteady.lending fun _ _ _ => ⟨.acquire _ v, .refl _⟩
      registerRaw := fun v => hsteady.registering fun _ _ => ⟨.refl _, .register _ v⟩
      increment := fun id => hsteady.gaining fun _ _ h => ⟨.increment h, .refl _⟩
      decrement := fun id => hsteady.losing fun _ _ _ h => ⟨.decrement h, .refl _⟩
      unregisterRaw := fun id i => ⟨.refl _, .unregister _ id⟩ }

end

end Crossing
