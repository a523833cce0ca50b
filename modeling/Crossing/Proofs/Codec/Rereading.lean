import Crossing.Proofs.Instance.Repeats

/-!
# Decoding only reads

Whatever stands in guest memory and whatever the host has in its tables, decoding a slot changes
nothing but views that were never published, and wraps the closures it comes across
(`Instance.Read`). It may therefore be done again, right away or after other slots have been
decoded: the result is the same fault, or the same value with the closures wrapped anew
(`Machine.decode_again`).

`Value.Renewed n n' v w cs` says that of two values, where `cs` are the closures that were wrapped
for each of them, behind `n` closures for the one and `n'` for the other. Values out of the host's
tables come back as they are, so a closure inside of one keeps its number.
-/

namespace Crossing

open Effect

/-! ## Values that are decoded again -/

mutual

/-- The two values are the same but for the closures `cs`, which the first has under the numbers
from `n` on and the second under those from `n'` on. -/
inductive Value.Renewed : Nat → Nat → Value → Value → List Closure → Prop
  | same (n n' : Nat) (v : Value) : Value.Renewed n n' v v []
  | closure (n n' : Nat) (c : Closure) : Value.Renewed n n' (.closure n) (.closure n') [c]
  | array {n n' : Nat} {vs ws : List Value} {cs : List Closure} :
      RenewedItems n n' vs ws cs → Value.Renewed n n' (.array vs) (.array ws) cs
  | object {n n' : Nat} {es fs : List (String × Value)} {cs : List Closure} :
      RenewedPairs n n' es fs cs →
      Value.Renewed n n' (.object (Entries.ofPairs es)) (.object (Entries.ofPairs fs)) cs

/-- The values are the same one by one, up to closures. -/
inductive RenewedItems : Nat → Nat → List Value → List Value → List Closure → Prop
  | nil (n n' : Nat) : RenewedItems n n' [] [] []
  | cons {n n' : Nat} {v w : Value} {vs ws : List Value} {cs ds : List Closure} :
      Value.Renewed n n' v w cs → RenewedItems (n + cs.length) (n' + cs.length) vs ws ds →
      RenewedItems n n' (v :: vs) (w :: ws) (cs ++ ds)

/-- The pairs have the same keys, and the same values up to closures. -/
inductive RenewedPairs :
    Nat → Nat → List (String × Value) → List (String × Value) → List Closure → Prop
  | nil (n n' : Nat) : RenewedPairs n n' [] [] []
  | cons {n n' : Nat} {key : String} {v w : Value} {es fs : List (String × Value)}
      {cs ds : List Closure} :
      Value.Renewed n n' v w cs → RenewedPairs (n + cs.length) (n' + cs.length) es fs ds →
      RenewedPairs n n' ((key, v) :: es) ((key, w) :: fs) (cs ++ ds)

end

mutual

/-- Values for which no closure was wrapped are the same. -/
theorem Value.Renewed.eq_of_nil : ∀ {n n' : Nat} {v w : Value} {cs : List Closure},
    Value.Renewed n n' v w cs → cs = [] → v = w
  | _, _, _, _, _, .same _ _ _, _ => rfl
  | _, _, _, _, _, .array h, hcs => congrArg Value.array (h.eq_of_nil hcs)
  | _, _, _, _, _, .object h, hcs =>
    congrArg (fun es => Value.object (Entries.ofPairs es)) (h.eq_of_nil hcs)

/-- Items without closures are the same items. -/
theorem RenewedItems.eq_of_nil : ∀ {n n' : Nat} {vs ws : List Value} {cs : List Closure},
    RenewedItems n n' vs ws cs → cs = [] → vs = ws
  | _, _, _, _, _, .nil _ _, _ => rfl
  | _, _, _, _, _, .cons hv hvs, hcs => by
    obtain ⟨hcs, hds⟩ := List.append_eq_nil_iff.1 hcs
    rw [hv.eq_of_nil hcs, hvs.eq_of_nil hds]

/-- Pairs without closures are the same pairs. -/
theorem RenewedPairs.eq_of_nil :
    ∀ {n n' : Nat} {es fs : List (String × Value)} {cs : List Closure},
      RenewedPairs n n' es fs cs → cs = [] → es = fs
  | _, _, _, _, _, .nil _ _, _ => rfl
  | _, _, _, _, _, .cons hv hes, hcs => by
    obtain ⟨hcs, hds⟩ := List.append_eq_nil_iff.1 hcs
    rw [hv.eq_of_nil hcs, hes.eq_of_nil hds]

end

section
variable {Code : Type} {i : Instance Code}

/-! ## The decoder -/

namespace Repeats

variable {address : UInt32} {item : UInt32 → Effect Code Value}

/-- A text is read again as the same one. -/
theorem decodeText : Repeats i (decodeText address) .same :=
  (readWord _).look fun _ => (readWord _).look fun _ => loadText _ _

/-- A closure is wrapped again under a number of its own, with the same words. -/
theorem decodeClosure (kind : ClosureKind) : Repeats i (decodeClosure kind address) Value.Renewed :=
  (readWord _).look fun _ => (readWord _).look fun _ => (readWord _).look fun _ =>
    wrap _ _ _ _ fun _ _ => .closure _ _ _

/-- A window is made again as the same one. -/
theorem decodeWindow : Repeats i (decodeWindow address) .same := by
  refine (readWord _).look fun _ => (readWord _).look fun _ => (readWord _).look fun _ =>
    (lift _).look fun _ => views.look fun _ => (buffer _).look fun _ => ?_
  split
  · exact throw _
  · exact (lift _).look fun _ => pure fun _ _ => ⟨rfl, rfl⟩

/-- An array is read again with its items renewed. -/
theorem decodeArray (hitem : ∀ a, Repeats i (item a) Value.Renewed) :
    Repeats i (decodeArray item address) Value.Renewed := by
  refine (tableAt _).look fun _ => (readWord _).look fun _ => (checkTable _ _ _).look fun _ => ?_
  have hitems (base count : UInt32) : Repeats i ((List.range count.toNat).mapM fun k => do
      item (← Effect.entryAddress base k.toUInt32 Slot.size)) RenewedItems :=
    mapM (fun k => (entryAddress _ _ _).look fun a => hitem a) .nil .cons _
  exact (hitems _ _).map .array

/-- An object is read again with the same keys and its values renewed. -/
theorem decodeObject (hitem : ∀ a, Repeats i (item a) Value.Renewed) :
    Repeats i (decodeObject item address) Value.Renewed := by
  refine (tableAt _).look fun _ => (readWord _).look fun _ => (tableAt _).look fun _ =>
    (checkTable _ _ _).look fun _ => (checkTable _ _ _).look fun _ => ?_
  have hpair (keys values : UInt32) (k : Nat) : Repeats i (do
      let key ← Effect.decodeText (← Effect.entryAddress keys k.toUInt32 Slot.keySize)
      let value ← item (← Effect.entryAddress values k.toUInt32 Slot.size)
      return (key, value)) fun n n' e f cs => e.1 = f.1 ∧ Value.Renewed n n' e.2 f.2 cs :=
    (entryAddress _ _ _).look fun _ => decodeText.look fun _ => (entryAddress _ _ _).look fun a =>
      (hitem a).map fun h => ⟨rfl, h⟩
  have hpairs (keys values count : UInt32) : Repeats i ((List.range count.toNat).mapM fun k => do
      let key ← Effect.decodeText (← Effect.entryAddress keys k.toUInt32 Slot.keySize)
      let value ← item (← Effect.entryAddress values k.toUInt32 Slot.size)
      return (key, value)) RenewedPairs := by
    refine mapM (hpair keys values) .nil ?_ _
    rintro n n' ⟨key, v⟩ ⟨_, w⟩ cs es fs ds ⟨rfl, hv⟩ hes
    exact .cons hv hes
  exact (hpairs _ _ _).map .object

/-- A slot is read again with its value renewed, however many may be opened. -/
theorem decodeAt (room : Nat) (address : UInt32) :
    Repeats i (decodeAt room address) Value.Renewed := by
  unfold Effect.decodeAt
  refine kindAt.look fun kind => record _ ?_
  cases kind with
  | undefined => exact pure fun _ _ => .same _ _ _
  | null => exact pure fun _ _ => .same _ _ _
  | boolean b => exact pure fun _ _ => .same _ _ _
  | int32 => exact views.look fun _ => (load _ _).look fun _ => pure fun _ _ => .same _ _ _
  | float64 => exact views.look fun _ => (load _ _).look fun _ => pure fun _ _ => .same _ _ _
  | string => exact decodeText.look fun _ => pure fun _ _ => .same _ _ _
  | array =>
    cases room with
    | zero => exact get (fun _ _ hi => by rw [hi.config]) (throw _)
    | succ room => exact decodeArray fun a => decodeAt room a
  | object =>
    cases room with
    | zero => exact get (fun _ _ hi => by rw [hi.config]) (throw _)
    | succ room => exact decodeObject fun a => decodeAt room a
  | handle => exact (readWord _).look fun id => (getHandle id).of_same .same
  | closure kind => exact decodeClosure kind
  | window => exact decodeWindow.of_same .same
  | raw => exact (readWord _).look fun id => (getRaw id).of_same .same

/-- A value is decoded again and renewed. -/
theorem decode (address : UInt32) : Repeats i (decode address) Value.Renewed :=
  get (fun _ _ hi => by rw [hi.config]) (decodeAt _ address)

end Repeats

/-- Decoding reads. -/
theorem Instance.Read.exec_decode (i : Instance Code) (address : UInt32) :
    ∃ cs : List Closure, (∀ c ∈ cs, c.IsFresh) ∧ i.Read cs (exec (Effect.decode address) i).2 := by
  obtain ⟨cs, hcs, hread, -⟩ :=
    (Repeats.decode address [] [] i i (.refl i) (.refl i)).exists_closures
  exact ⟨cs, hcs, hread⟩

/-- The closures that reading has wrapped can be told from what there is. -/
theorem Instance.Read.closures_unique {i i₁ i₂ : Instance Code} {cs ds es : List Closure}
    (h : i.Read ds i₁) (h' : i.Read (ds ++ cs) i₂) (h'' : i₁.Read es i₂) : es = cs := by
  have hcs := h'.closures
  rw [h''.closures, h.closures] at hcs
  have hlist := congrArg Array.toList hcs
  simp only [Array.toList_append, List.append_assoc] at hlist
  exact List.append_cancel_left (List.append_cancel_left hlist)

/-! ## Machines -/

namespace Machine

/-- The machine after slots have been decoded, one after the other. -/
def reading (m : Machine Code) (addresses : List UInt32) : Machine Code :=
  m.runs (addresses.map fun a => .perform (.decode a))

/-- Decoding slots one after the other only reads. -/
theorem read_reading (m : Machine Code) (addresses : List UInt32) :
    ∃ cs, m.inst.Read cs (m.reading addresses).inst := by
  induction addresses generalizing m with
  | nil => exact ⟨[], .refl _⟩
  | cons a rest ih =>
    obtain ⟨cs, -, hcs⟩ := Instance.Read.exec_decode m.inst a
    obtain ⟨ds, hds⟩ := ih (m.act (.perform (.decode a)))
    exact ⟨cs ++ ds, hcs.trans hds⟩

/-- Decoding a slot, which wraps the closures `cs` on `m`, is the same on `m'`: it wraps just such
closures under numbers of their own, and comes to the same fault or to the same value, but for
these closures. -/
structure Rereads (m m' : Machine Code) (address : UInt32) (cs : List Closure) : Prop where
  apart : m.inst.closures.size + cs.length ≤ m'.inst.closures.size
  reads : m'.inst.Read cs (m'.perform (.decode address)).2.inst
  fault : ∀ x, (m.perform (.decode address)).1 = .error x →
    (m'.perform (.decode address)).1 = .error x
  value : ∀ v, (m.perform (.decode address)).1 = .ok v →
    ∃ w, (m'.perform (.decode address)).1 = .ok w ∧
      Value.Renewed m.inst.closures.size m'.inst.closures.size v w cs ∧ (cs = [] → w = v)

/-- Decoding a slot is the same wherever reading has led that wrapped what it wraps. -/
theorem rereads_of_read {m m' : Machine Code} {address : UInt32} {cs ds : List Closure}
    (h : m.inst.Read (cs ++ ds) m'.inst)
    (hcs : m.inst.Read cs (m.perform (.decode address)).2.inst) : m.Rereads m' address cs := by
  have hsize := h.size_closures
  obtain ⟨cs', -, h₁, h₂, hfault, hvalue⟩ :=
    (Repeats.decode address [] (cs ++ ds) m.inst m'.inst (.refl _) h).exists_closures
  obtain ⟨es, -, hes⟩ := Instance.Read.exec_decode m'.inst address
  obtain rfl := Instance.Read.closures_unique (.refl _) h₁ hcs
  obtain rfl := h.closures_unique h₂ hes
  refine ⟨?_, hes, hfault, fun v hv => ?_⟩
  · rw [hsize, List.length_append]
    omega
  · obtain ⟨w, hw, hrenewed⟩ := hvalue v hv
    rw [List.length_nil, Nat.add_zero, ← hsize] at hrenewed
    exact ⟨w, hw, hrenewed, fun hnil => (hrenewed.eq_of_nil hnil).symm⟩

/-- Decoding only reads, whatever the memory and the state: it wraps fresh closures and publishes
the first views at most. So it can be done again, with any slots decoded in between. -/
theorem decode_again (m : Machine Code) (address : UInt32) :
    ∃ cs : List Closure, (∀ c ∈ cs, c.IsFresh) ∧
      (m.perform (.decode address)).2.frames = m.frames ∧
      m.inst.Read cs (m.perform (.decode address)).2.inst ∧
      ∀ between : List UInt32, m.Rereads (m.reading (address :: between)) address cs := by
  obtain ⟨cs, hfresh, hread⟩ := Instance.Read.exec_decode m.inst address
  refine ⟨cs, hfresh, rfl, hread, fun between => ?_⟩
  obtain ⟨ds, hds⟩ := read_reading (m.act (.perform (.decode address))) between
  exact rereads_of_read (hread.trans hds) hread

end Machine

end

end Crossing
