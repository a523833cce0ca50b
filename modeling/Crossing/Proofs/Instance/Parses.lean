import Crossing.Proofs.Instance.Reads

/-!
# What an effect accepts

`Parses i e P` says that the effect `e` answers just what `P` allows, and that it leaves everything
but views, journal and the closures it wraps as it was, also when it faults. Decoding is made of
such effects, over any memory that words can address. Since each closure that is read is wrapped
anew, what is allowed (`Layout`) is said with the number of closures wrapped before and the list of
those that come with the value.

The judgment has one rule for each way to put effects together. Effects that only look at the
instance allow values by what these are (`Layout.just`), and compose by `Parses.both`.
-/

namespace Crossing

open Effect

section
variable {Code α β : Type} {i i' : Instance Code}

/-! ## Tables of the host -/

/-- A handle is resolved when it is null or live. -/
theorem HandleTable.get_eq_ok_iff {t : HandleTable} {id : UInt32} {v : Value} :
    t.get id = .ok v ↔ (id = 0 ∧ v = .null) ∨
      ∃ e, id ≠ 0 ∧ t.entries[id]? = some e ∧ v = e.value := by
  have hnull : nullHandle = 0 := rfl
  unfold get
  rw [hnull]
  split
  · next hid => simp [hid, eq_comm]
  · next hid =>
    cases t.entries[id]? <;> simp [hid, eq_comm]

/-- A number is resolved when a value is registered under it. -/
theorem RawRegistry.get_eq_ok_iff {r : RawRegistry} {id : UInt32} {v : Value} :
    r.get id = .ok v ↔ r.values[id]? = some v := by
  unfold get
  split <;> simp_all

/-- A closure is wrapped behind those that there are. -/
theorem Effect.exec_wrap (kind : ClosureKind) (adapter pointer deallocator : UInt32)
    (i : Instance Code) :
    exec (wrap kind adapter pointer deallocator) i = (.ok (.closure i.closures.size),
      { i.log (.wrapped i.closures.size { kind, adapter, pointer, deallocator }) with
        closures := i.closures.push { kind, adapter, pointer, deallocator } }) := rfl

/-! ## The judgment -/

/-- The instance with closures added to those it has. -/
def Instance.wrapping (i : Instance Code) (cs : List Closure) : Instance Code :=
  { i with closures := i.closures ++ cs.toArray }

/-- Wrapping no closure changes nothing. -/
theorem Instance.wrapping_nil (i : Instance Code) : i.wrapping [] = i := by
  show { i with closures := i.closures ++ #[] } = i
  rw [Array.append_empty]

/-- Which values, with which newly wrapped closures, are allowed when so many closures have been
wrapped before. -/
abbrev Layout (α : Type) : Type := Nat → α → List Closure → Prop

/-- A value is allowed by what it is, and no closure is wrapped. -/
def Layout.just (p : α → Prop) : Layout α := fun _ a cs => p a ∧ cs = []

/-- First what `P` allows and then, for the value that this gave, what `Q` allows. -/
def Layout.andThen (P : Layout α) (Q : α → Layout β) : Layout β := fun n b es =>
  ∃ a cs ds, P n a cs ∧ Q a (n + cs.length) b ds ∧ es = cs ++ ds

/-- One value for each of the `as`, in their order. -/
def Layout.each (Q : α → Layout β) : List α → Layout (List β)
  | [], _, bs, cs => bs = [] ∧ cs = []
  | a :: as, n, bs, cs => ∃ b bs' cs' ds,
    Q a n b cs' ∧ each Q as (n + cs'.length) bs' ds ∧ bs = b :: bs' ∧ cs = cs' ++ ds

/-- Each of the `as` has a value that is allowed. -/
theorem Layout.each.exists_of_mem {Q : α → Layout β} {as : List α} {n : Nat} {bs : List β}
    {cs : List Closure} (h : each Q as n bs cs) {a : α} (ha : a ∈ as) :
    ∃ n' b cs', Q a n' b cs' := by
  induction as generalizing n bs cs with
  | nil => cases ha
  | cons a' as ih =>
    obtain ⟨b, bs', cs', ds, hb, hrest, -, -⟩ := h
    rcases List.mem_cons.1 ha with rfl | ha
    · exact ⟨n, b, cs', hb⟩
    · exact ih hrest ha

/-- Values can be put together when each of the `as` has one, however many closures were wrapped
before. -/
theorem Layout.each.exists_of_forall {Q : α → Layout β} {as : List α}
    (h : ∀ a ∈ as, ∀ n, ∃ b cs, Q a n b cs) (n : Nat) : ∃ bs cs, each Q as n bs cs := by
  induction as generalizing n with
  | nil => exact ⟨[], [], rfl, rfl⟩
  | cons a as ih =>
    obtain ⟨b, cs, hb⟩ := h a List.mem_cons_self n
    obtain ⟨bs, ds, hbs⟩ := ih (fun a' ha' => h a' (List.mem_cons_of_mem a ha')) (n + cs.length)
    exact ⟨b :: bs, cs ++ ds, b, bs, cs, ds, hb, hbs, rfl, rfl⟩

/-- The effect answers what `P` allows, and nothing else; beyond that it adds the closures that it
wraps, and changes views and journal at most. -/
structure Parses (i : Instance Code) (e : Effect Code α) (P : Layout α) : Prop where
  sound : ∀ {ds i' a i''}, Alike (i.wrapping ds) i' → exec e i' = (.ok a, i'') →
    ∃ cs, P (i.closures.size + ds.length) a cs ∧ Alike (i.wrapping (ds ++ cs)) i''
  complete : ∀ {ds i' a cs}, Alike (i.wrapping ds) i' → P (i.closures.size + ds.length) a cs →
    ∃ i'', exec e i' = (.ok a, i'') ∧ Alike (i.wrapping (ds ++ cs)) i''
  faults : ∀ {ds i' x i''}, Alike (i.wrapping ds) i' → exec e i' = (.error x, i'') →
    ∃ cs, Alike (i.wrapping (ds ++ cs)) i''

namespace Parses

variable {e : Effect Code α} {f : α → Effect Code β} {P P' : Layout α} {Q : α → Layout β}
  {R : Layout β} {p : α → Prop}

/-- What is allowed may be said in another way. -/
theorem imp (h : Parses i e P) (hP : ∀ n a cs, P n a cs ↔ P' n a cs) : Parses i e P' where
  sound hi he := by
    obtain ⟨cs, hcs, hi'⟩ := h.sound hi he
    exact ⟨cs, (hP _ _ _).1 hcs, hi'⟩
  complete hi ha := h.complete hi ((hP _ _ _).2 ha)
  faults := h.faults

/-- Effects in a row allow what the first allows and, for its answer, the second. -/
theorem bind (he : Parses i e P) (hf : ∀ a, (∃ n cs, P n a cs) → Parses i (f a) (Q a)) :
    Parses i (e >>= f) (P.andThen Q) where
  sound := by
    intro ds i' b i'' hi hexec
    rw [exec_bind] at hexec
    split at hexec
    · next a i₁ he₁ =>
      obtain ⟨cs, hcs, hi₁⟩ := he.sound hi he₁
      obtain ⟨es, hes, hi₂⟩ := (hf a ⟨_, cs, hcs⟩).sound hi₁ hexec
      rw [List.length_append, ← Nat.add_assoc] at hes
      exact ⟨cs ++ es, ⟨a, cs, es, hcs, hes, rfl⟩, by rwa [← List.append_assoc]⟩
    · cases hexec
  complete := by
    rintro ds i' b _ hi ⟨a, cs, es, hcs, hes, rfl⟩
    obtain ⟨i₁, he₁, hi₁⟩ := he.complete hi hcs
    rw [Nat.add_assoc, ← List.length_append] at hes
    obtain ⟨i₂, he₂, hi₂⟩ := (hf a ⟨_, cs, hcs⟩).complete hi₁ hes
    exact ⟨i₂, (exec_bind_of_ok he₁).trans he₂, by rwa [← List.append_assoc]⟩
  faults := by
    intro ds i' x i'' hi hexec
    rw [exec_bind] at hexec
    split at hexec
    · next a i₁ he₁ =>
      obtain ⟨cs, hcs, hi₁⟩ := he.sound hi he₁
      obtain ⟨es, hi₂⟩ := (hf a ⟨_, cs, hcs⟩).faults hi₁ hexec
      exact ⟨cs ++ es, by rwa [← List.append_assoc]⟩
    · next y i₁ he₁ =>
      cases hexec
      exact he.faults hi he₁

/-- What follows an effect that only looks. -/
theorem look (he : Parses i e (.just p)) (hf : ∀ a, p a → Parses i (f a) (Q a)) :
    Parses i (e >>= f) fun n b cs => ∃ a, p a ∧ Q a n b cs := by
  refine (he.bind fun a ⟨_, _, ha, _⟩ => hf a ha).imp fun n b cs => ⟨?_, ?_⟩
  · rintro ⟨a, _, ds, ⟨ha, rfl⟩, hds, rfl⟩
    exact ⟨a, ha, hds⟩
  · rintro ⟨a, ha, hcs⟩
    exact ⟨a, [], cs, ⟨ha, rfl⟩, hcs, rfl⟩

/-- An answer that is there is the only one allowed. -/
theorem pure (a : α) : Parses i (pure a : Effect Code α) (.just (· = a)) where
  sound := by
    rintro ds i' _ _ hi ⟨⟩
    exact ⟨[], ⟨rfl, rfl⟩, by rwa [List.append_nil]⟩
  complete := by
    rintro ds i' _ _ hi ⟨rfl, rfl⟩
    exact ⟨i', rfl, by rwa [List.append_nil]⟩
  faults _ he := by cases he

/-- A fault allows no answer. -/
theorem throw (x : Fault) : Parses i (throw x : Effect Code α) fun _ _ _ => False where
  sound _ he := by cases he
  complete _ h := h.elim
  faults := by
    rintro ds i' _ _ hi ⟨⟩
    exact ⟨[], by rwa [List.append_nil]⟩

/-- A check allows what passes it. -/
theorem lift (r : Except Fault α) :
    Parses i (liftM r : Effect Code α) (.just fun a => r = .ok a) where
  sound := by
    intro ds i' a i'' hi hexec
    rw [exec_liftExcept] at hexec
    cases hexec
    exact ⟨[], ⟨rfl, rfl⟩, by rwa [List.append_nil]⟩
  complete := by
    rintro ds i' a _ hi ⟨rfl, rfl⟩
    exact ⟨i', exec_liftExcept _ i', by rwa [List.append_nil]⟩
  faults := by
    intro ds i' x i'' hi hexec
    rw [exec_liftExcept] at hexec
    cases hexec
    exact ⟨[], by rwa [List.append_nil]⟩

/-- An effect that begins by looking at the instance. -/
theorem get {f : Instance Code → Effect Code β}
    (hf : ∀ ds i', Alike (i.wrapping ds) i' → Parses i (f i') R) :
    Parses i (MonadState.get >>= f : Effect Code β) R where
  sound hi hexec := (hf _ _ hi).sound hi hexec
  complete hi h := (hf _ _ hi).complete hi h
  faults hi hexec := (hf _ _ hi).faults hi hexec

/-- An event before an effect allows no more and no less. -/
theorem record (e : Event) {rest : Unit → Effect Code β} (h : Parses i (rest ()) R) :
    Parses i (Effect.record e >>= rest) R where
  sound hi hexec := h.sound (hi.log e) hexec
  complete hi hR := h.complete (hi.log e) hR
  faults hi hexec := h.faults (hi.log e) hexec

/-- The views that are asked for are those of guest memory. -/
theorem views {f : Views → Effect Code β} (hf : ∀ v, v.buffer = i.guest.memory → Parses i (f v) R) :
    Parses i (Effect.views >>= f) R where
  sound hi hexec := by
    obtain ⟨v, i₁, hviews, hmemory, hi₁⟩ := hi.exec_views
    rw [exec_bind_of_ok hviews] at hexec
    exact (hf v hmemory).sound hi₁ hexec
  complete hi hR := by
    obtain ⟨v, i₁, hviews, hmemory, hi₁⟩ := hi.exec_views
    rw [exec_bind_of_ok hviews]
    exact (hf v hmemory).complete hi₁ hR
  faults hi hexec := by
    obtain ⟨v, i₁, hviews, hmemory, hi₁⟩ := hi.exec_views
    rw [exec_bind_of_ok hviews] at hexec
    exact (hf v hmemory).faults hi₁ hexec

/-- The buffer of the published views is guest memory. -/
theorem memory {id : Nat} (hid : id = i.guest.memory) {f : Buffer → Effect Code β}
    (hf : Parses i (f i.guest.buffer) R) : Parses i (buffer id >>= f) R := by
  refine get fun ds i' hi => ?_
  show Parses i (f (i'.guest.store.buffer id)) R
  rw [hi.guest, hid]
  exact hf

/-- What is parsed one after the other. -/
theorem mapM {f : α → Effect Code β} {as : List α} (hf : ∀ a ∈ as, Parses i (f a) (Q a)) :
    Parses i (as.mapM f) (.each Q as) := by
  induction as with
  | nil =>
    rw [List.mapM_nil]
    exact (pure []).imp fun n bs cs => Iff.rfl
  | cons a as ih =>
    rw [List.mapM_cons]
    have hrest := ih fun a' ha' => hf a' (List.mem_cons_of_mem a ha')
    refine ((hf a List.mem_cons_self).bind fun b _ => hrest.bind fun bs _ => pure (b :: bs)).imp
      fun n bs cs => ⟨?_, ?_⟩
    · rintro ⟨b, cs', _, hb, ⟨bs', ds, _, hbs, ⟨rfl, rfl⟩, rfl⟩, rfl⟩
      exact ⟨b, bs', cs', ds, hb, hbs, rfl, by rw [List.append_nil]⟩
    · rintro ⟨b, bs', cs', ds, hb, hbs, rfl, rfl⟩
      exact ⟨b, cs', ds, hb, ⟨bs', ds, [], hbs, ⟨rfl, rfl⟩, by rw [List.append_nil]⟩, rfl⟩

/-! ## Effects that only look -/

/-- An effect that looks allows the same for another reason. -/
theorem just {q : α → Prop} (h : Parses i e (.just p)) (hp : ∀ a, p a ↔ q a) :
    Parses i e (.just q) :=
  h.imp fun _ a _ => and_congr_left fun _ => hp a

/-- One look after the other. -/
theorem both {q : α → β → Prop} (he : Parses i e (.just p))
    (hf : ∀ a, p a → Parses i (f a) (.just (q a))) :
    Parses i (e >>= f) (.just fun b => ∃ a, p a ∧ q a b) :=
  (he.look hf).imp fun _ _ _ => by simp only [Layout.just, ← and_assoc, exists_and_right]

/-- A fault allows nothing. -/
theorem refused (x : Fault) (hp : ∀ a, ¬ p a) :
    Parses i (MonadExcept.throw x : Effect Code α) (.just p) :=
  (throw x).imp fun _ a _ => ⟨False.elim, fun h => hp a h.1⟩

/-- Looking a buffer up allows no more and no less. -/
theorem buffer (id : Nat) {f : Buffer → Effect Code β} (hf : ∀ b, Parses i (f b) R) :
    Parses i (Effect.buffer id >>= f) R :=
  get fun _ _ _ => hf _

/-! ## Elements and words -/

variable {address : UInt32}

/-- An element is loaded just when it stands in memory. -/
theorem load {id : Nat} {k : ElementKind} (hid : id = i.guest.memory) :
    Parses i (load id k address) (.just (i.guest.buffer.Shows k address.toNat)) :=
  memory hid ((lift _).just fun _ => Buffer.load_eq_ok_iff_shows)

/-- Bytes are read just when they lie in memory. -/
theorem read {id n : Nat} (hid : id = i.guest.memory) :
    Parses i (read id address n) (.just fun bytes =>
      address.toNat + n ≤ i.guest.buffer.bytes.size ∧
        i.guest.buffer.bytes.extract address.toNat (address.toNat + n) = bytes) :=
  memory hid ((lift _).just fun _ => Buffer.read_eq_ok_iff)

/-- A byte is read just when it stands in memory. -/
theorem getByte {id : Nat} (hid : id = i.guest.memory) :
    Parses i (getElement id .u8 address) (.just (i.guest.buffer.Shows .u8 address.toNat)) :=
  memory hid ((lift _).just fun _ => by
    rw [← Buffer.load_u8]
    exact Buffer.load_eq_ok_iff_shows)

/-- A part of a slot is found just when its address is a word. -/
theorem slotPart (v : Views) (part : Option UInt32) :
    Parses i (slotPart v address part) (.just fun a => part = some a) := by
  cases part with
  | none => exact buffer _ fun b => refused _ (by simp)
  | some a => exact (pure a).just fun b => by rw [Option.some.injEq, eq_comm]

/-- A word of a slot or a key; `p` is the position where it stands. -/
theorem readWord (hsize : i.guest.buffer.bytes.size ≤ 65535 * 65536) {index : UInt32} {p : Nat}
    (hp : address.toNat + 4 * index.toNat = p) :
    Parses i (readWord address index) (.just (i.guest.buffer.Shows .u32 p)) := by
  have h4 : ElementKind.u32.size.toNat = 4 := rfl
  refine views fun v hv => ((slotPart v _).both fun a _ => load hv).just fun x => ?_
  constructor
  · rintro ⟨a, ha, hx⟩
    rw [Slot.word?, Slot.entry?_eq_some_iff, Nat.mul_comm] at ha
    have ha' : a.toNat = p := ha.symm.trans hp
    exact ha' ▸ hx
  · intro hx
    have hinside := hx.inside
    obtain ⟨a, ha, ha'⟩ := Slot.exists_word? address index (by
      show _ < 2 ^ 32
      omega)
    exact ⟨a, ha, by rwa [ha', hp]⟩

/-- An entry is found just when its exact address is a word. -/
theorem entryAddress (base index stride : UInt32) :
    Parses i (entryAddress base index stride)
      (.just fun a => base.toNat + index.toNat * stride.toNat = a.toNat) := by
  have hentry (a : UInt32) : Slot.entry? base index stride = some a ↔
      base.toNat + index.toNat * stride.toNat = a.toNat := Slot.entry?_eq_some_iff
  unfold Effect.entryAddress
  cases h : Slot.entry? base index stride with
  | none =>
    refine views fun v _ => buffer _ fun b => refused _ fun a ha => ?_
    rw [(hentry a).2 ha] at h
    cases h
  | some a =>
    refine (pure a).just fun a' => ?_
    rw [← hentry, h, Option.some.injEq, eq_comm]

/-- A table passes the check just when it ends inside of memory. -/
theorem checkTable (hsize : i.guest.buffer.bytes.size ≤ 65535 * 65536)
    (base count stride : UInt32) : Parses i (checkTable base count stride) (.just fun _ =>
      base.toNat + count.toNat * stride.toNat ≤ i.guest.buffer.bytes.size) :=
  views fun _ hv => memory hv ((lift _).just fun _ =>
    Buffer.checkTable_eq_ok_iff (Nat.lt_of_le_of_lt hsize (by decide)))

/-! ## Handles, raw values and closures -/

/-- A handle stands for the value that it lends, and zero for null. -/
theorem getHandle (id : UInt32) : Parses i (getHandle id) (.just fun v =>
    (id = 0 ∧ v = .null) ∨ ∃ e, id ≠ 0 ∧ i.handles.entries[id]? = some e ∧ v = e.value) := by
  refine get fun ds i' hi => (lift _).just fun v => ?_
  rw [hi.handles]
  exact HandleTable.get_eq_ok_iff

/-- A number stands for the value that is registered under it. -/
theorem getRaw (id : UInt32) :
    Parses i (getRaw id) (.just fun v => i.raw.values[id]? = some v) := by
  refine get fun ds i' hi => (lift _).just fun v => ?_
  rw [hi.raw]
  exact RawRegistry.get_eq_ok_iff

/-- A closure is wrapped under the next number. -/
theorem wrap (kind : ClosureKind) (adapter pointer deallocator : UInt32) :
    Parses i (Effect.wrap kind adapter pointer deallocator) fun n v cs =>
      v = .closure n ∧ cs = [{ kind, adapter, pointer, deallocator }] := by
  have hexec {ds : List Closure} {i' : Instance Code} (hi : Alike (i.wrapping ds) i') :
      ∃ i'', exec (Effect.wrap kind adapter pointer deallocator) i' =
          (.ok (.closure (i.closures.size + ds.length)), i'') ∧
        Alike (i.wrapping (ds ++ [({ kind, adapter, pointer, deallocator } : Closure)])) i'' := by
    have hsize : i'.closures.size = i.closures.size + ds.length := by
      rw [hi.closures]
      exact Array.size_append
    have hpush (c : Closure) : i'.closures.push c = i.closures ++ (ds ++ [c]).toArray := by
      rw [hi.closures]
      simp [Instance.wrapping]
    have hwrap := exec_wrap kind adapter pointer deallocator i'
    rw [hpush, hsize] at hwrap
    refine ⟨_, hwrap, ⟨?_, hi.views⟩⟩
    obtain ⟨_, _, rfl⟩ := hi.eq
    exact ⟨_, _, rfl⟩
  refine ⟨fun hi he => ?_, fun hi ha => ?_, fun hi he => ?_⟩
  · obtain ⟨i'', hok, hi''⟩ := hexec hi
    cases hok.symm.trans he
    exact ⟨_, ⟨rfl, rfl⟩, hi''⟩
  · obtain ⟨rfl, rfl⟩ := ha
    exact hexec hi
  · obtain ⟨i'', hok, -⟩ := hexec hi
    cases hok.symm.trans he

end Parses

/-! ## Runs -/

/-- Views cover guest memory, where they are published, and the arena has the base that is
configured. -/
structure Instance.Settled (i : Instance Code) : Prop where
  views : ∀ v, i.views = some v → v.buffer = i.guest.memory
  base : i.arena.base = i.config.arenaBase

/-- Being settled is kept by every action. -/
theorem Instance.Settled.acting :
    Acting fun i i' : Instance Code => i.Settled → i'.Settled := by
  have hsteady : Steady fun i i' : Instance Code => i.Settled → i'.Settled :=
    ⟨fun _ h => h, fun h h' hi => h' (h hi)⟩
  have hgrow (delta : UInt32) :
      Keeps (fun i i' : Instance Code => i.Settled → i'.Settled) (grow delta) :=
    hsteady.growth (fun i _ _ h => ⟨by rintro v ⟨⟩; rfl, h.base⟩) delta
  exact Storing.acting
    { hsteady with
      modify := fun f hf i h => by
        rw [exec_modify]
        exact ⟨by rw [(hf i).views, (hf i).memory]; exact h.views,
          by rw [(hf i).base, (hf i).config]; exact h.base⟩
      publish := fun i h => ⟨by rintro v ⟨⟩; rfl, h.base⟩
      write := fun id address data i h => by
        rw [exec_write]
        split
        · exact ⟨h.views, h.base⟩
        · exact h
      grow := hgrow
      malloc := hsteady.malloc hgrow (fun _ _ h => ⟨h.views, h.base⟩)
        fun _ h => ⟨h.views, h.base⟩
      acquire := fun v => hsteady.lending fun _ _ _ h => ⟨h.views, h.base⟩
      registerRaw := fun v => hsteady.registering fun _ _ h => ⟨h.views, h.base⟩
      increment := fun id => hsteady.gaining fun _ _ _ h => ⟨h.views, h.base⟩
      decrement := fun id => hsteady.losing fun _ _ _ _ h => ⟨h.views, h.base⟩
      unregisterRaw := fun _ _ h => ⟨h.views, h.base⟩ }

/-- An instance with views on guest memory is one of those that `Parses` is about. -/
theorem Instance.Settled.alike (h : i.Settled) : Alike (i.wrapping []) i := by
  rw [wrapping_nil]
  exact ⟨⟨_, _, rfl⟩, h.views⟩

end

end Crossing
