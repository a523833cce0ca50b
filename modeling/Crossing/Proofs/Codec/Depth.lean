import Crossing.Proofs.Codec.Acceptance
import Crossing.Proofs.Codec.Capacity
import Crossing.Proofs.Codec.Intact
import Crossing.Proofs.Value.Entries

/-!
# Decoding comes to an end

Guest memory is a graph: a table may hold the slot that leads to it. Decoding follows it no further
than the room it is given. `Instance.Unfolds` says that the paths of items from a slot are no longer
than that, and it holds of every slot that decodes (`Looks.decodeAt`), so a slot from which a cycle
can be reached never does (`Instance.Unfolds.acyclic`). By the same recursion a value nests no
deeper than the room, and the number of slots that are looked at is bounded by the size of memory
and the room alone (`slotBound`), whether decoding succeeds or not.

`Looks i e n P` is the judgment that carries this: from any instance with the memory and tables of
`i` the effect `e` leads to another one, tells of at most `n` slots on its way, and answers what `P`
allows.
-/

namespace Crossing

open Effect

/-! ## Values -/

namespace Value

/-- Whether the value is an array or an object. -/
def isNested : Value → Bool
  | array _ | object _ => true
  | _ => false

/-- A value that is no array and no object does not nest. -/
theorem depth_eq_zero {v : Value} (h : v.isNested = false) : v.depth = 0 := by
  cases v <;> first | rfl | cases h

/-- Items nest no deeper than the deepest of them. -/
theorem depthItems_le {items : List Value} {n : Nat} (h : ∀ v ∈ items, v.depth ≤ n) :
    depthItems items ≤ n := by
  induction items with
  | nil => exact Nat.zero_le n
  | cons v rest ih =>
    rw [depthItems]
    exact Nat.max_le.2 ⟨h v (.head _), ih fun v' hv' => h v' (.tail _ hv')⟩

/-- Properties nest no deeper than what bounds the values of all of them. -/
theorem depthEntries_le {entries : List (String × Value)} {n : Nat}
    (h : ∀ e ∈ entries, e.2.depth ≤ n) : depthEntries entries ≤ n := by
  induction entries with
  | nil => exact Nat.zero_le n
  | cons e rest ih =>
    rw [depthEntries]
    exact Nat.max_le.2 ⟨h e (.head _), ih fun e' he' => h e' (.tail _ he')⟩

end Value

section
variable {Code α β γ : Type} {i i' i'' : Instance Code}

/-! ## What is looked at -/

/-- Whether an event tells that a slot is about to be decoded. -/
def Event.isDecoding : Event → Bool
  | .decoding _ _ => true
  | _ => false

/-- The number of slots that were decoded so far. -/
def Instance.decodings (i : Instance Code) : Nat := i.events.countP Event.isDecoding

/-- An event counts when it tells of a slot that is decoded. -/
theorem Instance.decodings_log (i : Instance Code) (e : Event) :
    (i.log e).decodings = i.decodings + if e.isDecoding then 1 else 0 := by
  rw [decodings, events_log, List.countP_append, List.countP_singleton]
  rfl

/-- The instance `i'` has the memory, tables and configuration of `i`. -/
structure Sees (i i' : Instance Code) : Prop where
  guest : i'.guest = i.guest
  config : i'.config = i.config
  arena : i'.arena = i.arena
  handles : i'.handles = i.handles
  raw : i'.raw = i.raw
  views : ∀ v, i'.views = some v → v.buffer = i'.guest.memory

namespace Sees

/-- An instance with views on its memory has its own memory, tables and configuration. -/
theorem refl (h : ∀ v, i.views = some v → v.buffer = i.guest.memory) : Sees i i :=
  ⟨rfl, rfl, rfl, rfl, rfl, h⟩

/-- An event changes none of them. -/
theorem log (h : Sees i i') (e : Event) : Sees i (i'.log e) :=
  ⟨h.guest, h.config, h.arena, h.handles, h.raw, h.views⟩

/-- Reading sees such an instance as it is. -/
theorem alike (h : Sees i i') : Alike i' i' := ⟨⟨_, _, rfl⟩, h.views⟩

end Sees

/-- From an instance with the memory and tables of `i` the effect leads to another one, tells of at
most `n` slots, and answers what `P` allows. -/
def Looks (i : Instance Code) (e : Effect Code α) (n : Nat) (P : α → Prop) : Prop :=
  ∀ i', Sees i i' → Sees i (exec e i').2 ∧ (exec e i').2.decodings ≤ i'.decodings + n ∧
    ∀ a, (exec e i').1 = .ok a → P a

namespace Looks

variable {e : Effect Code α} {f : α → Effect Code β} {n k : Nat} {P P' : α → Prop} {Q : β → Prop}

/-- A bound may be raised, and what is said of the answer weakened. -/
theorem imp (h : Looks i e n P) (hn : n ≤ k) (hP : ∀ a, P a → P' a) : Looks i e k P' := by
  intro i' hi
  obtain ⟨hsees, hcount, hanswer⟩ := h i' hi
  exact ⟨hsees, Nat.le_trans hcount (Nat.add_le_add_left hn _), fun a ha => hP a (hanswer a ha)⟩

/-- An answer that is there looks at no slot. -/
theorem pure {a : α} (ha : P a) : Looks i (pure a : Effect Code α) 0 P := by
  intro i' hi
  refine ⟨hi, Nat.le_refl _, ?_⟩
  rintro _ ⟨⟩
  exact ha

/-- Nor does a fault. -/
theorem throw (x : Fault) : Looks i (throw x : Effect Code α) 0 P :=
  fun _ hi => ⟨hi, Nat.le_refl _, nofun⟩

/-- Nor does a check. -/
theorem lift {r : Except Fault α} (hr : ∀ a, r = .ok a → P a) :
    Looks i (liftM r : Effect Code α) 0 P := by
  intro i' hi
  rw [exec_liftExcept]
  exact ⟨hi, Nat.le_refl _, hr⟩

/-- An effect that begins by looking at the instance. -/
theorem get {f : Instance Code → Effect Code β} (hf : ∀ i', Sees i i' → Looks i (f i') n Q) :
    Looks i (MonadState.get >>= f : Effect Code β) n Q :=
  fun i' hi => hf i' hi i' hi

/-- Effects in a row look at the slots of both. -/
theorem bind (he : Looks i e n P) (hf : ∀ a, P a → Looks i (f a) k Q) :
    Looks i (e >>= f) (n + k) Q := by
  intro i' hi
  have h := he i' hi
  rw [exec_bind]
  revert h
  rcases exec e i' with ⟨x | a, i₁⟩ <;> rintro ⟨hsees, hcount, hanswer⟩
  · exact ⟨hsees, Nat.le_trans hcount (Nat.add_le_add_left (Nat.le_add_right n k) _), nofun⟩
  · obtain ⟨hsees', hcount', hanswer'⟩ := hf a (hanswer a rfl) i₁ hsees
    have hsum := Nat.add_le_add_right hcount k
    rw [Nat.add_assoc] at hsum
    exact ⟨hsees', Nat.le_trans hcount' hsum, hanswer'⟩

/-- First an effect that tells of no slot. -/
theorem seq (he : Looks i e 0 P) (hf : ∀ a, P a → Looks i (f a) k Q) : Looks i (e >>= f) k Q :=
  (he.bind hf).imp (Nat.le_of_eq (Nat.zero_add k)) fun _ h => h

/-- Last an effect that tells of no slot. -/
theorem andThen (he : Looks i e n P) (hf : ∀ a, P a → Looks i (f a) 0 Q) :
    Looks i (e >>= f) n Q :=
  he.bind hf

/-- First one slot is told of. -/
theorem visit (kind : SlotKind) (address : UInt32) (he : Looks i e n P) :
    Looks i (Effect.record (.decoding kind address) >>= fun _ => e) (n + 1) P := by
  intro i' hi
  obtain ⟨hsees, hcount, hanswer⟩ := he _ (hi.log (.decoding kind address))
  rw [exec_bind_of_ok (exec_record _ i')]
  refine ⟨hsees, Nat.le_trans hcount ?_, hanswer⟩
  rw [Instance.decodings_log, Nat.add_comm n, ← Nat.add_assoc]
  exact Nat.le_refl _

/-- The views that are asked for are those of guest memory. -/
theorem views : Looks i (Effect.views : Effect Code _) 0 fun v => v.buffer = i.guest.memory := by
  intro i' hi
  cases hv : i'.views with
  | some v =>
    rw [exec_views_of_some hv]
    refine ⟨hi, Nat.le_refl _, ?_⟩
    rintro _ ⟨⟩
    rw [← hi.guest]
    exact hi.views v hv
  | none =>
    rw [exec_views_of_none hv, exec_publish]
    refine ⟨⟨hi.guest, hi.config, hi.arena, hi.handles, hi.raw, by rintro v ⟨⟩; rfl⟩, ?_, ?_⟩
    · exact Nat.le_of_eq (Instance.decodings_log i' _)
    · rintro _ ⟨⟩
      show i'.guest.memory = _
      rw [hi.guest]

/-- What is looked at one after the other. -/
theorem mapM {f : α → Effect Code β} {R : α → β → Prop} {as : List α}
    (hf : ∀ a ∈ as, Looks i (f a) n (R a)) :
    Looks i (as.mapM f) (as.length * n) (List.Forall₂ R as) := by
  induction as with
  | nil =>
    rw [List.mapM_nil]
    exact (pure .nil).imp (Nat.zero_le _) fun _ h => h
  | cons a as ih =>
    rw [List.mapM_cons]
    have hrest := ih fun a' ha' => hf a' (.tail _ ha')
    refine ((hf a (.head _)).bind fun b hb => hrest.bind fun bs hbs =>
      pure (.cons hb hbs)).imp ?_ fun _ h => h
    rw [List.length_cons, Nat.succ_mul, Nat.add_zero, Nat.add_comm]

/-- Where the effect answers with something that can be read, that is its answer. -/
theorem reads (h : Looks i e n P) :
    Looks i e n fun a => P a ∧ ∀ a', (∀ i', Sees i i' → Reads i' e a') → a = a' := by
  intro i' hi
  obtain ⟨hsees, hcount, hanswer⟩ := h i' hi
  refine ⟨hsees, hcount, fun a ha => ⟨hanswer a ha, fun a' hreads => ?_⟩⟩
  obtain ⟨_, hexec, -⟩ := hreads i' hi i' hi.alike
  rw [hexec] at ha
  exact (Except.ok.inj ha).symm

/-! ## Words, kinds and tables -/

variable {address : UInt32}

/-- The buffer that is asked for. -/
theorem buffer (id : Nat) : Looks i (buffer id) 0 (· = i.guest.store.buffer id) :=
  get fun _ hi => pure (by rw [hi.guest])

/-- Loading an element looks at no slot. -/
theorem load (id : Nat) (k : ElementKind) : Looks i (load id k address) 0 fun _ => True :=
  (buffer id).seq fun _ _ => lift fun _ _ => trivial

/-- Finding a part of a slot looks at no other. -/
theorem slotPart (v : Views) (part : Option UInt32) :
    Looks i (slotPart v address part) 0 fun _ => True := by
  unfold Effect.slotPart
  split
  · exact pure trivial
  · exact (buffer _).seq fun _ _ => throw _

/-- A word is the one that stands there. -/
theorem readWord (index : UInt32) : Looks i (readWord address index) 0 fun x =>
    ∀ x', i.WordAt address index.toNat x' → x = x' := by
  have hlooks : Looks i (Effect.readWord address index) 0 fun _ => True :=
    views.seq fun _ _ => (slotPart _ _).seq fun _ _ => load _ _
  refine hlooks.reads.imp (Nat.le_refl _) fun x hx x' hword => hx.2 x' fun i' hi => ?_
  refine Reads.readWord ?_ rfl
  rw [Instance.WordAt, Instance.Holds, hi.guest]
  exact hword

/-- A kind is the one that stands there. -/
theorem kindAt : Looks i (kindAt address) 0 fun kind =>
    ∀ kind', i.KindAt address kind' → kind = kind' := by
  have hlooks : Looks i (Effect.kindAt address) 0 fun _ => True :=
    views.seq fun _ _ => (slotPart _ _).seq fun _ _ =>
      ((buffer _).seq fun _ _ => lift fun _ _ => trivial).seq fun _ (_ : True) =>
        lift fun _ _ => trivial
  refine hlooks.reads.imp (Nat.le_refl _) fun kind hk kind' hkind => hk.2 kind' fun i' hi => ?_
  refine Reads.kindAt ?_
  rw [Instance.KindAt, Instance.Holds, hi.guest]
  exact hkind

/-- A table begins where the offset that stands there leads. -/
theorem tableAt (index : UInt32) : Looks i (tableAt address index) 0 fun base =>
    ∀ offset, i.WordAt address index.toNat offset → base = i.arena.resolve offset :=
  (readWord index).seq fun x hx => get fun i' hi => pure fun offset hoffset => by
    rw [hi.arena, hx offset hoffset]

/-- Finding an entry of a table looks at no slot, and its address is the exact one. -/
theorem entryAddress (base index stride : UInt32) :
    Looks i (entryAddress base index stride) 0 fun a =>
      base.toNat + index.toNat * stride.toNat = a.toNat := by
  unfold Effect.entryAddress
  split
  · next a ha => exact pure (Slot.entry?_eq_some_iff.1 ha)
  · exact views.seq fun _ _ => (buffer _).seq fun _ _ => throw _

/-- A table that is accepted is no longer than memory. -/
theorem checkTable (base count stride : UInt32) :
    Looks i (checkTable base count stride) 0 fun _ =>
      count.toNat * stride.toNat ≤ i.guest.buffer.length.toNat := by
  refine views.seq fun v hv => (buffer _).seq fun b hb => lift fun _ hcheck => ?_
  subst hb
  rw [hv] at hcheck
  exact Nat.le_trans (Nat.le_add_left _ _) (Buffer.checkTable_eq_ok_iff_length.1 hcheck)

/-- Reading the bytes of a text looks at no slot. -/
theorem loadText (pointer length : UInt32) : Looks i (loadText pointer length) 0 fun _ => True :=
  views.seq fun _ _ => ((buffer _).seq fun _ _ => lift fun _ _ => trivial).seq fun _ (_ : True) =>
    get fun _ _ => pure trivial

/-- Reading a text looks at no slot besides its own. -/
theorem decodeText : Looks i (decodeText address) 0 fun _ => True :=
  (readWord _).seq fun _ _ => (readWord _).seq fun _ _ => loadText _ _

/-- Wrapping a closure looks at no slot besides its own, and a closure does not nest. -/
theorem decodeClosure (kind : ClosureKind) :
    Looks i (decodeClosure kind address) 0 fun v => v.isNested = false := by
  refine (readWord _).seq fun _ _ => (readWord _).seq fun _ _ => (readWord _).seq fun _ _ => ?_
  intro i' hi
  rw [exec_wrap]
  refine ⟨⟨hi.guest, hi.config, hi.arena, hi.handles, hi.raw, hi.views⟩, ?_, ?_⟩
  · exact Nat.le_of_eq (Instance.decodings_log i' _)
  · rintro _ ⟨⟩
    rfl

/-- Making a window looks at no slot besides its own, and a window does not nest. -/
theorem decodeWindow : Looks i (decodeWindow address) 0 fun v => v.isNested = false := by
  refine (readWord _).seq fun _ _ => (readWord _).seq fun _ _ => (readWord _).seq fun _ _ =>
    (lift fun _ _ => trivial).seq fun _ (_ : True) => views.seq fun _ _ => (buffer _).seq
      fun _ _ => ?_
  split
  · exact throw _
  · exact (lift fun _ _ => trivial).seq fun _ (_ : True) => pure rfl

end Looks

/-! ## The graph of slots -/

/-- The paths of items from the slot at an address are no longer than that. -/
def Instance.Unfolds (i : Instance Code) : Nat → UInt32 → Prop
  | 0, a => ∀ b, ¬ i.HasItem a b
  | room + 1, a => ∀ b, i.HasItem a b → i.Unfolds room b

namespace Instance.Unfolds

variable {room : Nat} {a b : UInt32}

/-- From a slot that leads to no other there is no path. -/
theorem of_leaf (h : ∀ b, ¬ i.HasItem a b) : i.Unfolds room a := by
  cases room with
  | zero => exact h
  | succ room => exact fun b hb => absurd hb (h b)

/-- The paths from an item are shorter. -/
theorem item (h : i.Unfolds room a) (hb : i.HasItem a b) : ∃ k < room, i.Unfolds k b := by
  cases room with
  | zero => exact absurd hb (h b)
  | succ room => exact ⟨room, Nat.lt_succ_self room, h b hb⟩

/-- The paths from a slot further on are shorter. -/
theorem further (h : i.Unfolds room a) (hb : Relation.TransGen i.HasItem a b) :
    ∃ k < room, i.Unfolds k b := by
  induction hb with
  | single hb => exact h.item hb
  | tail _ hc ih =>
    obtain ⟨k, hk, hunfolds⟩ := ih
    obtain ⟨k', hk', hunfolds'⟩ := hunfolds.item hc
    exact ⟨k', Nat.lt_trans hk' hk, hunfolds'⟩

/-- A slot with paths of bounded length is on no cycle. -/
theorem irrefl (h : i.Unfolds room a) : ¬ Relation.TransGen i.HasItem a a := by
  induction room using Nat.strong_induction_on with
  | _ room ih =>
    intro hcycle
    obtain ⟨k, hk, hunfolds⟩ := h.further hcycle
    exact ih k hk hunfolds hcycle

/-- No cycle can be reached from a slot with paths of bounded length. -/
theorem acyclic (h : i.Unfolds room a) (hb : i.LeadsTo a b) :
    ¬ Relation.TransGen i.HasItem b b := by
  rcases Relation.reflTransGen_iff_eq_or_transGen.1 hb with rfl | hb
  · exact h.irrefl
  · obtain ⟨k, -, hunfolds⟩ := h.further hb
    exact hunfolds.irrefl

end Instance.Unfolds

/-! ## Decoding -/

/-- No array and no object is lent or registered. -/
structure Instance.Flat (i : Instance Code) : Prop where
  handles : ∀ (id : UInt32) e, i.handles.entries[id]? = some e → e.value.isNested = false
  raw : ∀ (id : UInt32) (v : Value), i.raw.values[id]? = some v → v.isNested = false

/-- How many slots are looked at when tables have `n` items at most and nest `room` deep. -/
def slotBound (n : Nat) : Nat → Nat
  | 0 => 1
  | room + 1 => n * slotBound n room + 1

/-- The slot itself is looked at in any case. -/
theorem slotBound_pos (n room : Nat) : 1 ≤ slotBound n room := by
  cases room with
  | zero => exact Nat.le_refl 1
  | succ room => exact Nat.le_add_left 1 _

/-- The value `v` may come from the slot at `a` when so many tables may be opened: it nests no
deeper, and neither do the tables that the slot leads to. -/
structure Unfolded (i : Instance Code) (room : Nat) (a : UInt32) (v : Value) : Prop where
  depth : i.Flat → v.depth ≤ room
  unfolds : i.Unfolds room a

/-- A slot that is no array and no object has no items. -/
theorem not_hasItem {kind : SlotKind} {a : UInt32} (h : ∀ kind', i.KindAt a kind' → kind = kind')
    (harray : kind ≠ .array) (hobject : kind ≠ .object) (b : UInt32) : ¬ i.HasItem a b := by
  intro hb
  rcases hb.kind with hk | hk
  · exact harray (h _ hk)
  · exact hobject (h _ hk)

/-- A slot unfolds when the entries of its table do. -/
theorem unfolds_succ {room : Nat} {a base count : UInt32}
    (hbase : ∀ offset, i.WordAt a 0 offset → base = i.arena.resolve offset)
    (hcount : ∀ count', i.WordAt a 1 count' → count = count')
    (hentries : ∀ k < count.toNat, ∃ b : UInt32, base.toNat + 16 * k = b.toNat ∧
      i.Unfolds room b) :
    i.Unfolds (room + 1) a := by
  intro b hb
  obtain ⟨offset, count', k, hk, hoffset, hcount', hplace⟩ := hb.place
  obtain rfl := hbase offset hoffset
  obtain rfl := hcount count' hcount'
  obtain ⟨b', hb', hunfolds⟩ := hentries k hk
  obtain rfl : b' = b := UInt32.toNat_inj.1 (hb'.symm.trans hplace.symm)
  exact hunfolds

namespace Looks

variable {room n : Nat} {address base count : UInt32}

/-- A lent value is no array and no object, unless one was lent. -/
theorem getHandle (id : UInt32) :
    Looks i (getHandle id) 0 fun v => i.Flat → v.isNested = false := by
  refine get fun i' hi => lift fun v hv hflat => ?_
  rw [hi.handles, HandleTable.get_eq_ok_iff] at hv
  rcases hv with ⟨-, rfl⟩ | ⟨e, -, he, rfl⟩
  · rfl
  · exact hflat.handles id e he

/-- Looking a number up looks at no slot. -/
theorem getRaw (id : UInt32) : Looks i (getRaw id) 0 fun v => i.Flat → v.isNested = false := by
  refine get fun i' hi => lift fun v hv hflat => ?_
  rw [hi.raw, RawRegistry.get_eq_ok_iff] at hv
  exact hflat.raw id v hv

/-- The entries of a table, each of which is decoded in its place. -/
theorem entries {f : Nat → Effect Code β} (value : β → Value)
    (hcount : count.toNat * 16 ≤ i.guest.buffer.length.toNat)
    (hf : ∀ k : Nat, Looks i (f k) n fun v => ∃ b : UInt32,
      base.toNat + k.toUInt32.toNat * 16 = b.toNat ∧ Unfolded i room b (value v)) :
    Looks i ((List.range count.toNat).mapM f) (i.guest.buffer.length.toNat / 16 * n) fun vs =>
      (i.Flat → ∀ v ∈ vs, (value v).depth ≤ room) ∧
        ∀ k < count.toNat, ∃ b : UInt32, base.toNat + 16 * k = b.toNat ∧ i.Unfolds room b := by
  have hle : count.toNat ≤ i.guest.buffer.length.toNat / 16 :=
    (Nat.le_div_iff_mul_le (by decide)).2 hcount
  refine (mapM fun k _ => hf k).imp ?_ fun vs hall => ?_
  · rw [List.length_range]
    exact Nat.mul_le_mul_right n hle
  have hlength := hall.length_eq
  refine ⟨fun hflat v hv => ?_, fun k hk => ?_⟩
  · obtain ⟨k, hk, rfl⟩ := List.getElem_of_mem hv
    obtain ⟨b, -, hb⟩ := hall.get (hlength.symm ▸ hk) hk
    exact hb.depth hflat
  · have hk' : k < (List.range count.toNat).length := by rwa [List.length_range]
    obtain ⟨b, hplace, hb⟩ := hall.get hk' (hlength ▸ hk')
    have hword : k.toUInt32.toNat = k :=
      UInt32.toNat_ofNat_of_lt' (Nat.lt_trans hk count.toNat_lt)
    rw [List.get_eq_getElem, List.getElem_range, hword, Nat.mul_comm] at hplace
    exact ⟨b, hplace, hb.unfolds⟩

/-- An array, whose items are decoded with `item`. -/
theorem decodeArray {item : UInt32 → Effect Code Value}
    (hitem : ∀ a, Looks i (item a) n (Unfolded i room a)) :
    Looks i (decodeArray item address) (i.guest.buffer.length.toNat / 16 * n)
      (Unfolded i (room + 1) address) := by
  refine (tableAt 0).seq fun base hbase => (readWord 1).seq fun count hcount =>
    (checkTable _ _ _).seq fun _ htable => ?_
  refine (entries (fun v => v) htable fun k =>
    (entryAddress base k.toUInt32 Slot.size).seq fun b hb =>
      (hitem b).imp (Nat.le_refl _) fun v hv => ⟨b, hb, hv⟩).andThen fun items hitems => pure ?_
  refine ⟨fun hflat => ?_, unfolds_succ hbase hcount hitems.2⟩
  exact Nat.succ_le_succ (Value.depthItems_le (hitems.1 hflat))

/-- An object, whose values are decoded with `item`. -/
theorem decodeObject {item : UInt32 → Effect Code Value}
    (hitem : ∀ a, Looks i (item a) n (Unfolded i room a)) :
    Looks i (decodeObject item address) (i.guest.buffer.length.toNat / 16 * n)
      (Unfolded i (room + 1) address) := by
  refine (tableAt 0).seq fun base hbase => (readWord 1).seq fun count hcount =>
    (tableAt 2).seq fun keys _ => (checkTable _ _ _).seq fun _ htable =>
      (checkTable _ _ _).seq fun _ _ => ?_
  refine (entries Prod.snd htable fun k =>
    (entryAddress keys k.toUInt32 Slot.keySize).seq fun _ _ =>
      decodeText.seq fun key _ => (entryAddress base k.toUInt32 Slot.size).seq fun b hb =>
        (hitem b).andThen fun v hv => pure ⟨b, hb, hv⟩).andThen fun pairs hpairs => pure ?_
  refine ⟨fun hflat => ?_, unfolds_succ hbase hcount hpairs.2⟩
  exact Nat.succ_le_succ (Value.depthEntries_le
    (Entries.forall_ofPairs (p := fun v : Value => v.depth ≤ room) (hpairs.1 hflat)))

/-- A slot is decoded within the room that is left, or not at all. -/
theorem decodeAt (room : Nat) (address : UInt32) :
    Looks i (decodeAt room address) (slotBound (i.guest.buffer.length.toNat / 16) room)
      (Unfolded i room address) := by
  unfold Effect.decodeAt
  refine kindAt.seq fun kind hkind => ?_
  have hleaf {e : Effect Code Value} (harray : kind ≠ .array) (hobject : kind ≠ .object)
      (he : Looks i e 0 fun v => i.Flat → v.isNested = false) :
      Looks i (Effect.record (.decoding kind address) >>= fun _ => e)
        (slotBound (i.guest.buffer.length.toNat / 16) room) (Unfolded i room address) := by
    refine (visit kind address he).imp (slotBound_pos _ _) fun v hv => ?_
    refine ⟨fun hflat => ?_, .of_leaf (not_hasItem hkind harray hobject)⟩
    rw [Value.depth_eq_zero (hv hflat)]
    exact Nat.zero_le room
  cases kind with
  | undefined => exact hleaf nofun nofun (pure fun _ => rfl)
  | null => exact hleaf nofun nofun (pure fun _ => rfl)
  | boolean b => exact hleaf nofun nofun (pure fun _ => rfl)
  | int32 =>
    exact hleaf nofun nofun (views.seq fun _ _ => (load _ _).seq fun _ _ => pure fun _ => rfl)
  | float64 =>
    exact hleaf nofun nofun (views.seq fun _ _ => (load _ _).seq fun _ _ => pure fun _ => rfl)
  | string => exact hleaf nofun nofun (decodeText.seq fun _ _ => pure fun _ => rfl)
  | handle => exact hleaf nofun nofun ((readWord 0).seq fun id _ => getHandle id)
  | raw => exact hleaf nofun nofun ((readWord 0).seq fun id _ => getRaw id)
  | closure kind =>
    exact hleaf nofun nofun ((decodeClosure kind).imp (Nat.le_refl _) fun _ h _ => h)
  | window => exact hleaf nofun nofun (decodeWindow.imp (Nat.le_refl _) fun _ h _ => h)
  | array =>
    cases room with
    | zero => exact visit _ _ (get fun _ _ => throw _)
    | succ room => exact visit _ _ (decodeArray fun a => decodeAt room a)
  | object =>
    cases room with
    | zero => exact visit _ _ (get fun _ _ => throw _)
    | succ room => exact visit _ _ (decodeObject fun a => decodeAt room a)

/-- Decoding looks at so many slots at most, and a value comes from slots that nest within the
bound. -/
theorem decode (address : UInt32) :
    Looks i (decode address) (slotBound (i.guest.buffer.length.toNat / 16) i.config.maxDepth)
      (Unfolded i i.config.maxDepth address) :=
  get fun i' hi => by
    rw [hi.config]
    exact decodeAt _ address

end Looks

/-! ## Decoding in a run -/

namespace Machine

/-- Decoding the slot at an address is bounded by the size of memory and the configured depth: it
looks at so many slots at most, whatever comes of it, and a value nests no deeper than configured
when none is lent or registered that nests at all. A slot from which a cycle of tables can be
reached does not decode. -/
structure DecodesWithin (m : Machine Code) (address : UInt32) : Prop where
  visits : (m.perform (.decode address)).2.inst.decodings ≤ m.inst.decodings +
    slotBound (m.inst.guest.buffer.length.toNat / 16) m.inst.config.maxDepth
  depth : m.inst.Flat → ∀ v, (m.perform (.decode address)).1 = .ok v →
    v.depth ≤ m.inst.config.maxDepth
  acyclic : ∀ b, m.inst.LeadsTo address b → Relation.TransGen m.inst.HasItem b b →
    ∀ v, (m.perform (.decode address)).1 ≠ .ok v

/-- In every state that a run reaches, on whatever memory, decoding any slot is bounded in this
way. -/
theorem decodes_within (guest : Guest Code) (config : Config) (as : List (Action Code))
    (address : UInt32) : DecodesWithin ((boot guest config).runs as) address := by
  have hsettled : ((boot guest config).runs as).inst.Settled :=
    Instance.Settled.acting.runs _ as ⟨nofun, rfl⟩
  obtain ⟨-, hvisits, hanswer⟩ := Looks.decode address _ (Sees.refl hsettled.views)
  refine ⟨hvisits, fun hflat v hv => (hanswer v hv).depth hflat, fun b hleads hcycle v hv => ?_⟩
  exact (hanswer v hv).unfolds.acyclic hleads hcycle

/-- A guest with an array in the slot at zero, whose one item is that same slot. -/
def selfContaining : Guest Unit :=
  .ofBytes Unit ⟨#[0, 0, 0, 0, 1, 0, 0, 0, 0, 0, 0, 0, 7, 0, 0, 0]⟩

/-- The array that is its own item does not decode. -/
theorem decodes_within_selfContaining :
    ((boot selfContaining .standard).runs []).inst.HasItem 0 0 ∧
      ∀ v, (((boot selfContaining .standard).runs []).perform (.decode 0)).1 ≠ .ok v := by
  have hitem : ((boot selfContaining .standard).runs []).inst.HasItem 0 0 := by
    refine ⟨.inl ⟨12, rfl, ?_⟩, 0, 1, 0, by decide, ⟨0, rfl, ?_⟩, ⟨4, rfl, ?_⟩, rfl⟩ <;>
      rw [Buffer.load_eq_ok_iff_shows]
    · exact Guest.shows_ofBytes (by decide) (by decide) rfl
    · exact Guest.shows_ofBytes (by decide) (by decide) rfl
    · exact Guest.shows_ofBytes (by decide) (by decide) rfl
  exact ⟨hitem, (decodes_within selfContaining .standard [] 0).acyclic 0 (.refl _) (.single hitem)⟩

end Machine

end

end Crossing
