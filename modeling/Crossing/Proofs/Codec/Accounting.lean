import Crossing.Proofs.Codec.Nesting
import Mathlib.Algebra.Order.Ring.Nat

/-!
# What the arena counts

The arena counts the blocks that are allocated through it and their bytes, and the journal tells of
each (`Instance.allocated`). `Allocated bs` is the relation between instances that says which blocks
were allocated in between; every action keeps it for some list (`Allocated.acting`), so that the
counters are exact after every run.

`Effect.Costs bs e` says which blocks an effect takes that comes to its end. Encoding takes one for
each text that is not empty, one for the table of an array and two for those of an object
(`Value.blocks`, `Effect.costs_encodeAt`). The length of a text is a word, so a text of 2³² bytes
passes for an empty one: `Machine.prepare_counts_iff` says that the counters tell of a prepared
value what its texts and tables take exactly when all lengths are words.
-/

namespace Crossing

open Effect

section
variable {Code α β : Type}

/-! ## The counters -/

/-- The size of the block that an event tells of. -/
def Event.block? : Event → Option Nat
  | .allocated size _ => some size.toNat
  | _ => none

/-- The sizes of the blocks that were allocated in the arena, in turn. -/
def Instance.allocated (i : Instance Code) : List Nat := i.events.filterMap Event.block?

/-- Between the instances blocks of the sizes `bs` were allocated and counted, and no others. -/
structure Allocated (bs : List Nat) (i i' : Instance Code) : Prop where
  allocated : i'.allocated = i.allocated ++ bs
  allocations : i'.arena.allocations = i.arena.allocations + bs.length
  bytes : i'.arena.bytes = i.arena.bytes + bs.sum

/-- The relation `R` looks at the arena and at the events about blocks only. -/
structure Sparing (R : Instance Code → Instance Code → Prop) : Prop extends Steady R where
  modify : ∀ f : Instance Code → Instance Code,
    (∀ i, (f i).arena = i.arena ∧ (f i).journal = i.journal) → Keeps R (modify f)
  record : ∀ e : Event, e.block? = none → Keeps R (record e)

namespace Sparing

variable {R : Instance Code → Instance Code → Prop}

/-- Publishing views touches no block. -/
theorem publish (h : Sparing R) : Keeps R publish :=
  h.bind h.get fun _ => h.bind (h.record _ rfl) fun _ =>
    h.bind (h.modify _ fun _ => ⟨rfl, rfl⟩) fun _ => h.pure _

/-- Writing into a buffer touches no block. -/
theorem write (h : Sparing R) (id : Nat) (address : UInt32) (data : ByteArray) :
    Keeps R (write id address data) :=
  h.bind (h.bind h.get fun _ => h.pure _) fun _ => h.bind (h.lift _) fun _ =>
    h.modify _ fun _ => ⟨rfl, rfl⟩

/-- Growth touches no block. -/
theorem grow (h : Sparing R) (delta : UInt32) : Keeps R (grow delta) :=
  h.bind h.get fun _ => h.bind (h.lift _) fun _ => h.guard <|
    h.bind (h.modify _ fun _ => ⟨rfl, rfl⟩) fun _ =>
      h.bind (h.record _ rfl) fun _ => Steady.map _ h.publish

/-- A block of the guest's allocator is none of the arena. -/
theorem malloc (h : Sparing R) (size : UInt32) : Keeps R (malloc size) :=
  h.toSteady.malloc h.grow (fun _ => h.modify _ fun _ => ⟨rfl, rfl⟩)
    (h.modify _ fun _ => ⟨rfl, rfl⟩) size

/-- Reading and writing slots touch no block. -/
theorem editing (h : Sparing R) : Editing R where
  toSteady := h.toSteady
  note e he := h.record e (by cases e <;> simp_all [Event.isNote, Event.block?])
  publish := h.publish
  write := h.write

/-- Lending touches no block. -/
theorem acquire (h : Sparing R) (v : Value) : Keeps R (acquire v) :=
  h.toSteady.acquire (fun _ => h.modify _ fun _ => ⟨rfl, rfl⟩) (fun _ _ => h.record _ rfl)
    (fun _ _ => h.record _ rfl) v

/-- Registering touches no block. -/
theorem registerRaw (h : Sparing R) (v : Value) : Keeps R (registerRaw v) :=
  h.toSteady.registerRaw (fun _ => h.modify _ fun _ => ⟨rfl, rfl⟩) v

/-- Such a relation is kept by every action when it is by allocating in the arena. -/
theorem acting (h : Sparing R) (alloc : ∀ size, Keeps R (alloc size)) : Acting R :=
  Overlooking.acting
    { toEditing := h.editing
      malloc := h.malloc
      alloc
      acquire := h.acquire
      registerRaw := h.registerRaw
      started := h.modify _ fun _ => ⟨rfl, rfl⟩
      modify := fun f hf => h.modify f fun i => ⟨(hf i).arena, (hf i).journal⟩
      record := fun e he => h.record e (by cases e <;> simp_all [Event.isAside, Event.block?])
      grow := h.grow
      increment := h.toSteady.increment fun _ => h.modify _ fun _ => ⟨rfl, rfl⟩
      decrement := h.toSteady.decrement (fun _ => h.modify _ fun _ => ⟨rfl, rfl⟩) fun _ =>
        h.record _ rfl
      unregisterRaw := h.toSteady.unregisterRaw fun _ => h.modify _ fun _ => ⟨rfl, rfl⟩
      abort := h.toSteady.abort (fun _ => h.record _ rfl) (h.modify _ fun _ => ⟨rfl, rfl⟩) }

end Sparing

namespace Allocated

variable {bs cs : List Nat} {i i' i'' : Instance Code}

/-- Steps in a row allocate the blocks of one and then those of the other. -/
theorem trans (h : Allocated bs i i') (h' : Allocated cs i' i'') : Allocated (bs ++ cs) i i'' where
  allocated := by rw [h'.allocated, h.allocated, List.append_assoc]
  allocations := by rw [h'.allocations, h.allocations, List.length_append, Nat.add_assoc]
  bytes := by rw [h'.bytes, h.bytes, List.sum_append, Nat.add_assoc]

/-- No block is allocated where arena and journal stay as they are. -/
theorem of_eq (harena : i'.arena = i.arena) (hjournal : i'.journal = i.journal) :
    Allocated [] i i' where
  allocated := by rw [Instance.allocated, Instance.events, hjournal, List.append_nil]; rfl
  allocations := by rw [harena]; rfl
  bytes := by rw [harena]; rfl

/-- An event that tells of no block changes nothing about blocks. -/
theorem log {e : Event} (he : e.block? = none) : Allocated [] i (i.log e) where
  allocated := by
    rw [Instance.allocated, Instance.events_log, List.filterMap_append, List.filterMap_cons_none he]
    rfl
  allocations := rfl
  bytes := rfl

/-- A block is allocated when it is counted and told of. -/
theorem counted (size address : UInt32) (i : Instance Code) :
    Allocated [size.toNat] i
      (({ i with arena := i.arena.count size } : Instance Code).log (.allocated size address)) where
  allocated := by
    rw [Instance.allocated, Instance.events_log, List.filterMap_append]
    rfl
  allocations := rfl
  bytes := by
    rw [List.sum_singleton]
    rfl

/-- What allocates nothing. -/
theorem sparing : Sparing (@Allocated Code []) where
  refl _ := of_eq rfl rfl
  trans h h' := h.trans h'
  modify _ hf i := of_eq (hf i).1 (hf i).2
  record _ he _ := log he

/-- An allocation in the arena is counted when it succeeds, and only then. -/
theorem alloc (size : UInt32) (i : Instance Code) :
    (∃ a i', exec (alloc size) i = (.ok a, i') ∧ Allocated [size.toNat] i i') ∨
      ∃ x i', exec (alloc size) i = (.error x, i') ∧ Allocated [] i i' := by
  have hmalloc := sparing.malloc size i
  unfold Effect.alloc
  rw [exec_bind]
  revert hmalloc
  rcases exec (malloc size) i with ⟨x | address, i₁⟩ <;> intro hmalloc
  · exact .inr ⟨x, i₁, rfl, hmalloc⟩
  · dsimp only
    split
    · exact .inr ⟨_, i₁, rfl, hmalloc⟩
    · exact .inl ⟨address, _, rfl, hmalloc.trans (counted size address i₁)⟩

/-- Every action allocates and counts some blocks. -/
theorem acting : Acting fun i i' : Instance Code => ∃ bs, Allocated bs i i' := by
  have hsparing : Sparing fun i i' : Instance Code => ∃ bs, Allocated bs i i' :=
    { refl := fun _ => ⟨[], of_eq rfl rfl⟩
      trans := fun ⟨_, h⟩ ⟨_, h'⟩ => ⟨_, h.trans h'⟩
      modify := fun f hf i => ⟨[], sparing.modify f hf i⟩
      record := fun e he i => ⟨[], sparing.record e he i⟩ }
  refine hsparing.acting fun size i => ?_
  rcases alloc size i with ⟨a, i', h, hi'⟩ | ⟨x, i', h, hi'⟩ <;> rw [h]
  · exact ⟨_, hi'⟩
  · exact ⟨_, hi'⟩

end Allocated

/-! ## The blocks of a value -/

namespace Value

/-- The block of a text of this length. The empty text takes none. -/
def blockOf (length : Nat) : List Nat := if length = 0 then [] else [length]

mutual

/-- The sizes of the blocks that a value takes, where `length` measures its texts and keys: a text
that is not empty takes one, the table of an array one, and those of an object two. -/
def blocks (length : String → Nat) : Value → List Nat
  | string t => blockOf (length t)
  | array items => 16 * items.length :: blocksItems length items
  | object entries =>
    8 * entries.length :: 16 * entries.length :: blocksEntries length entries
  | _ => []

/-- The blocks of items. -/
def blocksItems (length : String → Nat) : List Value → List Nat
  | [] => []
  | v :: rest => blocks length v ++ blocksItems length rest

/-- The blocks of keys and of the values of properties. -/
def blocksEntries (length : String → Nat) : List (String × Value) → List Nat
  | [] => []
  | (key, v) :: rest => blockOf (length key) ++ (blocks length v ++ blocksEntries length rest)

end

/-- The length of a text in bytes. -/
def utf8Length (t : String) : Nat := t.toUTF8.size

/-- The length of a text as a word, as it is staged. -/
def wordLength (t : String) : Nat := t.toUTF8.size.toUInt32.toNat

/-- The length of a text as a word is not more than its bytes. -/
theorem wordLength_le (t : String) : wordLength t ≤ utf8Length t := Nat.mod_le _ _

/-- It is the number of bytes exactly when that is a word. -/
theorem wordLength_eq_iff {t : String} :
    wordLength t = utf8Length t ↔ t.toUTF8.size < UInt32.size := by
  refine ⟨fun h => ?_, fun h => UInt32.toNat_ofNat_of_lt' h⟩
  show utf8Length t < UInt32.size
  rw [← h]
  exact UInt32.toNat_lt _

/-- The block of a text is as long as the text. -/
theorem sum_blockOf (n : Nat) : (blockOf n).sum = n := by
  unfold blockOf
  split
  · next h => rw [h]; rfl
  · exact List.sum_singleton

mutual

/-- Texts whose lengths are words are staged as they are. -/
theorem blocks_of_measured : ∀ (v : Value), v.Measured → v.blocks wordLength = v.blocks utf8Length
  | string t, h => by rw [blocks, blocks, wordLength_eq_iff.2 h]
  | array items, h => by rw [blocks, blocks, blocksItems_of_measured items h]
  | object entries, h => by rw [blocks, blocks, blocksEntries_of_measured entries h]
  | undefined, _ | null, _ | boolean _, _ | number _, _ | symbol _, _ | reference _, _
  | closure _, _ | window _, _ => rfl

/-- Items with texts whose lengths are words take the blocks of their texts. -/
theorem blocksItems_of_measured : ∀ (items : List Value), AllTextsItems MeasuredText items →
    blocksItems wordLength items = blocksItems utf8Length items
  | [], _ => rfl
  | v :: rest, h => by
    rw [blocksItems, blocksItems, blocks_of_measured v h.1, blocksItems_of_measured rest h.2]

/-- So do properties with such keys and texts. -/
theorem blocksEntries_of_measured : ∀ (entries : List (String × Value)),
    AllTextsEntries MeasuredText entries →
      blocksEntries wordLength entries = blocksEntries utf8Length entries
  | [], _ => rfl
  | (key, v) :: rest, h => by
    rw [blocksEntries, blocksEntries, wordLength_eq_iff.2 h.1, blocks_of_measured v h.2.1,
      blocksEntries_of_measured rest h.2.2]

end

mutual

/-- No more bytes are staged than a value has, and fewer when the length of a text is no word. -/
theorem sum_blocks_le_and_eq_iff : ∀ (v : Value),
    (v.blocks wordLength).sum ≤ (v.blocks utf8Length).sum ∧
      ((v.blocks wordLength).sum = (v.blocks utf8Length).sum ↔ v.Measured)
  | string t => by
    rw [blocks, blocks, sum_blockOf, sum_blockOf]
    exact ⟨wordLength_le t, wordLength_eq_iff⟩
  | array items => by
    obtain ⟨hle, hiff⟩ := sum_blocksItems_le_and_eq_iff items
    rw [blocks, blocks, List.sum_cons, List.sum_cons, Nat.add_le_add_iff_left,
      Nat.add_left_cancel_iff]
    exact ⟨hle, hiff⟩
  | object entries => by
    obtain ⟨hle, hiff⟩ := sum_blocksEntries_le_and_eq_iff entries
    simp only [blocks, List.sum_cons, Nat.add_le_add_iff_left, Nat.add_left_cancel_iff]
    exact ⟨hle, hiff⟩
  | undefined | null | boolean _ | number _ | symbol _ | reference _ | closure _ | window _ =>
    ⟨Nat.le_refl _, iff_of_true rfl trivial⟩

/-- Items take no more bytes than they have, and as many exactly when the lengths of their texts are
words. -/
theorem sum_blocksItems_le_and_eq_iff : ∀ (items : List Value),
    (blocksItems wordLength items).sum ≤ (blocksItems utf8Length items).sum ∧
      ((blocksItems wordLength items).sum = (blocksItems utf8Length items).sum ↔
        AllTextsItems MeasuredText items)
  | [] => ⟨Nat.le_refl _, iff_of_true rfl trivial⟩
  | v :: rest => by
    obtain ⟨hle, hiff⟩ := sum_blocks_le_and_eq_iff v
    obtain ⟨hle', hiff'⟩ := sum_blocksItems_le_and_eq_iff rest
    rw [blocksItems, blocksItems, List.sum_append, List.sum_append,
      add_eq_add_iff_eq_and_eq hle hle', hiff, hiff']
    exact ⟨Nat.add_le_add hle hle', Iff.rfl⟩

/-- So do properties. -/
theorem sum_blocksEntries_le_and_eq_iff : ∀ (entries : List (String × Value)),
    (blocksEntries wordLength entries).sum ≤ (blocksEntries utf8Length entries).sum ∧
      ((blocksEntries wordLength entries).sum = (blocksEntries utf8Length entries).sum ↔
        AllTextsEntries MeasuredText entries)
  | [] => ⟨Nat.le_refl _, iff_of_true rfl trivial⟩
  | (key, v) :: rest => by
    have hkey := wordLength_le key
    obtain ⟨hle, hiff⟩ := sum_blocks_le_and_eq_iff v
    obtain ⟨hle', hiff'⟩ := sum_blocksEntries_le_and_eq_iff rest
    simp only [blocksEntries, List.sum_append, sum_blockOf]
    rw [add_eq_add_iff_eq_and_eq hkey (Nat.add_le_add hle hle'),
      add_eq_add_iff_eq_and_eq hle hle', hiff, hiff', wordLength_eq_iff]
    exact ⟨Nat.add_le_add hkey (Nat.add_le_add hle hle'), Iff.rfl⟩

end

end Value

/-! ## What encoding takes -/

namespace Effect

/-- Where the effect comes to its end, blocks of the sizes `bs` were allocated, and no others. -/
def Costs (bs : List Nat) (e : Effect Code α) : Prop :=
  ∀ i a i', exec e i = (.ok a, i') → Allocated bs i i'

namespace Costs

variable {bs cs : List Nat} {e : Effect Code α} {f : α → Effect Code β}

/-- An effect that allocates nothing costs nothing. -/
theorem none (h : Keeps (Allocated []) e) : Costs [] e := fun i a i' hexec => by
  have hi := h i
  rwa [hexec] at hi

/-- Effects in a row cost the blocks of one and then those of the other. -/
theorem bind (he : Costs bs e) (hf : ∀ a, Costs cs (f a)) : Costs (bs ++ cs) (e >>= f) := by
  intro i b i' hexec
  rw [exec_bind] at hexec
  rcases h : exec e i with ⟨x | a, i₁⟩ <;> rw [h] at hexec
  · cases hexec
  · exact (he i a i₁ h).trans (hf a i₁ b i' hexec)

/-- What comes first allocates nothing. -/
theorem after (he : Keeps (Allocated []) e) (hf : ∀ a, Costs cs (f a)) : Costs cs (e >>= f) :=
  (none he).bind hf

/-- What comes last allocates nothing. -/
theorem before (he : Costs bs e) (hf : ∀ a, Keeps (Allocated []) (f a)) : Costs bs (e >>= f) :=
  List.append_nil bs ▸ he.bind fun a => none (hf a)

/-- An allocation costs the block that it asks for. -/
theorem alloc (size : UInt32) : Costs [size.toNat] (alloc size : Effect Code UInt32) := by
  intro i a i' hexec
  rcases Allocated.alloc size i with ⟨a', i'', h, hi⟩ | ⟨x, i'', h, hi⟩ <;> rw [hexec] at h
  · cases h
    exact hi
  · cases h

/-- A table takes a block of the size of its entries. -/
theorem table {n : Nat} {stride : UInt32} {f : UInt32 → Effect Code β}
    (hf : ∀ a, Costs bs (f a)) :
    Costs (stride.toNat * n :: bs)
      (tableSize n stride >>= fun size => Effect.alloc size >>= f) := by
  unfold tableSize
  cases h : Word.ofNat? (n * stride.toNat) with
  | none =>
    intro i a i' hexec
    cases hexec
  | some size =>
    rw [Word.ofNat?_eq_some_iff, Nat.mul_comm] at h
    rw [h]
    exact (alloc size).bind hf

end Costs

variable (address : UInt32)

/-- A text takes a block of its length, as a word, or none when that is zero. -/
theorem costs_storeText (t : String) :
    Costs (Value.blockOf (Value.wordLength t)) (storeText address t : Effect Code Unit) := by
  have h : Editing (@Allocated Code []) := Allocated.sparing.editing
  have hrest (pointer length : UInt32) : Keeps (Allocated []) (do
      writeWord address 0 pointer
      writeWord address 1 length : Effect Code Unit) :=
    h.bind (h.writeWord _ _ _) fun _ => h.writeWord _ _ _
  rw [storeText_eq]
  have hlength : 0 < t.toUTF8.size.toUInt32 ↔ Value.wordLength t ≠ 0 := by
    rw [UInt32.lt_iff_toNat_lt, UInt32.toNat_zero, Nat.pos_iff_ne_zero]
    rfl
  rw [Value.blockOf]
  by_cases hpos : 0 < t.toUTF8.size.toUInt32
  · rw [if_pos hpos, if_neg (hlength.1 hpos)]
    exact (Costs.alloc _).before fun _ => h.bind h.views fun _ => h.bind (h.write _ _ _) fun _ =>
      h.bind (h.pure _) fun _ => hrest _ _
  · rw [if_neg hpos, if_pos (not_not.1 (mt hlength.2 hpos))]
    exact .after (h.pure _) fun _ => .none (hrest _ _)

/-- Opening an array costs its table. -/
theorem costs_openArray (room n : Nat) :
    Costs [16 * n] (openArray address room n : Effect Code UInt32) := by
  have h : Editing (@Allocated Code []) := Allocated.sparing.editing
  exact .after (h.checkRoom _) fun _ => .table fun _ => .none <|
    h.bind h.get fun _ => h.bind (h.lift _) fun _ => h.bind (h.writeKind _ _) fun _ =>
      h.bind (h.writeWord _ _ _) fun _ => h.bind (h.writeWord _ _ _) fun _ => h.pure _

/-- Opening an object costs the table of its keys and that of its values. -/
theorem costs_openObject (room n : Nat) :
    Costs [8 * n, 16 * n] (openObject address room n : Effect Code (UInt32 × UInt32)) := by
  have h : Editing (@Allocated Code []) := Allocated.sparing.editing
  exact .after (h.checkRoom _) fun _ => .table fun _ => .table fun _ => .none <|
    h.bind (h.writeKind _ _) fun _ => h.bind h.get fun _ => h.bind (h.lift _) fun _ =>
      h.bind (h.writeWord _ _ _) fun _ => h.bind (h.writeWord _ _ _) fun _ =>
        h.bind h.get fun _ => h.bind (h.lift _) fun _ => h.bind (h.writeWord _ _ _) fun _ =>
          h.pure _

mutual

/-- Encoding a value takes its blocks, in order. -/
theorem costs_encodeAt (room : Nat) (address : UInt32) (v : Value) :
    Costs (v.blocks Value.wordLength) (encodeAt room address v : Effect Code Unit) := by
  have h : Editing (@Allocated Code []) := Allocated.sparing.editing
  have hhandle (v : Value) : Keeps (Allocated []) (encodeHandle address v : Effect Code Unit) :=
    h.bind (Allocated.sparing.acquire v) fun _ => h.bind (h.writeWord _ _ _) fun _ =>
      h.writeKind _ _
  unfold encodeAt
  refine .after (h.note _ rfl) fun _ => ?_
  cases v with
  | undefined => exact .none (h.writeKind _ _)
  | null => exact .none (h.writeKind _ _)
  | boolean b => exact .none (h.writeKind _ _)
  | number x => exact .none (h.encodeNumber _ _)
  | string t => exact (costs_storeText address t).before fun _ => h.writeKind _ _
  | array items => exact (costs_openArray address _ _).bind fun _ => costs_encodeItems _ _ _ items
  | object entries =>
    exact (costs_openObject address _ _).bind fun _ => costs_encodeEntries _ _ _ _ entries
  | symbol s =>
    exact .none <| h.bind (Allocated.sparing.registerRaw _) fun _ =>
      h.bind (h.writeWord _ _ _) fun _ => h.writeKind _ _
  | reference o => exact .none (hhandle _)
  | closure id => exact .none (hhandle _)
  | window w => exact .none (hhandle _)

/-- Items cost their blocks. -/
theorem costs_encodeItems (room : Nat) (table index : UInt32) (items : List Value) :
    Costs (Value.blocksItems Value.wordLength items)
      (encodeItems room table index items : Effect Code Unit) := by
  have h : Editing (@Allocated Code []) := Allocated.sparing.editing
  cases items with
  | nil => exact .none (h.pure _)
  | cons v rest =>
    unfold encodeItems
    exact .after (h.entryAddress _ _ _) fun _ => (costs_encodeAt _ _ v).bind fun _ =>
      costs_encodeItems _ _ _ rest

/-- Properties cost the blocks of their keys and values. -/
theorem costs_encodeEntries (room : Nat) (keys values index : UInt32)
    (entries : List (String × Value)) :
    Costs (Value.blocksEntries Value.wordLength entries)
      (encodeEntries room keys values index entries : Effect Code Unit) := by
  have h : Editing (@Allocated Code []) := Allocated.sparing.editing
  cases entries with
  | nil => exact .none (h.pure _)
  | cons entry rest =>
    obtain ⟨key, v⟩ := entry
    unfold encodeEntries
    exact .after (h.entryAddress _ _ _) fun _ => (costs_storeText _ key).bind fun _ =>
      .after (h.entryAddress _ _ _) fun _ => (costs_encodeAt _ _ v).bind fun _ =>
        costs_encodeEntries _ _ _ _ rest

end

/-- Preparing a value takes a slot and the blocks of the value. -/
theorem costs_prepare (v : Value) :
    Costs (16 :: v.blocks Value.wordLength) (prepare v : Effect Code UInt32) := by
  have h : Editing (@Allocated Code []) := Allocated.sparing.editing
  have hslot : Slot.size.toNat = 16 := rfl
  have hencode (slot : UInt32) :
      Costs (v.blocks Value.wordLength) (encode slot v : Effect Code Unit) :=
    .after h.get fun _ => costs_encodeAt _ _ v
  rw [← hslot]
  exact (Costs.alloc _).bind fun slot => (hencode slot).before fun _ => h.pure _

end Effect

/-! ## Runs -/

namespace Instance

/-- The counters of the arena tell of the blocks that were allocated. -/
structure Counted (i : Instance Code) : Prop where
  allocations : i.arena.allocations = i.allocated.length
  bytes : i.arena.bytes = i.allocated.sum

/-- The counters grew by a slot and by what the texts and tables in the value take. -/
structure Counts (v : Value) (i i' : Instance Code) : Prop where
  allocations : i'.arena.allocations =
    i.arena.allocations + (1 + (v.blocks Value.utf8Length).length)
  bytes : i'.arena.bytes = i.arena.bytes + (16 + (v.blocks Value.utf8Length).sum)

end Instance

/-- Counters that were right are right after allocations that were counted. -/
theorem Allocated.counted_of {bs : List Nat} {i i' : Instance Code} (h : Allocated bs i i')
    (hi : i.Counted) : i'.Counted where
  allocations := by rw [h.allocations, h.allocated, List.length_append, hi.allocations]
  bytes := by rw [h.bytes, h.allocated, List.sum_append, hi.bytes]

/-- What a prepared value takes is what is counted of it, but for texts whose length is no word. -/
theorem Allocated.counts_iff {v : Value} {i i' : Instance Code}
    (h : Allocated (16 :: v.blocks Value.wordLength) i i') : i.Counts v i' ↔ v.Measured := by
  have hallocations := h.allocations
  have hbytes := h.bytes
  rw [List.length_cons] at hallocations
  rw [List.sum_cons] at hbytes
  constructor
  · intro hcounts
    refine (Value.sum_blocks_le_and_eq_iff v).2.1 ?_
    have hcounted := hcounts.bytes
    omega
  · intro hmeasured
    rw [Value.blocks_of_measured v hmeasured] at hallocations hbytes
    exact ⟨by omega, by omega⟩

namespace Machine

variable (guest : Guest Code) (config : Config) (as : List (Action Code))

/-- After every run the counters tell of the blocks that were allocated in the arena, and an
allocation adds one of its size when it succeeds and none when it fails. A value that is prepared
takes a slot and the blocks of its texts and tables, where the length of a text is taken as a word;
so the counters grow by what is in the value exactly when all its lengths are words. -/
theorem prepare_counts_iff :
    ((boot guest config).runs as).inst.Counted ∧
    (∀ size r m', ((boot guest config).runs as).perform (.alloc size) = (r, m') →
      m'.inst.allocated = ((boot guest config).runs as).inst.allocated ++
        match r with
        | .ok _ => [size.toNat]
        | .error _ => []) ∧
    ∀ v slot m', ((boot guest config).runs as).perform (.prepare v) = (.ok slot, m') →
      m'.inst.allocated =
        ((boot guest config).runs as).inst.allocated ++ 16 :: v.blocks Value.wordLength ∧
      (((boot guest config).runs as).inst.Counts v m'.inst ↔ v.Measured) := by
  refine ⟨?_, fun size r m' h => ?_, fun v slot m' h => ?_⟩
  · obtain ⟨bs, hbs⟩ := Allocated.acting.runs (boot guest config) as
    exact hbs.counted_of ⟨rfl, rfl⟩
  · simp only [perform, run_eq, Prod.mk.injEq] at h
    obtain ⟨rfl, rfl⟩ := h
    rcases Allocated.alloc size ((boot guest config).runs as).inst with
      ⟨a, i', hexec, hi'⟩ | ⟨x, i', hexec, hi'⟩
    · have hrun : exec (Operation.alloc size).run ((boot guest config).runs as).inst =
        (.ok a, i') := hexec
      rw [hrun]
      exact hi'.allocated
    · have hrun : exec (Operation.alloc size).run ((boot guest config).runs as).inst =
        (.error x, i') := hexec
      rw [hrun]
      exact hi'.allocated
  · simp only [perform, run_eq, Prod.mk.injEq] at h
    obtain ⟨hslot, rfl⟩ := h
    have hcosts := costs_prepare v _ slot _ (Prod.ext hslot rfl)
    exact ⟨hcosts.allocated, hcosts.counts_iff⟩

end Machine

/-! ## A text that passes for an empty one -/

namespace Machine

/-- A machine on a guest of one page. -/
def paged : Machine Unit := boot (Guest.ofPages Unit 1 16) .standard

/-- It has room for values that are not too large. -/
theorem exec_prepare_paged (v : Value) (hdepth : v.depth ≤ 128) (hroom : v.extent ≤ 65536)
    (hloans : 1 + v.loans.length < UInt32.size) :
    ∃ slot i', exec (prepare v) paged.inst = (.ok slot, i') := by
  have hs : paged.inst.Sound := .ofGuest (by decide) (by decide) _
  have hlimit : 16 * 65536 ≤ paged.inst.guest.limit := Nat.le_max_right _ _
  have htop : paged.inst.guest.heapTop.toNat = 16 := rfl
  obtain ⟨slot, i', h, -⟩ := answers_prepare hs v hdepth (Nat.zero_le _) (by omega)
    (.ofGuest _ _ hloans)
  exact ⟨slot, i', h⟩

/-- The counters tell of an object with an array of two texts, one of them empty. -/
theorem prepare_counts_iff_nested :
    ∃ slot m', (paged.runs []).perform
        (.prepare (.object [("k", .array [.string "", .string "x"])])) = (.ok slot, m') ∧
      m'.inst.arena.allocations = 6 ∧ m'.inst.arena.bytes = 74 := by
  obtain ⟨slot, i', h⟩ := exec_prepare_paged (.object [("k", .array [.string "", .string "x"])])
    (by decide) (by decide) (by decide)
  have hperform : (paged.runs []).perform
      (.prepare (.object [("k", .array [.string "", .string "x"])])) =
        (.ok slot, { paged with inst := i' }) := perform_of_exec h
  obtain ⟨-, -, hprepared⟩ := prepare_counts_iff (Guest.ofPages Unit 1 16) .standard []
  have hmeasured : (Value.object [("k", .array [.string "", .string "x"])]).Measured :=
    ⟨(by decide : "k".toUTF8.size < UInt32.size),
      ⟨(by decide : "".toUTF8.size < UInt32.size), (by decide : "x".toUTF8.size < UInt32.size),
        trivial⟩, trivial⟩
  have hcounts := (hprepared _ slot _ hperform).2.2 hmeasured
  exact ⟨slot, _, hperform, hcounts.allocations.trans (by decide), hcounts.bytes.trans (by decide)⟩

/-- A text of 2³² letters is prepared, but counted as if it were empty. -/
theorem not_counts_wrapped :
    ∃ slot m', paged.perform (.prepare (.string (letters UInt32.size))) = (.ok slot, m') ∧
      m'.inst.arena.allocations = 1 ∧ m'.inst.arena.bytes = 16 ∧
      ¬ paged.inst.Counts (.string (letters UInt32.size)) m'.inst := by
  have hlength : Value.utf8Length (letters UInt32.size) = UInt32.size := size_letters _
  have hprepare : (prepare (Value.string (letters UInt32.size)).stored : Effect Unit UInt32) = _ :=
    prepare_stored _
  rw [Value.stored, storedText_letters] at hprepare
  generalize letters UInt32.size = t at *
  have hzero : Value.wordLength t = 0 := by
    show (Value.utf8Length t).toUInt32.toNat = 0
    rw [hlength]
    decide
  obtain ⟨slot, i', h⟩ := exec_prepare_paged (.string "") (by decide) (by decide) (by decide)
  rw [hprepare] at h
  have hcosts := costs_prepare (.string t) _ slot _ h
  have hblocks : (Value.string t).blocks Value.wordLength = [] := by
    rw [Value.blocks, hzero]
    rfl
  rw [hblocks] at hcosts
  refine ⟨slot, _, perform_of_exec h, hcosts.allocations, hcosts.bytes, fun hcounts => ?_⟩
  have hbytes := hcosts.bytes.symm.trans hcounts.bytes
  rw [Value.blocks, Value.sum_blockOf, hlength] at hbytes
  exact absurd (Nat.add_left_cancel hbytes) (by decide)

end Machine

end

end Crossing
