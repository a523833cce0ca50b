import Crossing.Proofs.Machine.Run

/-!
# The faults of encoding

Encoding a value faults for want of room only: an access outside of memory or at an odd address, an
address below the arena, a block that the allocator refuses, values that nest too deep. In
particular it never faults as a closure does that is used against its contract, so that such a fault
of a call comes from the checks of the call (`raises_marshal`).

`Raises P e` says that `e` faults with faults of `P` only, from any instance. The rules follow the
effect.
-/

namespace Crossing

open Effect

section
variable {Code α β : Type}

namespace Effect

/-- All faults of the effect satisfy `P`. -/
def Raises (P : Fault → Prop) (e : Effect Code α) : Prop :=
  ∀ i x, (exec e i).1 = .error x → P x

namespace Raises

variable {P : Fault → Prop} {e : Effect Code α} {f : α → Effect Code β}

/-- An effect that always answers. -/
theorem of_ok (h : ∀ i, ∃ a, (exec e i).1 = .ok a) : Raises P e := by
  intro i x hx
  obtain ⟨a, ha⟩ := h i
  rw [ha] at hx
  cases hx

/-- An answer that is there is no fault. -/
theorem pure (a : α) : Raises P (Pure.pure a : Effect Code α) := of_ok fun _ => ⟨a, rfl⟩

/-- Reading the state raises none. -/
theorem get : Raises P (get : Effect Code _) := of_ok fun i => ⟨i, rfl⟩

/-- Nor does changing it. -/
theorem modify (f : Instance Code → Instance Code) : Raises P (modify f : Effect Code Unit) :=
  of_ok fun _ => ⟨(), rfl⟩

/-- Nor does telling of an event. -/
theorem record (e : Event) : Raises P (record e : Effect Code Unit) := modify _

/-- A fault is the one that is thrown. -/
theorem throw {x : Fault} (h : P x) : Raises P (throw x : Effect Code α) := by
  rintro i _ ⟨⟩
  exact h

/-- A check that needs no instance. -/
theorem lift {r : Except Fault α} (h : ∀ x, r = .error x → P x) :
    Raises P (liftM r : Effect Code α) := by
  intro i x hx
  rw [exec_liftExcept] at hx
  exact h x hx

/-- The faults of effects in a row are those of one or of the other. -/
theorem bind (he : Raises P e) (hf : ∀ a, Raises P (f a)) : Raises P (e >>= f) := by
  intro i x hx
  rw [exec_bind] at hx
  cases hr : exec e i with
  | mk r i' =>
    rw [hr] at hx
    cases r with
    | ok a => exact hf a i' x hx
    | error y =>
      cases hx
      exact he i x (by rw [hr])

/-- What is caught is not raised. -/
theorem tryCatch {h : Fault → Effect Code α} (hh : ∀ x, Raises P (h x)) :
    Raises P (tryCatch e h) := by
  intro i x hx
  rw [exec_tryCatch] at hx
  cases hr : exec e i with
  | mk r i' =>
    rw [hr] at hx
    cases r with
    | ok a => cases hx
    | error y => exact hh y i' x hx

/-- A check that may fault before the rest. -/
theorem guard {c : Prop} [Decidable c] {x : Fault} {rest : Unit → Effect Code α} (hx : P x)
    (h : Raises P (rest ())) :
    Raises P (if c then MonadExcept.throw x >>= rest else rest ()) := by
  split
  · exact (throw hx).bind fun _ => h
  · exact h

end Raises

end Effect

/-! ## Memory -/

/-- Whether the fault is one of memory, of the arena or of nesting, or an overflow of the host's. -/
def Fault.isStaging : Fault → Bool
  | .outOfBounds _ _ _ | .misaligned _ _ | .outsideArena _ _ | .allocationFailed _ | .tooDeep _
  | .overflow => true
  | _ => false

/-- A fault for want of room is no fault of a closure. -/
theorem Fault.isClosureFault_of_isStaging {x : Fault} (h : x.isStaging) :
    x.isClosureFault = false := by
  cases x <;> first | rfl | cases h

/-- The effect faults for want of room only. -/
abbrev Effect.Stages (e : Effect Code α) : Prop := Raises (fun x => x.isStaging) e

namespace Effect

/-- Asking for views raises no fault. -/
theorem stages_views : Stages (views : Effect Code Views) := by
  refine .of_ok fun i => ?_
  unfold views
  rw [exec_bind_of_ok (exec_get i)]
  cases i.views with
  | some v => exact ⟨v, rfl⟩
  | none => exact ⟨_, rfl⟩

/-- Nor does looking up a buffer. -/
theorem stages_buffer (id : Nat) : Stages (buffer id : Effect Code Buffer) :=
  .of_ok fun i => ⟨i.guest.store.buffer id, rfl⟩

/-- A write faults when it does not lie in memory. -/
theorem stages_write (id : Nat) (address : UInt32) (data : ByteArray) :
    Stages (write id address data : Effect Code Unit) := by
  refine (stages_buffer id).bind fun b => (Raises.lift fun x hx => ?_).bind fun _ => .modify _
  unfold Buffer.check at hx
  split at hx <;> cases hx
  rfl

/-- So does one by index. -/
theorem stages_setElement (id : Nat) (k : ElementKind) (index : UInt32) (x : k.Carrier) :
    Stages (setElement id k index x : Effect Code Unit) := by
  refine (stages_buffer id).bind fun b =>
    (Raises.lift fun x hx => ?_).bind fun _ => stages_write _ _ _
  unfold Buffer.elementAddress at hx
  split at hx <;> cases hx
  rfl

/-- So does one by address, and when that is not aligned. -/
theorem stages_store (id : Nat) (k : ElementKind) (address : UInt32) (x : k.Carrier) :
    Stages (store id k address x : Effect Code Unit) := by
  refine (Raises.lift fun x hx => ?_).bind fun _ => stages_setElement _ _ _ _
  unfold Buffer.elementIndex at hx
  split at hx <;> cases hx
  rfl

/-- A part of a slot may lie above all addresses. -/
theorem stages_slotPart (v : Views) (address : UInt32) (part : Option UInt32) :
    Stages (slotPart v address part : Effect Code UInt32) := by
  unfold slotPart
  cases part with
  | some a => exact .pure a
  | none => exact (stages_buffer _).bind fun _ => .throw rfl

/-- A word of a slot is written or has no room in memory. -/
theorem stages_writeWord (address index value : UInt32) :
    Stages (writeWord address index value : Effect Code Unit) :=
  stages_views.bind fun _ => (stages_slotPart _ _ _).bind fun _ => stages_store _ _ _ _

/-- So is the kind. -/
theorem stages_writeKind (address : UInt32) (kind : SlotKind) :
    Stages (writeKind address kind : Effect Code Unit) :=
  stages_views.bind fun _ => (stages_slotPart _ _ _).bind fun _ => stages_setElement _ _ _ _

/-- An entry of a table may lie above all addresses. -/
theorem stages_entryAddress (base index stride : UInt32) :
    Stages (entryAddress base index stride : Effect Code UInt32) := by
  unfold entryAddress
  split
  · exact .pure _
  · exact stages_views.bind fun _ => (stages_buffer _).bind fun _ => .throw rfl

/-! ## Blocks -/

/-- The guest may have no block left. -/
theorem stages_malloc (size : UInt32) : Stages (malloc size : Effect Code UInt32) := by
  have hbump : Stages (bump size : Effect Code UInt32) := by
    refine Raises.get.bind fun i => (Raises.lift fun x hx => ?_).bind fun start => ?_
    · rcases Nat.lt_or_ge (i.guest.heapTop.toNat + 8) UInt32.size with hlt | hle
      · obtain ⟨start, haligned, -⟩ := aligned_of_lt hlt
        rw [haligned] at hx
        cases hx
      · rw [aligned_of_le hle] at hx
        cases hx
        rfl
    dsimp only
    split
    · exact .throw rfl
    · split
      · have hgrow (pages : UInt32) : Stages (tryCatch (grow pages) fun _ =>
            throw (.allocationFailed size) : Effect Code Unit) := .tryCatch fun _ => .throw rfl
        exact (hgrow _).bind fun _ => (Raises.modify _).bind fun _ => .pure _
      · exact (Raises.modify _).bind fun _ => .pure _
  refine Raises.get.bind fun i => (Raises.modify _).bind fun _ => ?_
  split
  · split
    · exact .pure _
    · exact hbump
  · exact hbump

/-- Then the arena has none either. -/
theorem stages_alloc (size : UInt32) : Stages (alloc size : Effect Code UInt32) :=
  (stages_malloc size).bind fun _ => .guard rfl <|
    (Raises.modify _).bind fun _ => (Raises.record _).bind fun _ => .pure _

/-- Too many arrays and objects may be open. -/
theorem stages_checkRoom (room : Nat) : Stages (checkRoom room : Effect Code Unit) := by
  unfold checkRoom
  split
  · exact Raises.get.bind fun _ => .throw rfl
  · exact .pure _

/-- The size of a table may be no word. -/
theorem stages_tableSize (n : Nat) (stride : UInt32) :
    Stages (tableSize n stride : Effect Code UInt32) := by
  unfold tableSize
  split
  · exact .pure _
  · exact .throw rfl

/-- A block may lie below the base of the arena. -/
theorem stages_offset (a : Arena) (address : UInt32) :
    Stages (liftM (a.offset address) : Effect Code UInt32) := by
  refine .lift fun x hx => ?_
  unfold Arena.offset at hx
  split at hx <;> cases hx
  rfl

/-- A text may find no block, or have no room in it. -/
theorem stages_storeText (address : UInt32) (text : String) :
    Stages (storeText address text : Effect Code Unit) := by
  have hwords (pointer length : UInt32) : Stages (do
      writeWord address 0 pointer
      writeWord address 1 length : Effect Code Unit) :=
    (stages_writeWord _ _ _).bind fun _ => stages_writeWord _ _ _
  rw [storeText_eq]
  split
  · exact (stages_alloc _).bind fun _ => stages_views.bind fun _ => (stages_write _ _ _).bind
      fun _ => (Raises.pure _).bind fun _ => hwords _ _
  · exact (Raises.pure _).bind fun _ => hwords _ _

/-! ## Values -/

/-- A number needs its slot only. -/
theorem stages_encodeNumber (address : UInt32) (x : Double) :
    Stages (encodeNumber address x : Effect Code Unit) := by
  unfold encodeNumber
  split <;>
    exact stages_views.bind fun _ => (stages_store _ _ _ _).bind fun _ => stages_writeKind _ _

/-- The table of handles may be at its end. -/
theorem stages_acquire (v : Value) : Stages (acquire v : Effect Code UInt32) := by
  refine Raises.get.bind fun i => .guard rfl <| (Raises.modify _).bind fun _ => ?_
  split
  · exact .pure _
  · exact (Raises.record _).bind fun _ => .pure _

/-- The numbers of symbols may be at their end. -/
theorem stages_registerRaw (v : Value) : Stages (registerRaw v : Effect Code UInt32) :=
  Raises.get.bind fun _ => .guard rfl <| (Raises.modify _).bind fun _ => .pure _

/-- A value that is lent needs a handle and its slot. -/
theorem stages_encodeHandle (address : UInt32) (v : Value) :
    Stages (encodeHandle address v : Effect Code Unit) :=
  (stages_acquire v).bind fun _ => (stages_writeWord _ _ _).bind fun _ => stages_writeKind _ _

/-- An array needs its opening and its table. -/
theorem stages_openArray (address : UInt32) (room n : Nat) :
    Stages (openArray address room n : Effect Code UInt32) :=
  (stages_checkRoom room).bind fun _ => (stages_tableSize _ _).bind fun _ =>
    (stages_alloc _).bind fun _ => Raises.get.bind fun _ => (stages_offset _ _).bind fun _ =>
      (stages_writeKind _ _).bind fun _ => (stages_writeWord _ _ _).bind fun _ =>
        (stages_writeWord _ _ _).bind fun _ => .pure _

/-- An object needs its opening and its two tables. -/
theorem stages_openObject (address : UInt32) (room n : Nat) :
    Stages (openObject address room n : Effect Code (UInt32 × UInt32)) :=
  (stages_checkRoom room).bind fun _ => (stages_tableSize _ _).bind fun _ =>
    (stages_alloc _).bind fun _ => (stages_tableSize _ _).bind fun _ =>
      (stages_alloc _).bind fun _ => (stages_writeKind _ _).bind fun _ => Raises.get.bind fun _ =>
        (stages_offset _ _).bind fun _ => (stages_writeWord _ _ _).bind fun _ =>
          (stages_writeWord _ _ _).bind fun _ => Raises.get.bind fun _ =>
            (stages_offset _ _).bind fun _ => (stages_writeWord _ _ _).bind fun _ => .pure _

mutual

/-- A value is encoded or there is no room for it. -/
theorem stages_encodeAt (room : Nat) (address : UInt32) (v : Value) :
    Stages (encodeAt room address v : Effect Code Unit) := by
  unfold encodeAt
  refine (Raises.record _).bind fun _ => ?_
  cases v with
  | undefined => exact stages_writeKind _ _
  | null => exact stages_writeKind _ _
  | boolean b => exact stages_writeKind _ _
  | number x => exact stages_encodeNumber _ _
  | string text => exact (stages_storeText _ _).bind fun _ => stages_writeKind _ _
  | array items =>
    exact (stages_openArray _ _ _).bind fun table => stages_encodeItems _ table 0 items
  | object entries =>
    exact (stages_openObject _ _ _).bind fun _ => stages_encodeEntries _ _ _ 0 entries
  | symbol s =>
    exact (stages_registerRaw _).bind fun _ => (stages_writeWord _ _ _).bind fun _ =>
      stages_writeKind _ _
  | reference o => exact stages_encodeHandle _ _
  | closure id => exact stages_encodeHandle _ _
  | window w => exact stages_encodeHandle _ _

/-- Items are encoded or lack room. -/
theorem stages_encodeItems (room : Nat) (table index : UInt32) (items : List Value) :
    Stages (encodeItems room table index items : Effect Code Unit) := by
  cases items with
  | nil => exact .pure _
  | cons v rest =>
    unfold encodeItems
    exact (stages_entryAddress _ _ _).bind fun address =>
      (stages_encodeAt room address v).bind fun _ => stages_encodeItems room table (index + 1) rest

/-- So are properties. -/
theorem stages_encodeEntries (room : Nat) (keys values index : UInt32)
    (entries : List (String × Value)) :
    Stages (encodeEntries room keys values index entries : Effect Code Unit) := by
  cases entries with
  | nil => exact .pure _
  | cons entry rest =>
    obtain ⟨key, v⟩ := entry
    unfold encodeEntries
    exact (stages_entryAddress _ _ _).bind fun _ => (stages_storeText _ _).bind fun _ =>
      (stages_entryAddress _ _ _).bind fun address => (stages_encodeAt room address v).bind
        fun _ => stages_encodeEntries room keys values (index + 1) rest

end

/-- The arguments of a call are encoded or there is no room for them. -/
theorem stages_marshal (arguments : List Value) :
    Stages (marshal arguments : Effect Code UInt32) :=
  (stages_alloc _).bind fun _ =>
    (Raises.get.bind fun _ => (stages_openArray _ _ _).bind fun _ =>
      stages_encodeItems _ _ _ arguments).bind fun _ => .pure _

/-- A function of the table is called or there is none that fits. -/
theorem raises_target (callee : Callee) (index : UInt32) (signature : Signature)
    (words : List UInt32) :
    Raises (fun x => x.isClosureFault = false)
      (target callee index signature words : Effect Code Code) := by
  refine (Raises.record _).bind fun _ => .guard rfl <| Raises.get.bind fun i => ?_
  split
  · exact .pure _
  · exact .throw rfl

end Effect

end

end Crossing
