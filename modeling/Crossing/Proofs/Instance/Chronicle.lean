import Crossing.Proofs.Machine.Run

/-!
# Memory, tables and the chronicle

Most effects change memory, tables and counters only. A relation that looks at none of these, but at
the journal, the transfer slot and the closures, is `Oblivious`. `Oblivious.operating` says that
such a relation is kept by every operation as soon as the few steps keep it that wrap a closure or
touch the transfer slot. What writes slots, tables and texts does less: it leaves the guest's
functions, both tables, the closures and the transfer slot as they were (`Confined.writing`).

The other way round, a relation is `Overlooking` when it passes over calls, closures and the
transfer slot. `Overlooking.acting` says that it is kept by every action as soon as the steps keep
it that change memory, tables or the marks of a started and of a dead instance.
-/

namespace Crossing

open Effect

section
variable {Code : Type}

/-- Whether an event is about neither the transfer slot nor a closure. -/
def Event.isMinor : Event → Bool
  | .parked _ | .taken _ | .aborted _ | .wrapped _ _ | .called _ _ _ => false
  | _ => true

/-- An event about slots is about neither the transfer slot nor a closure. -/
theorem Event.isMinor_of_isNote {e : Event} (he : e.isNote) : e.isMinor := by
  cases e <;> simp_all [isNote, isMinor]

/-- The instances differ in memory, allocator, arena, views and journal at most. -/
structure Confined (i i' : Instance Code) : Prop where
  functions : i'.guest.functions = i.guest.functions
  handles : i'.handles = i.handles
  raw : i'.raw = i.raw
  closures : i'.closures = i.closures
  transfer : i'.transfer = i.transfer
  started : i'.started = i.started
  dead : i'.dead = i.dead

/-- The relation `R` passes over confined changes and over the events that tell of them. -/
structure Allocating (R : Instance Code → Instance Code → Prop) : Prop extends Steady R where
  modify : ∀ f : Instance Code → Instance Code,
    (∀ i, Confined i (f i) ∧ (f i).journal = i.journal) → Keeps R (modify f)
  record : ∀ e : Event, e.isMinor → Keeps R (record e)

namespace Allocating

variable {R : Instance Code → Instance Code → Prop}

/-- Publishing views is kept. -/
theorem publish (h : Allocating R) : Keeps R publish :=
  h.bind h.get fun _ => h.bind (h.record _ rfl) fun _ =>
    h.bind (h.modify _ fun _ => ⟨by constructor <;> rfl, rfl⟩) fun _ => h.pure _

/-- So is writing into a buffer. -/
theorem write (h : Allocating R) (id : Nat) (address : UInt32) (data : ByteArray) :
    Keeps R (write id address data) :=
  h.bind (h.bind h.get fun _ => h.pure _) fun _ => h.bind (h.lift _) fun _ =>
    h.modify _ fun _ => ⟨by constructor <;> rfl, rfl⟩

/-- So is growth. -/
theorem grow (h : Allocating R) (delta : UInt32) : Keeps R (grow delta) :=
  h.bind h.get fun _ => h.bind (h.lift _) fun _ => h.guard <|
    h.bind (h.modify _ fun _ => ⟨by constructor <;> rfl, rfl⟩) fun _ =>
      h.bind (h.record _ rfl) fun _ => Steady.map _ h.publish

/-- So is a request to the guest's allocator. -/
theorem malloc (h : Allocating R) (size : UInt32) : Keeps R (malloc size) :=
  h.toSteady.malloc h.grow (fun _ => h.modify _ fun _ => ⟨by constructor <;> rfl, rfl⟩)
    (h.modify _ fun _ => ⟨by constructor <;> rfl, rfl⟩) size

/-- Such a relation is kept by all that writes slots, tables and texts. -/
theorem writing (h : Allocating R) : Writing R where
  toSteady := h.toSteady
  note _ he := h.record _ (Event.isMinor_of_isNote he)
  publish := h.publish
  write := h.write
  malloc := h.malloc
  alloc size := h.toSteady.alloc (h.malloc size)
    (h.modify _ fun _ => ⟨by constructor <;> rfl, rfl⟩) fun _ => h.record _ rfl

end Allocating

/-- Allocating, growing and publishing are confined. -/
theorem Confined.allocating : Allocating fun i i' : Instance Code => Confined i i' where
  refl _ := by constructor <;> rfl
  trans h h' :=
    { functions := h'.functions.trans h.functions
      handles := h'.handles.trans h.handles
      raw := h'.raw.trans h.raw
      closures := h'.closures.trans h.closures
      transfer := h'.transfer.trans h.transfer
      started := h'.started.trans h.started
      dead := h'.dead.trans h.dead }
  modify _ hf i := (hf i).1
  record _ _ _ := by constructor <;> rfl

/-- What writes slots, tables and texts changes nothing else. -/
theorem Confined.writing : Writing fun i i' : Instance Code => Confined i i' :=
  Confined.allocating.writing

/-- The relation `R` looks at the journal, the transfer slot and the closures only, and passes over
the events that are about neither of the latter. -/
structure Oblivious (R : Instance Code → Instance Code → Prop) : Prop extends Steady R where
  modify : ∀ f : Instance Code → Instance Code,
    (∀ i, (f i).journal = i.journal ∧ (f i).transfer = i.transfer ∧
      (f i).closures = i.closures) → Keeps R (modify f)
  record : ∀ e : Event, e.isMinor → Keeps R (record e)

namespace Oblivious

variable {R : Instance Code → Instance Code → Prop}

/-- A relation that looks at journal, transfer slot and closures only passes over allocations. -/
theorem allocating (h : Oblivious R) : Allocating R where
  toSteady := h.toSteady
  modify f hf := h.modify f fun i => ⟨(hf i).2, (hf i).1.transfer, (hf i).1.closures⟩
  record := h.record

/-- Such a relation is kept by every operation that parks no value when the steps keep it that wrap
a closure or empty the transfer slot. -/
theorem serving (h : Oblivious R)
    (wrap : ∀ kind adapter pointer deallocator, Keeps R (wrap kind adapter pointer deallocator))
    (takeTransfer : Keeps R takeTransfer)
    (abort : ∀ report, Keeps R (abort report : Effect Code Unit)) : Serving R where
  toWriting := h.allocating.writing
  acquire := h.toSteady.acquire (fun _ => h.modify _ fun _ => ⟨rfl, rfl, rfl⟩)
    (fun _ _ => h.record _ rfl) fun _ _ => h.record _ rfl
  registerRaw := h.toSteady.registerRaw fun _ => h.modify _ fun _ => ⟨rfl, rfl, rfl⟩
  wrap := wrap
  grow := h.allocating.grow
  free _ := h.modify _ fun _ => ⟨rfl, rfl, rfl⟩
  copies _ := h.modify _ fun _ => ⟨rfl, rfl, rfl⟩
  increment := h.toSteady.increment fun _ => h.modify _ fun _ => ⟨rfl, rfl, rfl⟩
  decrement := h.toSteady.decrement (fun _ => h.modify _ fun _ => ⟨rfl, rfl, rfl⟩) fun _ =>
    h.record _ rfl
  unregisterRaw := h.toSteady.unregisterRaw fun _ => h.modify _ fun _ => ⟨rfl, rfl, rfl⟩
  register _ := h.bind h.get fun _ => h.bind (h.modify _ fun _ => ⟨rfl, rfl, rfl⟩) fun _ =>
    h.pure _
  unregister _ := h.modify _ fun _ => ⟨rfl, rfl, rfl⟩
  setEntryPoint _ := h.modify _ fun _ => ⟨rfl, rfl, rfl⟩
  addCapability _ _ := h.modify _ fun _ => ⟨rfl, rfl, rfl⟩
  takeTransfer := takeTransfer
  abort := abort

/-- Such a relation is kept by every operation when the steps keep it that wrap a closure or touch
the transfer slot. -/
theorem operating (h : Oblivious R)
    (wrap : ∀ kind adapter pointer deallocator, Keeps R (wrap kind adapter pointer deallocator))
    (park : ∀ v, Keeps R (park v)) (takeTransfer : Keeps R takeTransfer)
    (abort : ∀ report, Keeps R (abort report : Effect Code Unit)) : Operating R where
  toServing := h.serving wrap takeTransfer abort
  park := park

end Oblivious

/-! ## What is beside memory and tables -/

/-- Whether an event tells of a call, a closure or the transfer slot. -/
def Event.isAside : Event → Bool
  | .wrapped _ _ | .called _ _ _ | .dropDeferred _ _ | .dropping _ _ _ | .parked _ | .taken _
  | .starting _ | .invoked _ _ => true
  | _ => false

/-- An event about an entry is about a call. -/
theorem Event.isAside_of_isEntry {e : Event} (he : e.isEntry) : e.isAside := by
  cases e <;> simp_all [isEntry, isAside]

/-- So is one about a call by index or a drop. -/
theorem Event.isAside_of_isStep {e : Event} (he : e.isStep) : e.isAside := by
  cases e <;> simp_all [isStep, isAside]

/-- The instances differ in the guest's functions, closures, transfer slot, capabilities and counts
of what was freed, copied and asked for at most. -/
structure Beside (i i' : Instance Code) : Prop where
  store : i'.guest.store = i.guest.store
  memory : i'.guest.memory = i.guest.memory
  heapTop : i'.guest.heapTop = i.guest.heapTop
  maxPages : i'.guest.maxPages = i.guest.maxPages
  allowance : i'.guest.allowance = i.guest.allowance
  config : i'.config = i.config
  arena : i'.arena = i.arena
  views : i'.views = i.views
  handles : i'.handles = i.handles
  raw : i'.raw = i.raw
  started : i'.started = i.started
  dead : i'.dead = i.dead
  journal : i'.journal = i.journal

/-- The relation `R` passes over what is beside memory, tables and marks, and is kept by the steps
that change these. -/
structure Overlooking (R : Instance Code → Instance Code → Prop) : Prop extends Encoding R where
  started : Keeps R (modify fun i => { i with started := true })
  modify : ∀ f : Instance Code → Instance Code, (∀ i, Beside i (f i)) → Keeps R (modify f)
  record : ∀ e : Event, e.isAside → Keeps R (record e)
  grow : ∀ delta, Keeps R (grow delta)
  increment : ∀ id, Keeps R (increment id)
  decrement : ∀ id, Keeps R (decrement id)
  unregisterRaw : ∀ id, Keeps R (unregisterRaw id)
  abort : ∀ report, Keeps R (abort report : Effect Code Unit)

/-- Such a relation is kept by every action. -/
theorem Overlooking.acting {R : Instance Code → Instance Code → Prop} (h : Overlooking R) :
    Acting R where
  toEncoding := h.toEncoding
  wrap _ _ _ _ := h.bind h.get fun _ => h.bind (h.record _ rfl) fun _ =>
    h.bind (h.modify _ fun _ => by constructor <;> rfl) fun _ => h.pure _
  grow := h.grow
  free _ := h.modify _ fun _ => by constructor <;> rfl
  copies _ := h.modify _ fun _ => by constructor <;> rfl
  increment := h.increment
  decrement := h.decrement
  unregisterRaw := h.unregisterRaw
  register _ := h.bind h.get fun _ =>
    h.bind (h.modify _ fun _ => by constructor <;> rfl) fun _ => h.pure _
  unregister _ := h.modify _ fun _ => by constructor <;> rfl
  setEntryPoint _ := h.modify _ fun _ => by constructor <;> rfl
  addCapability _ _ := h.modify _ fun _ => by constructor <;> rfl
  park _ := h.bind (h.record _ rfl) fun _ => h.modify _ fun _ => by constructor <;> rfl
  takeTransfer := h.toSteady.takeTransfer (fun _ => h.record _ rfl) <|
    h.modify _ fun _ => by constructor <;> rfl
  abort := h.abort
  entry _ he := h.record _ (Event.isAside_of_isEntry he)
  started := h.started
  step _ he := h.record _ (Event.isAside_of_isStep he)
  updateClosure _ _ := h.modify _ fun _ => by constructor <;> rfl

end

end Crossing
