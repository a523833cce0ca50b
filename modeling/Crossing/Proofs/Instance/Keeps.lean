import Crossing.Proofs.Instance.Exec

/-!
# What effects keep

An effect keeps a relation between instances when it holds between any instance and the one that the
effect leaves, whether it faults or not. `Editing` says that a relation is kept by the steps that
slots are read and written with; `Writing` adds those that ask for a block, as tables and texts
need one, `Encoding` those that lend a value, and `Marshalling` the one that wraps a closure.
`Encoding.encodeAt` and `Marshalling.decodeAt` conclude that the relation is kept for values of any
shape. `Serving` adds the steps that only operations take, and `Serving.run` concludes that every
operation keeps the relation that parks no value; `Operating` and `Operating.run` are about all of
them.
-/

namespace Crossing

section
variable {Code α β : Type}

namespace Effect

/-- The effect keeps the relation `R`. -/
def Keeps (R : Instance Code → Instance Code → Prop) (e : Effect Code α) : Prop :=
  ∀ i, R i (exec e i).2

end Effect

open Effect

/-- The relation `R` holds over any number of steps when it holds over each. -/
structure Steady (R : Instance Code → Instance Code → Prop) : Prop where
  refl : ∀ i, R i i
  trans : ∀ {i i' i''}, R i i' → R i' i'' → R i i''

namespace Steady

variable {R : Instance Code → Instance Code → Prop}

/-- An answer that is there keeps every relation. -/
theorem pure (h : Steady R) (a : α) : Keeps R (Pure.pure a : Effect Code α) := h.refl

/-- So does a fault. -/
theorem throw (h : Steady R) (x : Fault) : Keeps R (throw x : Effect Code α) := h.refl

/-- So does looking at the state. -/
theorem get (h : Steady R) : Keeps R (get : Effect Code _) := h.refl

/-- So does a check. -/
theorem lift (h : Steady R) (r : Except Fault α) : Keeps R (liftM r : Effect Code α) :=
  fun i => by
  rw [exec_liftExcept]
  exact h.refl i

/-- Effects in a row keep what each of them keeps. -/
theorem bind (h : Steady R) {e : Effect Code α} {f : α → Effect Code β} (he : Keeps R e)
    (hf : ∀ a, Keeps R (f a)) : Keeps R (e >>= f) := fun i => by
  have hi := he i
  rw [exec_bind]
  revert hi
  rcases exec e i with ⟨x | a, i'⟩
  · exact id
  · exact fun hi => h.trans hi (hf a i')

/-- An effect and the handling of its faults keep what both keep. -/
theorem tryCatch (h : Steady R) {e : Effect Code α} {f : Fault → Effect Code α}
    (he : Keeps R e) (hf : ∀ x, Keeps R (f x)) : Keeps R (tryCatch e f) := fun i => by
  have hi := he i
  rw [exec_tryCatch]
  revert hi
  rcases exec e i with ⟨x | a, i'⟩
  · exact fun hi => h.trans hi (hf x i')
  · exact id

/-- A check that may fault before the rest. -/
theorem guard (h : Steady R) {c : Prop} [Decidable c] {x : Fault} {rest : Unit → Effect Code α}
    (hrest : Keeps R (rest ())) :
    Keeps R (if c then MonadExcept.throw x >>= rest else rest ()) := by
  split
  · exact h.refl
  · exact hrest

/-- A function of the answer keeps what the effect keeps. -/
theorem map (g : α → β) {e : Effect Code α} (he : Keeps R e) : Keeps R (g <$> e) := fun i => by
  rw [exec_map]
  exact he i

/-- An effect for each item of a list keeps what it keeps for each. -/
theorem mapM (h : Steady R) {f : α → Effect Code β} (hf : ∀ a, Keeps R (f a))
    (as : List α) : Keeps R (as.mapM f) := by
  induction as with
  | nil => exact h.pure _
  | cons a as ih =>
    rw [List.mapM_cons]
    exact h.bind (hf a) fun b => h.bind ih fun bs => h.pure _

/-- The guest's allocator grows memory, moves the heap's top and counts the request. -/
theorem malloc (h : Steady R) (hgrow : ∀ delta, Keeps R (grow delta))
    (htop : ∀ stop, Keeps R (modify fun i => { i with guest := { i.guest with heapTop := stop } }))
    (hcount : Keeps R
      (modify fun i => { i with guest := { i.guest with requests := i.guest.requests + 1 } }))
    (size : UInt32) : Keeps R (malloc size) := by
  have hbump : Keeps R (bump size) := by
    refine h.bind h.get fun i => h.bind (h.lift _) fun start => ?_
    dsimp only
    split
    · exact h.throw _
    · split
      · exact h.bind (h.tryCatch (hgrow _) fun _ => h.throw _) fun _ =>
          h.bind (htop _) fun _ => h.pure _
      · exact h.bind (htop _) fun _ => h.pure _
  refine h.bind h.get fun i => h.bind hcount fun _ => ?_
  split
  · split
    · exact h.pure _
    · exact hbump
  · exact hbump

/-- A block of the arena is had from the guest's allocator, counted and told of. -/
theorem alloc (h : Steady R) {size : UInt32} (hmalloc : Keeps R (Effect.malloc size))
    (hcount : Keeps R (modify fun i => { i with arena := i.arena.count size }))
    (htold : ∀ address, Keeps R (record (.allocated size address))) : Keeps R (alloc size) := by
  unfold Effect.alloc
  exact h.bind hmalloc fun address => h.guard <|
    h.bind hcount fun _ => h.bind (htold address) fun _ => h.pure _

/-- Lending a value changes the table of handles and tells of it. -/
theorem acquire (h : Steady R)
    (htable : ∀ handles, Keeps R (modify fun i => { i with handles }))
    (hlent : ∀ id name, Keeps R (record (.lent id name)))
    (hagain : ∀ id owners, Keeps R (record (.lentAgain id owners))) (v : Value) :
    Keeps R (acquire v) := by
  refine h.bind h.get fun i => h.guard <| h.bind (htable _) fun _ => ?_
  split
  · exact h.pure _
  · refine h.bind ?_ fun _ => h.pure _
    split
    · exact hlent _ _
    · exact hagain _ _

/-- Taking an owner away changes the table of handles, and tells of it when it was the last one. -/
theorem decrement (h : Steady R)
    (htable : ∀ handles, Keeps R (modify fun i => { i with handles }))
    (hback : ∀ id, Keeps R (record (.givenBack id))) (id : UInt32) : Keeps R (decrement id) := by
  refine h.bind h.get fun i => h.bind (h.lift _) fun handles => h.bind (htable _) fun _ => ?_
  split
  · exact h.pure _
  · exact hback id

/-- Another owner changes the table of handles. -/
theorem increment (h : Steady R)
    (htable : ∀ handles, Keeps R (modify fun i => { i with handles })) (id : UInt32) :
    Keeps R (increment id) :=
  h.bind h.get fun _ => h.guard <| h.bind (h.lift _) fun _ => htable _

/-- Registering a raw value changes the registry. -/
theorem registerRaw (h : Steady R) (hraw : ∀ raw, Keeps R (modify fun i => { i with raw }))
    (v : Value) : Keeps R (registerRaw v) :=
  h.bind h.get fun _ => h.guard <| h.bind (hraw _) fun _ => h.pure _

/-- Taking a raw value out changes the registry. -/
theorem unregisterRaw (h : Steady R) (hraw : ∀ raw, Keeps R (modify fun i => { i with raw }))
    (id : UInt32) : Keeps R (unregisterRaw id) :=
  h.bind h.get fun _ => h.bind (hraw _) fun _ => h.pure _

/-- The transfer slot is emptied after what stood in it has been told. -/
theorem takeTransfer (h : Steady R) (htaken : ∀ v, Keeps R (record (.taken v)))
    (hslot : Keeps R (modify fun i => { i with transfer := none })) : Keeps R takeTransfer := by
  refine h.bind h.get fun i => ?_
  split
  · exact h.pure _
  · exact h.bind (htaken _) fun _ => h.bind hslot fun _ => h.pure _

/-- An abort is told of and leaves its marks before it faults. -/
theorem abort (h : Steady R) (htold : ∀ report, Keeps R (record (.aborted report)))
    (hmarks : Keeps R (modify fun i => { i with dead := true, transfer := none }))
    (report : AbortReport) : Keeps R (abort report : Effect Code α) :=
  h.bind (htold report) fun _ => h.bind hmarks fun _ => h.throw _

end Steady

/-- Whether an event tells of a slot, as encoding and decoding do on their way. -/
def Event.isNote : Event → Bool
  | .encoding _ _ | .decoding _ _ => true
  | _ => false

/-- The relation `R` is kept by the steps that read and write slots. -/
structure Editing (R : Instance Code → Instance Code → Prop) : Prop extends Steady R where
  note : ∀ e : Event, e.isNote → Keeps R (record e)
  publish : Keeps R publish
  write : ∀ id address data, Keeps R (write id address data)

/-- The relation `R` is kept by the steps that write slots, tables and texts. -/
structure Writing (R : Instance Code → Instance Code → Prop) : Prop extends Editing R where
  malloc : ∀ size, Keeps R (malloc size)
  alloc : ∀ size, Keeps R (alloc size)

namespace Editing

variable {R : Instance Code → Instance Code → Prop}

/-! ## Words and tags -/

/-- Looking the views up publishes at most. -/
theorem views (h : Editing R) : Keeps R Effect.views := by
  unfold Effect.views
  refine h.bind h.get fun i => ?_
  split
  · exact h.pure _
  · exact h.publish

/-- Looking up a buffer keeps the relation. -/
theorem buffer (h : Editing R) (id : Nat) : Keeps R (buffer id) :=
  h.bind h.get fun _ => h.pure _

/-- So does reading bytes. -/
theorem read (h : Editing R) (id : Nat) (address : UInt32) (n : Nat) :
    Keeps R (read id address n) :=
  h.bind (h.buffer id) fun _ => h.lift _

/-- So does loading an element. -/
theorem load (h : Editing R) (id : Nat) (k : ElementKind) (address : UInt32) :
    Keeps R (load id k address) :=
  h.bind (h.buffer id) fun _ => h.lift _

/-- So does getting one by its index. -/
theorem getElement (h : Editing R) (id : Nat) (k : ElementKind) (index : UInt32) :
    Keeps R (getElement id k index) :=
  h.bind (h.buffer id) fun _ => h.lift _

/-- Setting an element is a write. -/
theorem setElement (h : Editing R) (id : Nat) (k : ElementKind) (index : UInt32)
    (x : k.Carrier) : Keeps R (setElement id k index x) :=
  h.bind (h.buffer id) fun _ => h.bind (h.lift _) fun _ => h.write _ _ _

/-- So is storing one. -/
theorem store (h : Editing R) (id : Nat) (k : ElementKind) (address : UInt32) (x : k.Carrier) :
    Keeps R (store id k address x) :=
  h.bind (h.lift _) fun _ => h.setElement _ _ _ _

/-- Finding a part of a slot keeps the relation. -/
theorem slotPart (h : Editing R) (v : Views) (address : UInt32) (part : Option UInt32) :
    Keeps R (slotPart v address part) := by
  unfold Effect.slotPart
  split
  · exact h.pure _
  · exact h.bind (h.buffer _) fun _ => h.throw _

/-- So does reading a word of a slot. -/
theorem readWord (h : Editing R) (address index : UInt32) : Keeps R (readWord address index) :=
  h.bind h.views fun _ => h.bind (h.slotPart _ _ _) fun _ => h.load _ _ _

/-- Writing one is a write. -/
theorem writeWord (h : Editing R) (address index value : UInt32) :
    Keeps R (writeWord address index value) :=
  h.bind h.views fun _ => h.bind (h.slotPart _ _ _) fun _ => h.store _ _ _ _

/-- Reading the kind of a slot keeps the relation. -/
theorem kindAt (h : Editing R) (address : UInt32) : Keeps R (kindAt address) :=
  h.bind h.views fun _ => h.bind (h.slotPart _ _ _) fun _ =>
    h.bind (h.getElement _ _ _) fun _ => h.lift _

/-- Writing it is a write. -/
theorem writeKind (h : Editing R) (address : UInt32) (kind : SlotKind) :
    Keeps R (writeKind address kind) :=
  h.bind h.views fun _ => h.bind (h.slotPart _ _ _) fun _ => h.setElement _ _ _ _

/-- Finding an entry of a table keeps the relation. -/
theorem entryAddress (h : Editing R) (base index stride : UInt32) :
    Keeps R (entryAddress base index stride) := by
  unfold Effect.entryAddress
  split
  · exact h.pure _
  · exact h.bind h.views fun _ => h.bind (h.buffer _) fun _ => h.throw _

/-- So does the check of what may be opened. -/
theorem checkRoom (h : Editing R) (room : Nat) : Keeps R (checkRoom room) := by
  unfold Effect.checkRoom
  split
  · exact h.bind h.get fun _ => h.throw _
  · exact h.pure _

/-- So does reading the bytes of a text. -/
theorem loadText (h : Editing R) (pointer length : UInt32) :
    Keeps R (loadText pointer length) :=
  h.bind h.views fun _ => h.bind (h.read _ _ _) fun _ => h.bind h.get fun _ => h.pure _

/-- So does the size of a table. -/
theorem tableSize (h : Editing R) (n : Nat) (stride : UInt32) :
    Keeps R (tableSize n stride) := by
  unfold Effect.tableSize
  split
  · exact h.pure _
  · exact h.throw _

/-- Encoding a number is two writes. -/
theorem encodeNumber (h : Editing R) (address : UInt32) (x : Double) :
    Keeps R (encodeNumber address x) := by
  unfold Effect.encodeNumber
  split <;>
    exact h.bind h.views fun _ => h.bind (h.store _ _ _ _) fun _ => h.writeKind _ _

end Editing

namespace Writing

variable {R : Instance Code → Instance Code → Prop}

/-! ## Texts and tables -/

/-- Storing a text is an allocation and writes. -/
theorem storeText (h : Writing R) (address : UInt32) (text : String) :
    Keeps R (storeText address text) := by
  rw [storeText_eq]
  have hrest (pointer length : UInt32) : Keeps R (do
      Effect.writeWord address 0 pointer
      Effect.writeWord address 1 length) :=
    h.bind (h.writeWord _ _ _) fun _ => h.writeWord _ _ _
  split
  · exact h.bind (h.alloc _) fun _ => h.bind h.views fun _ => h.bind (h.write _ _ _) fun _ =>
      h.bind (h.pure _) fun _ => hrest _ _
  · exact h.bind (h.pure _) fun _ => hrest _ _

/-- So is opening an array. -/
theorem openArray (h : Writing R) (address : UInt32) (room n : Nat) :
    Keeps R (openArray address room n) :=
  h.bind (h.checkRoom room) fun _ => h.bind (h.tableSize _ _) fun _ => h.bind (h.alloc _) fun _ =>
    h.bind h.get fun _ => h.bind (h.lift _) fun _ => h.bind (h.writeKind _ _) fun _ =>
      h.bind (h.writeWord _ _ _) fun _ => h.bind (h.writeWord _ _ _) fun _ => h.pure _

/-- So is opening an object. -/
theorem openObject (h : Writing R) (address : UInt32) (room n : Nat) :
    Keeps R (openObject address room n) :=
  h.bind (h.checkRoom room) fun _ => h.bind (h.tableSize _ _) fun _ => h.bind (h.alloc _) fun _ =>
    h.bind (h.tableSize _ _) fun _ => h.bind (h.alloc _) fun _ => h.bind (h.writeKind _ _) fun _ =>
      h.bind h.get fun _ => h.bind (h.lift _) fun _ => h.bind (h.writeWord _ _ _) fun _ =>
        h.bind (h.writeWord _ _ _) fun _ => h.bind h.get fun _ => h.bind (h.lift _) fun _ =>
          h.bind (h.writeWord _ _ _) fun _ => h.pure _

end Writing

/-! ## Encoding -/

/-- The relation `R` is kept by the steps that encoding is made of. -/
structure Encoding (R : Instance Code → Instance Code → Prop) : Prop extends Writing R where
  acquire : ∀ v, Keeps R (acquire v)
  registerRaw : ∀ v, Keeps R (registerRaw v)

namespace Encoding

variable {R : Instance Code → Instance Code → Prop}

/-- Encoding a value that is lent is lending and writes. -/
theorem encodeHandle (h : Encoding R) (address : UInt32) (v : Value) :
    Keeps R (encodeHandle address v) :=
  h.bind (h.acquire v) fun _ => h.bind (h.writeWord _ _ _) fun _ => h.writeKind _ _

mutual

/-- Encoding a value keeps the relation, however the value nests. -/
theorem encodeAt (h : Encoding R) (room : Nat) (address : UInt32) (v : Value) :
    Keeps R (encodeAt room address v) := by
  unfold Effect.encodeAt
  refine h.bind (h.note _ rfl) fun _ => ?_
  cases v with
  | undefined => exact h.writeKind _ _
  | null => exact h.writeKind _ _
  | boolean b => exact h.writeKind _ _
  | number x => exact h.encodeNumber _ _
  | string text => exact h.bind (h.storeText _ _) fun _ => h.writeKind _ _
  | array items => exact h.bind (h.openArray _ _ _) fun _ => h.encodeItems _ _ _ items
  | object entries => exact h.bind (h.openObject _ _ _) fun _ => h.encodeEntries _ _ _ _ entries
  | symbol s =>
    exact h.bind (h.registerRaw _) fun _ => h.bind (h.writeWord _ _ _) fun _ => h.writeKind _ _
  | reference o => exact h.encodeHandle _ _
  | closure id => exact h.encodeHandle _ _
  | window w => exact h.encodeHandle _ _

/-- Encoding items keeps what its steps keep. -/
theorem encodeItems (h : Encoding R) (room : Nat) (table index : UInt32) (items : List Value) :
    Keeps R (encodeItems room table index items) := by
  cases items with
  | nil => exact h.pure _
  | cons v rest =>
    unfold Effect.encodeItems
    exact h.bind (h.entryAddress _ _ _) fun _ => h.bind (h.encodeAt _ _ v) fun _ =>
      h.encodeItems _ _ _ rest

/-- So does encoding properties. -/
theorem encodeEntries (h : Encoding R) (room : Nat) (keys values index : UInt32)
    (entries : List (String × Value)) :
    Keeps R (encodeEntries room keys values index entries) := by
  cases entries with
  | nil => exact h.pure _
  | cons entry rest =>
    obtain ⟨key, v⟩ := entry
    unfold Effect.encodeEntries
    exact h.bind (h.entryAddress _ _ _) fun _ => h.bind (h.storeText _ _) fun _ =>
      h.bind (h.entryAddress _ _ _) fun _ => h.bind (h.encodeAt _ _ v) fun _ =>
        h.encodeEntries _ _ _ _ rest

end

/-- So does encoding a value. -/
theorem encode (h : Encoding R) (address : UInt32) (v : Value) : Keeps R (encode address v) :=
  h.bind h.get fun _ => h.encodeAt _ _ _

/-- So does encoding items as an array. -/
theorem encodeArray (h : Encoding R) (address : UInt32) (items : List Value) :
    Keeps R (encodeArray address items) :=
  h.bind h.get fun _ => h.bind (h.openArray _ _ _) fun _ => h.encodeItems _ _ _ _

/-- So does preparing a value, which allocates its slot first. -/
theorem prepare (h : Encoding R) (v : Value) : Keeps R (prepare v) :=
  h.bind (h.alloc _) fun _ => h.bind (h.encode _ _) fun _ => h.pure _

end Encoding

/-! ## Decoding -/

/-- The relation `R` is kept by the steps that encoding and decoding are made of. -/
structure Marshalling (R : Instance Code → Instance Code → Prop) : Prop extends Encoding R where
  wrap : ∀ kind adapter pointer deallocator, Keeps R (wrap kind adapter pointer deallocator)

namespace Marshalling

variable {R : Instance Code → Instance Code → Prop}

/-- Checking a table keeps the relation. -/
theorem checkTable (h : Marshalling R) (base count stride : UInt32) :
    Keeps R (checkTable base count stride) :=
  h.bind h.views fun _ => h.bind (h.buffer _) fun _ => h.lift _

/-- So does finding one. -/
theorem tableAt (h : Marshalling R) (address index : UInt32) : Keeps R (tableAt address index) :=
  h.bind (h.readWord _ _) fun _ => h.bind h.get fun _ => h.pure _

/-- So does making a window. -/
theorem decodeWindow (h : Marshalling R) (address : UInt32) : Keeps R (decodeWindow address) := by
  refine h.bind (h.readWord _ _) fun start => h.bind (h.readWord _ _) fun length =>
    h.bind (h.readWord _ _) fun tag => h.bind (h.lift _) fun kind => h.bind h.views fun v =>
      h.bind (h.buffer _) fun b => ?_
  split
  · exact h.throw _
  · exact h.bind (h.lift _) fun _ => h.pure _

/-- Decoding a closure wraps it. -/
theorem decodeClosure (h : Marshalling R) (kind : ClosureKind) (address : UInt32) :
    Keeps R (decodeClosure kind address) :=
  h.bind (h.readWord _ _) fun _ => h.bind (h.readWord _ _) fun _ => h.bind (h.readWord _ _) fun _ =>
    h.wrap _ _ _ _

/-- Decoding a text keeps the relation. -/
theorem decodeText (h : Marshalling R) (address : UInt32) : Keeps R (decodeText address) :=
  h.bind (h.readWord _ _) fun _ => h.bind (h.readWord _ _) fun _ => h.loadText _ _

/-- Decoding an array keeps what decoding its items keeps. -/
theorem decodeArray (h : Marshalling R) {item : UInt32 → Effect Code Value}
    (hitem : ∀ a, Keeps R (item a)) (address : UInt32) : Keeps R (decodeArray item address) :=
  h.bind (h.tableAt _ _) fun _ => h.bind (h.readWord _ _) fun _ =>
    h.bind (h.checkTable _ _ _) fun _ =>
      h.bind (h.mapM (fun _ => h.bind (h.entryAddress _ _ _) fun _ => hitem _) _) fun _ => h.pure _

/-- Decoding an object keeps what decoding its values keeps. -/
theorem decodeObject (h : Marshalling R) {item : UInt32 → Effect Code Value}
    (hitem : ∀ a, Keeps R (item a)) (address : UInt32) : Keeps R (decodeObject item address) :=
  h.bind (h.tableAt _ _) fun _ => h.bind (h.readWord _ _) fun _ => h.bind (h.tableAt _ _) fun _ =>
    h.bind (h.checkTable _ _ _) fun _ => h.bind (h.checkTable _ _ _) fun _ =>
      h.bind
        (h.mapM (fun _ => h.bind (h.entryAddress _ _ _) fun _ => h.bind (h.decodeText _) fun _ =>
          h.bind (h.entryAddress _ _ _) fun _ => h.bind (hitem _) fun _ => h.pure _) _)
        fun _ => h.pure _

/-- Decoding a slot keeps the relation, whatever stands in guest memory. -/
theorem decodeAt (h : Marshalling R) (room : Nat) (address : UInt32) :
    Keeps R (decodeAt room address) := by
  unfold Effect.decodeAt
  refine h.bind (h.kindAt _) fun kind => h.bind (h.note _ rfl) fun _ => ?_
  cases kind with
  | undefined => exact h.pure _
  | null => exact h.pure _
  | boolean b => exact h.pure _
  | int32 => exact h.bind h.views fun _ => h.bind (h.load _ _ _) fun _ => h.pure _
  | float64 => exact h.bind h.views fun _ => h.bind (h.load _ _ _) fun _ => h.pure _
  | string => exact h.bind (h.decodeText _) fun _ => h.pure _
  | array =>
    cases room with
    | zero => exact h.bind h.get fun _ => h.throw _
    | succ room => exact h.decodeArray (h.decodeAt room) _
  | object =>
    cases room with
    | zero => exact h.bind h.get fun _ => h.throw _
    | succ room => exact h.decodeObject (h.decodeAt room) _
  | handle => exact h.bind (h.readWord _ _) fun _ => h.bind h.get fun _ => h.lift _
  | closure kind => exact h.decodeClosure _ _
  | window => exact h.decodeWindow _
  | raw => exact h.bind (h.readWord _ _) fun _ => h.bind h.get fun _ => h.lift _

/-- Decoding a slot keeps what its steps keep. -/
theorem decode (h : Marshalling R) (address : UInt32) : Keeps R (decode address) :=
  h.bind h.get fun _ => h.decodeAt _ _

end Marshalling

/-! ## Operations -/

/-- Whether the operation puts a value into the transfer slot. -/
def Operation.isParking : Operation Code α → Bool
  | storeTransfer _ => true
  | _ => false

/-- The relation `R` is kept by the steps that operations are made of, but for the one that puts a
value into the transfer slot. -/
structure Serving (R : Instance Code → Instance Code → Prop) : Prop extends Marshalling R where
  grow : ∀ delta, Keeps R (grow delta)
  free : ∀ size, Keeps R (free size)
  copies : ∀ n, Keeps R (modify fun i => { i with copies := n })
  increment : ∀ id, Keeps R (increment id)
  decrement : ∀ id, Keeps R (decrement id)
  unregisterRaw : ∀ id, Keeps R (unregisterRaw id)
  register : ∀ code, Keeps R (register code)
  unregister : ∀ index, Keeps R (unregister index)
  setEntryPoint : ∀ code, Keeps R (setEntryPoint code)
  addCapability : ∀ name c, Keeps R (addCapability name c)
  takeTransfer : Keeps R takeTransfer
  abort : ∀ report, Keeps R (abort report : Effect Code Unit)

namespace Serving

variable {R : Instance Code → Instance Code → Prop}

/-- Lending a window on memory is lending. -/
theorem acquireBytes (h : Serving R) (start stop : UInt32) :
    Keeps R (acquireBytes start stop) := by
  unfold Effect.acquireBytes
  split
  · exact h.throw _
  · exact h.bind h.views fun _ => h.bind (h.read _ _ _) fun _ => h.bind h.get fun _ =>
      h.bind (h.copies _) fun _ => h.acquire _

/-- Reading a text that may be missing keeps the relation. -/
theorem readOptionalText (h : Serving R) (pointer length : UInt32) :
    Keeps R (readOptionalText pointer length) := by
  unfold Effect.readOptionalText
  split
  · exact h.pure _
  · exact h.tryCatch (Steady.map _ (h.loadText _ _)) fun _ => h.pure _

/-- The report of an abort is read, and then the guest aborts. -/
theorem abortFromGuest (h : Serving R) (file fileLength line message messageLength : UInt32) :
    Keeps R (abortFromGuest file fileLength line message messageLength : Effect Code Unit) := by
  exact h.bind (h.readOptionalText _ _) fun _ => h.bind (h.readOptionalText _ _) fun _ =>
    h.abort _

/-- Every operation that parks no value keeps the relation. -/
theorem run (h : Serving R) (op : Operation Code α) (hop : op.isParking = false) :
    Keeps R op.run := by
  cases op with
  | views => exact h.views
  | publish => exact h.publish
  | grow => exact h.grow _
  | alloc => exact h.alloc _
  | malloc => exact h.malloc _
  | free => exact h.free _
  | write => exact h.write _ _ _
  | store => exact h.store _ _ _ _
  | set => exact h.setElement _ _ _ _
  | encode => exact h.encode _ _
  | encodeArray => exact h.encodeArray _ _
  | prepare => exact h.prepare _
  | decode => exact h.decode _
  | kindAt => exact h.kindAt _
  | storeText => exact h.storeText _ _
  | loadText => exact h.loadText _ _
  | storeTransfer => cases hop
  | takeTransfer => exact h.takeTransfer
  | acquire => exact h.acquire _
  | acquireBytes => exact h.acquireBytes _ _
  | increment => exact h.increment _
  | decrement => exact h.decrement _
  | getHandle => exact h.bind h.get fun _ => h.lift _
  | registerRaw => exact h.registerRaw _
  | unregisterRaw => exact h.unregisterRaw _
  | getRaw => exact h.bind h.get fun _ => h.lift _
  | wrap => exact h.wrap _ _ _ _
  | register => exact h.register _
  | unregister => exact h.unregister _
  | setEntryPoint => exact h.setEntryPoint _
  | addCapability => exact h.addCapability _ _
  | abort => exact h.abort _
  | abortFromGuest => exact h.abortFromGuest _ _ _ _ _

end Serving

/-- The relation `R` is kept by the steps that operations are made of. -/
structure Operating (R : Instance Code → Instance Code → Prop) : Prop extends Serving R where
  park : ∀ v, Keeps R (park v)

namespace Operating

variable {R : Instance Code → Instance Code → Prop}

/-- Every operation keeps the relation. -/
theorem run (h : Operating R) (op : Operation Code α) : Keeps R op.run := by
  cases hop : op.isParking with
  | false => exact h.toServing.run op hop
  | true =>
    cases op with
    | storeTransfer => exact h.bind (h.decode _) fun _ => h.park _
    | _ => cases hop

end Operating

end

end Crossing
