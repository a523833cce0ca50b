import Crossing.Proofs.Instance.Current

/-!
# Views agree with the bytes

A buffer is read and written as bytes, and through the views of the eight kinds by address or by
index. `Instance.Bytewise` says of the views of one kind which bytes each access reads or writes and
when it faults. Behind all of them is one sequence of bytes: `ViewAccess.onBytes` is an access to a
plain list of bytes, and `ViewAccess.runs_eq` says that any mix of accesses to a buffer answers what
it answers on the list of its bytes, and leaves the same bytes.
-/

namespace Crossing

open Effect

/-! ## A list of bytes -/

/-- The `n` bytes at an address of a list of bytes. -/
def Bytes.read (bs : List UInt8) (address : UInt32) (n : Nat) : Except Fault (List UInt8) :=
  if address.toNat + n ≤ bs.length then .ok ((bs.drop address.toNat).take n)
  else .error (.outOfBounds address n.toUInt32 bs.length.toUInt32)

/-- The list of bytes with `data` at an address. -/
def Bytes.write (bs : List UInt8) (address : UInt32) (data : List UInt8) :
    Except Fault (List UInt8) :=
  if address.toNat + data.length ≤ bs.length then
    .ok (bs.take address.toNat ++ data ++ bs.drop (address.toNat + data.length))
  else .error (.outOfBounds address data.length.toUInt32 bs.length.toUInt32)

/-- The bytes of a buffer. -/
def Buffer.contents (b : Buffer) : List UInt8 := b.bytes.data.toList

namespace Buffer

variable {b : Buffer} {address index : UInt32} {k : ElementKind} {n : Nat}

theorem length_contents (b : Buffer) : b.contents.length = b.bytes.size := rfl

/-- A buffer is read as the list of its bytes. -/
theorem map_read (b : Buffer) (address : UInt32) (n : Nat) :
    (b.read address n).map (·.data.toList) = Bytes.read b.contents address n := by
  unfold read check Bytes.read
  rw [length_contents]
  split
  · show Except.ok (b.bytes.extract address.toNat (address.toNat + n)).data.toList = _
    rw [ByteArray.data_extract, Array.toList_extract, List.extract_eq_take_drop,
      Nat.add_sub_cancel_left]
    rfl
  · rfl

/-- A write puts the data between the bytes before it and those behind it. -/
theorem contents_blit (b : Buffer) (address : UInt32) (data : ByteArray) :
    (b.blit address data).contents = b.contents.take address.toNat ++ data.data.toList ++
      b.contents.drop (address.toNat + data.size) := by
  have hsize : b.bytes.size = b.bytes.data.toList.length := rfl
  unfold contents
  rw [bytes_blit]
  simp only [ByteArray.data_append, Array.toList_append, ByteArray.data_extract,
    Array.toList_extract, List.extract_eq_take_drop, List.drop_zero, Nat.sub_zero, hsize]
  rw [List.take_of_length_le (l := List.drop _ _) (by rw [List.length_drop])]

/-! ## Elements by their addresses -/

/-- The element at an aligned address is made of the bytes there. -/
theorem load_of_dvd (h : k.size.toNat ∣ address.toNat) :
    b.load k address = (b.read address k.size.toNat).map k.decode := by
  have hal := mod_size_eq_zero_iff.2 h
  unfold load elementIndex
  rw [if_pos hal]
  simp only [bind, Except.bind, get, elementAddress_div hal]
  cases b.read address k.size.toNat <;> rfl

/-- An address that is no multiple of the element's size is refused. -/
theorem elementIndex_of_not_dvd (h : ¬ k.size.toNat ∣ address.toNat) :
    elementIndex k address = .error (.misaligned address k.size) :=
  if_neg (mt mod_size_eq_zero_iff.1 h)

/-- The address of an element is its index times its size. -/
theorem elementAddress_of_mul (h : index.toNat * k.size.toNat = address.toNat) :
    b.elementAddress k index = .ok address := by
  rw [elementAddress, Word.mul?_eq_some_iff.2 h]

/-- An index whose address is no word is out of bounds. -/
theorem elementAddress_of_size_le (h : UInt32.size ≤ index.toNat * k.size.toNat) :
    b.elementAddress k index = .error (.outOfBounds Word.max k.size b.length) := by
  rw [elementAddress, Word.mul?, Word.ofNat?, dif_neg (Nat.not_lt.2 h)]
  rfl

/-- The element of an index stands at a multiple of its size. -/
theorem get_of_mul (h : index.toNat * k.size.toNat = address.toNat) :
    b.get k index = b.load k address := by
  rw [load_of_dvd ⟨index.toNat, by rw [← h, Nat.mul_comm]⟩, get, elementAddress_of_mul h]
  cases hr : b.read address k.size.toNat <;>
    simp [hr, bind, Except.bind, Except.map, pure, Except.pure]

/-- An index whose address is no word is out of bounds. -/
theorem get_of_size_le (h : UInt32.size ≤ index.toNat * k.size.toNat) :
    b.get k index = .error (.outOfBounds Word.max k.size b.length) := by
  rw [get, elementAddress_of_size_le h]
  rfl

/-- An element is loaded exactly when its address is aligned and its bytes lie in the buffer. -/
theorem exists_load_iff :
    (∃ x, b.load k address = .ok x) ↔
      k.size.toNat ∣ address.toNat ∧ address.toNat + k.size.toNat ≤ b.bytes.size := by
  simp only [load_eq_ok_iff_shows]
  exact ⟨fun ⟨_, h⟩ => ⟨h.aligned, h.inside⟩, fun ⟨hal, hin⟩ => ⟨_, hal, hin, rfl⟩⟩

/-- The elements that can be read are those that the view counts. -/
theorem exists_get_iff (hsize : b.bytes.size < UInt32.size) :
    (∃ x, b.get k index = .ok x) ↔ index < b.count k := by
  rw [lt_count_iff hsize]
  by_cases hword : index.toNat * k.size.toNat < UInt32.size
  · have haddress := UInt32.toNat_ofNat_of_lt' hword
    rw [get_of_mul haddress.symm, exists_load_iff, haddress]
    exact and_iff_right ⟨index.toNat, Nat.mul_comm _ _⟩
  · rw [get_of_size_le (Nat.le_of_not_lt hword)]
    simp only [reduceCtorEq, exists_false, false_iff]
    omega

end Buffer

section
variable {Code : Type} {i i' : Instance Code} {id : Nat} {k : ElementKind}
  {address index : UInt32} {x : k.Carrier}

/-! ## Accesses of an instance -/

namespace Effect

/-- Reading bytes asks the buffer and changes nothing. -/
theorem exec_read (id : Nat) (address : UInt32) (n : Nat) (i : Instance Code) :
    exec (read id address n) i = ((i.guest.store.buffer id).read address n, i) :=
  exec_liftExcept _ i

/-- So does loading an element. -/
theorem exec_load (id : Nat) (k : ElementKind) (address : UInt32) (i : Instance Code) :
    exec (load id k address) i = ((i.guest.store.buffer id).load k address, i) :=
  exec_liftExcept _ i

/-- So does getting one by its index. -/
theorem exec_getElement (id : Nat) (k : ElementKind) (index : UInt32) (i : Instance Code) :
    exec (getElement id k index) i = ((i.guest.store.buffer id).get k index, i) :=
  exec_liftExcept _ i

/-- An element is written by its index where its address is a word. -/
theorem exec_setElement (id : Nat) (k : ElementKind) (index : UInt32) (x : k.Carrier)
    (i : Instance Code) :
    exec (setElement id k index x) i =
      match (i.guest.store.buffer id).elementAddress k index with
      | .ok address => exec (write id address (k.encode x)) i
      | .error f => (.error f, i) := by
  unfold setElement
  rw [exec_bind_of_ok (show exec (buffer id) i = (.ok (i.guest.store.buffer id), i) from rfl)]
  cases (i.guest.store.buffer id).elementAddress k index with
  | ok address => exact exec_bind_of_ok (exec_liftExcept _ i)
  | error f => exact exec_bind_of_error (exec_liftExcept _ i)

/-- An element is written by its address as the bytes it is made of. -/
theorem exec_store_of_dvd (h : k.size.toNat ∣ address.toNat) :
    exec (store id k address x) i = exec (write id address (k.encode x)) i := by
  have hal := Buffer.mod_size_eq_zero_iff.2 h
  have hindex : Buffer.elementIndex k address = .ok (address / k.size) := if_pos hal
  unfold store
  rw [hindex, exec_bind_of_ok (exec_liftExcept _ i), exec_setElement,
    Buffer.elementAddress_div hal]

/-- Nothing is stored at an address that is not aligned. -/
theorem exec_store_of_not_dvd (h : ¬ k.size.toNat ∣ address.toNat) :
    exec (store id k address x) i = (.error (.misaligned address k.size), i) := by
  unfold store
  rw [Buffer.elementIndex_of_not_dvd h]
  rfl

/-- Setting an element by its index stores it at its address. -/
theorem exec_setElement_of_mul (h : index.toNat * k.size.toNat = address.toNat) :
    exec (setElement id k index x) i = exec (store id k address x) i := by
  rw [exec_setElement, Buffer.elementAddress_of_mul h,
    exec_store_of_dvd ⟨index.toNat, by rw [← h, Nat.mul_comm]⟩]

/-- Nothing is set at an index whose address is no word. -/
theorem exec_setElement_of_size_le (h : UInt32.size ≤ index.toNat * k.size.toNat) :
    exec (setElement id k index x) i =
      (.error (.outOfBounds Word.max k.size (i.guest.store.buffer id).length), i) := by
  rw [exec_setElement, Buffer.elementAddress_of_size_le h]

/-- A write inside of the buffer goes through, any other one changes nothing. -/
theorem exec_write_eq_ok_iff {data : ByteArray} :
    (exec (write id address data) i).1 = .ok () ↔
      address.toNat + data.size ≤ (i.guest.store.buffer id).bytes.size := by
  rw [exec_write, ← Buffer.check_eq_ok_iff]
  cases (i.guest.store.buffer id).check address data.size <;> simp

/-- A write that is refused changes nothing. -/
theorem write_refused {data : ByteArray} {f : Fault}
    (h : (exec (write id address data) i).1 = .error f) :
    (exec (write id address data) i).2 = i := by
  rw [exec_write] at h ⊢
  split at h
  · cases h
  · rfl

/-- Nor does a store that is. -/
theorem store_refused {f : Fault} (h : (exec (store id k address x) i).1 = .error f) :
    (exec (store id k address x) i).2 = i := by
  by_cases hdvd : k.size.toNat ∣ address.toNat
  · rw [exec_store_of_dvd hdvd] at h ⊢
    exact write_refused h
  · rw [exec_store_of_not_dvd hdvd]

/-- Nor does setting an element, when it is refused. -/
theorem setElement_refused {f : Fault} (h : (exec (setElement id k index x) i).1 = .error f) :
    (exec (setElement id k index x) i).2 = i := by
  by_cases hword : index.toNat * k.size.toNat < UInt32.size
  · have haddress := UInt32.toNat_ofNat_of_lt' hword
    rw [exec_setElement_of_mul haddress.symm] at h ⊢
    exact store_refused h
  · rw [exec_setElement_of_size_le (Nat.le_of_not_lt hword)]

end Effect

/-- The view of kind `k` on a buffer reads and writes the bytes of its elements. -/
structure Instance.Bytewise (i : Instance Code) (id : Nat) (k : ElementKind) : Prop where
  load_misaligned : ∀ address : UInt32, ¬ k.size.toNat ∣ address.toNat →
    exec (load id k address) i = (.error (.misaligned address k.size), i)
  store_misaligned : ∀ (address : UInt32) x, ¬ k.size.toNat ∣ address.toNat →
    exec (store id k address x) i = (.error (.misaligned address k.size), i)
  load_inside : ∀ address : UInt32, k.size.toNat ∣ address.toNat →
    ((∃ x, (exec (load id k address) i).1 = .ok x) ↔
      address.toNat + k.size.toNat ≤ (i.guest.store.buffer id).bytes.size)
  store_inside : ∀ (address : UInt32) x, k.size.toNat ∣ address.toNat →
    ((exec (store id k address x) i).1 = .ok () ↔
      address.toNat + k.size.toNat ≤ (i.guest.store.buffer id).bytes.size)
  load_bytes : ∀ address : UInt32, k.size.toNat ∣ address.toNat →
    exec (load id k address) i = exec (k.decode <$> read id address k.size.toNat) i
  store_bytes : ∀ (address : UInt32) x, k.size.toNat ∣ address.toNat →
    exec (store id k address x) i = exec (write id address (k.encode x)) i
  get_at : ∀ index address : UInt32, index.toNat * k.size.toNat = address.toNat →
    exec (getElement id k index) i = exec (load id k address) i
  set_at : ∀ (index address : UInt32) x, index.toNat * k.size.toNat = address.toNat →
    exec (setElement id k index x) i = exec (store id k address x) i
  get_beyond : ∀ index : UInt32, UInt32.size ≤ index.toNat * k.size.toNat →
    exec (getElement id k index) i =
      (.error (.outOfBounds Word.max k.size (i.guest.store.buffer id).length), i)
  set_beyond : ∀ (index : UInt32) x, UInt32.size ≤ index.toNat * k.size.toNat →
    exec (setElement id k index x) i =
      (.error (.outOfBounds Word.max k.size (i.guest.store.buffer id).length), i)
  get_counted : ∀ index : UInt32, (∃ x, (exec (getElement id k index) i).1 = .ok x) ↔
    index < (i.guest.store.buffer id).count k
  store_refused : ∀ (address : UInt32) x f, (exec (store id k address x) i).1 = .error f →
    (exec (store id k address x) i).2 = i
  set_refused : ∀ (index : UInt32) x f, (exec (setElement id k index x) i).1 = .error f →
    (exec (setElement id k index x) i).2 = i

/-- So does the view of any kind on a buffer that words can address. -/
theorem Instance.bytewise (hsize : (i.guest.store.buffer id).bytes.size < UInt32.size)
    (k : ElementKind) : i.Bytewise id k where
  load_misaligned address h := by
    rw [exec_load, Buffer.load, Buffer.elementIndex_of_not_dvd h]
    rfl
  store_misaligned _ _ h := exec_store_of_not_dvd h
  load_inside address h := by
    rw [exec_load, Buffer.exists_load_iff]
    exact and_iff_right h
  store_inside address x h := by
    rw [exec_store_of_dvd h, exec_write_eq_ok_iff, k.size_encode]
  load_bytes address h := by
    rw [exec_load, Buffer.load_of_dvd h, exec_map, exec_read]
  store_bytes _ _ h := exec_store_of_dvd h
  get_at index address h := by rw [exec_getElement, exec_load, Buffer.get_of_mul h]
  set_at _ _ _ h := exec_setElement_of_mul h
  get_beyond index h := by rw [exec_getElement, Buffer.get_of_size_le h]
  set_beyond _ _ h := exec_setElement_of_size_le h
  get_counted index := by rw [exec_getElement, Buffer.exists_get_iff hsize]
  store_refused _ _ _ h := Effect.store_refused h
  set_refused _ _ _ h := Effect.setElement_refused h

/-! ## Sequences of accesses -/

/-- What can be done with a buffer. -/
inductive ViewAccess where
  | read (address : UInt32) (n : Nat)
  | write (address : UInt32) (data : ByteArray)
  | load (k : ElementKind) (address : UInt32)
  | store (k : ElementKind) (address : UInt32) (x : k.Carrier)
  | get (k : ElementKind) (index : UInt32)
  | set (k : ElementKind) (index : UInt32) (x : k.Carrier)

/-- What an access answers. -/
inductive ViewAnswer where
  | bytes (data : List UInt8)
  | element (k : ElementKind) (x : k.Carrier)
  | done

namespace Bytes

/-- The element whose little-endian bytes stand at an address. -/
def element (bs : List UInt8) (k : ElementKind) (address : UInt32) : Except Fault ViewAnswer :=
  (read bs address k.size.toNat).map fun data =>
    .element k (k.ofBits (ElementKind.ofLittleEndian data))

/-- The outcome of a write: a refused one leaves the bytes as they were. -/
def put (bs : List UInt8) : Except Fault (List UInt8) → Except Fault ViewAnswer × List UInt8
  | .ok bs' => (.ok .done, bs')
  | .error f => (.error f, bs)

/-- Puts the little-endian bytes of an element at an address. -/
def putElement (bs : List UInt8) (k : ElementKind) (address : UInt32) (x : k.Carrier) :
    Except Fault ViewAnswer × List UInt8 :=
  put bs (write bs address (ElementKind.littleEndian k.size.toNat (k.toBits x)))

end Bytes

namespace ViewAccess

/-- The access to the buffer of a number. -/
def effect (id : Nat) : ViewAccess → Effect Code ViewAnswer
  | read address n => (fun data => .bytes data.data.toList) <$> Effect.read id address n
  | write address data => (fun _ => .done) <$> Effect.write id address data
  | load k address => ViewAnswer.element k <$> Effect.load id k address
  | store k address x => (fun _ => .done) <$> Effect.store id k address x
  | get k index => ViewAnswer.element k <$> getElement id k index
  | set k index x => (fun _ => .done) <$> setElement id k index x

/-- The access to a list of bytes. -/
def onBytes (bs : List UInt8) : ViewAccess → Except Fault ViewAnswer × List UInt8
  | read address n => ((Bytes.read bs address n).map .bytes, bs)
  | write address data => Bytes.put bs (Bytes.write bs address data.data.toList)
  | load k address =>
    if k.size.toNat ∣ address.toNat then (Bytes.element bs k address, bs)
    else (.error (.misaligned address k.size), bs)
  | store k address x =>
    if k.size.toNat ∣ address.toNat then Bytes.putElement bs k address x
    else (.error (.misaligned address k.size), bs)
  | get k index =>
    match Word.mul? index k.size with
    | some address => (Bytes.element bs k address, bs)
    | none => (.error (.outOfBounds Word.max k.size bs.length.toUInt32), bs)
  | set k index x =>
    match Word.mul? index k.size with
    | some address => Bytes.putElement bs k address x
    | none => (.error (.outOfBounds Word.max k.size bs.length.toUInt32), bs)

/-- Accesses to the buffer of a number, one after the other, whether they fault or not. -/
def effects (id : Nat) (i : Instance Code) :
    List ViewAccess → List (Except Fault ViewAnswer) × Instance Code
  | [] => ([], i)
  | a :: as =>
    ((exec (a.effect id) i).1 :: (effects id (exec (a.effect id) i).2 as).1,
      (effects id (exec (a.effect id) i).2 as).2)

/-- Accesses to a list of bytes, one after the other. -/
def allOnBytes (bs : List UInt8) :
    List ViewAccess → List (Except Fault ViewAnswer) × List UInt8
  | [] => ([], bs)
  | a :: as =>
    ((a.onBytes bs).1 :: (allOnBytes (a.onBytes bs).2 as).1, (allOnBytes (a.onBytes bs).2 as).2)

end ViewAccess

/-- The bytes of the buffer of a number. -/
def Instance.contents (i : Instance Code) (id : Nat) : List UInt8 :=
  (i.guest.store.buffer id).contents

/-- The instances differ in the bytes of one buffer only. -/
structure Rewritten (id : Nat) (i i' : Instance Code) : Prop where
  eq : ∃ s, i' = { i with guest := { i.guest with store := s } }
  others : ∀ j, j ≠ id → i'.guest.store.buffer j = i.guest.store.buffer j
  detached : (i'.guest.store.buffer id).detached = (i.guest.store.buffer id).detached

namespace Rewritten

/-- Without a step the bytes of the buffer are the same. -/
theorem refl (i : Instance Code) : Rewritten id i i := ⟨⟨_, rfl⟩, fun _ _ => rfl, rfl⟩

/-- What is rewritten in two steps is one buffer still. -/
theorem trans {i'' : Instance Code} (h : Rewritten id i i') (h' : Rewritten id i' i'') :
    Rewritten id i i'' where
  eq := by
    obtain ⟨_, rfl⟩ := h.eq
    obtain ⟨s, rfl⟩ := h'.eq
    exact ⟨s, rfl⟩
  others j hj := (h'.others j hj).trans (h.others j hj)
  detached := h'.detached.trans h.detached

end Rewritten

/-- The access answers and leaves on the buffer of a number what it does on the list of its bytes,
and touches no other buffer. -/
structure Mirrors (id : Nat) (i : Instance Code) (r : Except Fault ViewAnswer × Instance Code)
    (r' : Except Fault ViewAnswer × List UInt8) : Prop where
  answer : r.1 = r'.1
  contents : r.2.contents id = r'.2
  rewritten : Rewritten id i r.2

namespace ViewAccess

/-- Reading leaves the bytes as they are. -/
theorem mirrors_of_eq {r r' : Except Fault ViewAnswer} (h : r = r') :
    Mirrors id i (r, i) (r', i.contents id) :=
  ⟨h, rfl, .refl i⟩

/-- Data that fits stands between the bytes before it and those behind it. -/
theorem contents_written {data : ByteArray}
    (h : address.toNat + data.size ≤ (i.guest.store.buffer id).bytes.size) :
    (i.written id address data).contents id = (i.contents id).take address.toNat ++
      data.data.toList ++ (i.contents id).drop (address.toNat + data.size) := by
  by_cases hid : id < i.guest.store.buffers.size
  · show ((i.guest.store.blit id address data).buffer id).contents = _
    rw [Store.buffer_blit hid, if_pos rfl, Buffer.contents_blit]
    rfl
  · -- No data but the empty one fits into a buffer that there is not.
    have hgone := Store.buffer_of_size_le (Nat.le_of_not_lt hid)
    rw [hgone] at h
    have hdata : data = ByteArray.empty :=
      ByteArray.size_eq_zero_iff.1 (Nat.le_zero.1 (Nat.le_trans (Nat.le_add_left _ _) h))
    subst hdata
    have hgone' : (i.written id address .empty).guest.store.buffer id = .gone :=
      Store.buffer_of_size_le (by
        show (i.guest.store.blit id address .empty).buffers.size ≤ id
        rw [Store.blit, Array.size_modify]
        exact Nat.le_of_not_lt hid)
    rw [Instance.contents, Instance.contents, hgone, hgone']
    show [] = List.take _ [] ++ [] ++ List.drop _ []
    rw [List.take_nil, List.drop_nil]
    rfl

/-- A write rewrites the buffer that it goes to. -/
theorem rewritten_written (id : Nat) (i : Instance Code) (address : UInt32) (data : ByteArray) :
    Rewritten id i (i.written id address data) where
  eq := ⟨_, rfl⟩
  others _ hj := Store.buffer_blit_of_ne (Ne.symm hj) address data
  detached := by
    rcases i.guest.store.buffer_blit_cases id id address data with h | ⟨-, h⟩
    · exact congrArg Buffer.detached h
    · exact Eq.trans (congrArg Buffer.detached h) rfl

/-- Writing bytes. -/
theorem mirrors_write (id : Nat) (i : Instance Code) (address : UInt32) (data : ByteArray) :
    Mirrors id i (exec ((fun _ => .done) <$> Effect.write id address data) i)
      (Bytes.put (i.contents id) (Bytes.write (i.contents id) address data.data.toList)) := by
  have hlength : (i.contents id).length = (i.guest.store.buffer id).bytes.size := rfl
  have hdata : data.data.toList.length = data.size := rfl
  rw [exec_map, exec_write, Bytes.write, hlength, hdata, Buffer.check]
  by_cases h : address.toNat + data.size ≤ (i.guest.store.buffer id).bytes.size
  · rw [if_pos h, if_pos h]
    exact ⟨rfl, contents_written h, rewritten_written id i address data⟩
  · rw [if_neg h, if_neg h]
    exact mirrors_of_eq rfl

/-- Reading an element. -/
theorem map_load (b : Buffer) (k : ElementKind) (h : k.size.toNat ∣ address.toNat) :
    (b.load k address).map (ViewAnswer.element k) = Bytes.element b.contents k address := by
  rw [Buffer.load_of_dvd h, Bytes.element, ← Buffer.map_read]
  cases b.read address k.size.toNat <;> rfl

/-- Writing an element. -/
theorem mirrors_store (i : Instance Code) (h : k.size.toNat ∣ address.toNat) (x : k.Carrier) :
    Mirrors id i (exec ((fun _ => .done) <$> Effect.store id k address x) i)
      (Bytes.putElement (i.contents id) k address x) := by
  have hwrite := mirrors_write id i address (k.encode x)
  rw [exec_map, ← exec_store_of_dvd h, ← exec_map] at hwrite
  have hencode : (k.encode x).data.toList = ElementKind.littleEndian k.size.toNat (k.toBits x) := by
    rw [ElementKind.encode, List.data_toByteArray]
  rwa [hencode] at hwrite

/-- One access. -/
theorem mirrors (id : Nat) (i : Instance Code) (a : ViewAccess) :
    Mirrors id i (exec (a.effect id) i) (a.onBytes (i.contents id)) := by
  cases a with
  | read address n =>
    rw [effect, exec_map, exec_read]
    refine mirrors_of_eq ?_
    rw [Instance.contents, ← Buffer.map_read]
    cases (i.guest.store.buffer id).read address n <;> rfl
  | write address data => exact mirrors_write id i address data
  | load k address =>
    rw [effect, exec_map, exec_load, onBytes]
    split
    · next h => exact mirrors_of_eq (map_load _ k h)
    · next h =>
      rw [Buffer.load, Buffer.elementIndex_of_not_dvd h]
      exact mirrors_of_eq rfl
  | store k address x =>
    rw [effect, onBytes]
    split
    · next h => exact mirrors_store i h x
    · next h =>
      rw [exec_map, exec_store_of_not_dvd h]
      exact mirrors_of_eq rfl
  | get k index =>
    rw [effect, exec_map, exec_getElement, onBytes]
    cases haddress : Word.mul? index k.size with
    | some address =>
      rw [Word.mul?_eq_some_iff] at haddress
      rw [Buffer.get_of_mul haddress]
      exact mirrors_of_eq (map_load _ k ⟨index.toNat, by rw [← haddress, Nat.mul_comm]⟩)
    | none =>
      rw [Buffer.get, Buffer.elementAddress, haddress]
      exact mirrors_of_eq rfl
  | set k index x =>
    rw [effect, onBytes]
    cases haddress : Word.mul? index k.size with
    | some address =>
      rw [Word.mul?_eq_some_iff] at haddress
      rw [exec_map, exec_setElement_of_mul haddress, ← exec_map]
      exact mirrors_store i ⟨index.toNat, by rw [← haddress, Nat.mul_comm]⟩ x
    | none =>
      rw [exec_map, exec_setElement, Buffer.elementAddress, haddress]
      exact mirrors_of_eq rfl

/-- Any mix of accesses answers and leaves what it does on one list of bytes. -/
theorem effects_eq (id : Nat) (i : Instance Code) (as : List ViewAccess) :
    (effects id i as).1 = (allOnBytes (i.contents id) as).1 ∧
      (effects id i as).2.contents id = (allOnBytes (i.contents id) as).2 ∧
        Rewritten id i (effects id i as).2 := by
  induction as generalizing i with
  | nil => exact ⟨rfl, rfl, .refl i⟩
  | cons a as ih =>
    obtain ⟨hanswer, hcontents, hrewritten⟩ := mirrors id i a
    obtain ⟨hanswers, hcontents', hrewritten'⟩ := ih (exec (a.effect id) i).2
    rw [hcontents] at hanswers hcontents'
    exact ⟨congrArg₂ List.cons hanswer hanswers, hcontents', hrewritten.trans hrewritten'⟩

end ViewAccess

/-- The views on a buffer that words can address read and write its bytes, and any mix of accesses
through them is one to the list of its bytes. -/
theorem Instance.views_agree (i : Instance Code) (id : Nat)
    (hsize : (i.guest.store.buffer id).bytes.size < UInt32.size) :
    (∀ k, i.Bytewise id k) ∧ ∀ as : List ViewAccess,
      (ViewAccess.effects id i as).1 = (ViewAccess.allOnBytes (i.contents id) as).1 ∧
      (ViewAccess.effects id i as).2.contents id =
        (ViewAccess.allOnBytes (i.contents id) as).2 ∧
      Rewritten id i (ViewAccess.effects id i as).2 :=
  ⟨bytewise hsize, ViewAccess.effects_eq id i⟩

/-- The two bytes of an element of sixteen bits are elements of eight bits, low byte first, and
there is no element of sixteen bits at an odd address. -/
theorem Instance.views_agree_overlapping :
    ((Instance.ofGuest { Guest.ofPages Unit 0 0 with store := .ofSize 8 }
        .standard).guest.store.buffer 0).bytes.size < UInt32.size ∧
      (ViewAccess.effects 0 (Instance.ofGuest { Guest.ofPages Unit 0 0 with store := .ofSize 8 }
          .standard) [.store .u16 2 0x0201, .get .u8 2, .load .u8 3, .load .i16 3]).1 =
        [.ok .done, .ok (.element .u8 1), .ok (.element .u8 2), .error (.misaligned 3 2)] := by
  have hsize : ((Instance.ofGuest { Guest.ofPages Unit 0 0 with store := .ofSize 8 }
      .standard).guest.store.buffer 0).bytes.size < UInt32.size := by decide
  exact ⟨hsize, ((views_agree _ 0 hsize).2 _).1.trans (by rfl)⟩

end

end Crossing
