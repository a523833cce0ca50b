import Crossing.Proofs.Instance.Answers
import Crossing.Proofs.Instance.Chronicle

/-!
# Two instances side by side

Twins are sound instances with the same heap, bytes, tables and configuration; how much memory each
has, and in which buffers, may differ. `Parallel long i j e e'` says that the effects `e` and `e'`
do the same on the twins `i` and `j`: the answers agree and the instances that are left are twins
again, unless one of the allocators refuses. The rules follow the effect, as those of `Ensures` do,
and `Parallel.bind` takes from `Ensures` what the first effect leaves.

Reads and writes give the same where the heap reaches (`Instance.Reaches`), since both memories
hold all of it. Only a text of more bytes than a word can count leads beyond both memories; the
faults then tell different sizes of memory, which is why `SameAnswer` has a second case.
-/

namespace Crossing

open Effect

section
variable {Code α β : Type} {W : Set Nat} {i i' j j' : Instance Code}

/-! ## Twins -/

/-- Two sound instances with the same heap, bytes, tables and configuration. -/
structure Twins (i j : Instance Code) : Prop where
  left : i.Sound
  right : j.Sound
  heapTop : j.guest.heapTop = i.guest.heapTop
  bytes : ∀ a, j.guest.buffer.byteAt a = i.guest.buffer.byteAt a
  config : j.config = i.config
  handles : j.handles = i.handles
  raw : j.raw = i.raw

/-- The heap has grown beyond its beginning and reaches up to `stop`. -/
def Instance.Reaches (i : Instance Code) (stop : Nat) : Prop :=
  16 < i.guest.heapTop.toNat ∧ stop ≤ i.guest.heapTop.toNat

namespace Instance.Reaches

variable {stop stop' : Nat}

/-- The heap reaches as far after growth. -/
theorem mono (h : i.Reaches stop) (hg : Grows W i i') : i'.Reaches stop :=
  ⟨Nat.lt_of_lt_of_le h.1 hg.heapTop, Nat.le_trans h.2 hg.heapTop⟩

/-- It reaches as far where the guest is the same. -/
theorem of_guest (h : i.Reaches stop) (hguest : i'.guest = i.guest) : i'.Reaches stop := by
  unfold Reaches
  rw [hguest]
  exact h

/-- It reaches to all that lies before. -/
theorem narrow (h : i.Reaches stop) (hle : stop' ≤ stop) : i.Reaches stop' :=
  ⟨h.1, Nat.le_trans hle h.2⟩

/-- Memory holds what the heap reaches. -/
theorem le_size (h : i.Reaches stop) (hi : i.Sound) : stop ≤ i.guest.buffer.bytes.size := by
  obtain ⟨hpos, hle⟩ := h
  have htop := hi.guest.heap_le
  omega

/-- It reaches to words only. -/
theorem lt_word (h : i.Reaches stop) : stop < UInt32.size :=
  Nat.lt_of_le_of_lt h.2 i.guest.heapTop.toNat_lt

/-- That of a twin reaches as far. -/
theorem twin (h : i.Reaches stop) (ht : Twins i j) : j.Reaches stop := by
  unfold Reaches
  rw [ht.heapTop]
  exact h

end Instance.Reaches

namespace Twins

/-- A sound instance is its own twin. -/
theorem refl (h : i.Sound) : Twins i i where
  left := h
  right := h
  heapTop := rfl
  bytes := fun _ => rfl
  config := rfl
  handles := rfl
  raw := rfl

/-- Being twins goes both ways. -/
theorem symm (h : Twins i j) : Twins j i where
  left := h.right
  right := h.left
  heapTop := h.heapTop.symm
  bytes := fun a => (h.bytes a).symm
  config := h.config.symm
  handles := h.handles.symm
  raw := h.raw.symm

/-- The arenas of twins begin at the same address. -/
theorem base (h : Twins i j) : j.arena.base = i.arena.base := by
  rw [h.right.base, h.config, h.left.base]

/-- The twin with more memory has grown from the other. -/
theorem grows (h : Twins i j) (hle : i.guest.buffer.bytes.size ≤ j.guest.buffer.bytes.size) :
    Grows W i j where
  sound := h.right
  heapTop := by rw [h.heapTop]
  size := hle
  kept := fun a _ => h.bytes a
  config := h.config
  handles := by rw [h.handles]; exact .refl _
  raw := by rw [h.raw]; exact .refl _

/-- Steps that change no byte keep twins when the heaps and the tables are the same after them. -/
theorem step (h : Twins i j) (hi : Grows ∅ i i') (hj : Grows ∅ j j')
    (htop : j'.guest.heapTop = i'.guest.heapTop) (hhandles : j'.handles = i'.handles)
    (hraw : j'.raw = i'.raw) : Twins i' j' where
  left := hi.sound
  right := hj.sound
  heapTop := htop
  bytes := fun a => by
    rw [hi.kept a (Set.notMem_empty a), hj.kept a (Set.notMem_empty a), h.bytes a]
  config := by rw [hi.config, hj.config, h.config]
  handles := hhandles
  raw := hraw

/-- What agrees with twins are twins. -/
theorem agrees (h : Twins i j) (hi : Agrees i i') (hj : Agrees j j') : Twins i' j' := by
  refine h.step (hi.grows h.left) (hj.grows h.right) ?_ ?_ ?_
  · rw [hi.heapTop, hj.heapTop, h.heapTop]
  · rw [hi.handles, hj.handles, h.handles]
  · rw [hi.raw, hj.raw, h.raw]

/-- Twins are twins after the same event. -/
theorem log (h : Twins i j) (e : Event) : Twins (i.log e) (j.log e) :=
  h.agrees (agrees_log i e) (agrees_log j e)

/-- Looking at memory keeps twins. -/
theorem alike (h : Twins i j) (hi : Alike i i') (hj : Alike j j') : Twins i' j' := by
  refine h.step (hi.grows h.left) (hj.grows h.right) ?_ ?_ ?_
  · rw [hi.guest, hj.guest, h.heapTop]
  · rw [hi.handles, hj.handles, h.handles]
  · rw [hi.raw, hj.raw, h.raw]

/-- Growth of the first one keeps twins. -/
theorem grow (h : Twins i j) (delta : UInt32) : Twins (exec (grow delta) i).2 j := by
  have hconfined := Confined.allocating.grow delta i
  refine h.step (grows_grow h.left delta) (.refl h.right) ?_ ?_ ?_
  · rw [heapTop_grow, h.heapTop]
  · rw [hconfined.handles, h.handles]
  · rw [hconfined.raw, h.raw]

/-- Writing the same where both memories reach keeps twins. -/
theorem written (h : Twins i j) {address : UInt32} {data : ByteArray}
    (hi : address.toNat + data.size ≤ i.guest.buffer.bytes.size)
    (hj : address.toNat + data.size ≤ j.guest.buffer.bytes.size) :
    Twins (i.written i.guest.memory address data) (j.written j.guest.memory address data) where
  left := (grows_written h.left hi fun _ => Set.subset_univ _).sound
  right := (grows_written h.right hj fun _ => Set.subset_univ _).sound
  heapTop := h.heapTop
  bytes := fun a => by
    rw [Instance.buffer_written h.left.guest.memory,
      Instance.buffer_written h.right.guest.memory]
    exact Buffer.byteAt_blit_congr hi hj h.bytes
  config := h.config
  handles := h.handles
  raw := h.raw

/-- Blocks of the same size are handed out at the same address and keep twins. -/
theorem block (h : Twins i j) {address address' size : UInt32} (hb : Block i address size i')
    (hb' : Block j address' size j') (hg : Grows ∅ i i') (hg' : Grows ∅ j j')
    (hc : Confined i i') (hc' : Confined j j') : address' = address ∧ Twins i' j' := by
  have haddress : address' = address := by
    rw [← UInt32.toNat_inj, hb.start, hb'.start, h.heapTop]
  refine ⟨haddress, h.step hg hg' ?_ ?_ ?_⟩
  · rw [← UInt32.toNat_inj, hb.stop, hb'.stop, haddress]
  · rw [hc.handles, hc'.handles, h.handles]
  · rw [hc.raw, hc'.raw, h.raw]

end Twins

/-! ## Effects that do the same -/

/-- The allocator refused a request. That of the largest word is left out: no guest could serve it,
and a table whose size is no word is reported as one. -/
def Refused (r : Except Fault α) : Prop :=
  ∃ size, size ≠ Word.max ∧ r = .error (.allocationFailed size)

/-- The answers are the same, or both accesses led beyond memory and the faults tell its sizes,
which is possible under the condition `long` only. -/
inductive SameAnswer (long : Prop) : Except Fault α → Except Fault α → Prop
  | same (r : Except Fault α) : SameAnswer long r r
  | beyond (hlong : long) (address n size size' : UInt32) :
    SameAnswer long (.error (.outOfBounds address n size)) (.error (.outOfBounds address n size'))

/-- Unless an allocator refuses, the effects have the same answer and leave twins. -/
def Parallel (long : Prop) (i j : Instance Code) (e e' : Effect Code α) : Prop :=
  Refused (exec e i).1 ∨ Refused (exec e' j).1 ∨
    SameAnswer long (exec e i).1 (exec e' j).1 ∧ Twins (exec e i).2 (exec e' j).2

namespace Parallel

variable {long : Prop} {e e' : Effect Code α} {f f' : α → Effect Code β}
  {Q : α → Instance Code → Prop}

/-- Effects with the same result that leave twins are parallel. -/
theorem of_exec {r : Except Fault α} (h : exec e i = (r, i')) (h' : exec e' j = (r, j'))
    (ht : Twins i' j') : Parallel long i j e e' := by
  refine .inr (.inr ?_)
  rw [h, h']
  exact ⟨.same r, ht⟩

/-- The same answer is parallel to itself. -/
theorem pure (h : Twins i j) (a : α) :
    Parallel long i j (pure a : Effect Code α) (pure a : Effect Code α) :=
  of_exec rfl rfl h

/-- So is the same fault. -/
theorem throw (h : Twins i j) (x : Fault) :
    Parallel long i j (throw x : Effect Code α) (throw x : Effect Code α) :=
  of_exec rfl rfl h

/-- So is the same check. -/
theorem lift (h : Twins i j) (r : Except Fault α) :
    Parallel long i j (liftM r : Effect Code α) (liftM r : Effect Code α) :=
  of_exec (exec_liftExcept r i) (exec_liftExcept r j) h

/-- Effects in a row are parallel, when the first ones are and the second ones are on each
answer. -/
theorem bind (he : Parallel long i j e e') (hQ : Ensures W e i Q)
    (hf : ∀ a i' j', Grows W i i' → Q a i' → Twins i' j' → Parallel long i' j' (f a) (f' a)) :
    Parallel long i j (e >>= f) (e' >>= f') := by
  obtain ⟨hg, hanswer⟩ := hQ
  unfold Parallel at he ⊢
  rw [exec_bind, exec_bind]
  generalize exec e i = left at he hg hanswer ⊢
  generalize exec e' j = right at he ⊢
  obtain ⟨r, i'⟩ := left
  obtain ⟨r', j'⟩ := right
  dsimp only at he hg hanswer
  rcases he with ⟨size, hsize, rfl⟩ | ⟨size, hsize, rfl⟩ | ⟨hsame, ht⟩
  · exact .inl ⟨size, hsize, rfl⟩
  · exact .inr (.inl ⟨size, hsize, rfl⟩)
  · cases hsame with
    | same =>
      cases r with
      | ok a => exact hf a i' j' hg (hanswer rfl) ht
      | error x => exact .inr (.inr ⟨.same _, ht⟩)
    | beyond hlong => exact .inr (.inr ⟨.beyond hlong _ _ _ _, ht⟩)

/-- A function of the answer changes nothing about that. -/
theorem map (g : α → β) (h : Parallel long i j e e') :
    Parallel long i j (g <$> e) (g <$> e') := by
  unfold Parallel at h ⊢
  rw [exec_map, exec_map]
  dsimp only
  rcases h with ⟨size, hsize, hr⟩ | ⟨size, hsize, hr⟩ | ⟨hsame, ht⟩
  · exact .inl ⟨size, hsize, by rw [hr]; rfl⟩
  · exact .inr (.inl ⟨size, hsize, by rw [hr]; rfl⟩)
  · refine .inr (.inr ⟨?_, ht⟩)
    generalize (exec e i).1 = r at hsame
    generalize (exec e' j).1 = r' at hsame
    cases hsame with
    | same => exact .same _
    | beyond hlong => exact .beyond hlong _ _ _ _

/-- Effects that begin by looking at the instances. -/
theorem get {f f' : Instance Code → Effect Code β} (h : Parallel long i j (f i) (f' j)) :
    Parallel long i j (MonadState.get >>= f) (MonadState.get >>= f') := by
  unfold Parallel
  rw [exec_bind_of_ok (exec_get i), exec_bind_of_ok (exec_get j)]
  exact h

/-- What follows a note in the journal. -/
theorem note {f f' : Unit → Effect Code β} (h : Twins i j) (e : Event)
    (hf : ∀ i' j', i'.guest = i.guest → Twins i' j' → Parallel long i' j' (f ()) (f' ())) :
    Parallel long i j (record e >>= f) (record e >>= f') := by
  unfold Parallel
  rw [exec_bind_of_ok (exec_record e i), exec_bind_of_ok (exec_record e j)]
  exact hf _ _ rfl (h.log e)

/-- Each one publishes views on its own memory, where it never did. -/
theorem views {f f' : Views → Effect Code β} (h : Twins i j)
    (hf : ∀ v v' i' j', v.buffer = i'.guest.memory → v'.buffer = j'.guest.memory →
      i'.guest = i.guest → Twins i' j' → Parallel long i' j' (f v) (f' v')) :
    Parallel long i j (Effect.views >>= f) (Effect.views >>= f') := by
  obtain ⟨v, i', hi, hv, halike⟩ := (Alike.refl h.left).exec_views
  obtain ⟨v', j', hj, hv', halike'⟩ := (Alike.refl h.right).exec_views
  unfold Parallel
  rw [exec_bind_of_ok hi, exec_bind_of_ok hj]
  refine hf v v' i' j' ?_ ?_ halike.guest (h.alike halike halike')
  · rw [hv, halike.guest]
  · rw [hv', halike'.guest]

end Parallel

/-! ## Writes -/

section
variable {long : Prop}

/-- A write where the heap reaches. -/
theorem parallel_write (h : Twins i j) {address : UInt32} {data : ByteArray}
    (hreach : i.Reaches (address.toNat + data.size)) :
    Parallel long i j (write i.guest.memory address data) (write j.guest.memory address data) := by
  have hi := hreach.le_size h.left
  have hj := (hreach.twin h).le_size h.right
  have hcheck : (i.guest.store.buffer i.guest.memory).check address data.size = .ok () :=
    Buffer.check_eq_ok_iff.2 hi
  have hcheck' : (j.guest.store.buffer j.guest.memory).check address data.size = .ok () :=
    Buffer.check_eq_ok_iff.2 hj
  refine .of_exec (r := .ok ()) ?_ ?_ (h.written hi hj)
  · rw [exec_write, hcheck]
  · rw [exec_write, hcheck']

/-- A write of more bytes than a word can count leads beyond any memory. -/
theorem Effect.exec_write_beyond (hi : i.Sound) (address : UInt32) {data : ByteArray}
    (hsize : UInt32.size ≤ data.size) :
    exec (write i.guest.memory address data) i =
      (.error (.outOfBounds address data.size.toUInt32 i.guest.buffer.length), i) := by
  have hle := hi.guest.size_le
  have hcheck : (i.guest.store.buffer i.guest.memory).check address data.size =
      .error (i.guest.buffer.outOfBounds address data.size.toUInt32) := by
    have hnot : ¬ address.toNat + data.size ≤ i.guest.buffer.bytes.size := by
      have hword : UInt32.size = 4294967296 := rfl
      omega
    exact if_neg hnot
  rw [exec_write, hcheck]
  rfl

/-- Such a write fails on both instances, and the faults tell the sizes of the memories. -/
theorem parallel_write_beyond (h : Twins i j) (hlong : long) (address : UInt32) {data : ByteArray}
    (hsize : UInt32.size ≤ data.size) :
    Parallel long i j (write i.guest.memory address data)
      (write j.guest.memory address data) := by
  refine .inr (.inr ?_)
  rw [exec_write_beyond h.left address hsize, exec_write_beyond h.right address hsize]
  exact ⟨.beyond hlong _ _ _ _, h⟩

/-- An element is stored by its bytes where its address is a multiple of its size. -/
theorem Effect.exec_store (id : Nat) (k : ElementKind) (address : UInt32) (x : k.Carrier)
    (i : Instance Code) :
    exec (store id k address x) i =
      if address % k.size = 0 then exec (write id address (k.encode x)) i
      else (.error (.misaligned address k.size), i) := by
  unfold store Buffer.elementIndex
  split
  · next hal =>
    have hbuffer : exec (buffer id) i = (.ok (i.guest.store.buffer id), i) := rfl
    rw [exec_bind_of_ok (exec_liftExcept (.ok (address / k.size)) i), setElement,
      exec_bind_of_ok hbuffer, Buffer.elementAddress_div hal,
      exec_bind_of_ok (exec_liftExcept (.ok address) i)]
  · exact exec_bind_of_error (exec_liftExcept _ i)

/-- An element is stored alike on twins, below the heap's top. -/
theorem parallel_store (h : Twins i j) {k : ElementKind} {address : UInt32} (x : k.Carrier)
    (hreach : i.Reaches (address.toNat + k.size.toNat)) :
    Parallel long i j (store i.guest.memory k address x) (store j.guest.memory k address x) := by
  unfold Parallel
  rw [exec_store, exec_store]
  split
  · exact parallel_write h (by rwa [k.size_encode])
  · exact .inr (.inr ⟨.same _, h⟩)

/-- So is a word of a slot. -/
theorem parallel_writeWord (h : Twins i j) {address : UInt32} (index x : UInt32)
    (hreach : i.Reaches (address.toNat + 4 * index.toNat + 4)) :
    Parallel long i j (writeWord address index x) (writeWord address index x) := by
  obtain ⟨a, hpart, ha⟩ := Slot.exists_word? address index (hreach.narrow (by omega)).lt_word
  refine .views h fun v v' i₁ j₁ hv hv' hguest h₁ => ?_
  rw [hpart, slotPart, slotPart, pure_bind, pure_bind, hv, hv']
  refine parallel_store h₁ (k := .u32) x ?_
  rw [ha]
  exact hreach.of_guest hguest

/-- So is the kind of a slot. -/
theorem parallel_writeKind (h : Twins i j) {address : UInt32} (kind : SlotKind)
    (hreach : i.Reaches (address.toNat + 13)) :
    Parallel long i j (writeKind address kind) (writeKind address kind) := by
  obtain ⟨a, hpart, ha⟩ := Slot.exists_tagAddress? address (hreach.narrow (by omega)).lt_word
  refine .views h fun v v' i₁ j₁ hv hv' hguest h₁ => ?_
  rw [hpart, slotPart, slotPart, pure_bind, pure_bind, hv, hv', setElement_u8, setElement_u8]
  refine parallel_store h₁ (k := .u8) kind.tag ?_
  rw [ha]
  exact hreach.of_guest hguest

/-! ## Blocks and tables -/

/-- No guest has room for a block whose size is the largest word. -/
theorem Block.size_ne_max {address size : UInt32} (h : Block i address size i') (hs : i'.Sound) :
    size ≠ Word.max := by
  rintro rfl
  have hstop := h.stop
  have hinside := h.inside
  have hsize := hs.guest.size_le
  have hmax : Word.max.toNat = 4294967295 := rfl
  omega

/-- The allocators hand out the same block, where neither refuses. -/
theorem parallel_alloc (h : Twins i j) (size : UInt32) :
    Parallel long i j (alloc size) (alloc size) := by
  have hc := Confined.writing.alloc size i
  have hc' := Confined.writing.alloc size j
  obtain ⟨i', hg, ⟨hexec, -, hagrees⟩ | ⟨address, hexec, hb⟩⟩ := exec_alloc (W := ∅) h.left size
  · obtain ⟨j', hg', ⟨hexec', -, hagrees'⟩ | ⟨address', hexec', hb'⟩⟩ :=
      exec_alloc (W := ∅) h.right size
    · exact .of_exec hexec hexec' (h.agrees hagrees hagrees')
    · refine .inl ⟨size, hb'.size_ne_max hg'.sound, ?_⟩
      rw [hexec]
  · obtain ⟨j', hg', ⟨hexec', -, -⟩ | ⟨address', hexec', hb'⟩⟩ :=
      exec_alloc (W := ∅) h.right size
    · refine .inr (.inl ⟨size, hb.size_ne_max hg.sound, ?_⟩)
      rw [hexec']
    · rw [hexec] at hc
      rw [hexec'] at hc'
      obtain ⟨rfl, ht⟩ := h.block hb hb' hg hg' hc hc'
      exact .of_exec hexec hexec' ht

/-- The check of what may be opened comes out alike on twins. -/
theorem parallel_checkRoom (h : Twins i j) (room : Nat) :
    Parallel long i j (checkRoom room) (checkRoom room) := by
  unfold checkRoom
  split
  · refine .get ?_
    rw [h.config]
    exact .throw h _
  · exact .pure h ()

/-- So does the size of a table. -/
theorem parallel_tableSize (h : Twins i j) (n : Nat) (stride : UInt32) :
    Parallel long i j (tableSize n stride) (tableSize n stride) := by
  unfold tableSize
  split
  · exact .pure h _
  · exact .throw h _

/-- The offset of an address is taken from the same base. -/
theorem parallel_offset (h : Twins i j) (address : UInt32) :
    Parallel long i j (liftM (i.arena.offset address)) (liftM (j.arena.offset address)) := by
  have hoffset : j.arena.offset address = i.arena.offset address := by
    unfold Arena.offset
    rw [h.base]
  rw [hoffset]
  exact .lift h _

/-! ## Handles and raw values -/

/-- A value is lent under the same handle on twins. -/
theorem parallel_acquire (h : Twins i j) (v : Value) :
    Parallel long i j (acquire v) (acquire v) := by
  have hg := grows_acquire (W := ∅) h.left v
  have hg' := grows_acquire (W := ∅) h.right v
  obtain ⟨journal, hexec⟩ := exec_acquire v i
  obtain ⟨journal', hexec'⟩ := exec_acquire v j
  rw [hexec] at hg
  rw [h.handles] at hexec'
  rw [hexec'] at hg'
  split at hexec
  · next hfull =>
    rw [if_pos hfull] at hexec'
    exact .of_exec hexec hexec' h
  · next hfull =>
    rw [if_neg hfull] at hexec' hg hg'
    exact .of_exec hexec hexec' (h.step hg hg' h.heapTop rfl h.raw)

/-- A value is registered under the same number on twins. -/
theorem parallel_registerRaw (h : Twins i j) (v : Value) :
    Parallel long i j (registerRaw v) (registerRaw v) := by
  have hg := grows_registerRaw (W := ∅) h.left v
  have hg' := grows_registerRaw (W := ∅) h.right v
  have hexec := exec_registerRaw v i
  have hexec' := exec_registerRaw v j
  rw [hexec] at hg
  rw [h.raw] at hexec'
  rw [hexec'] at hg'
  split at hexec
  · next hfull =>
    rw [if_pos hfull] at hexec'
    exact .of_exec hexec hexec' h
  · next hfull =>
    rw [if_neg hfull] at hexec' hg hg'
    exact .of_exec hexec hexec' (h.step hg hg' h.heapTop h.handles rfl)

end

end

end Crossing
