import Crossing.Proofs.Instance.Accesses
import Mathlib.Logic.Relation

/-!
# What windows see

A window is checked against its buffer once, when it is made. From then on it sees the elements that
it covers as they are at the moment, for as long as the buffer is not detached, and nothing after
that (`Window.sees_elements`): writes keep the size of a buffer, growth leaves nothing of it, and
there is no way back. `Store.Step` is what can happen to a store between the making of a window and
its use, and `Machine.reaches_runs` says that nothing else happens to it in a run.
-/

namespace Crossing

/-! ## The history of a store -/

namespace Store

/-- Something is written into a buffer, or a buffer grows. -/
inductive Step : Store → Store → Prop
  | write {s s' : Store} {id : Nat} {address : UInt32} {data : ByteArray} :
      s.write id address data = .ok s' → Step s s'
  | set {s s' : Store} {id : Nat} {k : ElementKind} {index : UInt32} {x : k.Carrier} :
      s.set id k index x = .ok s' → Step s s'
  | store {s s' : Store} {id : Nat} {k : ElementKind} {address : UInt32} {x : k.Carrier} :
      s.store id k address x = .ok s' → Step s s'
  | grow (s : Store) (id size : Nat) : Step s (s.grow id size)

/-- The second store comes from the first one by writes and growth. -/
def Reaches : Store → Store → Prop := Relation.ReflTransGen Step

variable {s s' : Store} {id j n : Nat}

/-- A write goes through exactly when its bytes lie inside of the buffer. -/
theorem write_eq_ok_iff {address : UInt32} {data : ByteArray} :
    s.write id address data = .ok s' ↔
      address.toNat + data.size ≤ (s.buffer id).bytes.size ∧ s' = s.blit id address data := by
  unfold write
  rw [← Buffer.check_eq_ok_iff]
  cases (s.buffer id).check address data.size <;>
    simp [bind, Except.bind, pure, Except.pure, eq_comm]

/-- An element is written as bytes. -/
theorem exists_write_of_set {k : ElementKind} {index : UInt32} {x : k.Carrier}
    (h : s.set id k index x = .ok s') :
    ∃ address, s.write id address (k.encode x) = .ok s' := by
  unfold set at h
  cases ha : (s.buffer id).elementAddress k index with
  | error => simp [ha, bind, Except.bind] at h
  | ok address => exact ⟨address, by simpa [ha, bind, Except.bind] using h⟩

/-- An element that is stored is set by some index. -/
theorem exists_set_of_store {k : ElementKind} {address : UInt32} {x : k.Carrier}
    (h : s.store id k address x = .ok s') : ∃ index, s.set id k index x = .ok s' := by
  unfold store at h
  cases hi : Buffer.elementIndex k address with
  | error => simp [hi, bind, Except.bind] at h
  | ok index => exact ⟨index, by simpa [hi, bind, Except.bind] using h⟩

/-- All that a step does is a write inside of a buffer or growth. -/
theorem Step.cases (h : s.Step s') :
    (∃ id address data, address.toNat + data.size ≤ (s.buffer id).bytes.size ∧
      s' = s.blit id address data) ∨ ∃ id size, s' = s.grow id size := by
  have hwrite {id : Nat} {address : UInt32} {data : ByteArray}
      (hw : s.write id address data = .ok s') :
      ∃ id address data, address.toNat + data.size ≤ (s.buffer id).bytes.size ∧
        s' = s.blit id address data := ⟨_, _, _, write_eq_ok_iff.1 hw⟩
  cases h with
  | write h => exact .inl (hwrite h)
  | set h =>
    obtain ⟨_, h⟩ := exists_write_of_set h
    exact .inl (hwrite h)
  | store h =>
    obtain ⟨_, h⟩ := exists_set_of_store h
    obtain ⟨_, h⟩ := exists_write_of_set h
    exact .inl (hwrite h)
  | grow id size => exact .inr ⟨id, size, rfl⟩

end Store

/-! ## The history of a buffer -/

namespace Buffer

/-- What becomes of a buffer: it keeps its size, or growth has left nothing of it. -/
def Becomes (b b' : Buffer) : Prop :=
  b' = gone ∨ b'.detached = b.detached ∧ b'.bytes.size = b.bytes.size

variable {b b' b'' : Buffer}

/-- A buffer keeps its size by no step. -/
theorem Becomes.refl (b : Buffer) : b.Becomes b := .inr ⟨rfl, rfl⟩

/-- Nothing is left of an abandoned buffer. -/
theorem Abandoned.eq_gone (h : b.Abandoned) : b = gone := by
  obtain ⟨bytes, detached⟩ := b
  obtain ⟨rfl, hsize⟩ := h
  obtain rfl := ByteArray.size_eq_zero_iff.1 hsize
  rfl

/-- Nothing becomes of what growth has left. -/
theorem Becomes.eq_gone (h : gone.Becomes b) : b = gone := by
  obtain h | ⟨hdetached, hsize⟩ := h
  · exact h
  · exact Abandoned.eq_gone ⟨hdetached, hsize⟩

/-- What becomes of a buffer in two steps is one of the same two things. -/
theorem Becomes.trans (h : b.Becomes b') (h' : b'.Becomes b'') : b.Becomes b'' := by
  obtain rfl | ⟨hdetached, hsize⟩ := h
  · exact .inl h'.eq_gone
  · obtain rfl | ⟨hdetached', hsize'⟩ := h'
    · exact .inl rfl
    · exact .inr ⟨hdetached'.trans hdetached, hsize'.trans hsize⟩

end Buffer

namespace Store

variable {s s' : Store} {id j n : Nat}

/-- Growth makes one buffer more. -/
theorem size_grow (s : Store) (id size : Nat) :
    (s.grow id size).buffers.size = s.buffers.size + 1 := by
  simp [grow]

/-- Growth leaves nothing of the buffer that grows and the others as they were. -/
theorem buffer_grow_of_lt (hj : j < s.buffers.size) (id size : Nat) :
    (s.grow id size).buffer j = if id = j then .gone else s.buffer j := by
  by_cases hid : id < s.buffers.size
  · exact buffer_grow hid size j hj
  · have hne : id ≠ j := fun h => hid (h ▸ hj)
    rw [if_neg hne]
    simp [buffer, grow, Array.getElem?_push, hne, hj.ne]

/-- No buffer is ever taken out of a store, and each keeps its size or is left behind. -/
theorem Step.becomes (h : s.Step s') (hj : j < s.buffers.size) :
    j < s'.buffers.size ∧ (s.buffer j).Becomes (s'.buffer j) := by
  obtain ⟨id, address, data, hle, rfl⟩ | ⟨id, size, rfl⟩ := h.cases
  · refine ⟨by rwa [blit, Array.size_modify], .inr ⟨?_, size_blit hle j⟩⟩
    obtain heq | ⟨-, heq⟩ := s.buffer_blit_cases id j address data
    · rw [heq]
    · rw [heq]
      rfl
  · refine ⟨by rw [size_grow]; omega, ?_⟩
    rw [buffer_grow_of_lt hj]
    split
    · exact .inl rfl
    · exact .refl _

/-- In every later store a buffer has kept its size or is gone. -/
theorem Reaches.becomes (h : s.Reaches s') (hj : j < s.buffers.size) :
    j < s'.buffers.size ∧ (s.buffer j).Becomes (s'.buffer j) := by
  induction h with
  | refl => exact ⟨hj, .refl _⟩
  | tail _ hstep ih =>
    obtain ⟨hlt, hbecomes⟩ := hstep.becomes ih.1
    exact ⟨hlt, ih.2.trans hbecomes⟩

/-- A buffer that growth makes is not detached. -/
theorem Step.intact_or_gone (h : s.Step s')
    (hs : ∀ j, (s.buffer j).detached = false ∨ s.buffer j = .gone) (j : Nat) :
    (s'.buffer j).detached = false ∨ s'.buffer j = .gone := by
  by_cases hj : j < s.buffers.size
  · obtain heq | ⟨hdetached, hsize⟩ := (h.becomes hj).2
    · exact .inr heq
    · obtain hintact | hgone := hs j
      · exact .inl (hdetached.trans hintact)
      · rw [hgone] at hdetached hsize
        exact .inr (Buffer.Abandoned.eq_gone ⟨hdetached, hsize⟩)
  · obtain ⟨id, address, data, -, rfl⟩ | ⟨id, size, rfl⟩ := h.cases
    · exact .inr (buffer_of_size_le (by rw [blit, Array.size_modify]; omega))
    · by_cases hnew : j = s.buffers.size
      · subst hnew
        left
        have hnewest : (s.grow id size).newest = s.buffers.size := by
          rw [newest, size_grow, Nat.add_sub_cancel]
        have hbuffer := s.buffer_grow_newest id size
        rw [hnewest] at hbuffer
        rw [hbuffer]
        rfl
      · exact .inr (buffer_of_size_le (by rw [size_grow]; omega))

/-- In a store that began with one buffer, what is detached is what growth has left. -/
theorem Reaches.intact_or_gone (h : (ofSize n).Reaches s) (j : Nat) :
    (s.buffer j).detached = false ∨ s.buffer j = .gone := by
  induction h generalizing j with
  | refl =>
    by_cases hj : j = 0
    · subst hj
      exact .inl rfl
    · exact .inr (buffer_of_size_le (Nat.pos_of_ne_zero hj))
  | tail _ hstep ih => exact hstep.intact_or_gone ih j

end Store

/-! ## Windows -/

namespace Window

variable {b : Buffer} {w : Window} {k : ElementKind} {start stop i index : UInt32}

/-- An element of a window is the one of the buffer behind the first ones, widened. -/
theorem get_eq (hi : i < w.length) (hindex : index.toNat = w.start.toNat + i.toNat)
    (hword : index.toNat * w.kind.size.toNat < UInt32.size) :
    w.get b i = (b.get w.kind index).map w.kind.toDouble := by
  have hsum : w.start + i = index := by
    rw [← UInt32.toNat_inj, UInt32.toNat_add, hindex]
    exact Nat.mod_eq_of_lt (by rw [← hindex]; exact index.toNat_lt)
  have haddress : index.toNat * w.kind.size.toNat = (index * w.kind.size).toNat := by
    rw [UInt32.toNat_mul]
    exact (Nat.mod_eq_of_lt hword).symm
  rw [Buffer.get_of_mul haddress,
    Buffer.load_of_dvd ⟨index.toNat, by rw [← haddress, Nat.mul_comm]⟩, get,
    if_neg (UInt32.not_le.2 hi), hsum]
  cases b.read (index * w.kind.size) w.kind.size.toNat <;> rfl

/-- The window shows the elements from `start` up to but not including `stop` as they are in the
buffer, and their bytes. -/
structure Sees (w : Window) (b : Buffer) (k : ElementKind) (start stop : UInt32) : Prop where
  inside : stop.toNat * k.size.toNat ≤ b.bytes.size
  get : ∀ i : UInt32, i.toNat < stop.toNat - start.toNat → ∃ (index : UInt32) (x : k.Carrier),
    index.toNat = start.toNat + i.toNat ∧ b.get k index = .ok x ∧ w.get b i = .ok (k.toDouble x)
  bytes : w.bytes b =
    .ok (b.bytes.extract (start.toNat * k.size.toNat) (stop.toNat * k.size.toNat))

/-- The window shows no element and, unless it is empty, no bytes. -/
structure Blind (w : Window) (b : Buffer) : Prop where
  get : ∀ i : UInt32, ∃ x, w.get b i = .error x
  bytes : 0 < w.length → ∃ x, w.bytes b = .error x

/-- The number of the elements up to the end of a window. -/
theorem toNat_start_add_length (hle : start ≤ stop) :
    start.toNat + (stop - start).toNat = stop.toNat := by
  rw [UInt32.toNat_sub_of_le _ _ hle, Nat.add_sub_cancel' (UInt32.le_iff_toNat_le.1 hle)]

/-- Where the last element of a window ends below the address space, neither its offset nor its
length in bytes wraps around. -/
theorem toNat_byteOffset
    (h : (w.start.toNat + w.length.toNat) * w.kind.size.toNat < UInt32.size) :
    w.byteOffset.toNat = w.start.toNat * w.kind.size.toNat := by
  rw [byteOffset, UInt32.toNat_mul]
  exact Nat.mod_eq_of_lt
    (Nat.lt_of_le_of_lt (Nat.mul_le_mul_right _ (Nat.le_add_right _ _)) h)

/-- The length of a window in bytes is exact when its end is a word. -/
theorem toNat_byteLength
    (h : (w.start.toNat + w.length.toNat) * w.kind.size.toNat < UInt32.size) :
    w.byteLength.toNat = w.length.toNat * w.kind.size.toNat := by
  rw [byteLength, UInt32.toNat_mul]
  exact Nat.mod_eq_of_lt
    (Nat.lt_of_le_of_lt (Nat.mul_le_mul_right _ (Nat.le_add_left _ _)) h)

/-- A window on elements that lie in a buffer shows them. -/
theorem sees (hle : start ≤ stop) (hin : stop.toNat * k.size.toNat ≤ b.bytes.size)
    (hsize : b.bytes.size < UInt32.size) (id : Nat) :
    Sees ⟨k, id, start, stop - start⟩ b k start stop := by
  have hlength := toNat_start_add_length hle
  refine ⟨hin, fun i hi => ?_, ?_⟩
  · have hindex : (start + i).toNat = start.toNat + i.toNat := by
      rw [UInt32.toNat_add]
      have hstop := stop.toNat_lt
      exact Nat.mod_eq_of_lt (by omega)
    have hend : (start + i).toNat * k.size.toNat + k.size.toNat ≤ b.bytes.size := by
      rw [← Nat.succ_mul, hindex]
      exact (Nat.mul_le_mul_right _ (by omega)).trans hin
    obtain ⟨x, hx⟩ := (Buffer.exists_get_iff hsize).2 ((Buffer.lt_count_iff hsize).2 hend)
    have hword : (start + i).toNat * k.size.toNat < UInt32.size :=
      Nat.lt_of_le_of_lt ((Nat.le_add_right _ _).trans hend) hsize
    refine ⟨start + i, x, hindex, hx, ?_⟩
    rw [get_eq (UInt32.lt_iff_toNat_lt.2 (show i.toNat < (stop - start).toNat by omega)) hindex
      hword, hx]
    rfl
  · have hword : (start.toNat + (stop - start).toNat) * k.size.toNat < UInt32.size := by
      rw [hlength]
      exact Nat.lt_of_le_of_lt hin hsize
    rw [bytes, Buffer.read_eq_ok_iff, toNat_byteOffset hword, toNat_byteLength hword, ← Nat.add_mul,
      hlength]
    exact ⟨hin, rfl⟩

/-- Nothing is seen of what growth has left. -/
theorem blind_gone
    (hword : (w.start.toNat + w.length.toNat) * w.kind.size.toNat < UInt32.size) :
    w.Blind .gone where
  get i := by
    cases h : w.get .gone i with
    | error x => exact ⟨x, rfl⟩
    | ok y => exact absurd h (Buffer.abandoned_gone.window_get_ne_ok w i y)
  bytes hpos := by
    have hbytes : 0 < w.byteLength.toNat := by
      rw [toNat_byteLength hword]
      exact Nat.mul_pos (UInt32.lt_iff_toNat_lt.1 hpos) w.kind.size_pos
    cases h : w.bytes .gone with
    | error x => exact ⟨x, rfl⟩
    | ok data => exact absurd h (Buffer.abandoned_gone.read_ne_ok hbytes data)

end Window

/-! ## Runs -/

section
variable {Code : Type}

open Effect

namespace Instance

/-- Whatever keeps to the views takes a store along writes and growth. -/
theorem reaching : Viewing fun i i' : Instance Code => i.guest.store.Reaches i'.guest.store where
  refl _ := .refl
  trans h h' := Relation.ReflTransGen.trans h h'
  modify f hf i := by
    show i.guest.store.Reaches (f i).guest.store
    rw [(hf i).store]
    exact .refl
  record _ _ _ _ := .refl
  publish i := by
    rw [exec_publish]
    exact .refl
  write id address data i := by
    rw [exec_write]
    cases hc : (i.guest.store.buffer id).check address data.size with
    | ok => exact .single (.write (Store.write_eq_ok_iff.2 ⟨Buffer.check_eq_ok_iff.1 hc, rfl⟩))
    | error => exact .refl
  grow := Steady.growth ⟨fun _ => .refl, Relation.ReflTransGen.trans⟩ fun _ _ _ =>
    .single (.grow _ _ _)

end Instance

/-- The elements from `start` up to but not including `stop` of a buffer that words can address can
be made a window of when the view counts them. In every later state of the store the window shows
these elements, if the buffer is not detached, and nothing if it is, as it is for good once it has
grown. Every run takes the store of its machine through such states. -/
theorem Window.sees_elements {n id : Nat} {s : Store} (hs : (Store.ofSize n).Reaches s)
    (hid : id < s.buffers.size) (hsize : (s.buffer id).bytes.size < UInt32.size)
    (k : ElementKind) (start stop : UInt32) :
    ((∃ w, ofRange (s.buffer id) id k start stop = .ok w) ↔
      start ≤ stop ∧ stop ≤ (s.buffer id).count k) ∧
    (∀ w, ofRange (s.buffer id) id k start stop = .ok w → ∀ s', s.Reaches s' →
      ((s'.buffer id).detached = false → w.Sees (s'.buffer id) k start stop) ∧
      ((s'.buffer id).detached = true → w.Blind (s'.buffer id))) ∧
    (∀ s₁ size s', s.Reaches s₁ → (s₁.grow id size).Reaches s' →
      (s'.buffer id).detached = true) ∧
    ∀ (m : Machine Code) (as : List (Action Code)),
      m.inst.guest.store.Reaches (m.runs as).inst.guest.store := by
  refine ⟨?_, fun w hw s' hs' => ?_, fun s₁ size s' hs₁ hs' => ?_,
    fun m as => Instance.reaching.acting.runs m as⟩
  · rw [Buffer.le_count_iff hsize]
    constructor
    · rintro ⟨w, hw⟩
      obtain ⟨hle, hin, -⟩ := (ofRange_eq_ok_iff hsize).1 hw
      exact ⟨hle, hin⟩
    · rintro ⟨hle, hin⟩
      exact ⟨_, (ofRange_eq_ok_iff hsize).2 ⟨hle, hin, rfl⟩⟩
  · obtain ⟨hle, hin, rfl⟩ := (ofRange_eq_ok_iff hsize).1 hw
    have hgone : s'.buffer id = .gone →
        Blind ⟨k, id, start, stop - start⟩ (s'.buffer id) := fun hgone => by
      rw [hgone]
      refine blind_gone ?_
      rw [toNat_start_add_length hle]
      exact Nat.lt_of_le_of_lt hin hsize
    constructor
    · intro hintact
      obtain hgone | ⟨-, hkept⟩ := (hs'.becomes hid).2
      · rw [hgone] at hintact
        cases hintact
      · exact sees hle (hkept ▸ hin) (hkept ▸ hsize) id
    · intro hdetached
      obtain hintact | hgone' := Store.Reaches.intact_or_gone (hs.trans hs') id
      · rw [hintact] at hdetached
        cases hdetached
      · exact hgone hgone'
  · have hlt := (hs₁.becomes hid).1
    have hgone : (s₁.grow id size).buffer id = .gone := by
      rw [Store.buffer_grow_of_lt hlt, if_pos rfl]
    have hbecomes := (hs'.becomes (j := id) (by rw [Store.size_grow]; omega)).2
    rw [hgone] at hbecomes
    rw [hbecomes.eq_gone]
    rfl

/-- A window on two of four elements shows what is written into the second one after it was made,
and shows nothing when the buffer has grown. -/
theorem Window.sees_elements_written :
    (Store.ofSize 8).Reaches (Store.ofSize 8) ∧ 0 < (Store.ofSize 8).buffers.size ∧
      ((Store.ofSize 8).buffer 0).bytes.size < UInt32.size ∧
      ∃ w s, ofRange ((Store.ofSize 8).buffer 0) 0 .u16 1 3 = .ok w ∧
        (Store.ofSize 8).set 0 .u16 2 0x0201 = .ok s ∧
        w.get (s.buffer 0) 1 = .ok (.ofInt 513) ∧ w.Blind ((s.grow 0 16).buffer 0) := by
  have hs : (Store.ofSize 8).Reaches (Store.ofSize 8) := .refl
  have hid : 0 < (Store.ofSize 8).buffers.size := by decide
  have hsize : ((Store.ofSize 8).buffer 0).bytes.size < UInt32.size := by decide
  obtain ⟨hmade, hshown, hdetached, -⟩ := @sees_elements Unit 8 0 _ hs hid hsize .u16 1 3
  obtain ⟨w, hw⟩ := hmade.2 (by decide)
  have hset : (Store.ofSize 8).set 0 .u16 2 0x0201 =
      .ok ((Store.ofSize 8).blit 0 4 (ElementKind.u16.encode 0x0201)) := rfl
  have hwritten := Relation.ReflTransGen.single (Store.Step.set hset)
  refine ⟨hs, hid, hsize, w, _, hw, hset, ?_, ?_⟩
  · obtain ⟨index, x, hindex, hx, hget⟩ := ((hshown w hw _ hwritten).1 rfl).get 1 (by decide)
    obtain rfl : index = 2 := UInt32.toNat_inj.1 hindex
    obtain rfl : (0x0201 : UInt16) = x := Except.ok.inj (Eq.trans rfl hx)
    exact hget
  · exact (hshown w hw _ (hwritten.tail (.grow _ 0 16))).2
      (hdetached _ 16 _ hwritten .refl)

end

end Crossing
