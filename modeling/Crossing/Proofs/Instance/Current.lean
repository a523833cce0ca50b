import Crossing.Proofs.Instance.Sound

/-!
# Views are never stale

Growth moves guest memory to a new buffer and abandons the old one. In a current instance the views,
where they were published, cover the newest buffer, every older one is abandoned, and the journal
tells how often memory grew and how often views were published. Growing publishes views too, so
every action keeps an instance current, whatever it allocates on its way.

`Viewing` says that a relation looks at buffers, views and the events about them only.
`Instance.Shut` is what is left of a buffer after growth: no access to a byte of it goes through.
-/

namespace Crossing

open Effect

section
variable {Code α : Type}

/-! ## Relations about memory and views -/

/-- Whether an event tells that memory grew. -/
def Event.isGrowth : Event → Bool
  | .grown _ => true
  | _ => false

/-- Whether an event tells that views were published. -/
def Event.isPublication : Event → Bool
  | .published _ _ => true
  | _ => false

/-- The instances have the same buffers, views and journal. -/
structure SameViews (i i' : Instance Code) : Prop where
  store : i'.guest.store = i.guest.store
  memory : i'.guest.memory = i.guest.memory
  views : i'.views = i.views
  journal : i'.journal = i.journal

/-- The relation `R` looks at buffers, views and the events about them only, and is kept by the
steps that change them. -/
structure Viewing (R : Instance Code → Instance Code → Prop) : Prop extends Steady R where
  modify : ∀ f : Instance Code → Instance Code, (∀ i, SameViews i (f i)) → Keeps R (modify f)
  record : ∀ e : Event, e.isGrowth = false → e.isPublication = false → Keeps R (record e)
  publish : Keeps R publish
  write : ∀ id address data, Keeps R (write id address data)
  grow : ∀ delta, Keeps R (grow delta)

namespace Viewing

variable {R : Instance Code → Instance Code → Prop}

/-- The guest's allocator changes views by growth only. -/
theorem malloc (h : Viewing R) (size : UInt32) : Keeps R (malloc size) :=
  h.toSteady.malloc h.grow (fun _ => h.modify _ fun _ => by constructor <;> rfl)
    (h.modify _ fun _ => by constructor <;> rfl) size

/-- Such a relation is kept by every action. -/
theorem acting (h : Viewing R) : Acting R :=
  Overlooking.acting
    { toSteady := h.toSteady
      note := fun e he => h.record e (by cases e <;> simp_all [Event.isNote, Event.isGrowth])
        (by cases e <;> simp_all [Event.isNote, Event.isPublication])
      publish := h.publish
      write := h.write
      malloc := h.malloc
      alloc := fun size => h.toSteady.alloc (h.malloc size)
        (h.modify _ fun _ => by constructor <;> rfl) fun _ => h.record _ rfl rfl
      acquire := h.toSteady.acquire (fun _ => h.modify _ fun _ => by constructor <;> rfl)
        (fun _ _ => h.record _ rfl rfl) fun _ _ => h.record _ rfl rfl
      registerRaw := h.toSteady.registerRaw fun _ => h.modify _ fun _ => by constructor <;> rfl
      started := h.modify _ fun _ => by constructor <;> rfl
      modify := fun f hf => h.modify f fun i => { hf i with }
      record := fun e he => h.record e (by cases e <;> simp_all [Event.isAside, Event.isGrowth])
        (by cases e <;> simp_all [Event.isAside, Event.isPublication])
      grow := h.grow
      increment := h.toSteady.increment fun _ => h.modify _ fun _ => by constructor <;> rfl
      decrement := h.toSteady.decrement (fun _ => h.modify _ fun _ => by constructor <;> rfl)
        fun _ => h.record _ rfl rfl
      unregisterRaw := h.toSteady.unregisterRaw fun _ => h.modify _ fun _ => by constructor <;> rfl
      abort := h.toSteady.abort (fun _ => h.record _ rfl rfl)
        (h.modify _ fun _ => by constructor <;> rfl) }

end Viewing

/-! ## Current instances -/

/-- Growth has moved the bytes away. -/
structure Buffer.Abandoned (b : Buffer) : Prop where
  detached : b.detached = true
  size : b.bytes.size = 0

/-- A write leaves a buffer as it was or writes into it. -/
theorem Store.buffer_blit_cases (s : Store) (id j : Nat) (address : UInt32) (data : ByteArray) :
    (s.blit id address data).buffer j = s.buffer j ∨
      id = j ∧ (s.blit id address data).buffer j = (s.buffer j).blit address data := by
  by_cases hj : id = j
  · subst hj
    unfold buffer blit
    simp only [Array.getD_eq_getD_getElem?, Array.getElem?_modify, if_pos]
    cases s.buffers[id]? with
    | none => exact .inl rfl
    | some b => exact .inr ⟨trivial, rfl⟩
  · exact .inl (buffer_blit_of_ne hj address data)

/-- A write inside of its buffer leaves the size of every buffer. -/
theorem Store.size_blit {s : Store} {id : Nat} {address : UInt32} {data : ByteArray}
    (h : address.toNat + data.size ≤ (s.buffer id).bytes.size) (j : Nat) :
    ((s.blit id address data).buffer j).bytes.size = (s.buffer j).bytes.size := by
  rcases s.buffer_blit_cases id j address data with heq | ⟨rfl, heq⟩
  · rw [heq]
  · rw [heq, Buffer.size_blit h]

/-- A number that names no buffer reads as an abandoned one. -/
theorem Store.buffer_of_size_le {s : Store} {id : Nat} (h : s.buffers.size ≤ id) :
    s.buffer id = .gone := by
  simp [buffer, h]

/-- What growth leaves of a buffer is abandoned. -/
theorem Buffer.abandoned_gone : Buffer.gone.Abandoned := ⟨rfl, rfl⟩

namespace Instance

/-- How often memory grew. -/
def growths (i : Instance Code) : Nat := i.events.countP Event.isGrowth

/-- How often views were published. -/
def publications (i : Instance Code) : Nat := i.events.countP Event.isPublication

/-- Guest memory is the newest buffer, the others are abandoned, and the views are up to date. -/
structure Current (i : Instance Code) : Prop where
  newest : i.guest.memory + 1 = i.guest.store.buffers.size
  attached : i.guest.buffer.detached = false
  abandoned : ∀ id, id ≠ i.guest.memory → (i.guest.store.buffer id).Abandoned
  growths : i.guest.memory = i.growths
  unpublished : i.views = none → i.publications = 0
  published : ∀ v, i.views = some v → v.buffer = i.guest.memory ∧ v.generation + 1 = i.publications

variable {i i' : Instance Code}

/-- An event counts when it tells of growth. -/
theorem growths_log (i : Instance Code) (e : Event) :
    (i.log e).growths = i.growths + if e.isGrowth then 1 else 0 := by
  simp [growths, List.countP_append, List.countP_cons]

/-- An event counts when it tells of a publication. -/
theorem publications_log (i : Instance Code) (e : Event) :
    (i.log e).publications = i.publications + if e.isPublication then 1 else 0 := by
  simp [publications, List.countP_append, List.countP_cons]

/-- Growth is told of, and then the publication that it comes with. -/
theorem events_grown (i : Instance Code) (pages : UInt32) :
    (i.grown pages).events = i.events ++ [.grown pages,
      .published i.nextViews.generation (i.guest.grown pages).buffer.length] := by
  rw [Instance.grown, exec_publish]
  show (Instance.log (Instance.log _ _) _).events = _
  rw [events_log, events_log, List.append_assoc]
  rfl

/-- The next views cover guest memory, and their generation counts the publications so far. -/
theorem Current.generation_nextViews (h : i.Current) : i.nextViews.generation = i.publications := by
  unfold nextViews
  cases hv : i.views with
  | none => exact (h.unpublished hv).symm
  | some v => exact (h.published v hv).2

namespace Current

/-- An event that tells of neither changes nothing about views. -/
theorem log (h : i.Current) {e : Event} (hg : e.isGrowth = false) (hp : e.isPublication = false) :
    (i.log e).Current where
  newest := h.newest
  attached := h.attached
  abandoned := h.abandoned
  growths := by rw [growths_log, hg]; exact h.growths
  unpublished hv := by rw [publications_log, hp]; exact h.unpublished hv
  published v hv := by rw [publications_log, hp]; exact h.published v hv

/-- Where buffers, views and journal are the same, the views are as current. -/
theorem same (h : i.Current) (hs : SameViews i i') : i'.Current := by
  obtain ⟨hstore, hmemory, hviews, hjournal⟩ := hs
  have hbuffer : i'.guest.buffer = i.guest.buffer := by
    rw [Guest.buffer, hstore, hmemory, Guest.buffer]
  have hevents : i'.events = i.events := by rw [Instance.events, hjournal, Instance.events]
  exact
    { newest := by rw [hstore, hmemory]; exact h.newest
      attached := by rw [hbuffer]; exact h.attached
      abandoned := by rw [hstore, hmemory]; exact h.abandoned
      growths := by rw [hmemory, Instance.growths, hevents]; exact h.growths
      unpublished := by rw [hviews, publications, hevents]; exact h.unpublished
      published := by rw [hviews, hmemory, publications, hevents]; exact h.published }

/-- Published views are current. -/
theorem publish (h : i.Current) : (exec publish i).2.Current := by
  have hgeneration := h.generation_nextViews
  rw [exec_publish]
  exact
    { newest := h.newest
      attached := h.attached
      abandoned := h.abandoned
      growths := (growths_log i _).symm ▸ h.growths
      unpublished := by rintro ⟨⟩
      published := by
        rintro v ⟨⟩
        refine ⟨rfl, ?_⟩
        rw [hgeneration]
        exact (publications_log i (.published _ _)).symm }

/-- What is written into an abandoned buffer has no bytes. -/
theorem written (h : i.Current) {id : Nat} {address : UInt32} {data : ByteArray}
    (hle : address.toNat + data.size ≤ (i.guest.store.buffer id).bytes.size) :
    (i.written id address data).Current := by
  have hbuffer (j : Nat) : ((i.written id address data).guest.store.buffer j).detached =
      (i.guest.store.buffer j).detached ∧
      ((i.written id address data).guest.store.buffer j).bytes.size =
        (i.guest.store.buffer j).bytes.size := by
    rcases Store.buffer_blit_cases i.guest.store id j address data with hj | ⟨rfl, hj⟩
    · exact ⟨congrArg (·.detached) hj, congrArg (·.bytes.size) hj⟩
    · exact ⟨congrArg (·.detached) hj, (congrArg (·.bytes.size) hj).trans (Buffer.size_blit hle)⟩
  exact
    { newest := h.newest.trans Array.size_modify.symm
      attached := (hbuffer _).1.trans h.attached
      abandoned := by
        intro j hj
        obtain ⟨hdetached, hsize⟩ := h.abandoned j hj
        exact ⟨(hbuffer j).1.trans hdetached, (hbuffer j).2.trans hsize⟩
      growths := h.growths
      unpublished := h.unpublished
      published := h.published }

/-- Growth abandons the memory there was and publishes views on the new one. -/
theorem grown (h : i.Current) (pages : UInt32) : (i.grown pages).Current := by
  have hmemory : (i.guest.grown pages).memory = i.guest.memory + 1 := by
    rw [h.newest]
    simp [Guest.grown, Store.newest, Store.grow]
  have hsize : (i.guest.grown pages).store.buffers.size = i.guest.store.buffers.size + 1 := by
    simp [Guest.grown, Store.grow]
  have hgeneration := h.generation_nextViews
  exact
    { newest := by
        show (i.guest.grown pages).memory + 1 = (i.guest.grown pages).store.buffers.size
        rw [hmemory, hsize, h.newest]
      attached := by
        show (i.guest.grown pages).buffer.detached = false
        rw [Guest.Sound.buffer_grown]
        rfl
      abandoned := by
        intro j hj
        replace hj : j ≠ i.guest.memory + 1 := hmemory ▸ hj
        show ((i.guest.grown pages).store.buffer j).Abandoned
        by_cases hlt : j < i.guest.store.buffers.size
        · have hlast : i.guest.memory < i.guest.store.buffers.size :=
            Nat.lt_of_succ_le (Nat.le_of_eq h.newest)
          rw [Guest.grown, Store.buffer_grow hlast _ _ hlt]
          split
          · exact Buffer.abandoned_gone
          · next hne => exact h.abandoned j (Ne.symm hne)
        · rw [Store.buffer_of_size_le (by rw [hsize, ← h.newest]; rw [← h.newest] at hlt; omega)]
          exact Buffer.abandoned_gone
      growths := by
        show (i.guest.grown pages).memory = _
        rw [hmemory, h.growths, Instance.growths, Instance.growths, events_grown,
          List.countP_append]
        rfl
      unpublished := by rintro ⟨⟩
      published := by
        rintro v ⟨⟩
        refine ⟨rfl, ?_⟩
        show i.nextViews.generation + 1 = _
        rw [hgeneration, publications, publications, events_grown, List.countP_append]
        rfl }

/-- Being current is kept by the steps that memory and views are changed by. -/
theorem viewing : Viewing fun i i' : Instance Code => i.Current → i'.Current where
  refl _ h := h
  trans h h' hi := h' (h hi)
  modify _ hf i h := h.same (hf i)
  record _ hg hp _ h := h.log hg hp
  publish _ h := h.publish
  write id address data i h := by
    rw [exec_write]
    cases hc : (i.guest.store.buffer id).check address data.size with
    | ok => exact h.written (Buffer.check_eq_ok_iff.1 hc)
    | error => exact h
  grow := Steady.growth ⟨fun _ h => h, fun h h' hi => h' (h hi)⟩ fun _ _ _ h => h.grown _

/-- A fresh instance on a fresh guest is current. -/
theorem ofGuest (pages maxPages : UInt32) (config : Config) :
    (Instance.ofGuest (Guest.ofPages Code pages maxPages) config).Current where
  newest := rfl
  attached := rfl
  abandoned id hid := by
    rw [Store.buffer_of_size_le (Nat.pos_of_ne_zero hid)]
    exact Buffer.abandoned_gone
  growths := rfl
  unpublished _ := rfl
  published := by rintro v ⟨⟩

/-- The views that are asked for cover guest memory, and the last publication made them. -/
theorem exec_views (h : i.Current) : ∃ v i', exec Effect.views i = (.ok v, i') ∧
    i'.guest = i.guest ∧ v.buffer = i'.guest.memory ∧ v.generation + 1 = i'.publications := by
  cases hv : i.views with
  | some v => exact ⟨v, i, exec_views_of_some hv, rfl, h.published v hv⟩
  | none =>
    exact ⟨_, _, (exec_views_of_none hv).trans (exec_publish i), rfl,
      h.publish.published i.nextViews rfl⟩

end Current

end Instance

/-! ## Abandoned buffers -/

/-- The effect faults and changes nothing. -/
def Effect.Refused (e : Effect Code α) (i : Instance Code) : Prop := ∃ x, exec e i = (.error x, i)

namespace Buffer.Abandoned

variable {b : Buffer} {address : UInt32} {n : Nat}

/-- No byte of it is read. -/
theorem read_ne_ok (h : b.Abandoned) (hn : 0 < n) (data : ByteArray) :
    b.read address n ≠ .ok data := by
  rw [Ne, read_eq_ok_iff, h.size]
  omega

/-- None is got through a window on it. -/
theorem window_get_ne_ok (h : b.Abandoned) (w : Window) (index : UInt32) (y : Double) :
    w.get b index ≠ .ok y := by
  unfold Window.get
  split
  · nofun
  · cases hr : b.read ((w.start + index) * w.kind.size) w.kind.size.toNat with
    | error => nofun
    | ok data => exact absurd hr (h.read_ne_ok w.kind.size_pos data)

end Buffer.Abandoned

section
variable {i : Instance Code} {id : Nat}

/-- An effect that begins with what is refused is refused. -/
theorem Effect.Refused.bind {β : Type} {e : Effect Code α} (h : Refused e i)
    (f : α → Effect Code β) : Refused (e >>= f) i := by
  obtain ⟨x, hx⟩ := h
  exact ⟨x, exec_bind_of_error hx⟩

end

/-! ## Growth -/

/-- Zeros behind zeros are zeros. -/
theorem Buffer.zeroBytes_append (n n' : Nat) :
    zeroBytes n ++ zeroBytes n' = zeroBytes (n + n') := by
  refine ByteArray.ext ?_
  rw [ByteArray.data_append, data_zeroBytes, data_zeroBytes, data_zeroBytes,
    Array.replicate_append_replicate]

/-- Guest memory holds the bytes it held, each at its address, and zeros behind them. -/
def Instance.Padded (i i' : Instance Code) : Prop :=
  ∃ n, i'.guest.buffer.bytes = i.guest.buffer.bytes ++ Buffer.zeroBytes n

namespace Instance.Padded

/-- Memory that is the same holds its bytes. -/
theorem of_buffer {i i' : Instance Code} (h : i'.guest.buffer = i.guest.buffer) : Padded i i' :=
  ⟨0, by rw [h]; exact ByteArray.append_empty.symm⟩

/-- Memory holds its bytes over any number of steps. -/
theorem steady : Steady (@Padded Code) where
  refl _ := of_buffer rfl
  trans := by
    rintro i i' i'' ⟨n, hn⟩ ⟨n', hn'⟩
    exact ⟨n + n', by rw [hn', hn, ByteArray.append_assoc, Buffer.zeroBytes_append]⟩

/-- Growth adds zeros behind them. -/
theorem grow (delta : UInt32) : Keeps Padded (grow delta : Effect Code Unit) :=
  steady.growth (fun _ _ _ => ⟨_, congrArg Buffer.bytes (Guest.Sound.buffer_grown _ _)⟩) delta

/-- So does a request to the allocator, where it has to grow memory. -/
theorem malloc (size : UInt32) : Keeps Padded (malloc size : Effect Code UInt32) :=
  steady.malloc grow (fun _ _ => of_buffer rfl) (fun _ => of_buffer rfl) size

/-- So does a request to the arena. -/
theorem alloc (size : UInt32) : Keeps Padded (alloc size : Effect Code UInt32) := by
  refine steady.bind (malloc size) fun address => steady.guard ?_
  exact steady.bind (fun _ => of_buffer rfl) fun _ => steady.bind (fun _ => of_buffer rfl)
    fun _ => steady.pure _

end Instance.Padded

/-! ## Runs -/

end

end Crossing
