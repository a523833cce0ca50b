import Crossing.Proofs.Instance.Current
import Crossing.Proofs.Instance.Parses
import Crossing.Proofs.Memory.Arena

/-!
# Effects that two conditions decide

`Decides d s e i Q` says that two conditions decide how the effect `e` comes out on the instance
`i`: `d` on the nesting, `s` on the texts. It comes to its end only when `d` holds, and faults with
the fault of nesting only when `d` does not, with a write out of bounds only when `s` does not.
Besides, the allocator may refuse a block, and the host may panic where the heap's top or a table
has come to the end of the words (`Instance.Crowded`). `Decides.bind` joins the conditions of two
effects.

Nothing is asked here of the size of guest memory, whose length may be too large for a word. An
instance is `Ready` when memory is made of whole pages and the base of the arena does not lie above
the heap's top; every instance that a run reaches has whole pages (`Guest.Whole.acting`).
-/

namespace Crossing

open Effect

section
variable {Code α β : Type} {i i' i'' : Instance Code}

/-! ## Whole pages -/

/-- Guest memory is a buffer of whole pages, and the allocator serves any number of requests. -/
structure Guest.Whole (g : Guest Code) : Prop where
  memory : g.memory < g.store.buffers.size
  pages : 65536 ∣ g.buffer.bytes.size
  allowance : g.allowance = none

namespace Guest.Whole

variable {g : Guest Code}

/-- A new guest has whole pages. -/
theorem ofPages (Code : Type) (pages maxPages : UInt32) :
    (Guest.ofPages Code pages maxPages).Whole where
  memory := Nat.zero_lt_one
  pages := ⟨pages.toNat, (Buffer.size_zeroBytes _).trans (Nat.mul_comm _ _)⟩
  allowance := rfl

/-- Growth keeps pages whole. -/
theorem grown (h : g.Whole) (pages : UInt32) : (g.grown pages).Whole where
  memory := by simp [Guest.grown, Store.newest, Store.grow]
  pages := by
    rw [Guest.Sound.size_grown]
    rcases Nat.le_total g.buffer.bytes.size (pages.toNat * 65536) with hle | hle
    · rw [Nat.max_eq_right hle]
      exact ⟨_, Nat.mul_comm _ _⟩
    · rw [Nat.max_eq_left hle]
      exact h.pages
  allowance := h.allowance

/-- A write inside of memory keeps them whole. -/
theorem blit (h : g.Whole) {id : Nat} {address : UInt32} {data : ByteArray}
    (hle : address.toNat + data.size ≤ (g.store.buffer id).bytes.size) :
    ({ g with store := g.store.blit id address data } : Guest Code).Whole where
  memory := by
    show _ < (g.store.blit id address data).buffers.size
    rw [Store.blit, Array.size_modify]
    exact h.memory
  pages := by
    show 65536 ∣ ((g.store.blit id address data).buffer g.memory).bytes.size
    rw [Store.size_blit hle]
    exact h.pages
  allowance := h.allowance

/-- What does not touch guest memory keeps them whole. -/
theorem agrees (h : i.guest.Whole) (ha : Agrees i i') : i'.guest.Whole where
  memory := by rw [ha.memory, ha.store]; exact h.memory
  pages := by rw [ha.buffer]; exact h.pages
  allowance := ha.allowance.trans h.allowance

/-- Every action keeps the pages of memory whole, and the configuration. -/
theorem acting : Acting fun i i' : Instance Code =>
    i.guest.Whole → i'.guest.Whole ∧ i'.config = i.config := by
  have hsteady : Steady fun i i' : Instance Code =>
      i.guest.Whole → i'.guest.Whole ∧ i'.config = i.config :=
    { refl := fun _ h => ⟨h, rfl⟩
      trans := fun h h' hi => ⟨(h' (h hi).1).1, (h' (h hi).1).2.trans (h hi).2⟩ }
  have hgrow (delta : UInt32) : Keeps (fun i i' : Instance Code =>
      i.guest.Whole → i'.guest.Whole ∧ i'.config = i.config) (grow delta) :=
    hsteady.growth (fun _ _ _ h => ⟨h.grown _, rfl⟩) delta
  exact Storing.acting
    { hsteady with
      modify := fun f hf i h => ⟨h.agrees (hf i), (hf i).config⟩
      publish := fun i h => ⟨h, rfl⟩
      write := fun id address data i h => by
        rw [exec_write]
        cases hcheck : (i.guest.store.buffer id).check address data.size with
        | ok => exact ⟨h.blit (Buffer.check_eq_ok_iff.1 hcheck), rfl⟩
        | error x => exact ⟨h, rfl⟩
      grow := hgrow
      malloc := hsteady.malloc hgrow (fun _ _ h => ⟨⟨h.memory, h.pages, h.allowance⟩, rfl⟩)
        fun _ h => ⟨⟨h.memory, h.pages, h.allowance⟩, rfl⟩
      acquire := fun _ => hsteady.lending fun _ _ _ h => ⟨h, rfl⟩
      registerRaw := fun _ => hsteady.registering fun _ _ h => ⟨h, rfl⟩
      increment := fun _ => hsteady.gaining fun _ _ _ h => ⟨h, rfl⟩
      decrement := fun _ => hsteady.losing fun _ _ _ _ h => ⟨h, rfl⟩
      unregisterRaw := fun _ _ h => ⟨h, rfl⟩ }

end Guest.Whole

/-! ## The frame of a step -/

/-- Views and arena are as operations leave them, and the arena begins at or below the heap's
top. -/
structure Instance.Ready (i : Instance Code) : Prop extends i.Settled where
  guest : i.guest.Whole
  heapTop : i.arena.base.toNat ≤ i.guest.heapTop.toNat

/-- The heap's top or a table has come to the end of the words: the next multiple of eight, the next
number or the count of owners of some value is none. -/
structure Instance.Crowded (i : Instance Code) : Prop where
  cause : UInt32.size ≤ i.guest.heapTop.toNat + 8 ∨ (∃ v, i.handles.overflows v = true) ∨
    i.raw.isFull = true

/-- A sound instance is ready when the arena begins at or below the heap's top. -/
theorem Instance.Sound.ready (hi : i.Sound)
    (hbase : i.config.arenaBase.toNat ≤ i.guest.heapTop.toNat) : i.Ready where
  views := hi.views
  base := hi.base
  guest :=
    { memory := hi.guest.memory
      pages := hi.guest.dvd_size
      allowance := hi.guest.allowance }
  heapTop := by rwa [hi.base]

/-- A run on any guest reaches an instance that is ready, when the base of the arena does not lie
above the heap's top in it. -/
theorem Machine.ready_runs (pages maxPages : UInt32) (config : Config) (as : List (Action Code))
    (hbase : config.arenaBase.toNat ≤
      ((boot (Guest.ofPages Code pages maxPages) config).runs as).inst.guest.heapTop.toNat) :
    ((boot (Guest.ofPages Code pages maxPages) config).runs as).inst.Ready ∧
      ((boot (Guest.ofPages Code pages maxPages) config).runs as).inst.config = config := by
  have hsettled := Instance.Settled.acting.runs (boot (Guest.ofPages Code pages maxPages) config) as
    ⟨by rintro v ⟨⟩, rfl⟩
  obtain ⟨hwhole, hconfig⟩ := Guest.Whole.acting.runs
    (boot (Guest.ofPages Code pages maxPages) config) as (.ofPages Code pages maxPages)
  refine ⟨⟨hsettled, hwhole, ?_⟩, hconfig⟩
  rw [hsettled.base, hconfig]
  exact hbase

/-- An instance `i'` that is ready, is configured as `i` is and has no less memory. -/
structure Advances (i i' : Instance Code) : Prop where
  ready : i'.Ready
  config : i'.config = i.config
  size : i.guest.buffer.bytes.size ≤ i'.guest.buffer.bytes.size

namespace Advances

/-- An instance that is ready advances by no step. -/
theorem refl (hi : i.Ready) : Advances i i := ⟨hi, rfl, Nat.le_refl _⟩

/-- Steps in a row advance. -/
theorem trans (h : Advances i i') (h' : Advances i' i'') : Advances i i'' where
  ready := h'.ready
  config := h'.config.trans h.config
  size := Nat.le_trans h.size h'.size

/-- The arena begins where it did. -/
theorem base (h : Advances i i') (hi : i.Ready) : i'.arena.base = i.arena.base := by
  rw [h.ready.base, h.config, hi.base]

/-- What touches neither memory nor heap advances. -/
theorem of_agrees (hi : i.Ready) (h : Agrees i i') : Advances i i' where
  ready :=
    { views := by rw [h.views, h.memory]; exact hi.views
      base := by rw [h.base, h.config]; exact hi.base
      guest := hi.guest.agrees h
      heapTop := by rw [h.base, h.heapTop]; exact hi.heapTop }
  config := h.config
  size := by rw [h.buffer]

/-- Growth advances. -/
theorem grown (hi : i.Ready) (pages : UInt32) : Advances i (i.grown pages) where
  ready := ⟨⟨by rintro v ⟨⟩; rfl, hi.base⟩, hi.guest.grown pages, hi.heapTop⟩
  config := rfl
  size := by
    show _ ≤ (i.guest.grown pages).buffer.bytes.size
    rw [Guest.Sound.size_grown]
    exact Nat.le_max_left _ _

/-- The heap's top moves to an address in the arena. -/
theorem moveTop (h : Advances i i') {stop : UInt32} (hstop : i'.arena.base.toNat ≤ stop.toNat) :
    Advances i { i' with guest := { i'.guest with heapTop := stop } } where
  ready :=
    { views := h.ready.views
      base := h.ready.base
      guest := ⟨h.ready.guest.memory, h.ready.guest.pages, h.ready.guest.allowance⟩
      heapTop := hstop }
  config := h.config
  size := h.size

/-- An address in the arena stays there. -/
theorem above (h : Advances i i') (hi : i.Ready) {address : UInt32}
    (ha : i.arena.base.toNat ≤ address.toNat) : i'.arena.base.toNat ≤ address.toNat := by
  rwa [h.base hi]

end Advances

/-- The `n` bytes at `address` lie inside of memory, and below the last address. -/
structure Instance.Spans (i : Instance Code) (address : UInt32) (n : Nat) : Prop where
  inside : address.toNat + n ≤ i.guest.buffer.bytes.size
  word : address.toNat + n < UInt32.size

namespace Instance.Spans

variable {address address' : UInt32} {n k : Nat}

/-- Bytes that lie inside of memory do so afterwards. -/
theorem advance (h : i.Spans address n) (hg : Advances i i') : i'.Spans address n :=
  ⟨Nat.le_trans h.inside hg.size, h.word⟩

/-- A part of a range inside of memory lies there too. -/
theorem part (h : i.Spans address n) (hle : address'.toNat + k ≤ address.toNat + n) :
    i.Spans address' k :=
  ⟨Nat.le_trans hle h.inside, Nat.lt_of_le_of_lt hle h.word⟩

end Instance.Spans

/-! ## The judgment -/

/-- How an effect comes out that `d` decides by the nesting and `s` by the texts. -/
inductive Decided (d s : Prop) (i : Instance Code) (Q : α → Instance Code → Prop) :
    Except Fault α × Instance Code → Prop
  /-- It comes to its end. -/
  | answered {a : α} {i' : Instance Code} (hd : d) (hg : Advances i i') (hQ : Q a i') :
      Decided d s i Q (.ok a, i')
  /-- No further array or object may be opened. -/
  | tooDeep {i' : Instance Code} (hd : ¬ d) :
      Decided d s i Q (.error (.tooDeep i.config.maxDepth), i')
  /-- A text is written over the end of its block and of memory. -/
  | tooLong {i' : Instance Code} {address length size : UInt32} (hs : ¬ s) :
      Decided d s i Q (.error (.outOfBounds address length size), i')
  /-- The allocator refuses a block. -/
  | refused {size : UInt32} {i' : Instance Code} :
      Decided d s i Q (.error (.allocationFailed size), i')
  /-- The host panics. -/
  | panicked {i' : Instance Code} (h : i'.Crowded) : Decided d s i Q (.error .overflow, i')

section
variable {d d' s s' : Prop} {Q : α → Instance Code → Prop} {r : Except Fault α × Instance Code}

/-- What later conditions decide on a later instance, they decide together with earlier ones on an
earlier instance, when nothing nested too deep so far. -/
theorem Decided.after (h : Decided d' s' i' Q r) (hg : Advances i i') (hd : d) :
    Decided (d ∧ d') (s ∧ s') i Q r := by
  cases h with
  | answered hd' hg' hQ => exact .answered ⟨hd, hd'⟩ (hg.trans hg') hQ
  | tooDeep hd' =>
    rw [hg.config]
    exact .tooDeep fun h => hd' h.2
  | tooLong hs' => exact .tooLong fun h => hs' h.2
  | refused => exact .refused
  | panicked h => exact .panicked h

/-- When the allocator does not interfere, the host panics, or else the effect comes to its end
exactly when `d` holds as long as `s` does; where only `s` fails, it may end or write out of
bounds. -/
theorem Decided.of_granted (h : Decided d s i Q r)
    (hserved : ∀ size, r.1 ≠ .error (.allocationFailed size)) :
    (r.1 = .error .overflow ∧ r.2.Crowded) ∨
      (s → ((∃ a, r.1 = .ok a) ↔ d) ∧ (¬ d → r.1 = .error (.tooDeep i.config.maxDepth))) ∧
        (d → (∃ a, r.1 = .ok a) ∨
          ∃ address length size, r.1 = .error (.outOfBounds address length size)) := by
  cases h with
  | answered hd =>
    exact .inr ⟨fun _ => ⟨iff_of_true ⟨_, rfl⟩ hd, fun hd' => absurd hd hd'⟩,
      fun _ => .inl ⟨_, rfl⟩⟩
  | tooDeep hd =>
    exact .inr ⟨fun _ => ⟨iff_of_false (fun h => nomatch h) hd, fun _ => rfl⟩,
      fun hd' => absurd hd' hd⟩
  | tooLong hs => exact .inr ⟨fun hs' => absurd hs' hs, fun _ => .inr ⟨_, _, _, rfl⟩⟩
  | refused => exact absurd rfl (hserved _)
  | panicked h => exact .inl ⟨rfl, h⟩

end

/-- The conditions `d` and `s` decide how the effect `e` comes out on the instance `i`. -/
def Decides (d s : Prop) (e : Effect Code α) (i : Instance Code) (Q : α → Instance Code → Prop) :
    Prop :=
  Decided d s i Q (exec e i)

namespace Decides

variable {d d' s s' : Prop} {e : Effect Code α} {f : α → Effect Code β}
  {P : α → Instance Code → Prop} {Q : β → Instance Code → Prop}

/-- An effect that comes to its end whatever the conditions depends on nothing. -/
theorem of_ok {a : α} (h : exec e i = (.ok a, i')) (hg : Advances i i') (hP : P a i') :
    Decides True True e i P := by
  unfold Decides
  rw [h]
  exact .answered trivial hg hP

/-- An answer that is there depends on nothing. -/
theorem pure (hi : i.Ready) {a : α} (h : P a i) :
    Decides True True (pure a : Effect Code α) i P :=
  of_ok rfl (.refl hi) h

/-- A check that needs no instance and does not fault. -/
theorem lift (hi : i.Ready) {r : Except Fault α} {a : α} (h : r = .ok a) (hP : P a i) :
    Decides True True (liftM r : Effect Code α) i P :=
  of_ok (by rw [exec_liftExcept, h]) (.refl hi) hP

/-- A block that is refused is allowed under any condition. -/
theorem refuse {size : UInt32} :
    Decides d s (throw (.allocationFailed size) : Effect Code α) i P := .refused

/-- Conditions may be replaced by equivalent ones. -/
theorem congr (h : Decides d s e i P) (hd : d ↔ d') (hs : s ↔ s') : Decides d' s' e i P := by
  rwa [← hd, ← hs]

/-- Where no text is written out of bounds, any condition on the texts will do. -/
theorem texts (h : Decides d True e i P) : Decides d s e i P := by
  unfold Decides at h ⊢
  generalize exec e i = r at *
  cases h with
  | answered hd hg hP => exact .answered hd hg hP
  | tooDeep hd => exact .tooDeep hd
  | tooLong hs => exact absurd trivial hs
  | refused => exact .refused
  | panicked h => exact .panicked h

/-- The conditions of both effects decide how the one after the other comes out. -/
theorem bind (he : Decides d s e i P)
    (hf : ∀ a i', Advances i i' → P a i' → Decides d' s' (f a) i' Q) :
    Decides (d ∧ d') (s ∧ s') (e >>= f) i Q := by
  unfold Decides at he ⊢
  rcases hexec : exec e i with ⟨r, i'⟩
  rw [hexec] at he
  cases he with
  | @answered a _ hd hg ha =>
    rw [exec_bind_of_ok hexec]
    exact Decided.after (hf a i' hg ha) hg hd
  | tooDeep hd =>
    rw [exec_bind_of_error hexec]
    exact .tooDeep fun h => hd h.1
  | tooLong hs =>
    rw [exec_bind_of_error hexec]
    exact .tooLong fun h => hs h.1
  | refused =>
    rw [exec_bind_of_error hexec]
    exact .refused
  | panicked h =>
    rw [exec_bind_of_error hexec]
    exact .panicked h

/-- Nothing but the allocator and the words decides the first effect. -/
theorem andThen (he : Decides True True e i P)
    (hf : ∀ a i', Advances i i' → P a i' → Decides d s (f a) i' Q) : Decides d s (e >>= f) i Q :=
  (he.bind hf).congr (iff_of_eq (true_and d)) (iff_of_eq (true_and s))

/-- The first effect leaves the instance as it was. -/
theorem peek {p : α → Prop} (he : Decides True True e i fun a i' => p a ∧ i' = i)
    (hf : ∀ a, p a → Decides d s (f a) i Q) : Decides d s (e >>= f) i Q := by
  refine he.andThen fun a i' _ h => ?_
  obtain ⟨ha, rfl⟩ := h
  exact hf a ha

/-- An effect that begins by looking at the instance. -/
theorem get {f : Instance Code → Effect Code β} (h : Decides d s (f i) i Q) :
    Decides d s (MonadState.get >>= f : Effect Code β) i Q := by
  unfold Decides
  rwa [exec_bind_of_ok (exec_get i)]

end Decides

/-! ## Elements -/

/-- Telling of an event depends on nothing. -/
theorem decides_record (hi : i.Ready) (e : Event) :
    Decides True True (record e) i fun _ _ => True :=
  .of_ok (exec_record e i) (.of_agrees hi (agrees_log i e)) trivial

/-- Nor do views, which cover the memory that there is. -/
theorem decides_views (hi : i.Ready) :
    Decides True True views i fun v i' => v.buffer = i'.guest.memory := by
  cases hv : i.views with
  | some v => exact .of_ok (exec_views_of_some hv) (.refl hi) (hi.views v hv)
  | none =>
    refine .of_ok ((exec_views_of_none hv).trans (exec_publish i)) ?_ rfl
    exact
      { ready := ⟨⟨by rintro v ⟨⟩; rfl, hi.base⟩, hi.guest, hi.heapTop⟩
        config := rfl
        size := Nat.le_refl _ }

/-- Nor does a part of a slot that has an address. -/
theorem decides_slotPart (hi : i.Ready) {v : Views} {address a : UInt32} {part : Option UInt32}
    (h : part = some a) :
    Decides True True (slotPart v address part) i fun a' i' => a' = a ∧ i' = i := by
  subst h
  exact .pure hi ⟨rfl, rfl⟩

/-- A write inside of memory does not fault. -/
theorem decides_write (hi : i.Ready) {address : UInt32} {data : ByteArray}
    (h : address.toNat + data.size ≤ i.guest.buffer.bytes.size) :
    Decides True True (write i.guest.memory address data) i fun _ _ => True := by
  have hcheck : (i.guest.store.buffer i.guest.memory).check address data.size = .ok () :=
    Buffer.check_eq_ok_iff.2 h
  have hexec : exec (write i.guest.memory address data) i =
      (.ok (), i.written i.guest.memory address data) := by
    rw [exec_write, hcheck]
  refine .of_ok hexec ?_ trivial
  exact
    { ready := ⟨⟨hi.views, hi.base⟩, hi.guest.blit h, hi.heapTop⟩
      config := rfl
      size := Nat.le_of_eq (Store.size_blit h i.guest.memory).symm }

/-- An element that lies aligned inside of memory can be stored. -/
theorem decides_store (hi : i.Ready) {k : ElementKind} {address : UInt32} (x : k.Carrier)
    (hal : address % k.size = 0)
    (h : address.toNat + k.size.toNat ≤ i.guest.buffer.bytes.size) :
    Decides True True (store i.guest.memory k address x) i fun _ _ => True := by
  have hindex : Buffer.elementIndex k address = .ok (address / k.size) := if_pos hal
  unfold Effect.store
  refine (Decides.lift hi hindex ⟨rfl, rfl⟩).peek fun index hindex' => ?_
  subst hindex'
  refine Decides.peek (.of_ok rfl (.refl hi) ⟨rfl, rfl⟩) fun b hb => ?_
  subst hb
  refine (Decides.lift hi (Buffer.elementAddress_div hal) ⟨rfl, rfl⟩).peek
    fun address' haddress => ?_
  subst haddress
  exact decides_write hi (by rw [k.size_encode]; exact h)

/-- A word of a slot or key that lies aligned inside of memory can be written. -/
theorem decides_writeWord (hi : i.Ready) {address : UInt32} {n : Nat} (index x : UInt32)
    (hal : 4 ∣ address.toNat) (h : i.Spans address n) (hn : 4 * index.toNat + 4 ≤ n) :
    Decides True True (writeWord address index x) i fun _ _ => True := by
  have hword : ElementKind.u32.size.toNat = 4 := rfl
  have hinside := h.inside
  have hlt := h.word
  obtain ⟨a, hpart, ha⟩ := Slot.exists_word? address index (by omega)
  refine (decides_views hi).andThen fun v i₁ g₁ hv => ?_
  refine (decides_slotPart g₁.ready hpart).peek fun a' ha' => ?_
  subst ha'
  rw [hv]
  refine decides_store g₁.ready (k := .u32) x ?_ ?_
  · rw [← UInt32.toNat_inj, UInt32.toNat_mod, ha]
    show (address.toNat + 4 * index.toNat) % 4 = 0
    omega
  · have hgrown := g₁.size
    omega

/-- The kind of a slot inside of memory can be written. -/
theorem decides_writeKind (hi : i.Ready) {address : UInt32} (kind : SlotKind)
    (h : i.Spans address 16) : Decides True True (writeKind address kind) i fun _ _ => True := by
  have hbyte : ElementKind.u8.size.toNat = 1 := rfl
  have hinside := h.inside
  have hlt := h.word
  obtain ⟨a, hpart, ha⟩ := Slot.exists_tagAddress? address (by omega)
  refine (decides_views hi).andThen fun v i₁ g₁ hv => ?_
  refine (decides_slotPart g₁.ready hpart).peek fun a' ha' => ?_
  subst ha'
  rw [hv, setElement_u8]
  refine decides_store g₁.ready (k := .u8) kind.tag UInt32.mod_one ?_
  have hgrown := g₁.size
  omega

/-! ## Blocks and tables -/

/-- A block of `size` bytes that begins at a multiple of eight inside of memory, and in the
arena. -/
structure Instance.Reserved (i : Instance Code) (address size : UInt32) : Prop where
  aligned : 8 ∣ address.toNat
  spans : i.Spans address size.toNat
  above : i.arena.base.toNat ≤ address.toNat

/-- A request for the next block panics where the heap's top is too high to find the next multiple
of eight, or it is refused, or the heap's top moves to the end of the block in memory that has
room. -/
theorem Effect.exec_bump_cases (hi : i.Ready) (size : UInt32) :
    (UInt32.size ≤ i.guest.heapTop.toNat + 8 ∧ exec (bump size) i = (.error .overflow, i)) ∨
    (∃ i', exec (bump size) i = (.error (.allocationFailed size), i')) ∨
      ∃ start stop i₁, Advances i i₁ ∧ start.toNat = (i.guest.heapTop.toNat + 7) / 8 * 8 ∧
        start.toNat + size.toNat = stop.toNat ∧
        stop.toNat ≤ i₁.guest.buffer.bytes.size ∧
        exec (bump size) i =
          (.ok start, { i₁ with guest := { i₁.guest with heapTop := stop } }) := by
  have hbumps := bumps_bump i size
  generalize exec (bump size) i = r at hbumps ⊢
  cases hbumps with
  | panicked htop => exact .inl ⟨htop, rfl⟩
  | endless => exact .inr (.inl ⟨i, rfl⟩)
  | refused => exact .inr (.inl ⟨i, rfl⟩)
  | @grown start stop pages hstart hstop hlt hpages _ =>
    have hinside := Guest.le_size_grown hi.guest.pages hlt
    rw [← hpages] at hinside
    exact .inr (.inr ⟨start, stop, i.grown pages, .grown hi pages, hstart, hstop, hinside, rfl⟩)
  | @moved start stop hstart hstop hle =>
    refine .inr (.inr ⟨start, stop, i, .refl hi, hstart, hstop, ?_, rfl⟩)
    have hlength : i.guest.buffer.length.toNat = i.guest.buffer.bytes.size % 2 ^ 32 :=
      UInt32.toNat_ofNat'
    rw [UInt32.le_iff_toNat_le] at hle
    omega

/-- A block that is served lies in the arena. -/
theorem decides_alloc (hi : i.Ready) (size : UInt32) :
    Decides True True (alloc size) i fun address i' => i'.Reserved address size := by
  have hcount := agrees_request i
  have hg := Advances.of_agrees hi hcount
  have hmalloc := exec_malloc_of_allowance hi.guest.allowance size
  unfold Decides alloc
  rcases exec_bump_cases hg.ready size with
    ⟨htop, h⟩ | ⟨i', h⟩ | ⟨start, stop, i₁, hg₁, hstart, hstop, hle, h⟩
  · rw [exec_bind_of_error (hmalloc.trans h)]
    exact .panicked ⟨.inl htop⟩
  · rw [exec_bind_of_error (hmalloc.trans h)]
    exact .refused
  · rw [hcount.heapTop] at hstart
    rw [exec_bind_of_ok (hmalloc.trans h)]
    split
    · exact .refused
    · have hbase := hi.heapTop
      rw [← (hg.trans hg₁).base hi] at hbase
      have hmoved : Advances i { i₁ with guest := { i₁.guest with heapTop := stop } } :=
        (hg.trans hg₁).moveTop (by omega)
      have hcounted (address : UInt32) :
          Agrees { i₁ with guest := { i₁.guest with heapTop := stop } }
            (({ i₁ with
                guest := { i₁.guest with heapTop := stop }
                arena := i₁.arena.count size } : Instance Code).log (.allocated size address)) := by
        constructor <;> rfl
      refine .answered trivial (hmoved.trans (.of_agrees hmoved.ready (hcounted _))) ?_
      exact
        { aligned := ⟨_, hstart.trans (Nat.mul_comm _ _)⟩
          spans := ⟨hstop ▸ hle, hstop ▸ stop.toNat_lt⟩
          above := show i₁.arena.base.toNat ≤ start.toNat by omega }

/-- Whether one more array or object may be opened depends on how many are left. -/
theorem decides_checkRoom (hi : i.Ready) (room : Nat) :
    Decides (0 < room) True (checkRoom room) i fun _ i' => i' = i := by
  unfold checkRoom
  split
  · next h => exact .tooDeep (Nat.not_lt.2 (Nat.le_of_eq h))
  · next h =>
    refine Decides.congr ?_ (iff_of_true trivial (Nat.pos_of_ne_zero h)) Iff.rfl
    exact .pure hi rfl

/-- A table whose size is no word is refused. -/
theorem decides_tableSize (hi : i.Ready) (n : Nat) (stride : UInt32) :
    Decides True True (tableSize n stride) i
      fun size i' => n * stride.toNat = size.toNat ∧ i' = i := by
  unfold tableSize
  cases h : Word.ofNat? (n * stride.toNat) with
  | none => exact .refuse
  | some size => exact .pure hi ⟨Word.ofNat?_eq_some_iff.1 h, rfl⟩

/-- An entry whose address is a word depends on nothing. -/
theorem decides_entryAddress (hi : i.Ready) {base index stride : UInt32}
    (h : base.toNat + index.toNat * stride.toNat < UInt32.size) :
    Decides True True (entryAddress base index stride) i
      fun a i' => base.toNat + index.toNat * stride.toNat = a.toNat ∧ i' = i := by
  have ha := UInt32.toNat_ofNat_of_lt' h
  unfold entryAddress
  rw [Slot.entry?_eq_some_iff.2 ha.symm]
  exact .pure hi ⟨ha.symm, rfl⟩

/-- Every address in the arena has an offset. -/
theorem decides_offset (hi : i.Ready) {address : UInt32}
    (h : i.arena.base.toNat ≤ address.toNat) :
    Decides True True (liftM (i.arena.offset address) : Effect Code UInt32) i
      fun _ i' => True ∧ i' = i := by
  rw [Arena.offset_of_le h]
  exact .pure hi ⟨trivial, rfl⟩

/-! ## Handles and raw values -/

/-- A value is lent unless its table is full. -/
theorem decides_acquire (hi : i.Ready) (v : Value) :
    Decides True True (acquire v) i fun _ _ => True := by
  obtain ⟨journal, h⟩ := exec_acquire v i
  split at h
  · next hfull =>
    unfold Decides
    rw [h]
    exact .panicked ⟨.inr (.inl ⟨v, hfull⟩)⟩
  · exact .of_ok h ⟨⟨⟨hi.views, hi.base⟩, hi.guest, hi.heapTop⟩, rfl, Nat.le_refl _⟩ trivial

/-- A raw value is registered unless the registry is full. -/
theorem decides_registerRaw (hi : i.Ready) (v : Value) :
    Decides True True (registerRaw v) i fun _ _ => True := by
  have h := exec_registerRaw v i
  split at h
  · next hfull =>
    unfold Decides
    rw [h]
    exact .panicked ⟨.inr (.inr hfull)⟩
  · exact .of_ok h ⟨⟨⟨hi.views, hi.base⟩, hi.guest, hi.heapTop⟩, rfl, Nat.le_refl _⟩ trivial

end

end Crossing
