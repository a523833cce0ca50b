import Crossing.Proofs.Handle.Lasting
import Crossing.Proofs.Instance.Chronicle
import Crossing.Proofs.Memory.Access
import Mathlib.Order.Interval.Set.Basic

/-!
# Sound instances

In a sound instance guest memory consists of whole pages that words can address, the free part of it
begins at the heap's top, the published views are those of the memory in use, and the tables are
sound. Every instance that a run reaches from a guest of at most 65535 pages is sound
(`Machine.sound_runs`), and on the way neither memory nor heap get smaller (`Enlarges.acting`).

`Grows W i i'` is the frame of what encoding does: `i'` is sound, only the bytes in `W` were
changed, memory, heap and tables did not shrink. `grows_malloc` and its siblings say it of the steps
that change something.
-/

namespace Crossing

open Effect

section
variable {Code α : Type}

/-- Guest memory is made of pages that words can address, and the heap lies in it. -/
structure Guest.Sound (g : Guest Code) : Prop where
  memory : g.memory < g.store.buffers.size
  pages : ∃ p ≤ 65535, g.buffer.bytes.size = p * 65536
  maxPages : g.maxPages.toNat ≤ 65535
  heap_pos : 16 ≤ g.heapTop.toNat
  heap_le : g.heapTop.toNat ≤ max 16 g.buffer.bytes.size
  allowance : g.allowance = none

/-- Memory, views and tables are as operations leave them. -/
structure Instance.Sound (i : Instance Code) : Prop where
  guest : i.guest.Sound
  views : ∀ v, i.views = some v → v.buffer = i.guest.memory
  base : i.arena.base = i.config.arenaBase
  handles : i.handles.Sound
  raw : i.raw.Sound

/-! ## Guest memory -/

namespace Guest

theorem buffer_ofPages (pages maxPages : UInt32) :
    (Guest.ofPages Code pages maxPages).buffer = .zeros (pages.toNat * pageSize.toNat) := rfl

/-- The guest with its memory grown to `pages` pages. -/
def grown (g : Guest Code) (pages : UInt32) : Guest Code :=
  { g with
    store := g.store.grow g.memory (pages.toNat * pageSize.toNat)
    memory := (g.store.grow g.memory (pages.toNat * pageSize.toNat)).newest }

namespace Sound

variable {g : Guest Code} {pages : UInt32}

/-- The memory of a sound guest has 65535 pages at most. -/
theorem size_le (h : g.Sound) : g.buffer.bytes.size ≤ 65535 * 65536 := by
  obtain ⟨p, hp, hsize⟩ := h.pages
  omega

/-- So its length is a word. -/
theorem toNat_length (h : g.Sound) : g.buffer.length.toNat = g.buffer.bytes.size :=
  UInt32.toNat_ofNat_of_lt' (Nat.lt_of_le_of_lt h.size_le (by decide))

/-- Growth extends memory to the pages that it is given. -/
theorem buffer_grown (g : Guest Code) (pages : UInt32) :
    (g.grown pages).buffer = g.buffer.extended (pages.toNat * pageSize.toNat) :=
  Store.buffer_grow_newest _ _ _

/-- Growth keeps the size or reaches the one that is asked for. -/
theorem size_grown (g : Guest Code) (pages : UInt32) :
    (g.grown pages).buffer.bytes.size = max g.buffer.bytes.size (pages.toNat * 65536) := by
  have hpage : pageSize.toNat = 65536 := rfl
  rw [buffer_grown]
  simp only [Buffer.extended, ByteArray.size_append, Buffer.size_zeroBytes, hpage]
  omega

/-- A guest stays sound when it grows within its limit. -/
theorem grown (h : g.Sound) (hp : pages ≤ g.maxPages) : (g.grown pages).Sound where
  memory := by simp [Guest.grown, Store.newest, Store.grow]
  pages := by
    obtain ⟨p, hp', hsize⟩ := h.pages
    have hle := UInt32.le_iff_toNat_le.1 hp
    have hmax := h.maxPages
    refine ⟨max p pages.toNat, by omega, ?_⟩
    rw [size_grown, hsize]
    omega
  maxPages := h.maxPages
  heap_pos := h.heap_pos
  heap_le := by
    have := h.heap_le
    rw [size_grown]
    show g.heapTop.toNat ≤ _
    omega
  allowance := h.allowance

/-- Below the end of memory there is a next multiple of eight. -/
theorem heapTop_add_lt (h : g.Sound) : g.heapTop.toNat + 8 < UInt32.size := by
  have hle := h.heap_le
  have hsize := h.size_le
  have hbound : UInt32.size = 2 ^ 32 := rfl
  omega

/-- Memory is made of whole pages. -/
theorem dvd_size (h : g.Sound) : 65536 ∣ g.buffer.bytes.size := by
  obtain ⟨p, -, hsize⟩ := h.pages
  exact ⟨p, hsize.trans (Nat.mul_comm _ _)⟩

end Sound

end Guest

/-! ## The frame of a step -/

/-- A sound instance `i'` in which only bytes of `W` were changed since `i`, and nothing was taken
away from memory, heap and tables. -/
structure Grows (W : Set Nat) (i i' : Instance Code) : Prop where
  sound : i'.Sound
  heapTop : i.guest.heapTop.toNat ≤ i'.guest.heapTop.toNat
  size : i.guest.buffer.bytes.size ≤ i'.guest.buffer.bytes.size
  kept : ∀ a ∉ W, i'.guest.buffer.byteAt a = i.guest.buffer.byteAt a
  config : i'.config = i.config
  handles : i.handles.Extends i'.handles
  raw : i.raw.Extends i'.raw

namespace Grows

variable {W W' : Set Nat} {i i' i'' : Instance Code}

/-- A sound instance grows by no step. -/
theorem refl (h : i.Sound) : Grows W i i where
  sound := h
  heapTop := Nat.le_refl _
  size := Nat.le_refl _
  kept := fun _ _ => rfl
  config := rfl
  handles := .refl _
  raw := .refl _

/-- Growth in steps is growth. -/
theorem trans (h : Grows W i i') (h' : Grows W i' i'') : Grows W i i'' where
  sound := h'.sound
  heapTop := Nat.le_trans h.heapTop h'.heapTop
  size := Nat.le_trans h.size h'.size
  kept := fun a ha => (h'.kept a ha).trans (h.kept a ha)
  config := h'.config.trans h.config
  handles := h.handles.trans h'.handles
  raw := h.raw.trans h'.raw

/-- More bytes may be allowed to change. -/
theorem mono (h : Grows W' i i') (hW : W' ⊆ W) : Grows W i i' :=
  { h with kept := fun a ha => h.kept a fun ha' => ha (hW ha') }

/-- The arena begins where it did. -/
theorem base (h : Grows W i i') (hi : i.Sound) : i'.arena.base = i.arena.base := by
  rw [h.sound.base, h.config, hi.base]

end Grows

/-- The instances agree in memory, heap, views, tables and configuration. -/
structure Agrees (i i' : Instance Code) : Prop where
  store : i'.guest.store = i.guest.store
  memory : i'.guest.memory = i.guest.memory
  heapTop : i'.guest.heapTop = i.guest.heapTop
  maxPages : i'.guest.maxPages = i.guest.maxPages
  allowance : i'.guest.allowance = i.guest.allowance
  views : i'.views = i.views
  base : i'.arena.base = i.arena.base
  config : i'.config = i.config
  handles : i'.handles = i.handles
  raw : i'.raw = i.raw

namespace Agrees

variable {W : Set Nat} {i i' : Instance Code}

/-- Instances that agree have the same memory. -/
theorem buffer (h : Agrees i i') : i'.guest.buffer = i.guest.buffer := by
  rw [Guest.buffer, h.store, h.memory, Guest.buffer]

/-- An instance is sound when it agrees with a sound one. -/
theorem sound (h : Agrees i i') (hi : i.Sound) : i'.Sound where
  guest :=
    { memory := by rw [h.memory, h.store]; exact hi.guest.memory
      pages := by rw [h.buffer]; exact hi.guest.pages
      maxPages := by rw [h.maxPages]; exact hi.guest.maxPages
      heap_pos := by rw [h.heapTop]; exact hi.guest.heap_pos
      heap_le := by rw [h.heapTop, h.buffer]; exact hi.guest.heap_le
      allowance := by rw [h.allowance]; exact hi.guest.allowance }
  views := by rw [h.views, h.memory]; exact hi.views
  base := by rw [h.base, h.config]; exact hi.base
  handles := by rw [h.handles]; exact hi.handles
  raw := by rw [h.raw]; exact hi.raw

/-- Agreement takes nothing away. -/
theorem grows (h : Agrees i i') (hi : i.Sound) : Grows W i i' where
  sound := h.sound hi
  heapTop := by rw [h.heapTop]
  size := by rw [h.buffer]
  kept := fun _ _ => by rw [h.buffer]
  config := h.config
  handles := by rw [h.handles]; exact .refl _
  raw := by rw [h.raw]; exact .refl _

end Agrees

/-! ## Steps on memory -/

section
variable {W : Set Nat} {i : Instance Code}

/-- An event leaves all else as it is. -/
theorem agrees_log (i : Instance Code) (e : Event) : Agrees i (i.log e) := by
  constructor <;> rfl

/-- The views that a publication makes. -/
def Instance.nextViews (i : Instance Code) : Views :=
  ⟨i.guest.memory, match i.views with
    | some v => v.generation + 1
    | none => 0⟩

/-- A publication makes the next views and tells of it. -/
theorem Effect.exec_publish (i : Instance Code) :
    exec publish i = (.ok i.nextViews,
      { i.log (.published i.nextViews.generation i.guest.buffer.length) with
        views := some i.nextViews }) := rfl

/-- Views that there are answer. -/
theorem Effect.exec_views_of_some {v : Views} (hv : i.views = some v) :
    exec views i = (.ok v, i) := by
  unfold views
  rw [exec_bind_of_ok (exec_get i), hv]
  rfl

/-- Without views new ones are published. -/
theorem Effect.exec_views_of_none (hv : i.views = none) : exec views i = exec publish i := by
  unfold views
  rw [exec_bind_of_ok (exec_get i), hv]

/-- A publication takes nothing away. -/
theorem grows_publish (hi : i.Sound) : Grows W i (exec publish i).2 := by
  rw [exec_publish]
  have hlog := (agrees_log i (.published i.nextViews.generation i.guest.buffer.length)).grows
    (W := W) hi
  exact { hlog with sound := { hlog.sound with views := by rintro v ⟨⟩; rfl } }

/-- The instance when its memory has grown to `pages` pages. -/
def Instance.grown (i : Instance Code) (pages : UInt32) : Instance Code :=
  (exec publish (({ i with guest := i.guest.grown pages } : Instance Code).log (.grown pages))).2

/-- Growth is granted up to the limit, and the host panics where the sum of the pages is no
word. -/
theorem Effect.exec_grow (delta : UInt32) (i : Instance Code) :
    exec (grow delta) i =
      match Word.add? i.guest.pages delta with
      | none => (.error .overflow, i)
      | some pages =>
        if i.guest.maxPages < pages then
          (.error (.allocationFailed (Word.mulSat delta pageSize)), i)
        else (.ok (), i.grown pages) := by
  unfold grow Word.sum
  rw [exec_bind_of_ok (exec_get i)]
  dsimp only
  cases Word.add? i.guest.pages delta with
  | none => exact exec_bind_of_error (exec_liftExcept _ i)
  | some pages =>
    refine (exec_bind_of_ok (exec_liftExcept _ i)).trans ?_
    dsimp only
    split <;> rfl

/-- No word is too large to count the pages for, beside those that there are. -/
theorem Effect.pages_add_lt (g : Guest Code) (n : UInt32) :
    g.pages.toNat + (pagesFor n.toNat).toNat < UInt32.size := by
  have hpage : pageSize.toNat = 65536 := rfl
  have hbound : UInt32.size = 2 ^ 32 := rfl
  have hlength := g.buffer.length.toNat_lt
  have hn := n.toNat_lt
  have hpages : (pagesFor n.toNat).toNat ≤ (n.toNat + 65536 - 1) / 65536 := by
    rw [pagesFor, hpage, Nat.toUInt32, UInt32.toNat_ofNat']
    exact Nat.mod_le _ _
  rw [Guest.pages, UInt32.toNat_div, hpage]
  omega

/-- Growth with another fault in place of its own, where the sum of the pages is a word. -/
theorem Effect.exec_growOr_of_add? {i : Instance Code} {delta pages : UInt32}
    (hadd : Word.add? i.guest.pages delta = some pages) (x : Fault) :
    exec (tryCatch (grow delta) fun _ => throw x : Effect Code Unit) i =
      if i.guest.maxPages < pages then (.error x, i) else (.ok (), i.grown pages) := by
  rw [exec_tryCatch, exec_grow, hadd]
  dsimp only
  by_cases h : i.guest.maxPages < pages
  · rw [if_pos h, if_pos h]
    rfl
  · rw [if_neg h, if_neg h]

/-- Growing memory by what is missing, with another fault in place of that of growth. -/
theorem Effect.exec_growOr (n : UInt32) (x : Fault) (i : Instance Code) :
    ∃ pages, pages = i.guest.pages + pagesFor n.toNat ∧
      exec (tryCatch (grow (pagesFor n.toNat)) fun _ => throw x : Effect Code Unit) i =
        if i.guest.maxPages < pages then (.error x, i) else (.ok (), i.grown pages) := by
  refine ⟨_, rfl, exec_growOr_of_add? (Word.add?_eq_some_iff.2 ?_) x⟩
  rw [UInt32.toNat_add]
  exact (Nat.mod_eq_of_lt (pages_add_lt i.guest n)).symm

/-- Nor do more pages. -/
theorem grows_grown (hi : i.Sound) {pages : UInt32} (hp : pages ≤ i.guest.maxPages) :
    Grows W i (i.grown pages) where
  sound := { hi with guest := hi.guest.grown hp, views := by rintro v ⟨⟩; rfl }
  heapTop := Nat.le_refl _
  size := by
    show _ ≤ (i.guest.grown pages).buffer.bytes.size
    rw [Guest.Sound.size_grown]
    exact Nat.le_max_left _ _
  kept := fun a _ => by
    show (i.guest.grown pages).buffer.byteAt a = _
    rw [Guest.Sound.buffer_grown, Buffer.byteAt_extended]
  config := rfl
  handles := .refl _
  raw := .refl _

/-- Growth moves no heap top. -/
theorem heapTop_grow (delta : UInt32) (i : Instance Code) :
    (exec (grow delta) i).2.guest.heapTop = i.guest.heapTop := by
  rw [exec_grow]
  split
  · rfl
  · split <;> rfl

/-- Growth takes nothing away, whether it is granted or refused. -/
theorem grows_grow (hi : i.Sound) (delta : UInt32) : Grows W i (exec (grow delta) i).2 := by
  rw [exec_grow]
  split
  · exact .refl hi
  · split
    · exact .refl hi
    · next h => exact grows_grown hi (UInt32.not_lt.1 h)

section
variable {g : Guest Code} {stop : UInt32}

/-- The pages that there are when those have been added that are missing up to `stop`. Memory that
is too large for a word to count is counted modulo `2 ^ 32`. -/
theorem Guest.toNat_pages_add (h : 65536 ∣ g.buffer.bytes.size) (hstop : g.buffer.length < stop) :
    (g.pages + pagesFor (stop - g.buffer.length).toNat).toNat = (stop.toNat + 65535) / 65536 := by
  have hpage : pageSize.toNat = 65536 := rfl
  have hbound : UInt32.size = 4294967296 := rfl
  have hlt := UInt32.lt_iff_toNat_lt.1 hstop
  have hword := stop.toNat_lt
  have hdvd : 65536 ∣ g.buffer.length.toNat := by
    have hlength : g.buffer.length.toNat = g.buffer.bytes.size % 4294967296 := UInt32.toNat_ofNat'
    omega
  have hpages : g.pages.toNat = g.buffer.length.toNat / 65536 := by
    rw [Guest.pages, UInt32.toNat_div, hpage]
  have hmissing : (stop - g.buffer.length).toNat = stop.toNat - g.buffer.length.toNat :=
    UInt32.toNat_sub_of_le _ _ (UInt32.le_of_lt hstop)
  have hfor : (pagesFor (stop - g.buffer.length).toNat).toNat =
      (stop.toNat - g.buffer.length.toNat + 65536 - 1) / 65536 := by
    rw [pagesFor, hpage, hmissing]
    exact UInt32.toNat_ofNat_of_lt' (by omega)
  rw [UInt32.toNat_add, hfor, hpages, Nat.mod_eq_of_lt (by omega)]
  omega

/-- Growing by the pages that are missing makes room up to `stop`. -/
theorem Guest.le_size_grown (h : 65536 ∣ g.buffer.bytes.size) (hstop : g.buffer.length < stop) :
    stop.toNat ≤
      (g.grown (g.pages + pagesFor (stop - g.buffer.length).toNat)).buffer.bytes.size := by
  rw [Guest.Sound.size_grown, Guest.toNat_pages_add h hstop]
  omega

end

/-! ## Allocation -/

/-- How a request for the next block comes out. -/
inductive Effect.Bumps (i : Instance Code) (size : UInt32) :
    Except Fault UInt32 × Instance Code → Prop
  /-- The heap's top is too high to find the next multiple of eight. -/
  | panicked (htop : UInt32.size ≤ i.guest.heapTop.toNat + 8) : Bumps i size (.error .overflow, i)
  /-- The end of the block is not a word. -/
  | endless {start : UInt32} (hstart : start.toNat = (i.guest.heapTop.toNat + 7) / 8 * 8)
      (hstop : UInt32.size ≤ start.toNat + size.toNat) :
      Bumps i size (.error (.allocationFailed size), i)
  /-- Memory may not grow up to the end of the block. -/
  | refused {start stop pages : UInt32} (hstart : start.toNat = (i.guest.heapTop.toNat + 7) / 8 * 8)
      (hstop : start.toNat + size.toNat = stop.toNat) (hlt : i.guest.buffer.length < stop)
      (hpages : pages = i.guest.pages + pagesFor (stop - i.guest.buffer.length).toNat)
      (hmax : i.guest.maxPages < pages) : Bumps i size (.error (.allocationFailed size), i)
  /-- Memory has grown, and the heap's top is the end of the block. -/
  | grown {start stop pages : UInt32} (hstart : start.toNat = (i.guest.heapTop.toNat + 7) / 8 * 8)
      (hstop : start.toNat + size.toNat = stop.toNat) (hlt : i.guest.buffer.length < stop)
      (hpages : pages = i.guest.pages + pagesFor (stop - i.guest.buffer.length).toNat)
      (hmax : pages ≤ i.guest.maxPages) :
      Bumps i size (.ok start,
        { i.grown pages with guest := { (i.grown pages).guest with heapTop := stop } })
  /-- There was room in memory, and the heap's top is the end of the block. -/
  | moved {start stop : UInt32} (hstart : start.toNat = (i.guest.heapTop.toNat + 7) / 8 * 8)
      (hstop : start.toNat + size.toNat = stop.toNat) (hle : stop ≤ i.guest.buffer.length) :
      Bumps i size (.ok start, { i with guest := { i.guest with heapTop := stop } })

/-- A request for the next block comes out in one of these ways. -/
theorem Effect.bumps_bump (i : Instance Code) (size : UInt32) :
    Bumps i size (exec (bump size) i) := by
  unfold bump
  rw [exec_bind_of_ok (exec_get i)]
  dsimp only
  rcases Nat.lt_or_ge (i.guest.heapTop.toNat + 8) UInt32.size with hlt | hge
  case inr =>
    rw [exec_bind_of_error (by rw [exec_liftExcept, aligned_of_le hge])]
    exact .panicked hge
  obtain ⟨start, haligned, hstart⟩ := aligned_of_lt hlt
  rw [haligned, exec_bind_of_ok (exec_liftExcept (.ok start) i)]
  cases hadd : Word.add? start size with
  | none => exact .endless hstart (Word.add?_eq_none_iff.1 hadd)
  | some stop =>
    rw [Word.add?_eq_some_iff] at hadd
    dsimp only
    split
    · next hlt =>
      obtain ⟨pages, hpages, hgrow⟩ :=
        exec_growOr (stop - i.guest.buffer.length) (.allocationFailed size) i
      split at hgrow
      · next hmax =>
        rw [exec_bind_of_error hgrow]
        exact .refused hstart hadd hlt hpages hmax
      · next hmax =>
        rw [exec_bind_of_ok hgrow]
        exact .grown hstart hadd hlt hpages (UInt32.not_lt.1 hmax)
    · next hlt => exact .moved hstart hadd (UInt32.not_lt.1 hlt)

/-- A block that the allocator hands out: at the next multiple of eight, inside of memory, which is
another one only where it had to grow. -/
structure Block (i : Instance Code) (address size : UInt32) (i' : Instance Code) : Prop where
  start : address.toNat = (i.guest.heapTop.toNat + 7) / 8 * 8
  stop : i'.guest.heapTop.toNat = address.toNat + size.toNat
  inside : i'.guest.heapTop.toNat ≤ i'.guest.buffer.bytes.size
  maxPages : i'.guest.maxPages = i.guest.maxPages
  buffer : i'.guest.heapTop.toNat ≤ i.guest.buffer.bytes.size → i'.guest.buffer = i.guest.buffer

namespace Block

variable {address size : UInt32} {i' : Instance Code}

/-- A block begins at a multiple of eight. -/
theorem aligned (h : Block i address size i') : 8 ∣ address.toNat :=
  ⟨_, h.start.trans (Nat.mul_comm _ _)⟩

/-- A block lies behind all that was handed out before. -/
theorem fresh (h : Block i address size i') : i.guest.heapTop.toNat ≤ address.toNat := by
  have := h.start
  omega

end Block

/-- How far the heap can reach: to the end of memory, or to the end that memory can be given. -/
def Guest.limit (g : Guest Code) : Nat := max g.buffer.bytes.size (g.maxPages.toNat * 65536)

/-- The heap has room for a block of `size` bytes. -/
def Guest.HasRoom (g : Guest Code) (size : UInt32) : Prop :=
  (g.heapTop.toNat + 7) / 8 * 8 + size.toNat ≤ g.limit

/-- A block whose end is not a word is one that the heap has no room for. -/
theorem Guest.Sound.not_hasRoom {g : Guest Code} (h : g.Sound) {start size : UInt32}
    (hstart : start.toNat = (g.heapTop.toNat + 7) / 8 * 8)
    (hstop : UInt32.size ≤ start.toNat + size.toNat) : ¬ g.HasRoom size := by
  intro hroom
  have hsize := h.size_le
  have hmax := h.maxPages
  have hfits : start.toNat + size.toNat ≤ 65535 * 65536 := by
    rw [hstart]
    exact Nat.le_trans hroom (Nat.max_le.2 (by omega))
  exact absurd (Nat.le_trans hstop hfits) (by decide)

/-- The heap's top moves to the end of a block in an instance with room for it. -/
theorem block_moveTop {i₁ : Instance Code} (hi : i.Sound) (hg : Grows W i i₁)
    (hpages : i₁.guest.maxPages = i.guest.maxPages) {start size stop : UInt32}
    (hstart : start.toNat = (i.guest.heapTop.toNat + 7) / 8 * 8)
    (hstop : start.toNat + size.toNat = stop.toNat)
    (hle : stop.toNat ≤ i₁.guest.buffer.bytes.size)
    (hbuffer : stop.toNat ≤ i.guest.buffer.bytes.size → i₁.guest.buffer = i.guest.buffer) :
    Grows W i { i₁ with guest := { i₁.guest with heapTop := stop } } ∧
      Block i start size { i₁ with guest := { i₁.guest with heapTop := stop } } := by
  have hpos := hi.guest.heap_pos
  have htop : i.guest.heapTop.toNat ≤ stop.toNat := by omega
  refine ⟨?_, hstart, hstop.symm, hle, hpages, hbuffer⟩
  exact
    { hg with
      sound :=
        { hg.sound with
          guest :=
            { hg.sound.guest with
              heap_pos := Nat.le_trans hpos htop
              heap_le := Nat.le_trans hle (Nat.le_max_right _ _) } }
      heapTop := htop }

/-- The allocator refuses for want of room only and then changes nothing; else it moves the heap's
top behind a new block. -/
theorem Effect.exec_bump (hi : i.Sound) (size : UInt32) :
    (exec (bump size) i = (.error (.allocationFailed size), i) ∧ ¬ i.guest.HasRoom size) ∨
      ∃ address i', exec (bump size) i = (.ok address, i') ∧ Grows W i i' ∧
        Block i address size i' := by
  have hbumps := bumps_bump i size
  generalize exec (bump size) i = r at hbumps ⊢
  cases hbumps with
  | panicked htop => exact absurd hi.guest.heapTop_add_lt (Nat.not_lt.2 htop)
  | endless hstart hstop => exact .inl ⟨rfl, hi.guest.not_hasRoom hstart hstop⟩
  | refused hstart hstop hlt hpages hmax =>
    refine .inl ⟨rfl, fun hroom => ?_⟩
    have hcount := Guest.toNat_pages_add hi.guest.dvd_size hlt
    have hlength := hi.guest.toNat_length
    rw [UInt32.lt_iff_toNat_lt] at hmax hlt
    rw [← hpages] at hcount
    unfold Guest.HasRoom Guest.limit at hroom
    omega
  | grown hstart hstop hlt hpages hmax =>
    have hinside := Guest.le_size_grown hi.guest.dvd_size hlt
    rw [← hpages] at hinside
    refine .inr ⟨_, _, rfl, block_moveTop hi (grows_grown hi hmax) rfl hstart hstop hinside
      fun hfits => ?_⟩
    rw [UInt32.lt_iff_toNat_lt, hi.guest.toNat_length] at hlt
    exact absurd hfits (Nat.not_le.2 hlt)
  | moved hstart hstop hle =>
    refine .inr ⟨_, _, rfl, block_moveTop hi (.refl hi) rfl hstart hstop ?_ fun _ => rfl⟩
    rw [← hi.guest.toNat_length]
    exact UInt32.le_iff_toNat_le.1 hle

/-- A request that is counted changes nothing else. -/
theorem agrees_request (i : Instance Code) :
    Agrees i { i with guest := { i.guest with requests := i.guest.requests + 1 } } := by
  constructor <;> rfl

/-- An allocator that serves any number of requests counts them and hands out the next block. -/
theorem Effect.exec_malloc_of_allowance (h : i.guest.allowance = none) (size : UInt32) :
    exec (malloc size) i = exec (bump size)
      { i with guest := { i.guest with requests := i.guest.requests + 1 } } := by
  unfold malloc
  rw [exec_bind_of_ok (exec_get i), exec_bind_of_ok (exec_modify _ i)]
  dsimp only
  rw [h]

/-- A request to the allocator is refused, which changes nothing, or served with a block. -/
theorem Effect.exec_malloc (hi : i.Sound) (size : UInt32) :
    ∃ i', Grows W i i' ∧
      ((exec (malloc size) i = (.error (.allocationFailed size), i') ∧ ¬ i.guest.HasRoom size ∧
          Agrees i i') ∨
        ∃ address, exec (malloc size) i = (.ok address, i') ∧ Block i address size i') := by
  have hcount := agrees_request i
  have hi' := hcount.sound hi
  have hg := hcount.grows (W := W) hi
  rw [exec_malloc_of_allowance hi.guest.allowance]
  rcases exec_bump (W := W) hi' size with ⟨h, hno⟩ | ⟨address, i', h, hg', hb⟩
  · exact ⟨_, hg, .inl ⟨h, hno, hcount⟩⟩
  · exact ⟨i', hg.trans hg', .inr ⟨address, h,
      ⟨hb.start, hb.stop, hb.inside, hb.maxPages, hb.buffer⟩⟩⟩

/-- A request to the allocator takes nothing away, whether it is served or refused. -/
theorem grows_malloc (hi : i.Sound) (size : UInt32) : Grows W i (exec (malloc size) i).2 := by
  obtain ⟨i', hg, ⟨h, -⟩ | ⟨address, h, -⟩⟩ := exec_malloc (W := W) hi size <;>
    exact h ▸ hg

/-- A block that is asked for through the arena is never the null address. -/
theorem Effect.exec_alloc (hi : i.Sound) (size : UInt32) :
    ∃ i', Grows W i i' ∧
      ((exec (alloc size) i = (.error (.allocationFailed size), i') ∧ ¬ i.guest.HasRoom size ∧
          Agrees i i') ∨
        ∃ address, exec (alloc size) i = (.ok address, i') ∧ Block i address size i') := by
  obtain ⟨i₁, hg, ⟨h, hno⟩ | ⟨address, h, hb⟩⟩ := exec_malloc (W := W) hi size
  · exact ⟨i₁, hg, .inl ⟨exec_bind_of_error h, hno⟩⟩
  · have hpos := hi.guest.heap_pos
    have hne : address ≠ 0 := by
      have hfresh := hb.fresh
      rintro rfl
      rw [UInt32.toNat_zero] at hfresh
      omega
    have hagrees : Agrees i₁ (({ i₁ with arena := i₁.arena.count size } : Instance Code).log
        (.allocated size address)) := by
      constructor <;> rfl
    refine ⟨_, hg.trans (hagrees.grows hg.sound), .inr ⟨address, ?_,
      ⟨hb.start, hb.stop, hb.inside, hb.maxPages, hb.buffer⟩⟩⟩
    unfold alloc
    rw [exec_bind_of_ok h, if_neg (by simp [hne])]
    rfl

/-! ## Writes -/

/-- The instance with `data` written at an address of a buffer. -/
def Instance.written (i : Instance Code) (id : Nat) (address : UInt32) (data : ByteArray) :
    Instance Code :=
  { i with guest := { i.guest with store := i.guest.store.blit id address data } }

/-- Bytes are written where they lie inside of the buffer, and otherwise nothing changes. -/
theorem Effect.exec_write (id : Nat) (address : UInt32) (data : ByteArray) (i : Instance Code) :
    exec (write id address data) i =
      match (i.guest.store.buffer id).check address data.size with
      | .ok _ => (.ok (), i.written id address data)
      | .error x => (.error x, i) := by
  unfold write
  rw [exec_bind_of_ok (show exec (buffer id) i = (.ok (i.guest.store.buffer id), i) from rfl)]
  cases h : (i.guest.store.buffer id).check address data.size with
  | ok => exact exec_bind_of_ok (exec_liftExcept _ i)
  | error x => exact exec_bind_of_error (exec_liftExcept _ i)

/-- A write to another buffer than guest memory. -/
theorem Store.buffer_blit_of_ne {s : Store} {id j : Nat} (h : id ≠ j) (address : UInt32)
    (data : ByteArray) : (s.blit id address data).buffer j = s.buffer j := by
  unfold buffer blit
  simp only [Array.getD_eq_getD_getElem?, Array.getElem?_modify, if_neg h]

/-- A write inside of guest memory. -/
theorem Instance.buffer_written (h : i.guest.memory < i.guest.store.buffers.size)
    (address : UInt32) (data : ByteArray) :
    (i.written i.guest.memory address data).guest.buffer =
      i.guest.buffer.blit address data := by
  show (i.guest.store.blit i.guest.memory address data).buffer i.guest.memory = _
  rw [Store.buffer_blit h, if_pos rfl]
  rfl

/-- A write changes no bytes but its own. -/
theorem grows_written (hi : i.Sound) {id : Nat} {address : UInt32} {data : ByteArray}
    (hle : address.toNat + data.size ≤ (i.guest.store.buffer id).bytes.size)
    (hW : id = i.guest.memory → Set.Ico address.toNat (address.toNat + data.size) ⊆ W) :
    Grows W i (i.written id address data) := by
  have hsize : (i.written id address data).guest.buffer.bytes.size =
      i.guest.buffer.bytes.size ∧
      ∀ a ∉ W, (i.written id address data).guest.buffer.byteAt a = i.guest.buffer.byteAt a := by
    by_cases hid : id = i.guest.memory
    · subst hid
      rw [Instance.buffer_written hi.guest.memory]
      refine ⟨Buffer.size_blit hle, fun a ha => Buffer.byteAt_blit hle ?_⟩
      by_contra hin
      exact ha (hW rfl ⟨by omega, by omega⟩)
    · have hbuffer : (i.written id address data).guest.buffer = i.guest.buffer :=
        Store.buffer_blit_of_ne hid address data
      rw [hbuffer]
      exact ⟨rfl, fun _ _ => rfl⟩
  have hguest : (i.written id address data).guest.Sound :=
    { hi.guest with
      memory := by
        show _ < (i.guest.store.blit id address data).buffers.size
        rw [Store.blit, Array.size_modify]
        exact hi.guest.memory
      pages := by rw [hsize.1]; exact hi.guest.pages
      heap_le := by rw [hsize.1]; exact hi.guest.heap_le }
  exact
    { sound := { hi with guest := hguest }
      heapTop := Nat.le_refl _
      size := Nat.le_of_eq hsize.1.symm
      kept := hsize.2
      config := rfl
      handles := .refl _
      raw := .refl _ }

/-- Nor does one that may be refused. -/
theorem grows_write (hi : i.Sound) (id : Nat) (address : UInt32) (data : ByteArray)
    (hW : id = i.guest.memory → Set.Ico address.toNat (address.toNat + data.size) ⊆ W) :
    Grows W i (exec (write id address data) i).2 := by
  rw [exec_write]
  cases h : (i.guest.store.buffer id).check address data.size with
  | ok => exact grows_written hi (Buffer.check_eq_ok_iff.1 h) hW
  | error x => exact .refl hi

/-! ## Handles and raw values -/

/-- Lending asks the table, and writes into the journal besides, unless a number would overflow. -/
theorem Effect.exec_acquire (v : Value) (i : Instance Code) :
    ∃ journal, exec (acquire v) i =
      if i.handles.overflows v then (.error .overflow, i)
      else (.ok (i.handles.acquire v).1,
        { i with handles := (i.handles.acquire v).2, journal }) := by
  unfold acquire
  rw [exec_bind_of_ok (exec_get i)]
  dsimp only
  split
  · exact ⟨i.journal, rfl⟩
  rw [exec_bind_of_ok (exec_modify _ i)]
  cases (i.handles.acquire v).2.owners? (i.handles.acquire v).1 with
  | none => exact ⟨_, rfl⟩
  | some owners => exact ⟨_, rfl⟩

/-- Lending takes nothing away. -/
theorem grows_acquire (hi : i.Sound) (v : Value) : Grows W i (exec (acquire v) i).2 := by
  obtain ⟨journal, h⟩ := exec_acquire v i
  obtain ⟨hs, he, -⟩ := HandleTable.acquire_lends hi.handles v
  rw [h]
  split
  · exact .refl hi
  · exact { Grows.refl hi with sound := { hi with handles := hs }, handles := he }

/-- A value is registered while a number is left for it. -/
theorem Effect.exec_registerRaw (v : Value) (i : Instance Code) :
    exec (registerRaw v) i =
      if i.raw.isFull then (.error .overflow, i)
      else (.ok (i.raw.register v).1, { i with raw := (i.raw.register v).2 }) := by
  unfold registerRaw
  rw [exec_bind_of_ok (exec_get i)]
  dsimp only
  split <;> rfl

/-- Registering takes nothing away. -/
theorem grows_registerRaw (hi : i.Sound) (v : Value) :
    Grows W i (exec (registerRaw v) i).2 := by
  obtain ⟨hs, he, -⟩ := RawRegistry.register_extends hi.raw v
  rw [exec_registerRaw]
  split
  · exact .refl hi
  · exact { Grows.refl hi with sound := { hi with raw := hs }, raw := he }

/-- An owner is added to a live handle that can have one more. -/
theorem Effect.exec_increment (id : UInt32) (i : Instance Code) :
    exec (increment id) i =
      if i.handles.isFull id then (.error .overflow, i)
      else
        match i.handles.increment id with
        | .ok handles => (.ok (), { i with handles })
        | .error x => (.error x, i) := by
  unfold increment
  rw [exec_bind_of_ok (exec_get i)]
  dsimp only
  split
  · rfl
  cases h : i.handles.increment id with
  | ok handles => exact exec_bind_of_ok (exec_liftExcept _ i)
  | error x => exact exec_bind_of_error (exec_liftExcept _ i)

/-- One more owner takes nothing away. -/
theorem grows_increment (hi : i.Sound) (id : UInt32) : Grows W i (exec (increment id) i).2 := by
  rw [exec_increment]
  split
  · exact .refl hi
  cases h : i.handles.increment id with
  | ok handles =>
    obtain ⟨hs, he⟩ := HandleTable.increment_extends hi.handles h
    exact { Grows.refl hi with sound := { hi with handles := hs }, handles := he }
  | error x => exact .refl hi

end

/-- Taking an owner away changes the table of handles and the journal. -/
theorem Effect.exec_decrement (id : UInt32) (i : Instance Code) :
    (exec (decrement id) i).2 =
      match i.handles.decrement id with
      | .ok handles =>
        if handles.contains id then { i with handles }
        else ({ i with handles } : Instance Code).log (.givenBack id)
      | .error _ => i := by
  unfold decrement
  rw [exec_bind_of_ok (exec_get i)]
  cases i.handles.decrement id with
  | error x => rfl
  | ok handles =>
    rw [exec_bind_of_ok (exec_liftExcept _ i), exec_bind_of_ok (exec_modify _ i)]
    dsimp only
    split <;> rfl

/-! ### Relations

A relation that is kept by the change which growth or a table makes is kept by the effect: where
that panics or faults, nothing has changed. -/

namespace Steady

variable {R : Instance Code → Instance Code → Prop}

/-- Growth has more pages, up to the limit, as its only change. -/
theorem growth (h : Steady R)
    (hR : ∀ (i : Instance Code) pages, pages ≤ i.guest.maxPages → R i (i.grown pages))
    (delta : UInt32) : Keeps R (grow delta) := fun i => by
  rw [exec_grow]
  split
  · exact h.refl i
  · split
    · exact h.refl i
    · next hle => exact hR i _ (UInt32.not_lt.1 hle)

/-- Lending has a value more in the table as its only change, where nothing overflows. -/
theorem lending (h : Steady R) {v : Value}
    (hR : ∀ (i : Instance Code) journal, i.handles.overflows v = false →
      R i { i with handles := (i.handles.acquire v).2, journal }) :
    Keeps R (Effect.acquire v) := fun i => by
  obtain ⟨journal, hexec⟩ := exec_acquire v i
  rw [hexec]
  split
  · exact h.refl i
  · next hfits => exact hR i journal (Bool.eq_false_of_not_eq_true hfits)

/-- Registering has a value more in the registry as its only change, where no number overflows. -/
theorem registering (h : Steady R) {v : Value}
    (hR : ∀ i : Instance Code, i.raw.isFull = false → R i { i with raw := (i.raw.register v).2 }) :
    Keeps R (Effect.registerRaw v) := fun i => by
  rw [exec_registerRaw]
  split
  · exact h.refl i
  · next hfits => exact hR i (Bool.eq_false_of_not_eq_true hfits)

/-- Adding an owner changes the table only. -/
theorem gaining (h : Steady R) {id : UInt32}
    (hR : ∀ (i : Instance Code) handles, i.handles.increment id = .ok handles →
      R i { i with handles }) :
    Keeps R (Effect.increment id) := fun i => by
  rw [exec_increment]
  split
  · exact h.refl i
  cases hexec : i.handles.increment id with
  | error x => exact h.refl i
  | ok handles => exact hR i handles hexec

/-- Taking an owner away changes the table and the journal only. -/
theorem losing (h : Steady R) {id : UInt32}
    (hR : ∀ (i : Instance Code) handles journal, i.handles.decrement id = .ok handles →
      R i { i with handles, journal }) :
    Keeps R (Effect.decrement id) := fun i => by
  rw [exec_decrement]
  cases hexec : i.handles.decrement id with
  | error x => exact h.refl i
  | ok handles =>
    dsimp only
    split
    · exact hR i handles i.journal hexec
    · exact hR i handles _ hexec

end Steady

/-! ## Reachable instances -/

/-- The relation `R` looks at memory, heap, views, tables and configuration only, and is kept by the
steps that change them. -/
structure Storing (R : Instance Code → Instance Code → Prop) : Prop extends Steady R where
  modify : ∀ f : Instance Code → Instance Code, (∀ i, Agrees i (f i)) → Keeps R (modify f)
  publish : Keeps R publish
  write : ∀ id address data, Keeps R (write id address data)
  grow : ∀ delta, Keeps R (grow delta)
  malloc : ∀ size, Keeps R (malloc size)
  acquire : ∀ v, Keeps R (acquire v)
  registerRaw : ∀ v, Keeps R (registerRaw v)
  increment : ∀ id, Keeps R (increment id)
  decrement : ∀ id, Keeps R (decrement id)
  unregisterRaw : ∀ id, Keeps R (unregisterRaw id)

namespace Storing

variable {R : Instance Code → Instance Code → Prop}

/-- An event keeps the relation. -/
theorem record (h : Storing R) (e : Event) : Keeps R (record e) :=
  h.modify _ fun i => agrees_log i e

/-- Such a relation is kept by every action. -/
theorem acting (h : Storing R) : Acting R :=
  Overlooking.acting
    { toSteady := h.toSteady
      note := fun e _ => h.record e
      publish := h.publish
      write := h.write
      malloc := h.malloc
      alloc := fun size => h.toSteady.alloc (h.malloc size)
        (h.modify _ fun _ => by constructor <;> rfl) fun _ => h.record _
      acquire := h.acquire
      registerRaw := h.registerRaw
      started := h.modify _ fun _ => by constructor <;> rfl
      modify := fun f hf => h.modify f fun i =>
        { hf i with base := congrArg Arena.base (hf i).arena }
      record := fun e _ => h.record e
      grow := h.grow
      increment := h.increment
      decrement := h.decrement
      unregisterRaw := h.unregisterRaw
      abort := h.toSteady.abort (fun _ => h.record _) (h.modify _ fun _ => by constructor <;> rfl) }

end Storing

/-- A sound instance `i'` that is configured as `i` is, with a memory and a heap no smaller. -/
structure Enlarges (i i' : Instance Code) : Prop where
  sound : i'.Sound
  config : i'.config = i.config
  heapTop : i.guest.heapTop.toNat ≤ i'.guest.heapTop.toNat
  size : i.guest.buffer.bytes.size ≤ i'.guest.buffer.bytes.size

namespace Enlarges

/-- A sound instance is no smaller than itself. -/
theorem refl {i : Instance Code} (hi : i.Sound) : Enlarges i i :=
  ⟨hi, rfl, Nat.le_refl _, Nat.le_refl _⟩

/-- What gets no smaller in two steps gets no smaller. -/
theorem trans {i i' i'' : Instance Code} (h : Enlarges i i') (h' : Enlarges i' i'') :
    Enlarges i i'' where
  sound := h'.sound
  config := h'.config.trans h.config
  heapTop := Nat.le_trans h.heapTop h'.heapTop
  size := Nat.le_trans h.size h'.size

/-- What grows gets no smaller. -/
theorem of_grows {W : Set Nat} {i i' : Instance Code} (h : Grows W i i') : Enlarges i i' :=
  ⟨h.sound, h.config, h.heapTop, h.size⟩

/-- Every action keeps an instance sound, and makes nothing smaller. -/
theorem acting : Acting fun i i' : Instance Code => i.Sound → Enlarges i i' := by
  have hsteady : Steady fun i i' : Instance Code => i.Sound → Enlarges i i' :=
    ⟨fun _ => refl, fun h h' hi => (h hi).trans (h' (h hi).sound)⟩
  exact Storing.acting
    { hsteady with
      modify := fun f hf i hi => of_grows (W := ∅) ((hf i).grows hi)
      publish := fun i hi => of_grows (W := ∅) (grows_publish hi)
      write := fun id address data i hi =>
        of_grows (W := Set.univ) (grows_write hi id address data fun _ => Set.subset_univ _)
      grow := fun delta i hi => of_grows (W := ∅) (grows_grow hi delta)
      malloc := fun size i hi => of_grows (W := ∅) (grows_malloc hi size)
      acquire := fun v i hi => of_grows (W := ∅) (grows_acquire hi v)
      registerRaw := fun v i hi => of_grows (W := ∅) (grows_registerRaw hi v)
      increment := fun id i hi => of_grows (W := ∅) (grows_increment hi id)
      decrement := fun id => hsteady.losing fun i handles journal h hi =>
        { refl hi with
          sound := { hi with handles := HandleTable.decrement_sound hi.handles h } }
      unregisterRaw := fun id i hi =>
        { refl hi with
          sound := { hi with raw := RawRegistry.unregister_sound hi.raw id } } }

end Enlarges

/-- A fresh guest of at most 65535 pages is sound. -/
theorem Guest.Sound.ofPages (Code : Type) {pages maxPages : UInt32} (hpages : pages.toNat ≤ 65535)
    (hmax : maxPages.toNat ≤ 65535) : (Guest.ofPages Code pages maxPages).Sound where
  memory := Nat.zero_lt_one
  pages := ⟨pages.toNat, hpages, Buffer.size_zeroBytes _⟩
  maxPages := hmax
  heap_pos := Nat.le_refl _
  heap_le := Nat.le_max_left _ _
  allowance := rfl

/-- A fresh instance on a sound guest is sound. -/
theorem Instance.Sound.of_guest {g : Guest Code} (h : g.Sound) (config : Config) :
    (Instance.ofGuest g config).Sound where
  guest := h
  views := by rintro v ⟨⟩
  base := rfl
  handles := HandleTable.sound_empty
  raw := RawRegistry.sound_empty

/-- A fresh instance on a guest of at most 65535 pages is sound. -/
theorem Instance.Sound.ofGuest {pages maxPages : UInt32} (hpages : pages.toNat ≤ 65535)
    (hmax : maxPages.toNat ≤ 65535) (config : Config) :
    (Instance.ofGuest (Guest.ofPages Code pages maxPages) config).Sound :=
  .of_guest (.ofPages Code hpages hmax) config

/-- Every instance that a run reaches is sound. -/
theorem Machine.sound_runs {pages maxPages : UInt32} (hpages : pages.toNat ≤ 65535)
    (hmax : maxPages.toNat ≤ 65535) (config : Config) (as : List (Action Code)) :
    ((Machine.boot (Guest.ofPages Code pages maxPages) config).runs as).inst.Sound :=
  (Enlarges.acting.runs _ as (Instance.Sound.ofGuest hpages hmax config)).sound

end

end Crossing
