import Crossing.Proofs.Instance.Current

/-!
# Blocks never overlap

The guest's allocator hands out blocks upwards: each begins at the first multiple of eight at or
above the heap's top, which then moves to its end. No action moves the heap's top down, so a block
lies behind every block that was handed out before (`Machine.le_heapTop_of_mem_blocks`), whatever
happened in between.

Growing memory takes room that was counted before: how far the heap can reach never changes
(`SameLimit.acting`). So a request is served exactly when there is room for it, whether memory grew
in the meantime or not.
-/

namespace Crossing

open Effect

section
variable {Code α : Type}

/-! ## The limit -/

/-- Memory of `i` and `i'` can be given the same number of pages, and the heap can reach as far. -/
structure SameLimit (i i' : Instance Code) : Prop where
  maxPages : i'.guest.maxPages = i.guest.maxPages
  limit : i'.guest.limit = i.guest.limit

namespace SameLimit

variable {i i' : Instance Code}

/-- A change that leaves the size of memory. -/
theorem of_size (hmax : i'.guest.maxPages = i.guest.maxPages)
    (hsize : i'.guest.buffer.bytes.size = i.guest.buffer.bytes.size) : SameLimit i i' where
  maxPages := hmax
  limit := by rw [Guest.limit, Guest.limit, hmax, hsize]

/-- The limit stays over any number of steps. -/
theorem steady : Steady fun i i' : Instance Code => SameLimit i i' where
  refl _ := ⟨rfl, rfl⟩
  trans h h' := ⟨h'.maxPages.trans h.maxPages, h'.limit.trans h.limit⟩

/-- Growth stays within the pages that memory can be given. -/
theorem grow (delta : UInt32) : Keeps SameLimit (grow delta : Effect Code Unit) := by
  refine steady.growth (fun i pages hle => ⟨rfl, ?_⟩) delta
  have hpages := UInt32.le_iff_toNat_le.1 hle
  show max (i.guest.grown pages).buffer.bytes.size (i.guest.maxPages.toNat * 65536) = i.guest.limit
  rw [Guest.Sound.size_grown, Guest.limit]
  omega

/-- A write stays within its buffer. -/
theorem write (id : Nat) (address : UInt32) (data : ByteArray) :
    Keeps SameLimit (write id address data : Effect Code Unit) := by
  intro i
  rw [exec_write]
  cases hcheck : (i.guest.store.buffer id).check address data.size with
  | error x => exact steady.refl i
  | ok => exact of_size rfl (Store.size_blit (Buffer.check_eq_ok_iff.1 hcheck) i.guest.memory)

/-- No action changes how far the heap can reach. -/
theorem acting : Acting fun i i' : Instance Code => SameLimit i i' := by
  exact Storing.acting
    { toSteady := steady
      modify := fun f hf i => of_size (hf i).maxPages (by rw [exec_modify, (hf i).buffer])
      publish := fun i => of_size rfl rfl
      write := write
      grow := grow
      malloc := steady.malloc grow (fun _ _ => of_size rfl rfl) fun _ => of_size rfl rfl
      acquire := fun v => steady.lending fun _ _ _ => of_size rfl rfl
      registerRaw := fun v => steady.registering fun _ _ => of_size rfl rfl
      increment := fun id => steady.gaining fun _ _ _ => of_size rfl rfl
      decrement := fun id => steady.losing fun _ _ _ _ => of_size rfl rfl
      unregisterRaw := fun id i => of_size rfl rfl }

end SameLimit

/-! ## Requests -/

/-- What comes of a request for `size` bytes: it is served with a block when there is room, and else
refused, which changes nothing in memory. -/
inductive Requested (i : Instance Code) (size : UInt32) :
    Except Fault UInt32 × Instance Code → Prop
  | served {start : UInt32} {i' : Instance Code} (hroom : i.guest.HasRoom size)
      (hb : Block i start size i') : Requested i size (.ok start, i')
  | refused {i' : Instance Code} (hroom : ¬ i.guest.HasRoom size) (h : Agrees i i') :
      Requested i size (.error (.allocationFailed size), i')

/-- A block lies within the limit. -/
theorem Block.hasRoom {i i' : Instance Code} {start size : UInt32} (hb : Block i start size i')
    (h : SameLimit i i') : i.guest.HasRoom size := by
  have hstart := hb.start
  have hstop := hb.stop
  have hinside : i'.guest.heapTop.toNat ≤ i'.guest.limit :=
    Nat.le_trans hb.inside (Nat.le_max_left _ _)
  rw [h.limit] at hinside
  unfold Guest.HasRoom
  omega

/-- An effect that leaves the limit, and either is refused or hands out a block, does what is
requested of it. -/
theorem Requested.of_exec {e : Effect Code UInt32} {i : Instance Code} {size : UInt32}
    (hlimit : Keeps SameLimit e)
    (h : ∃ i', Grows ∅ i i' ∧
      ((exec e i = (.error (.allocationFailed size), i') ∧ ¬ i.guest.HasRoom size ∧ Agrees i i') ∨
        ∃ start, exec e i = (.ok start, i') ∧ Block i start size i')) :
    Requested i size (exec e i) := by
  have hsame := hlimit i
  obtain ⟨i', -, ⟨h, hroom, hagrees⟩ | ⟨start, h, hb⟩⟩ := h <;> rw [h] at hsame ⊢
  · exact .refused hroom hagrees
  · exact .served (hb.hasRoom hsame) hb

/-- The guest's allocator serves a request exactly where there is room. -/
theorem Effect.requested_malloc {i : Instance Code} (hi : i.Sound) (size : UInt32) :
    Requested i size (exec (malloc size) i) :=
  .of_exec (SameLimit.acting.malloc size) (exec_malloc hi size)

/-- So does the arena. -/
theorem Effect.requested_alloc {i : Instance Code} (hi : i.Sound) (size : UInt32) :
    Requested i size (exec (alloc size) i) :=
  .of_exec (SameLimit.acting.alloc size) (exec_alloc hi size)

/-! ## The blocks of a run -/

/-- A range of guest memory. -/
structure Extent where
  start : UInt32
  size : UInt32

/-- The addresses in a range. -/
def Extent.addresses (b : Extent) : Set Nat := Set.Ico b.start.toNat (b.start.toNat + b.size.toNat)

/-- The ranges have no address in common. -/
def Extent.Apart (b b' : Extent) : Prop := ∀ a ∈ b.addresses, a ∉ b'.addresses

/-- A range that begins where another one has ended, or behind it, is apart from it. -/
theorem Extent.apart_of_le {b b' : Extent} (h : b.start.toNat + b.size.toNat ≤ b'.start.toNat) :
    b.Apart b' :=
  fun _ ha ha' => Nat.not_le_of_lt ha.2 (Nat.le_trans h ha'.1)

/-- The block of a request that was served. -/
def served? (size : UInt32) : Except Fault UInt32 → Option Extent
  | .ok start => some ⟨start, size⟩
  | .error _ => none

namespace Machine

variable {m : Machine Code}

/-- The block that an action is answered with, when it asks for one. -/
def block? (m : Machine Code) : Action Code → Option Extent
  | .perform (.malloc size) => served? size (m.perform (.malloc size)).1
  | .perform (.alloc size) => served? size (m.perform (.alloc size)).1
  | _ => none

/-- The blocks that a run is answered with, oldest first. -/
def blocks (m : Machine Code) : List (Action Code) → List Extent
  | [] => []
  | a :: as => (m.block? a).toList ++ (m.act a).blocks as

/-- A block begins at or above the heap's top, which moves to its end. -/
theorem heapTop_of_block? (hs : m.inst.Sound) {a : Action Code} {b : Extent}
    (h : m.block? a = some b) :
    m.inst.guest.heapTop.toNat ≤ b.start.toNat ∧
      (m.act a).inst.guest.heapTop.toNat = b.start.toNat + b.size.toNat := by
  have hserved {size : UInt32} {r : Except Fault UInt32 × Instance Code}
      (hr : Requested m.inst size r) (hb : served? size r.1 = some b) :
      m.inst.guest.heapTop.toNat ≤ b.start.toNat ∧
        r.2.guest.heapTop.toNat = b.start.toNat + b.size.toNat := by
    cases hr with
    | served hroom hblock =>
      cases hb
      exact ⟨hblock.fresh, hblock.stop⟩
    | refused => cases hb
  cases a with
  | call => cases h
  | leave => cases h
  | perform op =>
    cases op with
    | malloc size => exact hserved (requested_malloc hs size) h
    | alloc size => exact hserved (requested_alloc hs size) h
    | _ => cases h

/-- The blocks of a run lie below the heap's top. -/
theorem le_heapTop_of_mem_blocks (hs : m.inst.Sound) {as : List (Action Code)} {b : Extent}
    (hb : b ∈ m.blocks as) :
    b.start.toNat + b.size.toNat ≤ (m.runs as).inst.guest.heapTop.toNat := by
  induction as generalizing m with
  | nil => cases hb
  | cons a as ih =>
    have hs' := (Enlarges.acting.act m a hs).sound
    rw [blocks, List.mem_append, Option.mem_toList] at hb
    rcases hb with hb | hb
    · rw [← (heapTop_of_block? hs hb).2]
      exact (Enlarges.acting.runs (m.act a) as hs').heapTop
    · exact ih hs' hb

/-- The blocks of a run lie above where the heap's top was before it. -/
theorem heapTop_le_of_mem_blocks (hs : m.inst.Sound) {as : List (Action Code)} {b : Extent}
    (hb : b ∈ m.blocks as) : m.inst.guest.heapTop.toNat ≤ b.start.toNat := by
  induction as generalizing m with
  | nil => cases hb
  | cons a as ih =>
    have he := Enlarges.acting.act m a hs
    rw [blocks, List.mem_append, Option.mem_toList] at hb
    rcases hb with hb | hb
    · exact (heapTop_of_block? hs hb).1
    · exact Nat.le_trans he.heapTop (ih he.sound hb)

/-- No two blocks of a run share an address. -/
theorem pairwise_blocks (hs : m.inst.Sound) (as : List (Action Code)) :
    (m.blocks as).Pairwise Extent.Apart := by
  induction as generalizing m with
  | nil => exact .nil
  | cons a as ih =>
    have hs' := (Enlarges.acting.act m a hs).sound
    rw [blocks, List.pairwise_append]
    refine ⟨?_, ih hs', fun b hb b' hb' => ?_⟩
    · cases m.block? a with
      | none => exact .nil
      | some b => exact List.pairwise_singleton _ b
    · have htop := (heapTop_of_block? hs (Option.mem_toList.1 hb)).2
      exact Extent.apart_of_le (htop ▸ heapTop_le_of_mem_blocks hs' hb')

/-! ## What a request comes to -/

/-- What a request for `size` bytes comes to in `m`, when memory can be given `maxPages` pages and
the blocks `earlier` were handed out before. It is served exactly when the block fits below the end
of memory or of what memory can be given. The block then begins at the first multiple of eight at or
above the heap's top, lies inside of memory and shares no address with an earlier one. A request
that is refused leaves heap, memory and views as they were. -/
structure Serves (earlier : List Extent) (maxPages : UInt32) (m : Machine Code) (size : UInt32) :
    Prop where
  served_iff : (∃ start, (m.perform (.malloc size)).1 = .ok start) ↔
    (m.inst.guest.heapTop.toNat + 7) / 8 * 8 + size.toNat ≤
      max m.inst.guest.buffer.bytes.size (65536 * maxPages.toNat)
  block : ∀ start m', m.perform (.malloc size) = (.ok start, m') →
    start.toNat = (m.inst.guest.heapTop.toNat + 7) / 8 * 8 ∧ 8 ∣ start.toNat ∧
      16 ≤ start.toNat ∧ m'.inst.guest.heapTop.toNat = start.toNat + size.toNat ∧
      start.toNat + size.toNat ≤ m'.inst.guest.buffer.bytes.size ∧
      ∀ b ∈ earlier, b.Apart ⟨start, size⟩
  refused : ∀ x m', m.perform (.malloc size) = (.error x, m') →
    x = .allocationFailed size ∧ m'.inst.guest.heapTop = m.inst.guest.heapTop ∧
      m'.inst.guest.memory = m.inst.guest.memory ∧ m'.inst.guest.store = m.inst.guest.store ∧
      m'.inst.views = m.inst.views

/-- A sound machine serves a request in this way, when the earlier blocks lie below the heap's
top. -/
theorem serves_of_sound (hs : m.inst.Sound) {earlier : List Extent} (hearlier : ∀ b ∈ earlier,
      b.start.toNat + b.size.toNat ≤ m.inst.guest.heapTop.toNat) (size : UInt32) :
    Serves earlier m.inst.guest.maxPages m size := by
  have hroom_iff : m.inst.guest.HasRoom size ↔
      (m.inst.guest.heapTop.toNat + 7) / 8 * 8 + size.toNat ≤
        max m.inst.guest.buffer.bytes.size (65536 * m.inst.guest.maxPages.toNat) := by
    rw [Guest.HasRoom, Guest.limit, Nat.mul_comm 65536]
  have hrequested := requested_malloc hs size
  rcases hexec : exec (malloc size) m.inst with ⟨r, i'⟩
  have hperform : m.perform (.malloc size) = (r, { m with inst := i' }) := perform_of_exec hexec
  rw [hexec] at hrequested
  cases hrequested with
  | @served start _ hroom hb =>
    refine ⟨?_, ?_, ?_⟩
    · rw [← hroom_iff, hperform]
      exact iff_of_true ⟨start, rfl⟩ hroom
    · intro start' m' h
      rw [hperform] at h
      cases h
      have hpos := hs.guest.heap_pos
      have hfresh := hb.fresh
      refine ⟨hb.start, hb.aligned, Nat.le_trans hpos hfresh, hb.stop, hb.stop ▸ hb.inside, ?_⟩
      intro b hmem
      exact Extent.apart_of_le (Nat.le_trans (hearlier b hmem) hfresh)
    · intro x m' h
      rw [hperform] at h
      cases h
  | refused hroom hagrees =>
    refine ⟨?_, ?_, ?_⟩
    · rw [← hroom_iff, hperform]
      exact iff_of_false (fun ⟨_, h⟩ => nomatch h) hroom
    · intro start m' h
      rw [hperform] at h
      cases h
    · intro x m' h
      rw [hperform] at h
      cases h
      exact ⟨rfl, hagrees.heapTop, hagrees.memory, hagrees.store, hagrees.views⟩

/-- On a guest of at most 65535 pages, in every state that a run reaches, the allocator serves every
request for which there is room, and no two of the blocks that a run is answered with overlap,
however memory grew in between. -/
theorem blocks_apart {pages maxPages : UInt32} (hpages : pages.toNat ≤ 65535)
    (hmax : maxPages.toNat ≤ 65535) (config : Config) (as : List (Action Code)) :
    ((boot (Guest.ofPages Code pages maxPages) config).blocks as).Pairwise Extent.Apart ∧
      ∀ size, Serves ((boot (Guest.ofPages Code pages maxPages) config).blocks as) maxPages
        ((boot (Guest.ofPages Code pages maxPages) config).runs as) size := by
  have hboot : (boot (Guest.ofPages Code pages maxPages) config).inst.Sound :=
    .ofGuest hpages hmax config
  refine ⟨pairwise_blocks hboot as, fun size => ?_⟩
  have hlimit : ((boot (Guest.ofPages Code pages maxPages) config).runs as).inst.guest.maxPages =
      maxPages := (SameLimit.acting.runs _ as).maxPages
  have hserves := serves_of_sound (sound_runs hpages hmax config as)
    (fun b hb => le_heapTop_of_mem_blocks hboot hb) size
  rwa [hlimit] at hserves

/-- On a guest of one page, after a block of five bytes, there is room for a block up to the end of
the page, and for no larger one. -/
theorem blocks_apart_full : ∃ m : Machine Unit,
    (boot (.ofPages Unit 1 1) .standard).runs [.perform (.malloc 5)] = m ∧
      (∃ start, (m.perform (.malloc 65512)).1 = .ok start ∧ start.toNat = 24) ∧
      ¬ ∃ start, (m.perform (.malloc 65513)).1 = .ok start := by
  have hpages : (1 : UInt32).toNat ≤ 65535 := by decide
  have hfirst : Serves [] 1 (boot (.ofPages Unit 1 1) .standard) 5 :=
    (blocks_apart hpages hpages .standard []).2 5
  have hnext (size : UInt32) : Serves
      ((boot (.ofPages Unit 1 1) .standard).blocks [.perform (.malloc 5)]) 1
      ((boot (.ofPages Unit 1 1) .standard).runs [.perform (.malloc 5)]) size :=
    (blocks_apart hpages hpages .standard [.perform (.malloc 5)]).2 size
  have hlimit := (SameLimit.acting.runs (boot (.ofPages Unit 1 1) .standard)
    [.perform (.malloc 5)]).limit
  have hsize : (Guest.ofPages Unit 1 1).buffer.bytes.size = 65536 := Buffer.size_zeroBytes _
  have hfull : (boot (.ofPages Unit 1 1) .standard).inst.guest.limit = 65536 :=
    congrArg (max · 65536) hsize
  obtain ⟨start, hstart⟩ := hfirst.served_iff.2 (Nat.le_trans (by decide) (Nat.le_max_right _ _))
  rcases hperform : (boot (.ofPages Unit 1 1) .standard).perform (.malloc 5) with ⟨r, m⟩
  have hr : r = .ok start := by rwa [hperform] at hstart
  subst hr
  obtain ⟨hat, -, -, htop, -⟩ := hfirst.block start m hperform
  have hruns : (boot (.ofPages Unit 1 1) .standard).runs [.perform (.malloc 5)] = m := by
    rw [runs_cons, runs_nil, act_of_perform hperform]
  have hheap : m.inst.guest.heapTop.toNat = 21 := htop.trans (congrArg (· + 5) hat)
  rw [hruns, hfull] at hlimit
  simp only [hruns] at hnext
  refine ⟨m, hruns, ?_, ?_⟩
  · obtain ⟨start', hstart'⟩ := (hnext 65512).served_iff.2 (by
      rw [hheap]
      exact Nat.le_max_right _ _)
    obtain ⟨hat', -⟩ := (hnext 65512).block start' _ (Prod.ext hstart' rfl)
    exact ⟨start', hstart', by rw [hat', hheap]⟩
  · rw [(hnext 65513).served_iff, hheap]
    have hle : m.inst.guest.buffer.bytes.size ≤ 65536 :=
      Nat.le_trans (Nat.le_max_left _ _) (Nat.le_of_eq hlimit)
    exact Nat.not_le_of_lt (Nat.max_lt.2 ⟨Nat.lt_of_le_of_lt hle (by decide), by decide⟩)

end Machine

end

end Crossing
