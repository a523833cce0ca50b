import Crossing.Proofs.Codec.Lockstep
import Crossing.Proofs.Codec.Slots

/-!
# Growth cannot be seen

A host that follows the rules on its slots sees nothing of how much memory the guest has, nor of
when it grows (`Machine.growth_invisible`): addresses, faults and decoded values are the same, and
so are the heap's top and the bytes below it after each step. Growth may be asked for between any
two steps, and happens inside of them wherever the allocator needs it. Only the fault for a text of
more bytes than a word can count tells the size of memory (`Machine.not_growth_invisible_long`).

Each access keeps two instances twins and is answered alike (`parallel_access`); growth of either
one keeps them twins as well (`Twins.growAll`). `forall₂_watch` puts the steps together to runs.
-/

namespace Crossing

open Effect

section
variable {Code : Type} {s : Slots} {i i' j : Instance Code}

/-! ## Steps of two hosts -/

/-- The access encodes a text of more bytes than a word can count. -/
def Access.Overlong : Access → Prop
  | prepare v | encode _ v => v.Overlong
  | alloc _ | decode _ => False

/-- Every access that is allowed is answered alike on twins, and leaves twins. -/
theorem parallel_access (ht : Twins i j) (h : s.Kept i.guest.heapTop.toNat i)
    (h' : s.Kept j.guest.heapTop.toNat j) {x : Access} (hx : s.Allows x) :
    Parallel x.Overlong i j x.effect x.effect := by
  cases x with
  | alloc size => exact (parallel_alloc ht size).map _
  | prepare v => exact (parallel_prepare ht v).map _
  | encode a v => exact (parallel_encode ht v (h.reaches hx)).map _
  | decode a =>
    refine Parallel.map _ ?_
    obtain ⟨r, hi, hj⟩ := h.agree h' ht hx
    obtain ⟨i', hexec, halike⟩ := hi i (.refl ht.left)
    obtain ⟨j', hexec', halike'⟩ := hj j (.refl ht.right)
    exact .of_exec hexec hexec' (ht.alike halike halike')

/-! ## Runs -/

/-- The bytes below the heap's top. -/
def Instance.heapBytes (i : Instance Code) : List UInt8 :=
  (List.range i.guest.heapTop.toNat).map i.guest.buffer.byteAt

/-- What can be seen of a step: the access and its result, and the heap that it leaves. -/
structure Snapshot where
  access : Access
  result : Except Fault Yield
  heapTop : UInt32
  bytes : List UInt8

/-- The same is seen, except that the fault of a text of more bytes than a word can count tells the
size of memory. -/
structure Snapshot.Same (s s' : Snapshot) : Prop where
  access : s'.access = s.access
  result : SameAnswer s.access.Overlong s.result s'.result
  heapTop : s'.heapTop = s.heapTop
  bytes : s'.bytes = s.bytes

/-- The host follows the rules on its slots at every step. -/
def Slots.AllowsAll : Slots → List Snapshot → Prop
  | _, [] => True
  | s, seen :: rest => s.Allows seen.access ∧ (s.after seen.access seen.result).AllowsAll rest

namespace Machine

/-- Asks for growth some number of times. -/
def growAll (m : Machine Code) (deltas : List UInt32) : Machine Code :=
  deltas.foldl (fun m delta => (m.perform (.grow delta)).2) m

/-- What is seen of a run of accesses, with growth before each of them. -/
def watch (m : Machine Code) : List (List UInt32 × Access) → List Snapshot
  | [] => []
  | (deltas, x) :: rest =>
    let (result, m) := (m.growAll deltas).run x.effect
    ⟨x, result, m.inst.guest.heapTop, m.inst.heapBytes⟩ :: m.watch rest

end Machine

/-- The heap of an instance that has grown has the same bytes. -/
theorem Twins.heapBytes (h : Twins i j) : j.heapBytes = i.heapBytes := by
  unfold Instance.heapBytes
  rw [h.heapTop]
  exact List.map_congr_left fun a _ => h.bytes a

theorem Machine.growAll_cons (m : Machine Code) (delta : UInt32) (deltas : List UInt32) :
    m.growAll (delta :: deltas) = (m.perform (.grow delta)).2.growAll deltas := rfl

/-- Growth changes no byte and keeps the heap's top. -/
theorem grows_growAll {m : Machine Code} (h : m.inst.Sound) (deltas : List UInt32) :
    Grows ∅ m.inst (m.growAll deltas).inst := by
  induction deltas generalizing m with
  | nil => exact .refl h
  | cons delta rest ih =>
    rw [Machine.growAll_cons]
    have hg : Grows ∅ m.inst (m.perform (.grow delta)).2.inst := grows_grow h delta
    exact hg.trans (ih hg.sound)

/-- Growth moves no heap top. -/
@[simp] theorem heapTop_growAll (m : Machine Code) (deltas : List UInt32) :
    (m.growAll deltas).inst.guest.heapTop = m.inst.guest.heapTop := by
  induction deltas generalizing m with
  | nil => rfl
  | cons delta rest ih =>
    rw [Machine.growAll_cons, ih]
    exact heapTop_grow delta m.inst

/-- Growth leaves the tables alone, and their room with them. -/
theorem roomFor_growAll {m : Machine Code} {l : Nat} (h : m.inst.RoomFor l) (deltas : List UInt32) :
    (m.growAll deltas).inst.RoomFor l := by
  induction deltas generalizing m with
  | nil => exact h
  | cons delta rest ih =>
    rw [Machine.growAll_cons]
    have hc : Confined m.inst (m.perform (.grow delta)).2.inst :=
      Confined.allocating.grow delta m.inst
    exact ih ⟨hc.handles ▸ h.handles, hc.raw ▸ h.raw⟩

/-- An instance may grow any number of times and still be told from the other by nothing but the
size of memory. -/
theorem Twins.growAll {m : Machine Code} (h : Twins m.inst j) (deltas : List UInt32) :
    Twins (m.growAll deltas).inst j := by
  induction deltas generalizing m with
  | nil => exact h
  | cons delta rest ih =>
    rw [Machine.growAll_cons]
    exact ih (h.grow delta)

/-- The same slots are known after the same answers. -/
theorem Slots.after_eq {long : Prop} {r r' : Except Fault Yield} (h : SameAnswer long r r')
    (x : Access) : s.after x r' = s.after x r := by
  cases h with
  | same => rfl
  | beyond => cases x <;> rfl

/-- A run is seen access by access, each after the growth before it. -/
theorem Machine.watch_cons {m : Machine Code} {deltas : List UInt32} {x : Access}
    {r : Except Fault Yield} (rest : List (List UInt32 × Access))
    (h : exec x.effect (m.growAll deltas).inst = (r, i')) :
    m.watch ((deltas, x) :: rest) =
      ⟨x, r, i'.guest.heapTop, i'.heapBytes⟩ ::
        ({ m.growAll deltas with inst := i' } : Machine Code).watch rest := by
  rw [watch, run_eq, h]

/-- What is seen of two runs on twins, as long as the host follows the rules and is served. -/
theorem forall₂_watch {m m' : Machine Code} (script script' : List (List UInt32 × Access))
    (hscript : script'.map Prod.snd = script.map Prod.snd) (ht : Twins m.inst m'.inst)
    (h : s.Kept m.inst.guest.heapTop.toNat m.inst)
    (h' : s.Kept m'.inst.guest.heapTop.toNat m'.inst) (hall : s.AllowsAll (m.watch script))
    (hserved : ∀ seen ∈ m.watch script, ¬ Refused seen.result)
    (hserved' : ∀ seen ∈ m'.watch script', ¬ Refused seen.result) :
    List.Forall₂ Snapshot.Same (m.watch script) (m'.watch script') := by
  induction script generalizing m m' s script' with
  | nil =>
    rw [List.map_eq_nil_iff.1 hscript]
    exact .nil
  | cons step rest ih =>
    obtain ⟨deltas, x⟩ := step
    obtain ⟨⟨deltas', x'⟩, rest', rfl, hx, hrest⟩ := List.map_eq_cons_iff.1 hscript
    have ht₁ := ((ht.growAll deltas).symm.growAll deltas').symm
    have hkept := h.grow (grows_growAll h.sound deltas)
    have hkept' := h'.grow (grows_growAll h'.sound deltas')
    obtain rfl : x = x' := hx.symm
    rcases hexec : exec x.effect (m.growAll deltas).inst with ⟨r, i'⟩
    rcases hexec' : exec x.effect (m'.growAll deltas').inst with ⟨r', j'⟩
    rw [Machine.watch_cons rest hexec] at hall hserved ⊢
    rw [Machine.watch_cons rest' hexec'] at hserved' ⊢
    obtain ⟨hallowed, hall⟩ := hall
    have hstep := parallel_access ht₁ hkept hkept' hallowed
    rw [Parallel, hexec, hexec'] at hstep
    rcases hstep with hrefused | hrefused | ⟨hsame, ht₂⟩
    · exact absurd hrefused (hserved _ (.head _))
    · exact absurd hrefused (hserved' _ (.head _))
    · have hnext := hkept'.access hallowed hexec'
      rw [Slots.after_eq hsame] at hnext
      refine .cons ⟨rfl, hsame, ht₂.heapTop, ht₂.heapBytes⟩ ?_
      exact ih rest' hrest ht₂ (hkept.access hallowed hexec) hnext hall
        (fun seen hseen => hserved seen (.tail _ hseen))
        (fun seen hseen => hserved' seen (.tail _ hseen))

/-- Fresh instances on guests with the same heap and the same bytes are twins. -/
theorem Twins.ofGuest {g g' : Guest Code} (hg : g.Sound) (hg' : g'.Sound)
    (htop : g'.heapTop = g.heapTop) (hbytes : ∀ a, g'.buffer.byteAt a = g.buffer.byteAt a)
    (config : Config) : Twins (.ofGuest g config) (.ofGuest g' config) where
  left := .of_guest hg config
  right := .of_guest hg' config
  heapTop := htop
  bytes := hbytes
  config := rfl
  handles := rfl
  raw := rfl

/-- The guest with these functions and this entry point. -/
def Guest.withCode (g : Guest Code) (functions : Array (Option Code)) (entryPoint : Option Code) :
    Guest Code :=
  { g with functions, entryPoint }

/-- The functions of a guest have no say in its memory. -/
theorem Guest.Sound.withCode {g : Guest Code} (h : g.Sound) (functions : Array (Option Code))
    (entryPoint : Option Code) : (g.withCode functions entryPoint).Sound :=
  ⟨h.memory, h.pages, h.maxPages, h.heap_pos, h.heap_le, h.allowance⟩

namespace Machine

/-- How much memory a guest has, and when it grows, cannot be seen. Two hosts make the same accesses
to guests of whatever numbers of pages, each with growth at any points of its run. As long as the
first one encodes into slots that it was given and decodes those that it has filled, and neither
allocator refuses, both see the same: the same addresses, faults and decoded values, the same top of
the heap after each step and the same bytes below it. -/
theorem growth_invisible {pages pages' maxPages maxPages' : UInt32}
    (hpages : pages.toNat ≤ 65535) (hpages' : pages'.toNat ≤ 65535)
    (hmax : maxPages.toNat ≤ 65535) (hmax' : maxPages'.toNat ≤ 65535)
    (functions : Array (Option Code)) (entryPoint : Option Code) (config : Config)
    (script script' : List (List UInt32 × Access))
    (hscript : script'.map Prod.snd = script.map Prod.snd)
    (hall : Slots.AllowsAll {} ((boot ((Guest.ofPages Code pages maxPages).withCode functions
      entryPoint) config).watch script))
    (hserved : ∀ seen ∈ (boot ((Guest.ofPages Code pages maxPages).withCode functions
      entryPoint) config).watch script, ¬ Refused seen.result)
    (hserved' : ∀ seen ∈ (boot ((Guest.ofPages Code pages' maxPages').withCode functions
      entryPoint) config).watch script', ¬ Refused seen.result) :
    List.Forall₂ Snapshot.Same
      ((boot ((Guest.ofPages Code pages maxPages).withCode functions entryPoint) config).watch
        script)
      ((boot ((Guest.ofPages Code pages' maxPages').withCode functions entryPoint) config).watch
        script') := by
  have htop (pages maxPages : UInt32) :
      ((Guest.ofPages Code pages maxPages).withCode functions entryPoint).heapTop = 16 := rfl
  have hzero (pages maxPages : UInt32) (a : Nat) :
      ((Guest.ofPages Code pages maxPages).withCode functions entryPoint).buffer.byteAt a = 0 :=
    Buffer.byteAt_zeros _ a
  have ht := Twins.ofGuest ((Guest.Sound.ofPages Code hpages hmax).withCode functions entryPoint)
    ((Guest.Sound.ofPages Code hpages' hmax').withCode functions entryPoint)
    ((htop pages' maxPages').trans (htop pages maxPages).symm)
    (fun a => (hzero pages' maxPages' a).trans (hzero pages maxPages a).symm) config
  exact forall₂_watch script script' hscript ht (.empty ht.left) (.empty ht.right) hall hserved
    hserved'

/-! ### A text in a slot -/

/-- The first block on the heap. -/
theorem exec_alloc_first (hs : i.Sound) (htop : i.guest.heapTop = 16)
    (hsize : 65536 ≤ i.guest.buffer.bytes.size) :
    ∃ i', exec (Access.alloc 16).effect i = (.ok (.address 16), i') ∧ Grows ∅ i i' ∧
      Spends (7 + (16 : UInt32).toNat) 0 i i' ∧ i'.guest.heapTop = 32 := by
  have hroom : i.guest.heapTop.toNat + (7 + (16 : UInt32).toNat) ≤ i.guest.limit := by
    rw [htop]
    exact Nat.le_trans (by decide) (Nat.le_trans hsize (Nat.le_max_left _ _))
  obtain ⟨a, i', halloc, hspends, hg, hb⟩ :=
    (answers_alloc hs hroom).delivers (ensures_alloc (W := ∅) hs 16)
  obtain rfl : a = 16 := by
    rw [← UInt32.toNat_inj, hb.start, htop]
    rfl
  exact ⟨i', exec_map_eq_iff.2 ⟨_, halloc, rfl⟩, hg, hspends, UInt32.toNat_inj.1 hb.stop⟩

/-- A text is encoded into it. -/
theorem exec_encode_text (hs : i.Sound) (htop : i.guest.heapTop = 32)
    (hsize : 65536 ≤ i.guest.buffer.bytes.size) (hbase : i.config.arenaBase = 0)
    (hloans : i.RoomFor 0) :
    ∃ i', exec (Access.encode 16 (.string "x")).effect i = (.ok .done, i') ∧ i'.Sound ∧
      i'.HoldsText 32 i'.guest.heapTop.toNat 16 "x" ∧ i'.KindAt 16 .string := by
  have hanswers : Answers (7 + "x".toUTF8.size) 0 (Effect.encode 16 (.string "x")) i := by
    refine .get (answers_encodeAt hs (.string "x") (Nat.zero_le _) (by decide) ?_ ?_ ?_ hloans)
    · exact Nat.le_trans (by decide) hsize
    · rw [hs.base, hbase]
      exact Nat.zero_le _
    · rw [htop]
      exact Nat.le_trans (by decide) (Nat.le_trans hsize (Nat.le_max_left _ _))
  obtain ⟨_, i', hencode, -, hg, hstaged⟩ := hanswers.delivers (ensures_encode hs 16 (.string "x"))
  refine ⟨i', exec_map_eq_iff.2 ⟨_, hencode, rfl⟩, hg.sound, ?_⟩
  have hstored : (Value.string "x").stored = .string "x" :=
    Value.stored_of_wellFormed _ fun h => absurd h (by decide)
  rw [htop, hstored] at hstaged
  exact hstaged (by decide)

/-- It is decoded wherever it still stands. -/
theorem exec_decode_text {lo hi : Nat} (hs : i.Sound) (h : i.HoldsText lo hi 16 "x")
    (hkind : i.KindAt 16 .string) :
    ∃ i', exec (Access.decode 16).effect i = (.ok (.value (.string "x")), i') := by
  obtain ⟨i', hdecode, -⟩ := reads_text h hkind i.config.maxDepth i (.refl hs)
  have hexec : exec (Effect.decode 16) i = (.ok (.string "x"), i') := by
    rw [Effect.decode, exec_bind_of_ok (exec_get i), hdecode]
  exact ⟨i', exec_map_eq_iff.2 ⟨_, hexec, rfl⟩⟩

/-- What is seen when a text is put into a slot and taken out again, with growth in between. -/
theorem watch_text {m : Machine Code} (hs : m.inst.Sound) (htop : m.inst.guest.heapTop = 16)
    (hsize : 65536 ≤ m.inst.guest.buffer.bytes.size) (hbase : m.inst.config.arenaBase = 0)
    (hloans : m.inst.RoomFor 0) (d₁ d₂ d₃ : List UInt32) :
    ∃ t₁ t₂ t₃ b₁ b₂ b₃,
      m.watch [(d₁, .alloc 16), (d₂, .encode 16 (.string "x")), (d₃, .decode 16)] =
        [⟨.alloc 16, .ok (.address 16), t₁, b₁⟩, ⟨.encode 16 (.string "x"), .ok .done, t₂, b₂⟩,
          ⟨.decode 16, .ok (.value (.string "x")), t₃, b₃⟩] := by
  have g₁ := grows_growAll hs d₁
  obtain ⟨i₁, hexec₁, hg₁, hspends₁, htop₁⟩ := exec_alloc_first g₁.sound
    (by rw [heapTop_growAll, htop]) (Nat.le_trans hsize g₁.size)
  have hwatch₁ := watch_cons [(d₂, .encode 16 (.string "x")), (d₃, .decode 16)] hexec₁
  have hsize₁ := Nat.le_trans hsize (Nat.le_trans g₁.size hg₁.size)
  have hbase₁ : i₁.config.arenaBase = 0 := by rw [hg₁.config, g₁.config, hbase]
  have hloans₁ : i₁.RoomFor 0 := hspends₁.roomFor 0 (roomFor_growAll hloans d₁)
  generalize hm₁ : ({ m.growAll d₁ with inst := i₁ } : Machine Code) = m₁ at hwatch₁
  obtain rfl : m₁.inst = i₁ := by rw [← hm₁]
  have g₂ := grows_growAll hg₁.sound d₂
  obtain ⟨i₂, hexec₂, hs₂, htext, hkind⟩ := exec_encode_text g₂.sound
    (by rw [heapTop_growAll, htop₁]) (Nat.le_trans hsize₁ g₂.size) (by rw [g₂.config, hbase₁])
    (roomFor_growAll hloans₁ d₂)
  have hwatch₂ := watch_cons [(d₃, .decode 16)] hexec₂
  generalize hm₂ : ({ m₁.growAll d₂ with inst := i₂ } : Machine Code) = m₂ at hwatch₂
  obtain rfl : m₂.inst = i₂ := by rw [← hm₂]
  have g₃ := grows_growAll hs₂ d₃
  obtain ⟨i₃, hexec₃⟩ := exec_decode_text g₃.sound (htext.mono g₃ .empty .empty)
    (hkind.mono g₃ .empty)
  have hwatch₃ := watch_cons [] hexec₃
  exact ⟨_, _, _, _, _, _, by rw [hwatch₁, hwatch₂, hwatch₃]; rfl⟩

/-- One host puts a text into a slot and takes it out again, the other one does the same on a guest
with two pages that grows at other times. -/
theorem growth_invisible_text :
    ∃ seen seen' : List Snapshot,
      seen = (boot ((Guest.ofPages Unit 1 65535).withCode #[none] none) .standard).watch
        [([], .alloc 16), ([3], .encode 16 (.string "x")), ([], .decode 16)] ∧
      seen' = (boot ((Guest.ofPages Unit 2 16).withCode #[none] none) .standard).watch
        [([2], .alloc 16), ([], .encode 16 (.string "x")), ([1, 1], .decode 16)] ∧
      Slots.AllowsAll {} seen ∧ (∀ s ∈ seen, ¬ Refused s.result) ∧
      (∀ s ∈ seen', ¬ Refused s.result) ∧ List.Forall₂ Snapshot.Same seen seen' := by
  have hwatch (pages maxPages : UInt32) (hpos : 1 ≤ pages.toNat) (hpages : pages.toNat ≤ 65535)
      (hmax : maxPages.toNat ≤ 65535) (d₁ d₂ d₃ : List UInt32) :=
    watch_text (m := boot ((Guest.ofPages Unit pages maxPages).withCode #[none] none) .standard)
      (.of_guest ((Guest.Sound.ofPages Unit hpages hmax).withCode _ _) _) rfl
      (Nat.le_trans (Nat.mul_le_mul_right 65536 hpos) (Nat.le_of_eq (Buffer.size_zeroBytes _).symm))
      rfl (.ofGuest _ _ (by decide)) d₁ d₂ d₃
  have hserved {t₁ t₂ t₃ : UInt32} {b₁ b₂ b₃ : List UInt8} :
      ∀ s ∈ [(⟨.alloc 16, .ok (.address 16), t₁, b₁⟩ : Snapshot),
        ⟨.encode 16 (.string "x"), .ok .done, t₂, b₂⟩,
        ⟨.decode 16, .ok (.value (.string "x")), t₃, b₃⟩], ¬ Refused s.result := by
    rintro s hs ⟨size, -, hrefused⟩
    simp only [List.mem_cons, List.not_mem_nil, or_false] at hs
    rcases hs with rfl | rfl | rfl <;> cases hrefused
  obtain ⟨t₁, t₂, t₃, b₁, b₂, b₃, hseen⟩ :=
    hwatch 1 65535 (by decide) (by decide) (by decide) [] [3] []
  obtain ⟨t₁', t₂', t₃', b₁', b₂', b₃', hseen'⟩ :=
    hwatch 2 16 (by decide) (by decide) (by decide) [2] [] [1, 1]
  have hsame := growth_invisible (by decide : (1 : UInt32).toNat ≤ 65535)
    (by decide : (2 : UInt32).toNat ≤ 65535) (by decide : (65535 : UInt32).toNat ≤ 65535)
    (by decide : (16 : UInt32).toNat ≤ 65535) (#[none] : Array (Option Unit)) none .standard
    [([], .alloc 16), ([3], .encode 16 (.string "x")), ([], .decode 16)]
    [([2], .alloc 16), ([], .encode 16 (.string "x")), ([1, 1], .decode 16)] rfl
  refine ⟨_, _, rfl, rfl, ?_⟩
  -- Only the observed lists are looked at from here on, and not the runs.
  rw [hseen, hseen'] at hsame ⊢
  have hall : Slots.AllowsAll {} [⟨.alloc 16, .ok (.address 16), t₁, b₁⟩,
      ⟨.encode 16 (.string "x"), .ok .done, t₂, b₂⟩,
      ⟨.decode 16, .ok (.value (.string "x")), t₃, b₃⟩] :=
    ⟨trivial, .head _, .head _, trivial⟩
  exact ⟨hall, hserved, hserved, hsame hall hserved hserved⟩

/-- What is seen when a text of 2³² + 16 letters is prepared on a fresh heap: its bytes do not fit
into memory, and the fault tells its size. -/
theorem watch_long {m : Machine Code} (hs : m.inst.Sound) (htop : m.inst.guest.heapTop = 16)
    (hsize : 65536 ≤ m.inst.guest.buffer.bytes.size) :
    ∃ top bytes, m.watch [([], .prepare (.string (letters (UInt32.size + 16))))] =
      [⟨.prepare (.string (letters (UInt32.size + 16))),
        .error (.outOfBounds 32 16 m.inst.guest.buffer.length), top, bytes⟩] := by
  have hlength := size_letters (UInt32.size + 16)
  have hunstorable := not_storableText_letters
  generalize letters (UInt32.size + 16) = t at *
  have hword : t.toUTF8.size.toUInt32 = 16 := by rw [hlength]; decide
  obtain ⟨i', hprepare⟩ := exec_prepare_tooLong hs htop hunstorable
    (by rw [hword]; exact Nat.le_trans (by decide) hsize)
  rw [hword] at hprepare
  have hexec : exec (Access.prepare (.string t)).effect m.inst =
      (.error (.outOfBounds 32 16 m.inst.guest.buffer.length), i') :=
    exec_map_eq_iff.2 ⟨_, hprepare, rfl⟩
  exact ⟨_, _, watch_cons [] hexec⟩

/-- Two hosts prepare a text of 2³² + 16 letters, one on a guest of one page and one on a guest of
two. No allocation fails, and the faults that they see differ. -/
theorem not_growth_invisible_long : ∃ seen seen' : List Snapshot,
    seen = (boot ((Guest.ofPages Unit 1 16).withCode #[none] none) .standard).watch
        [([], .prepare (.string (letters (UInt32.size + 16))))] ∧
      seen' = (boot ((Guest.ofPages Unit 2 16).withCode #[none] none) .standard).watch
        [([], .prepare (.string (letters (UInt32.size + 16))))] ∧
      Slots.AllowsAll {} seen ∧ (∀ s ∈ seen, ∀ size, s.result ≠ .error (.allocationFailed size)) ∧
      (∀ s ∈ seen', ∀ size, s.result ≠ .error (.allocationFailed size)) ∧
      seen.map Snapshot.result = [.error (.outOfBounds 32 16 65536)] ∧
      seen'.map Snapshot.result = [.error (.outOfBounds 32 16 131072)] := by
  have hsound (pages : UInt32) (hpages : pages.toNat ≤ 65535) :
      (boot ((Guest.ofPages Unit pages 16).withCode #[none] none) .standard).inst.Sound :=
    .of_guest ((Guest.Sound.ofPages Unit hpages (by decide)).withCode _ _) _
  have hsize (pages : UInt32) :
      (boot ((Guest.ofPages Unit pages 16).withCode #[none] none)
        .standard).inst.guest.buffer.bytes.size = pages.toNat * 65536 := Buffer.size_zeroBytes _
  have hbuffer (pages length : UInt32) (hpages : pages.toNat ≤ 65535)
      (h : pages.toNat * 65536 = length.toNat) :
      (boot ((Guest.ofPages Unit pages 16).withCode #[none] none)
        .standard).inst.guest.buffer.length = length :=
    UInt32.toNat_inj.1 (((hsound pages hpages).guest.toNat_length.trans (hsize pages)).trans h)
  obtain ⟨top, bytes, hseen⟩ := watch_long (hsound 1 (by decide)) rfl (by rw [hsize]; decide)
  obtain ⟨top', bytes', hseen'⟩ := watch_long (hsound 2 (by decide)) rfl (by rw [hsize]; decide)
  rw [hbuffer 1 65536 (by decide) rfl] at hseen
  rw [hbuffer 2 131072 (by decide) rfl] at hseen'
  refine ⟨_, _, rfl, rfl, ?_⟩
  rw [hseen, hseen']
  refine ⟨⟨trivial, trivial⟩, ?_, ?_, rfl, rfl⟩ <;>
  · intro s hs size hrefused
    rw [List.mem_singleton.1 hs] at hrefused
    cases hrefused

end Machine

end

end Crossing
