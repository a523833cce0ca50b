import Crossing.Proofs.Codec.Layout
import Crossing.Proofs.Instance.Accesses
import Crossing.Proofs.Number.Exact

/-!
# The two forms of a number

A number is written into a slot as a 32-bit integer when its exact value is one, and as the double
that it is otherwise (`Machine.number_crosses`); what is read back differs from it only where the
number is a negative zero. Nothing is assumed of the pages of the guest: in a current instance the
views cover guest memory, and an element at an aligned address inside of it can be written.
-/

namespace Crossing

open Effect

namespace Double

/-- What comes back of a number `x` that was written into a slot. -/
structure ComesBack (x y : Double) : Prop where
  same : x.isNaN = false → x ≠ negativeZero → y = x
  zero : x = negativeZero → y = Double.zero
  nan : x.isNaN = true → y.isNaN = true

variable {x : Double}

/-- An integer comes back out of 32 bits, and a negative zero without its sign. -/
theorem comesBack_ofInt32 (h : x.isInt32 = true) : ComesBack x (ofInt32 x.toInt32) where
  same _ hx := ofInt32_toInt32 h hx
  zero hx := by
    subst hx
    rfl
  nan hx := absurd ((isInt32_iff x).1 h).1 fun hfinite => by
    rw [isNaN_of_isFinite hfinite] at hx
    cases hx

/-- What is no integer comes back as it is. -/
theorem comesBack_self (h : ¬ x.isInt32 = true) : ComesBack x x where
  same _ _ := rfl
  zero hx := absurd (by subst hx; rfl) h
  nan hx := hx

end Double

section
variable {Code : Type} {i i' : Instance Code} {k : ElementKind} {x : k.Carrier}
  {address : UInt32}

/-! ## Elements in a current instance -/

namespace Instance.Current

/-- A current instance is like itself. -/
theorem alike (h : i.Current) : Alike i i := ⟨⟨_, _, rfl⟩, fun v hv => (h.published v hv).1⟩

/-- Asking for the views keeps an instance current and its guest as it was. -/
theorem exec_inUse (h : i.Current) : ∃ v i', exec Effect.views i = (.ok v, i') ∧ i'.Current ∧
    i'.guest = i.guest ∧ v.buffer = i.guest.memory := by
  obtain ⟨v, i', hviews, hguest, hv, -⟩ := h.exec_views
  have hkept : (exec Effect.views i).2.Current := viewing.acting.views i h
  rw [hviews] at hkept
  exact ⟨v, i', hviews, hkept, hguest, by rw [hv, hguest]⟩

/-- An element at an aligned address inside of guest memory is written there. -/
theorem exec_store (h : i.Current) {v : Views} (hv : v.buffer = i.guest.memory)
    (address : UInt32) (x : k.Carrier) (hal : k.size.toNat ∣ address.toNat)
    (hin : address.toNat + k.size.toNat ≤ i.guest.buffer.bytes.size) :
    ∃ i', exec (store v.buffer k address x) i = (.ok (), i') ∧ i'.Current ∧
      i'.guest.buffer = i.guest.buffer.blit address (k.encode x) := by
  have hin' : address.toNat + (k.encode x).size ≤
      (i.guest.store.buffer i.guest.memory).bytes.size := by rwa [k.size_encode]
  refine ⟨i.written i.guest.memory address (k.encode x), ?_, h.written hin',
    buffer_written (by rw [← h.newest]; exact Nat.lt_succ_self _) _ _⟩
  rw [hv, exec_store_of_dvd hal, exec_write, Buffer.check_eq_ok_iff.2 hin']

/-- The kind of a slot inside of guest memory is written behind its words. -/
theorem exec_writeKind (h : i.Current) (address : UInt32) (kind : SlotKind)
    (hin : address.toNat + 13 ≤ i.guest.buffer.bytes.size)
    (hword : address.toNat + 12 < UInt32.size) :
    ∃ a i', a.toNat = address.toNat + 12 ∧ exec (writeKind address kind) i = (.ok (), i') ∧
      i'.Current ∧ i'.guest.buffer = i.guest.buffer.blit a (ElementKind.u8.encode kind.tag) := by
  have hsize : ElementKind.u8.size.toNat = 1 := rfl
  obtain ⟨a, hpart, ha⟩ := Slot.exists_tagAddress? address hword
  obtain ⟨v, i₁, hviews, h₁, hguest, hv⟩ := h.exec_inUse
  obtain ⟨i', hstore, h', hbuffer⟩ := h₁.exec_store (k := .u8) (by rw [hv, hguest])
    a kind.tag (by rw [hsize]; exact one_dvd _) (by rw [hsize, ha, hguest]; exact hin)
  refine ⟨a, i', ha, ?_, h', by rw [hbuffer, hguest]⟩
  have hslot : exec (slotPart v address (some a)) i₁ = (.ok a, i₁) := rfl
  rw [writeKind, exec_bind_of_ok hviews, hpart, exec_bind_of_ok hslot, setElement_u8, hstore]

end Instance.Current

/-! ## Slots of numbers -/

/-- A slot at an aligned address, inside of guest memory and of the address space. -/
structure Instance.HasSlot (i : Instance Code) (address : UInt32) : Prop where
  aligned : 8 ∣ address.toNat
  inside : address.toNat + 16 ≤ i.guest.buffer.bytes.size
  word : address.toNat + 16 ≤ UInt32.size

/-- The element and its kind stand in the slot at `address`. -/
structure Instance.ShowsSlot (i : Instance Code) (address : UInt32) (kind : SlotKind)
    (k : ElementKind) (x : k.Carrier) : Prop where
  current : i.Current
  kind : i.ShowsKind address.toNat kind
  element : i.guest.buffer.Shows k address.toNat x

namespace Instance

/-- An element of up to eight bytes is written into a slot, and its kind behind it. -/
theorem Current.exec_fill (h : i.Current) (hslot : i.HasSlot address) (kind : SlotKind)
    (hk : k.size.toNat ∣ 8) :
    ∃ i', exec (do
        store (← Effect.views).buffer k address x
        writeKind address kind) i = (.ok (), i') ∧ i'.ShowsSlot address kind k x := by
  obtain ⟨hal, hin, hword⟩ := hslot
  have hsize : ElementKind.u8.size.toNat = 1 := rfl
  have hle : k.size.toNat ≤ 8 := Nat.le_of_dvd (by decide) hk
  obtain ⟨v, i₁, hviews, h₁, hguest, hv⟩ := h.exec_inUse
  obtain ⟨i₂, hstore, h₂, hbuffer⟩ := h₁.exec_store (by rw [hv, hguest]) address x
    (hk.trans hal) (by rw [hguest]; omega)
  have hsize₂ : i₂.guest.buffer.bytes.size = i.guest.buffer.bytes.size := by
    rw [hbuffer, hguest, Buffer.size_blit (by rw [k.size_encode]; omega)]
  obtain ⟨a, i', ha, hkind, h', hbuffer'⟩ :=
    h₂.exec_writeKind address kind (by omega) (by omega)
  refine ⟨i', ?_, h', ?_, ?_⟩
  · rw [exec_bind_of_ok hviews, exec_bind_of_ok hstore, hkind]
  · rw [ShowsKind, hbuffer', ← ha]
    exact Buffer.shows_blit (by rw [hsize]; exact one_dvd _) (by omega)
  · rw [hbuffer']
    refine Buffer.Shows.blit ?_ (by rw [ElementKind.size_encode]; omega) (by omega)
    rw [hbuffer]
    exact Buffer.shows_blit (hk.trans hal) (by rw [hguest]; omega)

/-- A number is written as a 32-bit integer where it is one, as a double otherwise. -/
theorem Current.exec_number (h : i.Current) (hslot : i.HasSlot address) (x : Double) :
    ∃ i', exec (encode address (.number x)) i = (.ok (), i') ∧
      (x.isInt32 = true ∧ i'.ShowsSlot address .int32 .i32 x.toInt32 ∨
        ¬ x.isInt32 = true ∧ i'.ShowsSlot address .float64 .f64 x) := by
  have hlog := h.log (e := .encoding (Value.number x).typeName address) rfl rfl
  have hslot' : (i.log (.encoding (Value.number x).typeName address)).HasSlot address :=
    ⟨hslot.aligned, hslot.inside, hslot.word⟩
  have hencode : exec (encode address (.number x)) i =
      exec (encodeNumber address x) (i.log (.encoding (Value.number x).typeName address)) := by
    unfold encode encodeAt
    rfl
  rw [hencode, encodeNumber]
  split
  · next hx =>
    obtain ⟨i', hexec, hshows⟩ :=
      hlog.exec_fill (k := .i32) (x := x.toInt32) hslot' .int32 (by decide)
    exact ⟨i', hexec, .inl ⟨hx, hshows⟩⟩
  · next hx =>
    obtain ⟨i', hexec, hshows⟩ :=
      hlog.exec_fill (k := .f64) (x := x) hslot' .float64 (by decide)
    exact ⟨i', hexec, .inr ⟨hx, hshows⟩⟩

/-! ## Reading a number -/

/-- An element whose position is a word is held there. -/
theorem holds_of_shows {p : Nat} (h : i.guest.buffer.Shows k p x) (hp : p < UInt32.size) :
    i.Holds k p x := by
  obtain ⟨a, rfl⟩ : ∃ a : UInt32, a.toNat = p := ⟨_, UInt32.toNat_ofNat_of_lt' hp⟩
  exact ⟨a, rfl, Buffer.load_eq_ok_iff_shows.2 h⟩

namespace ShowsSlot

/-- No other kind stands in the slot. -/
theorem kind_iff {kind kind' : SlotKind} (h : i.ShowsSlot address kind k x) :
    i.ShowsKind address.toNat kind' ↔ kind' = kind :=
  ⟨fun h' => h'.unique h.kind, fun heq => heq ▸ h.kind⟩

/-- The kind that stands in a slot is read from it. -/
theorem reads_kind {kind : SlotKind} (h : i.ShowsSlot address kind k x)
    (hword : address.toNat + 16 ≤ UInt32.size) : i.KindAt address kind :=
  holds_of_shows h.kind (by omega)

/-- An integer that stands in a slot is decoded. -/
theorem reads_int32 {n : Int32} (h : i.ShowsSlot address .int32 .i32 n)
    (hword : address.toNat + 16 ≤ UInt32.size) :
    Reads i (decode address) (.number (.ofInt32 n)) := by
  refine .get fun i' _ => ?_
  unfold decodeAt
  exact .kind (h.reads_kind hword) (.views fun v hv =>
    (Reads.load hv (holds_of_shows h.element address.toNat_lt)).bind (.pure _))

/-- A double that stands in a slot is decoded. -/
theorem reads_float64 {y : Double} (h : i.ShowsSlot address .float64 .f64 y)
    (hword : address.toNat + 16 ≤ UInt32.size) : Reads i (decode address) (.number y) := by
  refine .get fun i' _ => ?_
  unfold decodeAt
  exact .kind (h.reads_kind hword) (.views fun v hv =>
    (Reads.load hv (holds_of_shows h.element address.toNat_lt)).bind (.pure _))

end ShowsSlot

end Instance

/-- Any number that is written into an aligned slot inside of guest memory, in any state of a run,
stands there as a 32-bit integer when it is finite and its exact value is an integer in their range,
as it is for both zeros, and as a double otherwise. Decoding the slot gives the same number, but for
the sign of a negative zero; of a NaN it gives a NaN. -/
theorem Machine.number_crosses (pages maxPages : UInt32) (config : Config)
    (as : List (Action Code)) (address : UInt32)
    (hslot : ((boot (Guest.ofPages Code pages maxPages) config).runs as).inst.HasSlot address)
    (x : Double) :
    ∃ m y, ((boot (Guest.ofPages Code pages maxPages) config).runs as).perform
        (.encode address (.number x)) = (.ok (), m) ∧
      (m.inst.ShowsKind address.toNat .int32 ↔ x.FitsInt32) ∧
      (m.inst.ShowsKind address.toNat .float64 ↔ ¬ x.FitsInt32) ∧
      (x.isZero = true → x.FitsInt32) ∧
      (m.perform (.decode address)).1 = .ok (.number y) ∧ x.ComesBack y := by
  have hcurrent : ((boot (Guest.ofPages Code pages maxPages) config).runs as).inst.Current :=
    Instance.Current.viewing.acting.runs _ as (.ofGuest pages maxPages config)
  generalize (boot (Guest.ofPages Code pages maxPages) config).runs as = m at hslot hcurrent
  have hdecode {i : Instance Code} {y : Double} (hi : i.Current)
      (h : Reads i (decode address) (.number y)) :
      (perform { m with inst := i } (.decode address)).1 = .ok (.number y) := by
    obtain ⟨i', hexec, -⟩ := h i hi.alike
    exact congrArg Prod.fst hexec
  have hint := x.isInt32_iff
  obtain ⟨i', hexec, ⟨hx, hshows⟩ | ⟨hx, hshows⟩⟩ := hcurrent.exec_number hslot x
  · refine ⟨_, .ofInt32 x.toInt32, perform_of_exec hexec, ?_, ?_, .of_isZero,
      hdecode hshows.current (hshows.reads_int32 hslot.word), Double.comesBack_ofInt32 hx⟩
    · simp [hshows.kind_iff, ← hint, hx]
    · simp [hshows.kind_iff, ← hint, hx]
  · refine ⟨_, x, perform_of_exec hexec, ?_, ?_, .of_isZero,
      hdecode hshows.current (hshows.reads_float64 hslot.word), Double.comesBack_self hx⟩
    · simp [hshows.kind_iff, ← hint, hx]
    · simp [hshows.kind_iff, ← hint, hx]

/-- The first integer above the range crosses as a double, although clamping brings it back into the
range. -/
theorem Machine.number_crosses_above :
    ((boot (Guest.ofPages Unit 1 1) .standard).runs []).inst.HasSlot 16 ∧
      ∃ m, ((boot (Guest.ofPages Unit 1 1) .standard).runs []).perform
          (.encode 16 (.number ⟨0x41E0000000000000⟩)) = (.ok (), m) ∧
        m.inst.ShowsKind 16 .float64 ∧
        (m.perform (.decode 16)).1 = .ok (.number ⟨0x41E0000000000000⟩) := by
  have hsize : ((boot (Guest.ofPages Unit 1 1) .standard).runs []).inst.guest.buffer.bytes.size =
      65536 := Buffer.size_zeroBytes 65536
  have hslot : ((boot (Guest.ofPages Unit 1 1) .standard).runs []).inst.HasSlot 16 :=
    ⟨by decide, by rw [hsize]; decide, by decide⟩
  obtain ⟨m, y, hencode, -, hkind, -, hdecode, hback⟩ :=
    number_crosses 1 1 .standard [] 16 hslot ⟨0x41E0000000000000⟩
  obtain rfl := hback.same (by decide) (by decide)
  rw [← Double.isInt32_iff] at hkind
  exact ⟨hslot, m, hencode, hkind.2 (by decide), hdecode⟩

end

end Crossing
