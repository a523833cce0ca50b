import Crossing.Proofs.Codec.Acceptance
import Crossing.Proofs.Instance.Accesses

/-!
# Offsets that lead astray

An offset that leads above the address space resolves to the last address, where no table is
accepted in a memory of at most 65535 pages, however short it is. So a slot with such an offset
faults when it is decoded, and no other slot is looked at on the way (`Machine.decode_astray`).

The instance in which views have been asked for (`Instance.looked`) is left as it is by reads, so
decoding is followed step by step.
-/

namespace Crossing

open Effect

/-! ## Tables at the last address -/

namespace Buffer

variable {b : Buffer} {base count stride : UInt32}

/-- A table that is refused is out of bounds. -/
theorem checkTable_cases (b : Buffer) (base count stride : UInt32) :
    b.checkTable base count stride = .ok () ∨ b.checkTable base count stride =
      .error (.outOfBounds base (Word.mulSat count stride) b.length) := by
  unfold checkTable
  dsimp only
  split
  · split
    · exact .inl rfl
    · exact .inr rfl
  · exact .inr rfl

/-- No table begins at the last address, whatever its length, unless that address is the length of
the buffer. -/
theorem checkTable_max (h : b.bytes.size ≤ 65535 * 65536) :
    b.checkTable Word.max count stride =
      .error (.outOfBounds Word.max (Word.mulSat count stride) b.length) := by
  refine (b.checkTable_cases Word.max count stride).resolve_left fun hok => ?_
  rw [checkTable_eq_ok_iff (Nat.lt_of_le_of_lt h (by decide))] at hok
  have hmax : Word.max.toNat = 4294967295 := rfl
  omega

end Buffer

section
variable {Code α β : Type} {i : Instance Code} {address : UInt32} {p : Nat}

/-! ## Reading when views are there -/

/-- The instance when its views have been asked for. -/
def Instance.looked (i : Instance Code) : Instance Code := (exec Effect.views i).2

/-- Views are published, and they cover guest memory. -/
structure Instance.Open (i : Instance Code) (v : Views) : Prop where
  views : i.views = some v
  memory : v.buffer = i.guest.memory

namespace Instance

/-- Asking for the views publishes them where there were none, and changes nothing else. -/
theorem Settled.exec_views (h : i.Settled) : ∃ v, exec Effect.views i = (.ok v, i.looked) ∧
    i.looked.Open v ∧ i.looked.guest = i.guest ∧ i.looked.arena = i.arena := by
  unfold looked
  cases hv : i.views with
  | some v =>
    rw [exec_views_of_some hv]
    exact ⟨v, rfl, ⟨hv, h.views v hv⟩, rfl, rfl⟩
  | none =>
    rw [exec_views_of_none hv, exec_publish]
    exact ⟨_, rfl, ⟨rfl, rfl⟩, rfl, rfl⟩

namespace Open

variable {v : Views}

/-- An event changes neither views nor memory. -/
theorem log (h : i.Open v) (e : Event) : (i.log e).Open v := ⟨h.views, h.memory⟩

/-- An effect that begins by asking for the views. -/
theorem exec_views (h : i.Open v) (f : Views → Effect Code β) :
    exec (Effect.views >>= f) i = exec (f v) i :=
  exec_bind_of_ok (exec_views_of_some h.views)

/-- A word of a slot is read from its position. -/
theorem exec_readWord (h : i.Open v) (index : UInt32) {x : UInt32}
    (hx : i.guest.buffer.Shows .u32 p x) (hp : p = address.toNat + 4 * index.toNat)
    (hword : p < UInt32.size) :
    exec (readWord address index) i = (.ok x, i) := by
  subst hp
  obtain ⟨a, ha, hplace⟩ := Slot.exists_word? address index hword
  rw [← hplace, ← Buffer.load_eq_ok_iff_shows] at hx
  have hpart : exec (slotPart v address (some a)) i = (.ok a, i) := rfl
  rw [readWord, h.exec_views, ha, exec_bind_of_ok hpart, exec_load, h.memory]
  exact Prod.ext hx rfl

/-- The address of a table is what its offset resolves to. -/
theorem exec_tableAt (h : i.Open v) (index : UInt32) {offset : UInt32}
    (hoffset : i.guest.buffer.Shows .u32 p offset) (hp : p = address.toNat + 4 * index.toNat)
    (hword : p < UInt32.size) :
    exec (tableAt address index) i = (.ok (i.arena.resolve offset), i) := by
  rw [tableAt, exec_bind_of_ok (h.exec_readWord index hoffset hp hword)]
  rfl

/-- A table is checked against memory as it is, and nothing else happens. -/
theorem exec_checkTable (h : i.Open v) (base count stride : UInt32) :
    exec (checkTable base count stride) i =
      (i.guest.buffer.checkTable base count stride, i) := by
  have hbuffer : exec (buffer v.buffer) i = (.ok (i.guest.store.buffer v.buffer), i) := rfl
  rw [checkTable, h.exec_views, exec_bind_of_ok hbuffer, exec_liftExcept, h.memory]
  rfl

end Open

/-- The kind that stands in a slot is read, and the journal tells of it. -/
theorem Settled.exec_kind (h : i.Settled) {kind : SlotKind} (hkind : i.ShowsKind address.toNat kind)
    (hword : address.toNat + 12 < UInt32.size) (f : SlotKind → Effect Code β) :
    exec (do
        let kind ← kindAt address
        record (.decoding kind address)
        f kind) i = exec (f kind) (i.looked.log (.decoding kind address)) := by
  obtain ⟨v, hviews, hopen, hguest, -⟩ := h.exec_views
  obtain ⟨a, ha, hplace⟩ := Slot.exists_tagAddress? address hword
  have hpart : exec (slotPart v address (some a)) i.looked = (.ok a, i.looked) := rfl
  have htag : exec (getElement v.buffer .u8 a) i.looked = (.ok kind.tag, i.looked) := by
    rw [ShowsKind, ← hplace, ← Buffer.load_eq_ok_iff_shows, Buffer.load_u8, ← hguest] at hkind
    rw [exec_getElement, hopen.memory]
    exact Prod.ext hkind rfl
  have hread : exec (kindAt address) i = (.ok kind, i.looked) := by
    rw [kindAt, exec_bind_of_ok hviews, ha, exec_bind_of_ok hpart, exec_bind_of_ok htag,
      exec_liftExcept, SlotKind.ofTag_tag]
  rw [exec_bind_of_ok hread]
  rfl

/-! ## Slots that lead astray -/

/-- A word can be read at position `p`. -/
def Readable (i : Instance Code) (p : Nat) : Prop := ∃ x, i.guest.buffer.Shows .u32 p x

/-- The word at position `p` is an offset that leads above the address space. -/
def LeadsAbove (i : Instance Code) (p : Nat) : Prop :=
  ∃ offset : UInt32, i.guest.buffer.Shows .u32 p offset ∧
    UInt32.size ≤ i.arena.base.toNat + offset.toNat

/-- An array or an object stands in the slot at position `p`, its words can be read, and one of its
offsets leads above the address space. -/
inductive Astray (i : Instance Code) (p : Nat) : SlotKind → Prop
  | array : i.ShowsKind p .array → i.LeadsAbove p → i.Readable (p + 4) → Astray i p .array
  | object : i.ShowsKind p .object → i.Readable p → i.Readable (p + 4) → i.Readable (p + 8) →
      i.LeadsAbove p ∨ i.LeadsAbove (p + 8) → Astray i p .object

/-- An offset that leads above the address space resolves to the last address. -/
theorem LeadsAbove.resolve (h : i.LeadsAbove p) {offset : UInt32}
    (hoffset : i.guest.buffer.Shows .u32 p offset) : i.arena.resolve offset = Word.max := by
  obtain ⟨offset', hoffset', hle⟩ := h
  rw [hoffset.unique hoffset']
  exact Arena.resolve_of_size_le hle

namespace Open

variable {v : Views} (h : i.Open v) (hsize : i.guest.buffer.bytes.size ≤ 65535 * 65536)
  (hword : address.toNat + 12 < UInt32.size) (item : UInt32 → Effect Code Value)
include h hsize hword

/-- An array whose offset leads above the address space is refused before its items are read. -/
theorem exec_decodeArray (habove : i.LeadsAbove address.toNat)
    (hcount : i.Readable (address.toNat + 4)) :
    ∃ table n, exec (decodeArray item address) i =
      (.error (.outOfBounds table n i.guest.buffer.length), i) := by
  obtain ⟨count, hcount⟩ := hcount
  obtain ⟨offset, hoffset, -⟩ := id habove
  refine ⟨Word.max, Word.mulSat count Slot.size, ?_⟩
  rw [decodeArray, exec_bind_of_ok (h.exec_tableAt 0 hoffset rfl (by omega)),
    exec_bind_of_ok (h.exec_readWord 1 hcount rfl (by omega)), habove.resolve hoffset]
  refine exec_bind_of_error ((h.exec_checkTable _ _ _).trans ?_)
  rw [Buffer.checkTable_max hsize]

/-- An object with such an offset is refused before its properties are read. Its values are checked
first, and may be out of bounds by themselves when it is the offset of the keys. -/
theorem exec_decodeObject (hvalues : i.Readable address.toNat)
    (hcount : i.Readable (address.toNat + 4)) (hkeys : i.Readable (address.toNat + 8))
    (habove : i.LeadsAbove address.toNat ∨ i.LeadsAbove (address.toNat + 8)) :
    ∃ table n, exec (decodeObject item address) i =
      (.error (.outOfBounds table n i.guest.buffer.length), i) := by
  obtain ⟨values, hvalues⟩ := hvalues
  obtain ⟨count, hcount⟩ := hcount
  obtain ⟨keys, hkeys⟩ := hkeys
  have hcheck := h.exec_checkTable (i.arena.resolve values) count Slot.size
  rw [decodeObject, exec_bind_of_ok (h.exec_tableAt 0 hvalues rfl (by omega)),
    exec_bind_of_ok (h.exec_readWord 1 hcount rfl (by omega)),
    exec_bind_of_ok (h.exec_tableAt 2 hkeys rfl (by omega))]
  rcases i.guest.buffer.checkTable_cases (i.arena.resolve values) count Slot.size with hok | herr
  · rw [hok] at hcheck
    obtain habove | habove := habove
    · rw [habove.resolve hvalues, Buffer.checkTable_max hsize] at hok
      cases hok
    · refine ⟨Word.max, Word.mulSat count Slot.keySize, ?_⟩
      rw [exec_bind_of_ok hcheck, habove.resolve hkeys]
      refine exec_bind_of_error ((h.exec_checkTable _ _ _).trans ?_)
      rw [Buffer.checkTable_max hsize]
  · rw [herr] at hcheck
    exact ⟨_, _, exec_bind_of_error hcheck⟩

end Open

namespace Astray

variable {kind : SlotKind}

/-- A slot that leads astray is that of an array or an object. -/
theorem shows (h : i.Astray p kind) : i.ShowsKind p kind := by
  cases h <;> assumption

/-- What a slot leads to depends on memory and the base of the arena only. -/
theorem congr {i' : Instance Code} (h : i.Astray p kind) (hguest : i'.guest = i.guest)
    (harena : i'.arena = i.arena) : i'.Astray p kind := by
  have hreadable {p : Nat} (h : i.Readable p) : i'.Readable p := by rwa [Readable, hguest]
  have habove {p : Nat} (h : i.LeadsAbove p) : i'.LeadsAbove p := by
    rwa [LeadsAbove, hguest, harena]
  have hkind {kind : SlotKind} (h : i.ShowsKind p kind) : i'.ShowsKind p kind := by
    rwa [ShowsKind, hguest]
  cases h with
  | array h h' hcount => exact .array (hkind h) (habove h') (hreadable hcount)
  | object h hvalues hcount hkeys h' =>
    exact .object (hkind h) (hreadable hvalues) (hreadable hcount) (hreadable hkeys)
      (h'.imp habove habove)

/-- A slot that leads above the address space is refused, and no other slot is looked at. -/
theorem exec_decodeAt (h : i.Settled) (hsize : i.guest.buffer.bytes.size ≤ 65535 * 65536)
    (hastray : i.Astray address.toNat kind) (room : Nat) :
    ∃ table n, exec (decodeAt (room + 1) address) i =
      (.error (.outOfBounds table n i.guest.buffer.length),
        i.looked.log (.decoding kind address)) := by
  have hinside := hastray.shows.inside
  have hword : address.toNat + 12 < UInt32.size := by
    have hbound : UInt32.size = 4294967296 := rfl
    omega
  obtain ⟨v, -, hopen, hguest, harena⟩ := h.exec_views
  have hopen' := hopen.log (.decoding kind address)
  have hsize' :
      (i.looked.log (.decoding kind address)).guest.buffer.bytes.size ≤ 65535 * 65536 := by
    show i.looked.guest.buffer.bytes.size ≤ _
    rwa [hguest]
  have hastray' : (i.looked.log (.decoding kind address)).Astray address.toNat kind :=
    hastray.congr hguest harena
  unfold decodeAt
  rw [h.exec_kind hastray.shows hword, ← hguest]
  cases hastray' with
  | array _ habove hcount =>
    exact hopen'.exec_decodeArray hsize' hword (decodeAt room) habove hcount
  | object _ hvalues hcount hkeys habove =>
    exact hopen'.exec_decodeObject hsize' hword (decodeAt room) hvalues hcount hkeys habove

end Astray

end Instance

/-- Offsets and addresses of every arena answer to each other. On a guest whose memory has at most
65535 pages now, a slot with an array or an object that has an offset above the address space is not
decoded, however many entries it is said to have and however deep it stands in other ones: the fault
is that a table is out of bounds, and nothing but the slot itself was looked at. -/
theorem Machine.decode_astray (guest : Guest Code) (config : Config) (as : List (Action Code))
    {m : Machine Code} (hm : (boot guest config).runs as = m)
    (hsize : m.inst.guest.buffer.bytes.size ≤ 65535 * 65536) :
    (∀ a : Arena, a.Exact) ∧
    ∀ address kind, m.inst.Astray address.toNat kind →
      (∀ room, ∃ table n, exec (decodeAt (room + 1) address) m.inst =
        (.error (.outOfBounds table n m.inst.guest.buffer.length),
          m.inst.looked.log (.decoding kind address))) ∧
      (0 < m.inst.config.maxDepth → ∃ table n m',
        m.perform (.decode address) =
          (.error (.outOfBounds table n m.inst.guest.buffer.length), m') ∧
        m'.inst = m.inst.looked.log (.decoding kind address)) := by
  have hsettled : m.inst.Settled :=
    hm ▸ Instance.Settled.acting.runs _ as ⟨by rintro v ⟨⟩, rfl⟩
  refine ⟨Arena.exact, fun address kind hastray =>
    ⟨hastray.exec_decodeAt hsettled hsize, fun hdepth => ?_⟩⟩
  obtain ⟨room, hroom⟩ := Nat.exists_eq_succ_of_ne_zero (Nat.ne_of_gt hdepth)
  obtain ⟨table, n, hexec⟩ := hastray.exec_decodeAt hsettled hsize room
  refine ⟨table, n, _, perform_of_exec ?_, rfl⟩
  show exec (decodeAt m.inst.config.maxDepth address) m.inst = _
  rw [hroom]
  exact hexec

/-- A guest with an array of no items in the slot at zero, under an arena with base sixteen: with
the offset in the slot, a sum that wraps around would lead back to zero. -/
def Machine.aliasing : Machine Unit :=
  boot (.ofBytes Unit ⟨#[240, 255, 255, 255, 0, 0, 0, 0, 0, 0, 0, 0, 7, 0, 0, 0]⟩)
    { Config.standard with arenaBase := 16 }

/-- The array is refused, although it has no items. -/
theorem Machine.decode_astray_empty :
    (aliasing.runs []).inst.guest.buffer.bytes.size ≤ 65535 * 65536 ∧
      (aliasing.runs []).inst.Astray (0 : UInt32).toNat .array ∧
      0 < (aliasing.runs []).inst.config.maxDepth ∧
      ∃ table n m, (aliasing.runs []).perform (.decode 0) =
        (.error (.outOfBounds table n (aliasing.runs []).inst.guest.buffer.length), m) := by
  have hsize : (aliasing.runs []).inst.guest.buffer.bytes.size = 65536 := by
    show (_ ++ Buffer.zeroBytes _).size = _
    rw [ByteArray.size_append, Buffer.size_zeroBytes]
    rfl
  have hle : (aliasing.runs []).inst.guest.buffer.bytes.size ≤ 65535 * 65536 :=
    Nat.le_trans (Nat.le_of_eq hsize) (by decide)
  have hastray : (aliasing.runs []).inst.Astray (0 : UInt32).toNat .array :=
    .array (Guest.shows_ofBytes (by decide) (by decide) rfl)
      ⟨0xFFFFFFF0, Guest.shows_ofBytes (by decide) (by decide) rfl, by decide⟩
      ⟨0, Guest.shows_ofBytes (by decide) (by decide) rfl⟩
  have hdepth : 0 < (aliasing.runs []).inst.config.maxDepth := by decide
  obtain ⟨table, n, m, hperform, -⟩ := ((decode_astray _ _ [] rfl hle).2 0 .array hastray).2 hdepth
  exact ⟨hle, hastray, hdepth, table, n, m, hperform⟩

end

end Crossing
