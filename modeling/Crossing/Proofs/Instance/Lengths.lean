import Crossing.Proofs.Codec.Offsets
import Crossing.Proofs.Instance.Blocks
import Crossing.Proofs.Instance.Decides

/-!
# The length of guest memory

Guest memory reports its length in a word, and tables are checked against that length, while bytes
are read and written against the bytes that there are. Up to 65535 pages this comes to the same
(`Instance.Measured`). A memory of 65536 pages, the most that a guest can have when no lower limit
is set, reports no length and no pages: every byte of it can be read and written, and no table but
an empty one at zero is accepted (`Instance.Unmeasured`).
-/

namespace Crossing

open Effect

section
variable {Code : Type}

namespace Instance

/-! ## What is reported and what is there -/

/-- The length and the pages that memory reports are those it has, and a table is accepted just when
it ends inside of memory, where as many bytes can be read and written. -/
structure Measured (i : Instance Code) : Prop where
  length : i.guest.buffer.length.toNat = i.guest.buffer.bytes.size
  pages : i.guest.pages.toNat * 65536 = i.guest.buffer.bytes.size
  table_iff : ∀ base count stride, (exec (checkTable base count stride) i).1 = .ok () ↔
    base.toNat + count.toNat * stride.toNat ≤ i.guest.buffer.bytes.size
  read_iff : ∀ base count stride, (exec (checkTable base count stride) i).1 = .ok () ↔
    ∃ data, (exec (read i.guest.memory base (count.toNat * stride.toNat)) i).1 = .ok data
  write_iff : ∀ (base count stride : UInt32) (data : ByteArray),
    data.size = count.toNat * stride.toNat →
      ((exec (checkTable base count stride) i).1 = .ok () ↔
        (exec (write i.guest.memory base data) i).1 = .ok ())

/-- Memory reports that it is empty, and no table is accepted but an empty one at zero, while all
its bytes can be read and written. -/
structure Unmeasured (i : Instance Code) : Prop where
  length : i.guest.buffer.length = 0
  pages : i.guest.pages = 0
  table_iff : ∀ base count stride, (exec (checkTable base count stride) i).1 = .ok () ↔
    base.toNat + count.toNat * stride.toNat = 0
  read_iff : ∀ address n, (∃ data, (exec (read i.guest.memory address n) i).1 = .ok data) ↔
    address.toNat + n ≤ i.guest.buffer.bytes.size
  write_iff : ∀ address data, (exec (write i.guest.memory address data) i).1 = .ok () ↔
    address.toNat + data.size ≤ i.guest.buffer.bytes.size

variable {i : Instance Code}

/-- Tables are checked against the length of memory. -/
theorem Settled.checkTable_iff (h : i.Settled) (base count stride : UInt32) :
    (exec (checkTable base count stride) i).1 = .ok () ↔
      base.toNat + count.toNat * stride.toNat ≤ i.guest.buffer.length.toNat := by
  obtain ⟨v, hviews, hopen, hguest, -⟩ := h.exec_views
  have hlooked := hopen.exec_checkTable base count stride
  rw [checkTable, hopen.exec_views] at hlooked
  rw [checkTable, exec_bind_of_ok hviews, hlooked, hguest, Buffer.checkTable_eq_ok_iff_length]

/-- Bytes are read where they are, whatever the length of memory. -/
theorem read_iff (i : Instance Code) (address : UInt32) (n : Nat) :
    (∃ data, (exec (read i.guest.memory address n) i).1 = .ok data) ↔
      address.toNat + n ≤ i.guest.buffer.bytes.size := by
  rw [exec_read]
  constructor
  · rintro ⟨data, hdata⟩
    exact (Buffer.read_eq_ok_iff.1 hdata).1
  · intro hle
    exact ⟨_, Buffer.read_eq_ok_iff.2 ⟨hle, rfl⟩⟩

/-- Where a word counts the bytes of memory, its length is reported as it is. -/
theorem Settled.measured (h : i.Settled) (hpages : 65536 ∣ i.guest.buffer.bytes.size)
    (hsize : i.guest.buffer.bytes.size < UInt32.size) : i.Measured := by
  have hlength := Buffer.toNat_length hsize
  have hpage : pageSize.toNat = 65536 := rfl
  have htable (base count stride : UInt32) := hlength ▸ h.checkTable_iff base count stride
  refine ⟨hlength, ?_, htable, fun base count stride => ?_, fun base count stride data hdata => ?_⟩
  · rw [Guest.pages, UInt32.toNat_div, hlength, hpage]
    exact Nat.div_mul_cancel hpages
  · exact (htable base count stride).trans (read_iff i base _).symm
  · rw [htable base count stride, exec_write_eq_ok_iff, hdata]
    exact Iff.rfl

/-- Where memory has as many bytes as there are words, its length is reported as zero. -/
theorem Settled.unmeasured (h : i.Settled) (hsize : i.guest.buffer.bytes.size = UInt32.size) :
    i.Unmeasured := by
  have hlength : i.guest.buffer.length = 0 := by
    rw [Buffer.length, hsize]
    rfl
  refine ⟨hlength, ?_, fun base count stride => ?_, read_iff i, fun address data =>
    exec_write_eq_ok_iff⟩
  · rw [Guest.pages, hlength]
    rfl
  · rw [h.checkTable_iff, hlength]
    exact Nat.le_zero

/-- Memory that is not empty and reports that it is does not report the length that it has. -/
theorem Unmeasured.not_measured (h : i.Unmeasured) (hpos : 0 < i.guest.buffer.bytes.size) :
    ¬ i.Measured := by
  intro hm
  have hlength := hm.length
  rw [h.length] at hlength
  exact Nat.ne_of_lt hpos hlength

end Instance

namespace Machine

/-- In every state that a run reaches from a guest of at most 65536 pages with a limit of at most
65536, memory is made of at most so many pages. It reports its length as it is when it has fewer
pages, and with 65536 pages it reports that it is empty. -/
theorem measured_iff {pages maxPages : UInt32} (hpages : pages.toNat ≤ 65536)
    (hmax : maxPages.toNat ≤ 65536) (config : Config) (as : List (Action Code)) :
    ∃ p ≤ 65536,
      ((boot (Guest.ofPages Code pages maxPages) config).runs as).inst.guest.buffer.bytes.size =
        p * 65536 ∧
      (((boot (Guest.ofPages Code pages maxPages) config).runs as).inst.Measured ↔ p < 65536) ∧
      (p = 65536 →
        ((boot (Guest.ofPages Code pages maxPages) config).runs as).inst.Unmeasured) := by
  have hsettled : ((boot (Guest.ofPages Code pages maxPages) config).runs as).inst.Settled :=
    Instance.Settled.acting.runs _ as ⟨nofun, rfl⟩
  have hwhole := (Guest.Whole.acting.runs (boot (Guest.ofPages Code pages maxPages) config) as
    (Guest.Whole.ofPages Code pages maxPages)).1
  have hlimit := (SameLimit.acting.runs (boot (Guest.ofPages Code pages maxPages) config) as).limit
  -- Neither the pages of the guest nor its limit go beyond 65536, and growth stays within them.
  have hbytes : (Guest.ofPages Code pages maxPages).buffer.bytes.size = pages.toNat * 65536 :=
    Buffer.size_zeroBytes _
  have hstart : (boot (Guest.ofPages Code pages maxPages) config).inst.guest.limit ≤
      65536 * 65536 := by
    show max (Guest.ofPages Code pages maxPages).buffer.bytes.size (maxPages.toNat * 65536) ≤ _
    rw [hbytes]
    exact Nat.max_le.2 ⟨Nat.mul_le_mul_right _ hpages, Nat.mul_le_mul_right _ hmax⟩
  revert hsettled hwhole hlimit
  generalize (boot (Guest.ofPages Code pages maxPages) config).runs as = m
  intro hsettled hwhole hlimit
  have hword : UInt32.size = 65536 * 65536 := rfl
  obtain ⟨p, hp⟩ := hwhole.pages
  rw [Nat.mul_comm] at hp
  have hle : m.inst.guest.buffer.bytes.size ≤ 65536 * 65536 :=
    Nat.le_trans (Nat.le_max_left _ _) (hlimit ▸ hstart)
  have hfull : p = 65536 → m.inst.Unmeasured := by
    rintro rfl
    exact hsettled.unmeasured (hp.trans hword.symm)
  refine ⟨p, by omega, hp, ⟨fun hm => ?_, fun hlt => ?_⟩, hfull⟩
  · by_contra hnot
    exact (hfull (by omega)).not_measured (by omega) hm
  · exact hsettled.measured hwhole.pages (by omega)

/-- A guest of one page, with the limit that a guest has by default. -/
theorem measured_iff_page :
    ((boot (Guest.ofPages Unit 1 65536) .standard).runs []).inst.Measured := by
  have hsize :
      ((boot (Guest.ofPages Unit 1 65536) .standard).runs []).inst.guest.buffer.bytes.size =
        65536 := Buffer.size_zeroBytes _
  obtain ⟨p, -, hp, hmeasured, -⟩ :=
    @measured_iff Unit 1 65536 (by decide) (by decide) .standard []
  exact hmeasured.2 (by omega)

/-- A guest of 65536 pages, with the limit that a guest has by default, has room for a slot at zero,
and a table of that one slot is refused. -/
theorem not_measured_full :
    ¬ ((boot (Guest.ofPages Unit 65536 65536) .standard).runs []).inst.Measured ∧
      (0 : UInt32).toNat + (1 : UInt32).toNat * Slot.size.toNat ≤
        ((boot (Guest.ofPages Unit 65536 65536) .standard).runs []).inst.guest.buffer.bytes.size ∧
      (exec (checkTable 0 1 Slot.size)
        ((boot (Guest.ofPages Unit 65536 65536) .standard).runs []).inst).1 ≠ .ok () := by
  have hsettled : ((boot (Guest.ofPages Unit 65536 65536) .standard).runs []).inst.Settled :=
    ⟨nofun, rfl⟩
  have hsize : ((boot (Guest.ofPages Unit 65536 65536) .standard).runs
      []).inst.guest.buffer.bytes.size = 65536 * 65536 := Buffer.size_zeroBytes _
  have hfull := hsettled.unmeasured hsize
  refine ⟨hfull.not_measured (hsize ▸ by decide), hsize ▸ by decide, fun hok => ?_⟩
  exact absurd ((hfull.table_iff 0 1 Slot.size).1 hok) (by decide)

end Machine

end

end Crossing
