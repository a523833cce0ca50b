import Crossing.Proofs.Instance.Blocks

/-!
# Growth and the limit

Memory may be given pages up to a limit. The sum of the pages that there are and those that are
asked for is computed first and compared with the limit afterwards. As long as it is a word, growth
is granted just when the sum is within the limit (`Machine.GrowsExactly`). A sum that is none is
beyond every limit, and the host panics instead of refusing it.
-/

namespace Crossing

open Effect

section
variable {Code : Type}

namespace Guest.Sound

variable {g : Guest Code}

/-- The pages that memory reports make up its bytes. -/
theorem toNat_pages (h : g.Sound) : g.pages.toNat * 65536 = g.buffer.bytes.size := by
  have hpage : pageSize.toNat = 65536 := rfl
  rw [Guest.pages, UInt32.toNat_div, h.toNat_length, hpage]
  exact Nat.div_mul_cancel h.dvd_size

end Guest.Sound

/-- A fresh guest has the pages that it was given. -/
theorem Guest.pages_ofPages {pages maxPages : UInt32} (hpages : pages.toNat ≤ 65535)
    (hmax : maxPages.toNat ≤ 65535) : (Guest.ofPages Code pages maxPages).pages = pages := by
  have hsize : (Guest.ofPages Code pages maxPages).buffer.bytes.size = pages.toNat * 65536 :=
    Buffer.size_zeroBytes _
  have hcount := (Guest.Sound.ofPages Code hpages hmax).toNat_pages
  rw [hsize] at hcount
  exact UInt32.toNat_inj.1 (Nat.eq_of_mul_eq_mul_right (by decide) hcount)

namespace Machine

/-! ## What growth comes to -/

/-- Growing by `delta` pages keeps to the limit. It is granted just when that many more pages are
within the limit, and then memory has exactly so many; otherwise it is refused and nothing
changes. -/
structure GrowsExactly (m : Machine Code) (delta : UInt32) : Prop where
  granted_iff : (m.perform (.grow delta)).1 = .ok () ↔
    m.inst.guest.pages.toNat + delta.toNat ≤ m.inst.guest.maxPages.toNat
  size : m.inst.guest.pages.toNat + delta.toNat ≤ m.inst.guest.maxPages.toNat →
    (m.perform (.grow delta)).2.inst.guest.buffer.bytes.size =
      (m.inst.guest.pages.toNat + delta.toNat) * 65536
  refused : m.inst.guest.maxPages.toNat < m.inst.guest.pages.toNat + delta.toNat →
    m.perform (.grow delta) = (.error (.allocationFailed (Word.mulSat delta pageSize)), m)

variable {m : Machine Code} {delta : UInt32}

/-- As long as the sum of the pages is a word, the limit alone decides. -/
theorem perform_grow_of_lt (h : m.inst.guest.pages.toNat + delta.toNat < UInt32.size) :
    m.perform (.grow delta) =
      if m.inst.guest.maxPages.toNat < m.inst.guest.pages.toNat + delta.toNat then
        (.error (.allocationFailed (Word.mulSat delta pageSize)), m)
      else (.ok (), { m with inst := m.inst.grown (m.inst.guest.pages + delta) }) := by
  have hsum : (m.inst.guest.pages + delta).toNat = m.inst.guest.pages.toNat + delta.toNat := by
    rw [UInt32.toNat_add]
    exact Nat.mod_eq_of_lt h
  have hexec := exec_grow delta m.inst
  rw [Word.add?_eq_some_iff.2 hsum.symm] at hexec
  have hlimit := UInt32.lt_iff_toNat_lt (a := m.inst.guest.maxPages)
    (b := m.inst.guest.pages + delta)
  rw [hsum] at hlimit
  split
  · next h => exact perform_of_exec (hexec.trans (if_pos (hlimit.2 h)))
  · next h => exact perform_of_exec (hexec.trans (if_neg fun h' => h (hlimit.1 h')))

/-- A sum of pages that is no word makes the host panic. -/
theorem perform_grow_of_le (h : UInt32.size ≤ m.inst.guest.pages.toNat + delta.toNat) :
    m.perform (.grow delta) = (.error .overflow, m) := by
  have hexec := exec_grow delta m.inst
  rw [Word.add?_eq_none_iff.2 h] at hexec
  exact perform_of_exec hexec

/-- Growth keeps to the limit where the sum of the pages is a word. -/
theorem growsExactly_of_lt (hs : m.inst.Sound)
    (h : m.inst.guest.pages.toNat + delta.toNat < UInt32.size) : m.GrowsExactly delta := by
  have hperform := perform_grow_of_lt h
  rcases Nat.lt_or_ge m.inst.guest.maxPages.toNat
    (m.inst.guest.pages.toNat + delta.toNat) with hbeyond | hwithin
  · rw [if_pos hbeyond] at hperform
    refine ⟨?_, fun hle => absurd hle (Nat.not_le.2 hbeyond), fun _ => hperform⟩
    rw [hperform]
    exact iff_of_false nofun (Nat.not_le.2 hbeyond)
  · rw [if_neg (Nat.not_lt.2 hwithin)] at hperform
    refine ⟨?_, fun _ => ?_, fun hlt => absurd hlt (Nat.not_lt.2 hwithin)⟩ <;> rw [hperform]
    · exact iff_of_true rfl hwithin
    · have hsum : (m.inst.guest.pages + delta).toNat =
          m.inst.guest.pages.toNat + delta.toNat := by
        rw [UInt32.toNat_add]
        exact Nat.mod_eq_of_lt h
      show (m.inst.guest.grown _).buffer.bytes.size = _
      rw [Guest.Sound.size_grown, hsum, ← hs.guest.toNat_pages]
      exact Nat.max_eq_right (Nat.mul_le_mul_right 65536 (Nat.le_add_right _ _))

/-- In every state that a run reaches from a guest of at most 65535 pages with a limit of at most
65535, growth by `delta` pages keeps to the limit exactly when the sum of the pages is a word. When
it is none the host panics, although so many pages are beyond every limit. -/
theorem growsExactly_iff {pages maxPages : UInt32} (hpages : pages.toNat ≤ 65535)
    (hmax : maxPages.toNat ≤ 65535) (config : Config) (as : List (Action Code))
    {m : Machine Code} (hm : (boot (Guest.ofPages Code pages maxPages) config).runs as = m)
    (delta : UInt32) :
    (m.GrowsExactly delta ↔ m.inst.guest.pages.toNat + delta.toNat < UInt32.size) ∧
    (UInt32.size ≤ m.inst.guest.pages.toNat + delta.toNat →
      m.perform (.grow delta) = (.error .overflow, m)) := by
  have hs := sound_runs hpages hmax config as
  rw [hm] at hs
  refine ⟨⟨fun hexact => Nat.lt_of_not_le fun hle => ?_, growsExactly_of_lt hs⟩,
    perform_grow_of_le⟩
  have hlimit := hs.guest.maxPages
  have hbound : UInt32.size = 4294967296 := rfl
  have hrefused := hexact.refused (by omega)
  rw [perform_grow_of_le hle] at hrefused
  cases hrefused

/-- With one page of four, growth by three pages is granted and growth by four is refused. -/
theorem growsExactly_iff_limit :
    ((boot (Guest.ofPages Unit 1 4) .standard).runs []).GrowsExactly 3 ∧
      ((boot (Guest.ofPages Unit 1 4) .standard).runs []).GrowsExactly 4 := by
  have hpages : ((boot (Guest.ofPages Unit 1 4) .standard).runs []).inst.guest.pages = 1 :=
    Guest.pages_ofPages (by decide) (by decide)
  exact ⟨(growsExactly_iff (by decide) (by decide) .standard [] rfl 3).1.2
      (by rw [hpages]; decide),
    (growsExactly_iff (by decide) (by decide) .standard [] rfl 4).1.2
      (by rw [hpages]; decide)⟩

/-- A guest of one page that may have sixteen is asked for the most pages that a word can count. The
host panics, where the limit should have refused them. -/
theorem not_growsExactly_overflow :
    ((boot (Guest.ofPages Unit 1 16) .standard).runs []).perform (.grow 0xffffffff) =
        (.error .overflow, (boot (Guest.ofPages Unit 1 16) .standard).runs []) ∧
      ¬ ((boot (Guest.ofPages Unit 1 16) .standard).runs []).GrowsExactly 0xffffffff := by
  have hpages : ((boot (Guest.ofPages Unit 1 16) .standard).runs []).inst.guest.pages = 1 :=
    Guest.pages_ofPages (by decide) (by decide)
  have hmax : ((boot (Guest.ofPages Unit 1 16) .standard).runs []).inst.guest.maxPages = 16 := rfl
  have hperform : ((boot (Guest.ofPages Unit 1 16) .standard).runs []).perform (.grow 0xffffffff) =
      (.error .overflow, (boot (Guest.ofPages Unit 1 16) .standard).runs []) :=
    perform_grow_of_le (by rw [hpages]; decide)
  refine ⟨hperform, fun hexact => ?_⟩
  have hrefused := hexact.refused (by rw [hpages, hmax]; decide)
  rw [hperform] at hrefused
  cases hrefused

end Machine

end

end Crossing
