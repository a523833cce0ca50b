import Crossing.Proofs.Text.RoundTrip

/-!
# Well-formed UTF-16 and the portable transcoders

`Utf16.Spells units cs` is the encoding form as the standard has it: a character below U+10000 is
one unit, any other a pair of a lead and a trail that carry its upper and lower ten bits. Every
sequence of characters has exactly one spelling (`Utf16.spells_iff`), so what the portable encoder
and decoder do to texts can be said of spellings, without a word on how a host finds one:
`Features.encode_spelled` for the way to the guest, `Features.decode_spelled` for the way back.
-/

namespace Crossing

namespace Utf16

/-- The units are the well-formed UTF-16 of the characters. -/
inductive Spells : List UInt16 → List Char → Prop
  | nil : Spells [] []
  | single {u : UInt16} {c : Char} {units : List UInt16} {cs : List Char} :
      c.toNat = u.toNat → Spells units cs → Spells (u :: units) (c :: cs)
  | pair {lead trail : UInt16} {c : Char} {units : List UInt16} {cs : List Char} :
      0xD800 ≤ lead.toNat → lead.toNat ≤ 0xDBFF → 0xDC00 ≤ trail.toNat → trail.toNat ≤ 0xDFFF →
      c.toNat = 0x10000 + (lead.toNat - 0xD800) * 0x400 + (trail.toNat - 0xDC00) →
      Spells units cs → Spells (lead :: trail :: units) (c :: cs)

/-- A character is spelled by its units. -/
theorem Spells.ofChar {units : List UInt16} {cs : List Char} (h : Spells units cs) (c : Char) :
    Spells (Utf16.ofChar c ++ units) (c :: cs) := by
  rcases units_cases c with ⟨u, hunits, -, hu⟩ | ⟨lead, trail, hunits, hlead, htrail, hj⟩ <;>
    rw [hunits]
  · exact .single hu.symm h
  · simp only [isLead, isTrail, decide_eq_true_eq] at hlead htrail
    rw [join] at hj
    exact .pair hlead.1 hlead.2 htrail.1 htrail.2 (by omega) h

/-- A character has one spelling: its single unit or its pair is what `ofChar` gives. -/
theorem Spells.eq_flatMap {units : List UInt16} {cs : List Char} (h : Spells units cs) :
    units = cs.flatMap Utf16.ofChar := by
  induction h with
  | nil => rfl
  | @single u c units cs hu _ ih =>
    have hlow : c.toNat < 0x10000 := hu ▸ u.toNat_lt
    rw [List.flatMap_cons, ← ih, Utf16.ofChar, if_pos hlow, hu, Nat.toUInt16_eq,
      UInt16.ofNat_toNat, List.singleton_append]
  | @pair lead trail c units cs _ _ _ _ hc _ ih =>
    have hl : (0xD800 + (c.toNat - 0x10000) / 0x400).toUInt16 = lead := by
      rw [← UInt16.toNat_inj, toNat_toUInt16 (by omega)]
      omega
    have ht : (0xDC00 + (c.toNat - 0x10000) % 0x400).toUInt16 = trail := by
      rw [← UInt16.toNat_inj, toNat_toUInt16 (by omega)]
      omega
    rw [List.flatMap_cons, ← ih, Utf16.ofChar, if_neg (by omega), hl, ht, List.cons_append,
      List.singleton_append]

/-- The one spelling of a sequence of characters. -/
theorem spells_iff {units : List UInt16} {cs : List Char} :
    Spells units cs ↔ units = cs.flatMap Utf16.ofChar := by
  refine ⟨Spells.eq_flatMap, ?_⟩
  rintro rfl
  induction cs with
  | nil => exact .nil
  | cons c cs ih => exact ih.ofChar c

end Utf16

namespace Features

/-- The bytes of a text are its UTF-8 bytes whatever the host brings along, and so are those that
the portable encoder makes of the text's UTF-16. -/
theorem encode_spelled (f : Features) (t : String) :
    f.encode t = t.toUTF8 ∧
      ∀ units, Utf16.Spells units t.toList → (Utf8.ofUnits units).toByteArray = t.toUTF8 := by
  refine ⟨encode_eq f t, fun units h => ?_⟩
  have hunits : units = Utf16.ofText t := Utf16.spells_iff.1 h
  rw [hunits, Utf8.ofUnits_ofText]

/-- The four bytes of a pair that stands between two single units. -/
theorem encode_spelled_pair :
    Utf16.Spells [0x61, 0xD800, 0xDF48, 0xFF] "a𐍈ÿ".toList ∧
      (Utf8.ofUnits [0x61, 0xD800, 0xDF48, 0xFF]).toByteArray = "a𐍈ÿ".toUTF8 := by
  have h : Utf16.Spells [0x61, 0xD800, 0xDF48, 0xFF] "a𐍈ÿ".toList :=
    .single rfl (.pair (by decide) (by decide) (by decide) (by decide) rfl (.single rfl .nil))
  exact ⟨h, (encode_spelled .none _).2 _ h⟩

/-- The portable decoder makes the text's UTF-16 out of its UTF-8 bytes, and nothing else is spelled
like that; a text that one host encoded is read back by any other. -/
theorem decode_spelled (f g : Features) (t : String) :
    (∀ units, Utf8.toUnits t.toUTF8.data.toList = units ↔ Utf16.Spells units t.toList) ∧
      g.decode (f.encode t) = t := by
  refine ⟨fun units => ?_, decode_encode_of_any f g t⟩
  rw [Utf8.toUnits_utf8, Utf16.spells_iff, Utf16.ofText, eq_comm]

end Features

end Crossing
