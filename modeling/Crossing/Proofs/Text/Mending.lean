import Crossing.Proofs.Text.Spelling

/-!
# What the portable transcoders make of any units

The portable encoder asks nothing of its units: one of the surrogate range is taken for a lead,
whatever follows it for its trail, and of both only the low ten bits count. What it writes is
therefore the UTF-8 of some text at all times, namely of the one that `Utf16.mend` spells. A pair
that is one already comes out as it went in, so the units that survive the way there and back are
the well-formed ones and no others (`Utf8.toUnits_ofUnits`).
-/

namespace Crossing

namespace Utf16

/-- The lead that carries the low ten bits of a unit. -/
def leadOf (u : UInt16) : UInt16 := (0xD800 + u.toNat % 0x400).toUInt16

/-- The trail that carries the low ten bits of a unit. -/
def trailOf (u : UInt16) : UInt16 := (0xDC00 + u.toNat % 0x400).toUInt16

/-- The units with a proper pair for each one of the surrogate range that is reached and the unit
after it, or zero at the end. -/
def mend : List UInt16 → List UInt16
  | [] => []
  | [u] => if isSurrogate u then [leadOf u, trailOf 0] else [u]
  | u :: t :: rest =>
    if isSurrogate u then leadOf u :: trailOf t :: mend rest else u :: mend (t :: rest)

section
variable {u t : UInt16} {rest : List UInt16}

/-- A unit that is no surrogate stands for itself. -/
theorem codePoints_cons_of_single (h : isSurrogate u = false) :
    codePoints (u :: rest) = u.toNat :: codePoints rest := by
  rw [codePoints, scan_cons, pairStep, if_neg (by simp [h])]
  rfl

/-- A surrogate stands for a code point with the unit behind it. -/
theorem codePoints_cons_of_surrogate (h : isSurrogate u = true) :
    codePoints (u :: rest) = join u (rest.headD 0) :: codePoints (rest.drop 1) := by
  rw [codePoints, scan_cons, pairStep, if_pos h]
  rfl

/-- A code point outside of the surrogates is that of a character. -/
theorem exists_char {n : Nat} (h : n < 0xD800 ∨ (0xDFFF < n ∧ n < 0x110000)) :
    ∃ c : Char, c.toNat = n := by
  have hn : n < UInt32.size := by
    simp only [UInt32.size]
    omega
  exact ⟨⟨UInt32.ofNatLT n hn, h⟩, rfl⟩

/-- An ordinary unit is a character by itself. -/
theorem exists_ofChar_single (h : isSurrogate u = false) :
    ∃ c : Char, c.toNat = u.toNat ∧ ofChar c = [u] := by
  have hu := u.toNat_lt
  simp only [isSurrogate, decide_eq_false_iff_not] at h
  obtain ⟨c, hc⟩ := exists_char (n := u.toNat) (by omega)
  refine ⟨c, hc, ?_⟩
  rw [ofChar, if_pos (by omega), hc, Nat.toUInt16_eq, UInt16.ofNat_toNat]

/-- Two units that are joined give a character, of which the mended pair is the spelling. -/
theorem exists_ofChar_pair (u t : UInt16) :
    ∃ c : Char, c.toNat = join u t ∧ ofChar c = [leadOf u, trailOf t] := by
  have hjoin : join u t = 0x10000 + u.toNat % 0x400 * 0x400 + t.toNat % 0x400 := rfl
  obtain ⟨c, hc⟩ := exists_char (n := join u t) (by omega)
  refine ⟨c, hc, ?_⟩
  have hlead : (c.toNat - 0x10000) / 0x400 = u.toNat % 0x400 := by omega
  have htrail : (c.toNat - 0x10000) % 0x400 = t.toNat % 0x400 := by omega
  rw [ofChar, if_neg (by omega), hlead, htrail, leadOf, trailOf]

end

/-- The mended units are those of a text, and the text's characters are what is read off the
units as they were. -/
theorem mend_spells (units : List UInt16) :
    ∃ t : String, ofText t = mend units ∧ codePoints (ofText t) = codePoints units := by
  suffices h : ∃ cs : List Char, cs.flatMap ofChar = mend units ∧
      cs.map Char.toNat = codePoints units by
    obtain ⟨cs, hunits, hpoints⟩ := h
    refine ⟨String.ofList cs, ?_, ?_⟩
    · rw [ofText, String.toList_ofList, hunits]
    · rw [codePoints_ofText, String.toList_ofList, hpoints]
  induction units using mend.induct with
  | case1 => exact ⟨[], rfl, rfl⟩
  | case2 u h =>
    obtain ⟨c, hc, hunits⟩ := exists_ofChar_pair u 0
    refine ⟨[c], ?_, ?_⟩
    · rw [mend, if_pos h, List.flatMap_cons, hunits, List.flatMap_nil, List.append_nil]
    · rw [codePoints_cons_of_surrogate h, List.map_cons, hc]
      rfl
  | case3 u h =>
    have hsingle : isSurrogate u = false := Bool.eq_false_iff.2 h
    obtain ⟨c, hc, hunits⟩ := exists_ofChar_single hsingle
    refine ⟨[c], ?_, ?_⟩
    · rw [mend, if_neg h, List.flatMap_cons, hunits, List.flatMap_nil, List.append_nil]
    · rw [codePoints_cons_of_single hsingle, List.map_cons, hc]
      rfl
  | case4 u t rest h ih =>
    obtain ⟨cs, hmend, hpoints⟩ := ih
    obtain ⟨c, hc, hunits⟩ := exists_ofChar_pair u t
    refine ⟨c :: cs, ?_, ?_⟩
    · rw [mend, if_pos h, List.flatMap_cons, hunits, hmend, List.cons_append,
        List.singleton_append]
    · rw [codePoints_cons_of_surrogate h, List.map_cons, hc, hpoints]
      rfl
  | case5 u t rest h ih =>
    have hsingle : isSurrogate u = false := Bool.eq_false_iff.2 h
    obtain ⟨cs, hmend, hpoints⟩ := ih
    obtain ⟨c, hc, hunits⟩ := exists_ofChar_single hsingle
    refine ⟨c :: cs, ?_, ?_⟩
    · rw [mend, if_neg h, List.flatMap_cons, hunits, hmend, List.singleton_append]
    · rw [codePoints_cons_of_single hsingle, List.map_cons, hc, hpoints]

/-- Mending leaves units alone exactly where they are well-formed. -/
theorem mend_eq_self_iff {units : List UInt16} :
    mend units = units ↔ ∃ cs, Spells units cs := by
  obtain ⟨t, hmend, hpoints⟩ := mend_spells units
  constructor
  · intro h
    exact ⟨t.toList, spells_iff.2 (by rw [← h, ← hmend, ofText])⟩
  · rintro ⟨cs, h⟩
    -- A text is what its code points are, and both texts have those of the units.
    have hunits : units = ofText (String.ofList cs) := by
      rw [ofText, String.toList_ofList, spells_iff.1 h]
    rw [hunits, codePoints_ofText, codePoints_ofText] at hpoints
    have ht : t.toList = (String.ofList cs).toList :=
      (List.map_inj_right fun _ _ => Char.toNat_inj.1).1 hpoints
    rw [← hmend, hunits, String.toList_inj.1 ht]

end Utf16

namespace Utf8

/-- The bytes of a code point are as many as were counted. -/
theorem length_ofCodePoint (n : Nat) : (ofCodePoint n).length = length n := by
  have hcases : length n = 1 ∨ length n = 2 ∨ length n = 3 ∨ length n = 4 ∨ length n = 5 ∨
      length n = 6 := by grind [length]
  unfold ofCodePoint
  rcases hcases with h | h | h | h | h | h <;> rw [h] <;> rfl

/-- The bytes of a sequence of units are as many as were counted. -/
theorem length_ofUnits (units : List UInt16) : (ofUnits units).length = lengthOfUnits units := by
  rw [ofUnits, lengthOfUnits, List.length_flatMap, List.sum_eq_foldl_nat, List.foldl_map]
  simp only [length_ofCodePoint]

/-- A character takes four bytes at most. -/
theorem length_char_le (c : Char) : length c.toNat ≤ 4 := by
  have hc := toNat_char c
  grind [length]

/-- What the portable encoder makes of any units: well-formed UTF-8, none of it in the forms of
five and six bytes, as many bytes as were counted, and the mended units when it is read back, which
are the ones it was given exactly where those are well-formed. -/
theorem toUnits_ofUnits (units : List UInt16) :
    (ofUnits units).toByteArray.IsValidUTF8 ∧
      (∀ n ∈ Utf16.codePoints units, length n ≤ 4) ∧
      (ofUnits units).length = lengthOfUnits units ∧
      toUnits (ofUnits units) = Utf16.mend units ∧
      (toUnits (ofUnits units) = units ↔ ∃ cs, Utf16.Spells units cs) := by
  obtain ⟨t, hmend, hpoints⟩ := Utf16.mend_spells units
  have hbytes : (ofUnits units).toByteArray = t.toUTF8 := by
    rw [← ofUnits_ofText, ofUnits, ofUnits, hpoints]
  have hback : toUnits (ofUnits units) = Utf16.mend units := by
    rw [← hmend, ← toUnits_utf8, ← hbytes, List.data_toByteArray]
  refine ⟨hbytes ▸ t.isValidUTF8, fun n hn => ?_, length_ofUnits units, hback, ?_⟩
  · rw [← hpoints, Utf16.codePoints_ofText] at hn
    obtain ⟨c, -, rfl⟩ := List.mem_map.1 hn
    exact length_char_le c
  · rw [hback, Utf16.mend_eq_self_iff]

/-- A lead swallows the ordinary unit behind it, and a stray trail the lead of a proper pair, whose
trail then opens a pair of its own. -/
example : toUnits (ofUnits [0xD801, 0x41, 0x42, 0xDC00, 0xD801, 0xDC02]) =
    [0xD801, 0xDC41, 0x42, 0xD800, 0xDC01, 0xD802, 0xDC00] := by
  decide +kernel

end Utf8

end Crossing
