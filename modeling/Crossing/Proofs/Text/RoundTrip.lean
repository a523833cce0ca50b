import Crossing.Text.Transcoder

/-!
# Texts cross unchanged

Whatever the host brings along, the bytes of a text are its UTF-8 bytes (`Features.encode_eq`), and
decoding them gives the text (`Features.decode_encode_of_any`). Both come down to single characters:
every reader puts out, at the head of a sequence, the character or the units whose bytes or units
stand there.
-/

namespace Crossing

/-- A character is a code point outside of the surrogates. -/
theorem toNat_char (c : Char) : c.toNat < 0xD800 ∨ (0xDFFF < c.toNat ∧ c.toNat < 0x110000) := by
  exact c.valid

/-- A number below 256 is a byte. -/
theorem toNat_toUInt8 {n : Nat} (h : n < 256) : n.toUInt8.toNat = n :=
  UInt8.toNat_ofNat_of_lt' h

/-- A number below 65536 is a unit. -/
theorem toNat_toUInt16 {n : Nat} (h : n < 65536) : n.toUInt16.toNat = n :=
  UInt16.toNat_ofNat_of_lt' h

namespace Utf16

/-- A unit that opens a pair is one of those that come in pairs. -/
theorem isSurrogate_of_isLead {u : UInt16} (h : isLead u = true) : isSurrogate u = true := by
  simp only [isLead, isSurrogate, decide_eq_true_eq] at h ⊢
  omega

/-- The units of one character: a single one with its number, or a pair that joins to it. -/
theorem units_cases (c : Char) :
    (∃ u, ofChar c = [u] ∧ isSurrogate u = false ∧ u.toNat = c.toNat) ∨
    (∃ lead trail, ofChar c = [lead, trail] ∧ isLead lead = true ∧ isTrail trail = true ∧
      join lead trail = c.toNat) := by
  have hc := toNat_char c
  unfold ofChar
  split
  · next h =>
    have hu : c.toNat.toUInt16.toNat = c.toNat := toNat_toUInt16 h
    refine .inl ⟨_, rfl, ?_, hu⟩
    simp only [isSurrogate, hu, decide_eq_false_iff_not]
    omega
  · next h =>
    have hl : (0xD800 + (c.toNat - 0x10000) / 0x400).toUInt16.toNat =
        0xD800 + (c.toNat - 0x10000) / 0x400 := toNat_toUInt16 (by omega)
    have ht : (0xDC00 + (c.toNat - 0x10000) % 0x400).toUInt16.toNat =
        0xDC00 + (c.toNat - 0x10000) % 0x400 := toNat_toUInt16 (by omega)
    refine .inr ⟨_, _, rfl, ?_, ?_, ?_⟩
    · simp only [isLead, hl, decide_eq_true_eq]
      omega
    · simp only [isTrail, ht, decide_eq_true_eq]
      omega
    · rw [join, hl, ht]
      omega

/-- The units of one character make one code point. -/
theorem codePoints_ofChar (c : Char) (rest : List UInt16) :
    codePoints (ofChar c ++ rest) = c.toNat :: codePoints rest := by
  unfold codePoints
  rcases units_cases c with ⟨u, hunits, hs, hu⟩ | ⟨lead, trail, hunits, hlead, -, hj⟩ <;>
    rw [hunits]
  · have hstep : pairStep u rest = ([c.toNat], 0) := by
      rw [pairStep, if_neg (Bool.eq_false_iff.1 hs), hu]
    rw [List.singleton_append, scan_cons, hstep]
    rfl
  · have hstep : pairStep lead (trail :: rest) = ([c.toNat], 1) := by
      rw [pairStep, if_pos (isSurrogate_of_isLead hlead), List.headD_cons, hj]
    rw [List.cons_append, List.singleton_append, scan_cons, hstep]
    rfl

/-- The units of one character are read as that character. -/
theorem scan_repairStep_ofChar (c : Char) (rest : List UInt16) :
    scan repairStep (ofChar c ++ rest) = c :: scan repairStep rest := by
  rcases units_cases c with ⟨u, hunits, hs, hu⟩ | ⟨lead, trail, hunits, hlead, htrail, hj⟩ <;>
    rw [hunits]
  · have hstep : repairStep u rest = ([c], 0) := by
      unfold repairStep
      rw [if_neg (Bool.eq_false_iff.1 hs), hu, Char.ofNat_toNat]
    rw [List.singleton_append, scan_cons, hstep]
    rfl
  · have hstep : repairStep lead (trail :: rest) = ([c], 1) := by
      unfold repairStep
      rw [if_pos (isSurrogate_of_isLead hlead)]
      simp only [hlead, htrail, Bool.and_self, if_true, hj, Char.ofNat_toNat]
    rw [List.cons_append, List.singleton_append, scan_cons, hstep]
    rfl

/-- The code points of the units of a text are its characters. -/
theorem codePoints_ofText (t : String) : codePoints (ofText t) = t.toList.map Char.toNat := by
  unfold ofText
  induction t.toList with
  | nil => rfl
  | cons c cs ih => rw [List.flatMap_cons, codePoints_ofChar, ih, List.map_cons]

/-- A text is read back from its units. -/
theorem repair_ofText (t : String) : repair (ofText t) = t := by
  have h : ∀ cs : List Char, scan repairStep (cs.flatMap ofChar) = cs := by
    intro cs
    induction cs with
    | nil => rfl
    | cons c cs ih => rw [List.flatMap_cons, scan_repairStep_ofChar, ih]
  rw [repair, ofText, h, String.ofList_toList]

end Utf16

namespace Utf8

variable {n : Nat}

/-! ## The bytes of a code point -/

/-- A code point of up to seven bits takes one byte. -/
theorem ofCodePoint_one (h : n < 0x80) : ofCodePoint n = [n.toUInt8] := by
  simp [ofCodePoint, length, h]

/-- One of up to eleven bits takes two bytes. -/
theorem ofCodePoint_two (h : 0x80 ≤ n) (h' : n < 0x800) :
    ofCodePoint n = [(0xC0 + n / 64).toUInt8, (0x80 + n % 64).toUInt8] := by
  simp [ofCodePoint, length, continuation, Nat.shiftRight_eq_div_pow, h', Nat.not_lt.2 h]

/-- One of up to sixteen bits takes three bytes. -/
theorem ofCodePoint_three (h : 0x800 ≤ n) (h' : n < 0x10000) :
    ofCodePoint n =
      [(0xE0 + n / 4096).toUInt8, (0x80 + n / 64 % 64).toUInt8, (0x80 + n % 64).toUInt8] := by
  have h₁ : ¬ n < 0x80 := by omega
  simp [ofCodePoint, length, continuation, Nat.shiftRight_eq_div_pow, h', Nat.not_lt.2 h, h₁]

/-- Any other takes four bytes. -/
theorem ofCodePoint_four (h : 0x10000 ≤ n) (h' : n < 0x110000) :
    ofCodePoint n =
      [(0xF0 + n / 262144).toUInt8, (0x80 + n / 4096 % 64).toUInt8, (0x80 + n / 64 % 64).toUInt8,
        (0x80 + n % 64).toUInt8] := by
  have h₁ : ¬ n < 0x80 := by omega
  have h₂ : ¬ n < 0x800 := by omega
  have h₃ : n < 0x200000 := by omega
  simp [ofCodePoint, length, continuation, Nat.shiftRight_eq_div_pow, h₁, h₂, h₃, Nat.not_lt.2 h]

/-- How many bytes a character takes decides which code points it may be. -/
theorem width_cases (c : Char) :
    c.toNat < 0x80 ∨ (0x80 ≤ c.toNat ∧ c.toNat < 0x800) ∨
      (0x800 ≤ c.toNat ∧ c.toNat < 0x10000) ∨ (0x10000 ≤ c.toNat ∧ c.toNat < 0x110000) := by
  have := toNat_char c
  omega

/-- The bytes of a character are those that its text has. -/
theorem ofCodePoint_toNat (c : Char) : ofCodePoint c.toNat = String.utf8EncodeChar c := by
  have hval : c.val.toNat = c.toNat := rfl
  rcases width_cases c with h | ⟨h, h'⟩ | ⟨h, h'⟩ | ⟨h, h'⟩
  · rw [ofCodePoint_one h, String.utf8EncodeChar, if_pos (by omega)]
    rfl
  · rw [ofCodePoint_two h h', String.utf8EncodeChar, hval, if_neg (by omega), if_pos (by omega),
      Nat.mod_eq_of_lt (by omega : c.toNat / 64 < 0x20), Nat.add_comm 0xC0, Nat.add_comm 0x80]
  · rw [ofCodePoint_three h h', String.utf8EncodeChar, hval, if_neg (by omega), if_neg (by omega),
      if_pos (by omega), Nat.mod_eq_of_lt (by omega : c.toNat / 4096 < 0x10), Nat.add_comm 0xE0,
      Nat.add_comm 0x80, Nat.add_comm 0x80]
  · rw [ofCodePoint_four h h', String.utf8EncodeChar, hval, if_neg (by omega), if_neg (by omega),
      if_neg (by omega), Nat.mod_eq_of_lt (by omega : c.toNat / 262144 < 0x08), Nat.add_comm 0xF0,
      Nat.add_comm 0x80, Nat.add_comm 0x80, Nat.add_comm 0x80]

/-- The bytes of a text are its own. -/
theorem ofUnits_ofText (t : String) : (ofUnits (Utf16.ofText t)).toByteArray = t.toUTF8 := by
  have hlist : ofUnits (Utf16.ofText t) = t.toList.flatMap String.utf8EncodeChar := by
    rw [ofUnits, Utf16.codePoints_ofText, List.flatMap_map]
    exact congrArg (t.toList.flatMap ·) (funext ofCodePoint_toNat)
  rw [hlist, String.toUTF8_eq_toByteArray, ← String.utf8Encode_toList]
  rfl

/-! ## Reading the bytes of one character -/

/-- The bytes of a character by their number. -/
theorem bytes_cases (c : Char) :
    (∃ x, ofCodePoint c.toNat = [x] ∧ c.toNat < 0x80 ∧ x.toNat = c.toNat) ∨
    (∃ x y, ofCodePoint c.toNat = [x, y] ∧ (0x80 ≤ c.toNat ∧ c.toNat < 0x800) ∧
      x.toNat = 0xC0 + c.toNat / 64 ∧ y.toNat = 0x80 + c.toNat % 64) ∨
    (∃ x y z, ofCodePoint c.toNat = [x, y, z] ∧ (0x800 ≤ c.toNat ∧ c.toNat < 0x10000) ∧
      x.toNat = 0xE0 + c.toNat / 4096 ∧ y.toNat = 0x80 + c.toNat / 64 % 64 ∧
      z.toNat = 0x80 + c.toNat % 64) ∨
    (∃ x y z w, ofCodePoint c.toNat = [x, y, z, w] ∧
      (0x10000 ≤ c.toNat ∧ c.toNat < 0x110000) ∧
      x.toNat = 0xF0 + c.toNat / 262144 ∧ y.toNat = 0x80 + c.toNat / 4096 % 64 ∧
      z.toNat = 0x80 + c.toNat / 64 % 64 ∧ w.toNat = 0x80 + c.toNat % 64) := by
  rcases width_cases c with h | ⟨h, h'⟩ | ⟨h, h'⟩ | ⟨h, h'⟩
  · exact .inl ⟨_, ofCodePoint_one h, h, toNat_toUInt8 (by omega)⟩
  · exact .inr (.inl ⟨_, _, ofCodePoint_two h h', ⟨h, h'⟩, toNat_toUInt8 (by omega),
      toNat_toUInt8 (by omega)⟩)
  · exact .inr (.inr (.inl ⟨_, _, _, ofCodePoint_three h h', ⟨h, h'⟩, toNat_toUInt8 (by omega),
      toNat_toUInt8 (by omega), toNat_toUInt8 (by omega)⟩))
  · exact .inr (.inr (.inr ⟨_, _, _, _, ofCodePoint_four h h', ⟨h, h'⟩, toNat_toUInt8 (by omega),
      toNat_toUInt8 (by omega), toNat_toUInt8 (by omega), toNat_toUInt8 (by omega)⟩))

/-- The bytes of a character are read as its units. -/
theorem scan_unitsStep_ofCodePoint (c : Char) (rest : List UInt8) :
    scan unitsStep (ofCodePoint c.toNat ++ rest) = Utf16.ofChar c ++ scan unitsStep rest := by
  unfold Utf16.ofChar
  rcases bytes_cases c with ⟨x, hb, h, hx⟩ | ⟨x, y, hb, h, hx, hy⟩ | ⟨x, y, z, hb, h, hx, hy, hz⟩ |
    ⟨x, y, z, w, hb, h, hx, hy, hz, hw⟩ <;> rw [hb]
  · have hstep : unitsStep x rest = ([c.toNat.toUInt16], 0) := by
      simp [unitsStep, following, hx, h]
    rw [List.singleton_append, scan_cons, hstep, if_pos (by omega)]
    rfl
  · have hf : following x = 1 := by
      rw [following, if_neg (by omega), if_pos (by omega)]
    have hpoint : (0xC0 + c.toNat / 64) % 32 * 2 ^ 6 + (0x80 + c.toNat % 64) % 64 = c.toNat := by
      omega
    have hstep : unitsStep x (y :: rest) = ([c.toNat.toUInt16], 1) := by
      simp only [unitsStep, hf, payload, List.getD_cons_zero, hx, hy, Nat.shiftLeft_eq,
        List.map_cons, List.map_nil, hpoint]
    rw [List.cons_append, List.singleton_append, scan_cons, hstep, if_pos (by omega)]
    rfl
  · have hf : following x = 2 := by
      rw [following, if_neg (by omega), if_neg (by omega), if_pos (by omega)]
    have hpoint : (0xE0 + c.toNat / 4096) % 32 * 2 ^ 12 +
        (0x80 + c.toNat / 64 % 64) % 64 * 2 ^ 6 + (0x80 + c.toNat % 64) % 64 = c.toNat := by
      omega
    have hstep : unitsStep x (y :: z :: rest) = ([c.toNat.toUInt16], 2) := by
      simp only [unitsStep, hf, payload, List.getD_cons_zero, List.getD_cons_succ, hx, hy, hz,
        Nat.shiftLeft_eq, List.map_cons, List.map_nil, hpoint]
    rw [List.cons_append, List.cons_append, List.singleton_append, scan_cons, hstep,
      if_pos (by omega)]
    rfl
  · have hf : following x = 3 := by
      rw [following, if_neg (by omega), if_neg (by omega), if_neg (by omega)]
    have hpoint : (0xF0 + c.toNat / 262144) % 32 % 8 * 2 ^ 18 +
        (0x80 + c.toNat / 4096 % 64) % 64 * 2 ^ 12 + (0x80 + c.toNat / 64 % 64) % 64 * 2 ^ 6 +
        (0x80 + c.toNat % 64) % 64 = c.toNat := by omega
    have hlead : 0xD7C0 + c.toNat / 2 ^ 10 = 0xD800 + (c.toNat - 0x10000) / 0x400 := by omega
    have htrail : c.toNat % 1024 = (c.toNat - 0x10000) % 0x400 := by omega
    have hstep : unitsStep x (y :: z :: w :: rest) =
        ([(0xD800 + (c.toNat - 0x10000) / 0x400).toUInt16,
          (0xDC00 + (c.toNat - 0x10000) % 0x400).toUInt16], 3) := by
      simp only [unitsStep, hf, payload, List.getD_cons_zero, List.getD_cons_succ, hx, hy, hz, hw,
        Nat.shiftLeft_eq, Nat.shiftRight_eq_div_pow, List.map_cons, List.map_nil, hpoint, hlead,
        htrail]
    rw [List.cons_append, List.cons_append, List.cons_append, List.singleton_append, scan_cons,
      hstep, if_neg (by omega)]
    rfl

/-- A byte that carries six bits goes on with a sequence. -/
theorem isContinuation_of_toNat {x : UInt8} {n : Nat} (h : x.toNat = 0x80 + n % 64) :
    isContinuation x = true := by
  simp only [isContinuation, decide_eq_true_eq]
  omega

/-- The bytes of a character are read as that character. -/
theorem scan_repairStep_ofCodePoint (c : Char) (rest : List UInt8) :
    scan repairStep (ofCodePoint c.toNat ++ rest) = c :: scan repairStep rest := by
  have hc := toNat_char c
  rcases bytes_cases c with ⟨x, hb, h, hx⟩ | ⟨x, y, hb, h, hx, hy⟩ | ⟨x, y, z, hb, h, hx, hy, hz⟩ |
    ⟨x, y, z, w, hb, h, hx, hy, hz, hw⟩ <;> rw [hb]
  · have ha : announced x = 1 := by
      rw [announced, if_pos (by omega)]
    have hstep : repairStep x rest = ([c], 0) := by
      simp [repairStep, matched, ha, hx, Char.ofNat_toNat]
    rw [List.singleton_append, scan_cons, hstep]
    rfl
  · have ha : announced x = 2 := by
      rw [announced, if_neg (by omega), if_neg (by omega), if_pos (by omega)]
    have hs : admitsSecond x y = true := by
      simp [admitsSecond, isContinuation, hx, hy]
      omega
    have hpoint : (0xC0 + c.toNat / 64) % 32 * 2 ^ 6 + (0x80 + c.toNat % 64) % 64 = c.toNat := by
      omega
    have hstep : repairStep x (y :: rest) = ([c], 1) := by
      simp only [repairStep, matched, ha, hs, if_true, List.take_zero, List.takeWhile_nil,
        List.length_nil, payload, List.getD_cons_zero, hx, hy, Nat.shiftLeft_eq, hpoint,
        Char.ofNat_toNat]
    rw [List.cons_append, List.singleton_append, scan_cons, hstep]
    rfl
  · have ha : announced x = 3 := by
      rw [announced, if_neg (by omega), if_neg (by omega), if_neg (by omega), if_pos (by omega)]
    have hs : admitsSecond x y = true := by
      simp [admitsSecond, isContinuation, hx, hy]
      omega
    have hz' : isContinuation z = true := isContinuation_of_toNat hz
    have hpoint : (0xE0 + c.toNat / 4096) % 16 * 2 ^ 12 +
        (0x80 + c.toNat / 64 % 64) % 64 * 2 ^ 6 + (0x80 + c.toNat % 64) % 64 = c.toNat := by
      omega
    have hm : matched x (y :: z :: rest) = 2 := by
      simp [matched, ha, hs, hz']
    have hstep : repairStep x (y :: z :: rest) = ([c], 2) := by
      simp only [repairStep, hm, ha, if_true, payload, List.getD_cons_zero, List.getD_cons_succ, hx,
        hy, hz, Nat.shiftLeft_eq, hpoint, Char.ofNat_toNat]
    rw [List.cons_append, List.cons_append, List.singleton_append, scan_cons, hstep]
    rfl
  · have ha : announced x = 4 := by
      rw [announced, if_neg (by omega), if_neg (by omega), if_neg (by omega), if_neg (by omega),
        if_pos (by omega)]
    have hs : admitsSecond x y = true := by
      simp [admitsSecond, isContinuation, hx, hy]
      omega
    have hz' : isContinuation z = true := isContinuation_of_toNat hz
    have hw' : isContinuation w = true := isContinuation_of_toNat hw
    have hpoint : (0xF0 + c.toNat / 262144) % 8 * 2 ^ 18 +
        (0x80 + c.toNat / 4096 % 64) % 64 * 2 ^ 12 + (0x80 + c.toNat / 64 % 64) % 64 * 2 ^ 6 +
        (0x80 + c.toNat % 64) % 64 = c.toNat := by omega
    have hm : matched x (y :: z :: w :: rest) = 3 := by
      simp [matched, ha, hs, hz', hw']
    have hstep : repairStep x (y :: z :: w :: rest) = ([c], 3) := by
      simp only [repairStep, hm, ha, if_true, payload, List.getD_cons_zero, List.getD_cons_succ, hx,
        hy, hz, hw, Nat.shiftLeft_eq, hpoint, Char.ofNat_toNat]
    rw [List.cons_append, List.cons_append, List.cons_append, List.singleton_append, scan_cons,
      hstep]
    rfl

/-- The units of the bytes of a text are its own. -/
theorem toUnits_utf8 (t : String) : toUnits t.toUTF8.data.toList = Utf16.ofText t := by
  rw [← ofUnits_ofText, List.data_toByteArray, ofUnits, Utf16.codePoints_ofText, Utf16.ofText,
    toUnits]
  induction t.toList with
  | nil => rfl
  | cons c cs ih =>
    rw [List.map_cons, List.flatMap_cons, scan_unitsStep_ofCodePoint, ih, List.flatMap_cons]

/-- A text is read back from its bytes. -/
theorem repair_utf8 (t : String) : repair t.toUTF8.data.toList = t := by
  have h : ∀ cs : List Char, scan repairStep ((cs.map Char.toNat).flatMap ofCodePoint) = cs := by
    intro cs
    induction cs with
    | nil => rfl
    | cons c cs ih => rw [List.map_cons, List.flatMap_cons, scan_repairStep_ofCodePoint, ih]
  rw [← ofUnits_ofText, List.data_toByteArray, ofUnits, Utf16.codePoints_ofText, repair, h,
    String.ofList_toList]

end Utf8

namespace Features

/-- The bytes of a text are its UTF-8 bytes, with an encoder and without. -/
theorem encode_eq (f : Features) (t : String) : f.encode t = t.toUTF8 := by
  unfold encode
  split
  · rfl
  · exact Utf8.ofUnits_ofText t

/-- Their number is told right, with an encoder and without. -/
theorem encodedSize_eq (f : Features) (t : String) : f.encodedSize t = t.toUTF8.size := by
  unfold encodedSize
  split
  · rfl
  · rw [encode_eq]

/-- A text that one host encoded is read back by any other. -/
theorem decode_encode_of_any (f g : Features) (t : String) : g.decode (f.encode t) = t := by
  rw [encode_eq]
  unfold decode
  split
  · exact Utf8.repair_utf8 t
  · rw [Utf8.toUnits_utf8, Utf16.repair_ofText]

end Features

end Crossing
