import Crossing.Text.Utf8

/-!
# What the portable decoder makes of any bytes

The portable decoder asks nothing of its bytes: stray continuation bytes, overlong forms and leads
that no character has go through the same masks as well-formed text. `Utf8.sequences` cuts the bytes
up the way the decoder reads them, one sequence a turn, and `Sequence.words` is what the masks make
of a sequence, in 32-bit words that are then narrowed to units. The sequences are all of the bytes,
no word loses a bit when it is narrowed, and there are more units than bytes only where the last
sequence is cut short and its lead announces four bytes (`Utf8.toUnits_lossless`).
-/

namespace Crossing.Utf8

/-- How many bytes follow a lead depends on the range in which it lies. -/
theorem following_cases (x : UInt8) :
    (following x = 0 ∧ x.toNat < 0x80) ∨
    (following x = 1 ∧ 0x80 ≤ x.toNat ∧ x.toNat < 0xE0) ∨
    (following x = 2 ∧ 0xE0 ≤ x.toNat ∧ x.toNat < 0xF0) ∨
    (following x = 3 ∧ 0xF0 ≤ x.toNat) := by
  unfold following
  split
  · omega
  · split
    · omega
    · split <;> omega

/-- A byte has six bits of payload. -/
theorem payload_lt (rest : List UInt8) (i : Nat) : payload rest i < 64 := Nat.mod_lt _ (by decide)

/-- Bytes that are cut off behind the payload do not count. -/
theorem payload_take {n i : Nat} (h : i < n) (rest : List UInt8) :
    payload (rest.take n) i = payload rest i := by
  simp only [payload, List.getD_eq_getElem?_getD, List.getElem?_take_of_lt h]

/-! ## Masks and shifts -/

/-- The low `k` bits of a word are its remainder by `n`, which is two to the power of `k`. -/
theorem toNat_and_mask {a m : UInt32} (k n : Nat) (hn : 1 <<< k = n) (hm : m.toNat = n - 1) :
    (a &&& m).toNat = a.toNat % n := by
  rw [Nat.one_shiftLeft] at hn
  rw [UInt32.toNat_and, hm, ← hn, Nat.and_two_pow_sub_one_eq_mod]

/-- A word is moved up by `k` bits and another one is put below it. Where the sum is a word, it is
what comes out. -/
theorem toNat_shiftLeft_or {a b k : UInt32} (n : Nat) (hk : k.toNat < 32) (hn : 1 <<< k.toNat = n)
    (ha : a.toNat * n < 1 <<< 32) (hb : b.toNat < n) :
    (a <<< k ||| b).toNat = a.toNat * n + b.toNat := by
  rw [Nat.one_shiftLeft] at hn ha
  subst hn
  rw [← Nat.shiftLeft_eq] at ha ⊢
  rw [UInt32.toNat_or, UInt32.toNat_shiftLeft, Nat.mod_eq_of_lt hk, Nat.mod_eq_of_lt ha,
    Nat.shiftLeft_add_eq_or_of_lt hb]

/-! ## Sequences -/

/-- What the decoder reads in one turn: a byte that it takes for a lead, and the bytes behind it, as
many as the lead announces unless the input ends before. -/
structure Sequence where
  lead : UInt8
  more : List UInt8
  fits : more.length ≤ following lead

namespace Sequence

/-- The sequence at the head of the bytes `x :: rest`. -/
def head (x : UInt8) (rest : List UInt8) : Sequence :=
  ⟨x, rest.take (following x), List.length_take_le _ _⟩

variable (s : Sequence)

def bytes : List UInt8 := s.lead :: s.more

/-- The input ends inside of the sequence. -/
def IsShort : Prop := s.more.length < following s.lead

/-- The low five bits of the lead. -/
def init : UInt32 := (s.lead &&& 0x1F).toUInt32

/-- The low six bits of the byte at position `i` behind the lead, zero where it is missing. -/
def tail (i : Nat) : UInt32 := (s.more.getD i 0).toUInt32 &&& 63

/-- The first two tails in one word. -/
def tails : UInt32 := s.tail 0 <<< 6 ||| s.tail 1

/-- The code point of a sequence of four bytes, which may lie above those of Unicode. -/
def point : UInt32 := (s.init &&& 7) <<< 18 ||| (s.tails <<< 6 ||| s.tail 2)

/-- The upper half of the point. -/
def high : UInt32 := (0xD7C0 : UInt32) + (s.point >>> 10)

/-- The lower half of the point. -/
def low : UInt32 := 0xDC00 + (s.point &&& 0x3FF)

/-- What is narrowed to the units of the sequence. -/
def words : List UInt32 :=
  match following s.lead with
  | 0 => [s.lead.toUInt32]
  | 1 => [s.init <<< 6 ||| s.tail 0]
  | 2 => [s.init <<< 12 ||| s.tails]
  | _ => [s.high, s.low]

/-- The bits of the lead are its lowest five. -/
theorem toNat_init : s.init.toNat = s.lead.toNat % 32 := by
  rw [init, UInt8.toUInt32_and, toNat_and_mask 5 32 (by decide) (by decide), UInt8.toNat_toUInt32]

/-- A tail is the payload of its byte. -/
theorem toNat_tail (i : Nat) : (s.tail i).toNat = payload s.more i := by
  rw [tail, toNat_and_mask 6 64 (by decide) (by decide), UInt8.toNat_toUInt32, payload]

/-- It has six bits. -/
theorem toNat_tail_lt (i : Nat) : (s.tail i).toNat < 64 := by
  rw [toNat_tail]
  exact payload_lt s.more i

/-- Two tails are put together. -/
theorem toNat_tails : s.tails.toNat = payload s.more 0 * 64 + payload s.more 1 := by
  have h₀ := s.toNat_tail_lt 0
  rw [tails, toNat_shiftLeft_or 64 (by decide) (by decide) (by omega) (s.toNat_tail_lt 1),
    toNat_tail, toNat_tail]

/-- The code point of four bytes is put together from the lead and three payloads. -/
theorem toNat_point : s.point.toNat =
    s.lead.toNat % 32 % 8 * 262144 + payload s.more 0 * 4096 + payload s.more 1 * 64 +
      payload s.more 2 := by
  have h₀ := payload_lt s.more 0
  have h₁ := payload_lt s.more 1
  have h₂ := s.toNat_tail_lt 2
  have htails := s.toNat_tails
  have hinit : (s.init &&& 7).toNat = s.lead.toNat % 32 % 8 := by
    rw [toNat_and_mask 3 8 (by decide) (by decide), toNat_init]
  have hlast : (s.tails <<< 6 ||| s.tail 2).toNat = s.tails.toNat * 64 + (s.tail 2).toNat :=
    toNat_shiftLeft_or 64 (by decide) (by decide) (by omega) h₂
  rw [point, toNat_shiftLeft_or 262144 (by decide) (by decide) (by omega) (by omega), hlast, hinit,
    htails, toNat_tail]
  omega

/-- A point has 21 bits, so its upper half has no more than eleven. -/
theorem toNat_point_lt : s.point.toNat < 0x200000 := by
  have h₀ := payload_lt s.more 0
  have h₁ := payload_lt s.more 1
  have h₂ := payload_lt s.more 2
  rw [toNat_point]
  omega

/-- The high surrogate has the upper bits of the code point. -/
theorem toNat_high : s.high.toNat = 0xD7C0 + s.point.toNat / 1024 := by
  have hpoint := s.toNat_point_lt
  have hshift : (s.point >>> 10).toNat = s.point.toNat / 1024 := by
    rw [UInt32.toNat_shiftRight, Nat.shiftRight_eq_div_pow]
    rfl
  rw [high, UInt32.toNat_add, hshift]
  exact Nat.mod_eq_of_lt (by show 0xD7C0 + _ < _; omega)

/-- The low one has its lowest ten. -/
theorem toNat_low : s.low.toNat = 0xDC00 + s.point.toNat % 1024 := by
  rw [low, UInt32.toNat_add, toNat_and_mask 10 1024 (by decide) (by decide)]
  exact Nat.mod_eq_of_lt (by show 0xDC00 + _ < _; omega)

/-- The words are the numbers that the masks and shifts stand for, as none of them leaves the 32
bits. -/
theorem toNat_words : s.words.map UInt32.toNat =
    match following s.lead with
    | 0 => [s.lead.toNat]
    | 1 => [s.lead.toNat % 32 * 64 + payload s.more 0]
    | 2 => [s.lead.toNat % 32 * 4096 + payload s.more 0 * 64 + payload s.more 1]
    | _ => [0xD7C0 + s.point.toNat / 1024, 0xDC00 + s.point.toNat % 1024] := by
  have hinit := s.toNat_init
  have htails := s.toNat_tails
  have h₀ := payload_lt s.more 0
  have h₁ := payload_lt s.more 1
  unfold words
  split
  · rw [List.map_singleton, UInt8.toNat_toUInt32]
  · rw [List.map_singleton, toNat_shiftLeft_or 64 (by decide) (by decide) (by omega)
      (s.toNat_tail_lt 0), hinit, toNat_tail]
  · rw [List.map_singleton, toNat_shiftLeft_or 4096 (by decide) (by decide) (by omega) (by omega),
      hinit, htails, Nat.add_assoc]
  · rw [List.map_cons, List.map_singleton, toNat_high, toNat_low]

/-- Every word fits a unit: of the five low bits of a lead, the first is zero where it announces
three bytes, and only three count where it announces four. -/
theorem words_lt {w : UInt32} (hw : w ∈ s.words) : w.toNat < 0x10000 := by
  have hmem : w.toNat ∈ s.words.map UInt32.toNat := List.mem_map_of_mem hw
  have h₀ := payload_lt s.more 0
  have h₁ := payload_lt s.more 1
  have hpoint := s.toNat_point_lt
  rw [toNat_words] at hmem
  rcases following_cases s.lead with ⟨hf, hx⟩ | ⟨hf, hx⟩ | ⟨hf, hx⟩ | ⟨hf, hx⟩ <;>
    simp only [hf, List.mem_cons, List.not_mem_nil, or_false] at hmem <;> omega

/-- A sequence of four bytes is two units, and any other one is one. -/
theorem length_words : s.words.length = if 0xF0 ≤ s.lead.toNat then 2 else 1 := by
  unfold words
  rcases following_cases s.lead with ⟨hf, hx⟩ | ⟨hf, hx⟩ | ⟨hf, hx⟩ | ⟨hf, hx⟩ <;>
    simp only [hf, List.length_cons, List.length_nil] <;> split <;> omega

/-- A sequence makes no more units than it has bytes, unless it is nothing but a lead that announces
three more. -/
theorem length_words_cases : s.words.length ≤ s.bytes.length ∨
    (s.words.length = s.bytes.length + 1 ∧ s.IsShort ∧ 0xF0 ≤ s.lead.toNat) := by
  rw [length_words, bytes, List.length_cons, IsShort]
  rcases following_cases s.lead with ⟨hf, hx⟩ | ⟨hf, hx⟩ | ⟨hf, hx⟩ | ⟨hf, hx⟩ <;> split <;> omega

end Sequence

/-! ## One sequence after the other -/

open Sequence (head)

/-- The bytes cut up into sequences. -/
def sequences (bytes : List UInt8) : List Sequence :=
  scan (fun x rest => ([head x rest], following x)) bytes

section
variable (x : UInt8) (rest : List UInt8)

/-- In one turn the decoder narrows the words of the sequence at the head. -/
theorem unitsStep_eq :
    unitsStep x rest = ((head x rest).words.map UInt32.toUInt16, following x) := by
  have hnarrow : (head x rest).words.map UInt32.toUInt16 =
      ((head x rest).words.map UInt32.toNat).map Nat.toUInt16 := by
    rw [List.map_map]
    rfl
  have hlead : (head x rest).lead = x := rfl
  have hmore {i : Nat} (h : i < following x) : payload (head x rest).more i = payload rest i :=
    payload_take h rest
  rw [hnarrow, Sequence.toNat_words, hlead, unitsStep]
  rcases following_cases x with ⟨hf, -⟩ | ⟨hf, -⟩ | ⟨hf, -⟩ | ⟨hf, -⟩ <;>
    simp only [hf]
  · rw [hmore (by omega), Nat.shiftLeft_eq]
  · rw [hmore (by omega), hmore (by omega), Nat.shiftLeft_eq, Nat.shiftLeft_eq]
  · rw [Sequence.toNat_point, hlead, hmore (by omega), hmore (by omega), hmore (by omega),
      Nat.shiftLeft_eq, Nat.shiftLeft_eq, Nat.shiftLeft_eq, Nat.shiftRight_eq_div_pow]

/-- Narrowing takes one sequence after the other. -/
theorem toUnits_cons :
    toUnits (x :: rest) =
      (head x rest).words.map UInt32.toUInt16 ++ toUnits (rest.drop (following x)) := by
  rw [toUnits, scan_cons, unitsStep_eq]
  rfl

/-- So does cutting the bytes into sequences. -/
theorem sequences_cons :
    sequences (x :: rest) = head x rest :: sequences (rest.drop (following x)) := by
  rw [sequences, scan_cons]
  rfl

/-- The bytes of the first sequence and those behind it are all bytes. -/
theorem bytes_head_append : (head x rest).bytes ++ rest.drop (following x) = x :: rest := by
  rw [head, Sequence.bytes, List.cons_append, List.take_append_drop]

/-- Behind a sequence that is cut short there is nothing left. -/
theorem drop_eq_nil_of_isShort (h : (head x rest).IsShort) : rest.drop (following x) = [] := by
  have hshort : (rest.take (following x)).length < following x := h
  rw [List.length_take] at hshort
  exact List.drop_eq_nil_of_le (by omega)

end

/-- Induction that passes over one sequence at a time. -/
@[elab_as_elim]
theorem sequences_induction {motive : List UInt8 → Prop} (nil : motive [])
    (cons : ∀ x rest, motive (rest.drop (following x)) → motive (x :: rest)) :
    ∀ bytes, motive bytes
  | [] => nil
  | x :: rest => cons x rest (sequences_induction nil cons (rest.drop (following x)))
termination_by bytes => bytes.length
decreasing_by
  rw [List.length_drop, List.length_cons]
  omega

/-- Every byte belongs to one sequence, none is left over. -/
theorem flatMap_sequences (bytes : List UInt8) :
    (sequences bytes).flatMap Sequence.bytes = bytes := by
  induction bytes using sequences_induction with
  | nil => rfl
  | cons x rest ih => rw [sequences_cons, List.flatMap_cons, ih, bytes_head_append]

/-- The units are the narrowed words of all sequences. -/
theorem toUnits_eq_map (bytes : List UInt8) :
    toUnits bytes = ((sequences bytes).flatMap Sequence.words).map UInt32.toUInt16 := by
  induction bytes using sequences_induction with
  | nil => rfl
  | cons x rest ih => rw [toUnits_cons, sequences_cons, List.flatMap_cons, List.map_append, ih]

/-- There are no more units than bytes, or there is one more and the bytes end inside of a sequence
that should have had four. -/
theorem length_toUnits_cases (bytes : List UInt8) :
    (toUnits bytes).length ≤ bytes.length ∨
      ((toUnits bytes).length = bytes.length + 1 ∧
        ∃ before s, sequences bytes = before ++ [s] ∧ s.IsShort ∧ 0xF0 ≤ s.lead.toNat) := by
  induction bytes using sequences_induction with
  | nil => exact .inl (Nat.le_refl 0)
  | cons x rest ih =>
    have hbytes : (x :: rest).length =
        (head x rest).bytes.length + (rest.drop (following x)).length := by
      rw [← List.length_append, bytes_head_append]
    have hunits : (toUnits (x :: rest)).length =
        (head x rest).words.length + (toUnits (rest.drop (following x))).length := by
      rw [toUnits_cons, List.length_append, List.length_map]
    rcases (head x rest).length_words_cases with hle | ⟨heq, hshort, hlead⟩
    · -- The surplus, if there is one, comes from the sequences behind.
      rcases Nat.lt_or_ge (x :: rest).length (toUnits (x :: rest)).length with hgt | hge
      · obtain hle' | ⟨heq', before, s, hs, hlast⟩ := ih
        · omega
        · refine .inr ⟨by omega, head x rest :: before, s, ?_, hlast⟩
          rw [sequences_cons, hs, List.cons_append]
      · exact .inl hge
    · -- A lead without its bytes is the last one, so the surplus cannot come twice.
      have hdrop := drop_eq_nil_of_isShort x rest hshort
      rw [hdrop] at hbytes hunits
      refine .inr ⟨by rw [hunits, hbytes, heq]; rfl, [], head x rest, ?_, hshort, hlead⟩
      rw [sequences_cons, hdrop]
      rfl

/-- What the portable decoder makes of any bytes: it reads all of them, each word that it narrows to
a unit fits the unit, and there is at most one unit more than there are bytes, which takes an input
that ends inside of a sequence whose lead announces four. -/
theorem toUnits_lossless (bytes : List UInt8) :
    (sequences bytes).flatMap Sequence.bytes = bytes ∧
      toUnits bytes = ((sequences bytes).flatMap Sequence.words).map UInt32.toUInt16 ∧
      (∀ w ∈ (sequences bytes).flatMap Sequence.words, w.toNat < 0x10000) ∧
      (toUnits bytes).length ≤ bytes.length + 1 ∧
      ((toUnits bytes).length = bytes.length + 1 →
        ∃ before s, sequences bytes = before ++ [s] ∧ s.IsShort ∧ 0xF0 ≤ s.lead.toNat) := by
  refine ⟨flatMap_sequences bytes, toUnits_eq_map bytes, fun w hw => ?_, ?_, fun h => ?_⟩
  · obtain ⟨s, -, hs⟩ := List.mem_flatMap.1 hw
    exact s.words_lt hs
  · rcases length_toUnits_cases bytes with hle | ⟨heq, -⟩ <;> omega
  · rcases length_toUnits_cases bytes with hle | ⟨-, hlast⟩
    · omega
    · exact hlast

/-- A letter and the lead of four bytes that no character has: three units of two bytes. -/
theorem toUnits_lossless_loneLead :
    (0xDEC0 ∈ (sequences [0x61, 0xFF]).flatMap Sequence.words ∧ (0xDEC0 : UInt32).toNat < 0x10000) ∧
      (toUnits [0x61, 0xFF]).length = [0x61, 0xFF].length + 1 ∧
      ∃ before s, sequences [0x61, 0xFF] = before ++ [s] ∧ s.IsShort ∧ 0xF0 ≤ s.lead.toNat := by
  have hmem : 0xDEC0 ∈ (sequences [0x61, 0xFF]).flatMap Sequence.words := by decide +kernel
  have hlength : (toUnits [0x61, 0xFF]).length = [0x61, 0xFF].length + 1 := by decide +kernel
  obtain ⟨-, -, hfits, -, hlast⟩ := toUnits_lossless [0x61, 0xFF]
  exact ⟨⟨hmem, hfits _ hmem⟩, hlength, hlast hlength⟩

/-- The greatest halves and the greatest single unit, each from a lead with all of its bits. -/
example : toUnits [0xFF, 0xFF, 0xFF, 0xFF, 0xEF, 0xFF, 0xFF] = [0xDFBF, 0xDFFF, 0xFFFF] := by
  decide +kernel

end Crossing.Utf8
