import Crossing.Proofs.Instance.Exec
import Crossing.Proofs.Memory.Access

/-!
# Walks over tables

A table is checked as a whole before it is walked, and the walk computes the address of each entry
anew: the check multiplies and adds up the table's end, the walk an entry's beginning, each with a
test for overflow of its own. The two agree (`Buffer.checkTable_eq_ok_iff_hasEntry`): a table is
accepted exactly when its last entry has an address and can be read, and so can all before it then.

`entryAddressOr`, `decodeArrayOr` and `decodeObjectOr` leave open what a walk does at an entry
without an address. Nothing depends on it, since no walk comes to such an entry
(`checkTable_walks`).
-/

namespace Crossing

open Effect

/-! ## Entries -/

namespace Buffer

variable {b : Buffer} {base count stride index : UInt32}

/-- The entry has an address, computed without overflow, and all its bytes can be read there. -/
def HasEntry (b : Buffer) (base index stride : UInt32) : Prop :=
  ∃ a, Slot.entry? base index stride = some a ∧
    a.toNat = base.toNat + index.toNat * stride.toNat ∧
    ∃ bytes, b.read a stride.toNat = .ok bytes ∧ bytes.size = stride.toNat

/-- An entry lies in the buffer as a whole or cannot be read. -/
theorem hasEntry_iff (h : b.bytes.size < UInt32.size) :
    b.HasEntry base index stride ↔
      base.toNat + index.toNat * stride.toNat + stride.toNat ≤ b.bytes.size := by
  constructor
  · rintro ⟨a, -, ha, bytes, hread, -⟩
    have hin := (read_eq_ok_iff.1 hread).1
    omega
  · intro hin
    have hword : base.toNat + index.toNat * stride.toNat < UInt32.size := by omega
    have ha := UInt32.toNat_ofNat_of_lt' hword
    refine ⟨_, Slot.entry?_eq_some_iff.2 ha.symm, ha, _, read_eq_ok_iff.2 ⟨by omega, rfl⟩, ?_⟩
    rw [ByteArray.size_extract]
    omega

/-- An entry that cannot be read has no address, or lies outside of the buffer in part. -/
theorem not_hasEntry (h : ¬ b.HasEntry base index stride) :
    Slot.entry? base index stride = none ∨
      ∃ a x, Slot.entry? base index stride = some a ∧ b.read a stride.toNat = .error x := by
  cases ha : Slot.entry? base index stride with
  | none => exact .inl rfl
  | some a =>
    refine .inr ⟨a, ?_⟩
    cases hread : b.read a stride.toNat with
    | error x => exact ⟨x, rfl, rfl⟩
    | ok bytes =>
      obtain ⟨hin, rfl⟩ := read_eq_ok_iff.1 hread
      refine absurd ⟨a, ha, (Slot.entry?_eq_some_iff.1 ha).symm, _, hread, ?_⟩ h
      rw [ByteArray.size_extract]
      omega

/-- In a table of some entries the last one ends where the table ends. -/
theorem toNat_pred_mul (h : 0 < count) :
    (count - 1).toNat * stride.toNat + stride.toNat = count.toNat * stride.toNat := by
  have hpos : 1 ≤ count.toNat := UInt32.lt_iff_toNat_lt.1 h
  have hpred : (count - 1).toNat = count.toNat - 1 :=
    UInt32.toNat_sub_of_le _ _ (UInt32.le_iff_toNat_le.2 hpos)
  rw [hpred, ← Nat.succ_mul, Nat.succ_eq_add_one, Nat.sub_add_cancel hpos]

/-- A table of some entries is accepted exactly when its last entry can be read. -/
theorem checkTable_eq_ok_iff_hasEntry (h : b.bytes.size < UInt32.size) (hcount : 0 < count) :
    b.checkTable base count stride = .ok () ↔ b.HasEntry base (count - 1) stride := by
  rw [checkTable_eq_ok_iff h, hasEntry_iff h, Nat.add_assoc, toNat_pred_mul hcount]

/-- All entries of an accepted table can be read. -/
theorem hasEntry_of_checkTable (h : b.bytes.size < UInt32.size)
    (hcheck : b.checkTable base count stride = .ok ()) (hindex : index < count) :
    b.HasEntry base index stride := by
  rw [checkTable_eq_ok_iff h] at hcheck
  have hmul : (index.toNat + 1) * stride.toNat ≤ count.toNat * stride.toNat :=
    Nat.mul_le_mul_right _ (UInt32.lt_iff_toNat_lt.1 hindex)
  rw [Nat.succ_mul] at hmul
  rw [hasEntry_iff h]
  omega

/-- The entries of an accepted table have addresses, however large the buffer is. -/
theorem exists_entry?_of_checkTable (h : b.checkTable base count stride = .ok ())
    (hindex : index < count) : ∃ a, Slot.entry? base index stride = some a := by
  rw [checkTable_eq_ok_iff_length] at h
  have hmul : index.toNat * stride.toNat ≤ count.toNat * stride.toNat :=
    Nat.mul_le_mul_right _ (Nat.le_of_lt (UInt32.lt_iff_toNat_lt.1 hindex))
  have hword : base.toNat + index.toNat * stride.toNat < UInt32.size :=
    Nat.lt_of_le_of_lt (by omega) b.length.toNat_lt
  exact ⟨_, Slot.entry?_eq_some_iff.2 (UInt32.toNat_ofNat_of_lt' hword).symm⟩

end Buffer

/-! ## Walks -/

section
variable {Code α β : Type}

namespace Effect

/-- What a walk does at an entry without an address, by the table's base and stride. -/
abbrev Overflow (Code : Type) : Type := UInt32 → UInt32 → Effect Code UInt32

/-- The address of an entry of a table, with `overflow` at an entry without one. -/
def entryAddressOr (overflow : Overflow Code) (base index stride : UInt32) :
    Effect Code UInt32 := do
  match Slot.entry? base index stride with
  | some a => return a
  | none => overflow base stride

/-- Reads an array as `decodeArray` does, with `overflow` at an item without an address. -/
def decodeArrayOr (overflow : Overflow Code) (item : UInt32 → Effect Code Value)
    (address : UInt32) : Effect Code Value := do
  let base ← tableAt address 0
  let count ← readWord address 1
  checkTable base count Slot.size
  let items ← (List.range count.toNat).mapM fun i => do
    item (← entryAddressOr overflow base i.toUInt32 Slot.size)
  return .array items

/-- Reads an object as `decodeObject` does, with `overflow` at a key or value without an address. -/
def decodeObjectOr (overflow : Overflow Code) (item : UInt32 → Effect Code Value)
    (address : UInt32) : Effect Code Value := do
  let values ← tableAt address 0
  let count ← readWord address 1
  let keys ← tableAt address 2
  checkTable values count Slot.size
  checkTable keys count Slot.keySize
  let pairs ← (List.range count.toNat).mapM fun i => do
    let key ← decodeText (← entryAddressOr overflow keys i.toUInt32 Slot.keySize)
    let value ← item (← entryAddressOr overflow values i.toUInt32 Slot.size)
    return (key, value)
  return .object (Entries.ofPairs pairs)

/-- The fault of an entry without an address. -/
def entryFault : Overflow Code := fun base stride => do
  throw ((← buffer (← views).buffer).outOfBounds base stride)

variable (overflow : Overflow Code) (item : UInt32 → Effect Code Value) (address : UInt32)
  {base count stride : UInt32}

theorem decodeArray_eq : decodeArray item address = decodeArrayOr entryFault item address := rfl

theorem decodeObject_eq : decodeObject item address = decodeObjectOr entryFault item address := rfl

/-- What follows a table's check runs for accepted tables only. -/
theorem checkTable_bind_congr {f g : Unit → Effect Code α}
    (h : ∀ b : Buffer, b.checkTable base count stride = .ok () → f () = g ()) :
    checkTable base count stride >>= f = checkTable base count stride >>= g := by
  simp only [checkTable, bind_assoc]
  refine congrArg _ (funext fun v => congrArg _ (funext fun b => ?_))
  cases hcheck : b.checkTable base count stride with
  | error x => rfl
  | ok u => exact h b hcheck

/-- A walk depends on what is done at the members of the list. -/
theorem mapM_congr {f g : α → Effect Code β} {as : List α} (h : ∀ a ∈ as, f a = g a) :
    as.mapM f = as.mapM g := by
  induction as with
  | nil => rfl
  | cons a as ih =>
    rw [List.mapM_cons, List.mapM_cons, h a List.mem_cons_self,
      ih fun a' ha' => h a' (List.mem_cons_of_mem _ ha')]

/-- In an accepted table it does not matter what is done at an entry without an address. -/
theorem entryAddressOr_congr {b : Buffer} (h : b.checkTable base count stride = .ok ()) {k : Nat}
    (hk : k ∈ List.range count.toNat) (overflow' : Overflow Code) :
    entryAddressOr overflow base k.toUInt32 stride =
      entryAddressOr overflow' base k.toUInt32 stride := by
  have hlt : k < count.toNat := List.mem_range.1 hk
  have hindex : k.toUInt32 < count := by
    rw [UInt32.lt_iff_toNat_lt]
    exact Nat.lt_of_le_of_lt (Nat.mod_le k _) hlt
  obtain ⟨a, ha⟩ := Buffer.exists_entry?_of_checkTable h hindex
  unfold entryAddressOr
  rw [ha]

/-- The walk over an array never comes to an item without an address. -/
theorem decodeArrayOr_congr (overflow' : Overflow Code) :
    decodeArrayOr overflow item address = decodeArrayOr overflow' item address := by
  unfold decodeArrayOr
  refine congrArg _ (funext fun base => congrArg _ (funext fun count => ?_))
  refine checkTable_bind_congr fun b hcheck => ?_
  rw [mapM_congr fun k hk => ?_]
  rw [entryAddressOr_congr overflow hcheck hk overflow']

/-- The walk over an object never comes to a key or a value without an address. -/
theorem decodeObjectOr_congr (overflow' : Overflow Code) :
    decodeObjectOr overflow item address = decodeObjectOr overflow' item address := by
  unfold decodeObjectOr
  refine congrArg _ (funext fun values => congrArg _ (funext fun count =>
    congrArg _ (funext fun keys => ?_)))
  refine checkTable_bind_congr fun b hvalues => checkTable_bind_congr fun b' hkeys => ?_
  rw [mapM_congr fun k hk => ?_]
  rw [entryAddressOr_congr overflow hkeys hk overflow',
    entryAddressOr_congr overflow hvalues hk overflow']

end Effect

/-- In a buffer that words can address: every entry of an accepted table has an address and can be
read there as a whole, and where a table of some entries is refused, its last entry has no address
or cannot be read as a whole. Arrays and objects are decoded to the same end whatever is done at an
entry without an address, so the walk over a table that was accepted never comes to one. -/
theorem Buffer.checkTable_walks (b : Buffer) (h : b.bytes.size < UInt32.size)
    (base count stride : UInt32) :
    (b.checkTable base count stride = .ok () →
      ∀ index, index < count → b.HasEntry base index stride) ∧
    (∀ x, b.checkTable base count stride = .error x → 0 < count →
      Slot.entry? base (count - 1) stride = none ∨
        ∃ a y, Slot.entry? base (count - 1) stride = some a ∧ b.read a stride.toNat = .error y) ∧
    ∀ (overflow : Overflow Code) (item : UInt32 → Effect Code Value) (address : UInt32),
      decodeArray item address = decodeArrayOr overflow item address ∧
      decodeObject item address = decodeObjectOr overflow item address := by
  refine ⟨fun hcheck index => hasEntry_of_checkTable h hcheck, fun x hcheck hcount => ?_,
    fun overflow item address => ⟨?_, ?_⟩⟩
  · refine not_hasEntry fun hlast => ?_
    rw [(checkTable_eq_ok_iff_hasEntry h hcount).2 hlast] at hcheck
    cases hcheck
  · rw [decodeArray_eq]
    exact decodeArrayOr_congr _ _ _ _
  · rw [decodeObject_eq]
    exact decodeObjectOr_congr _ _ _ _

end

/-- In sixty-four bytes there is room for two slots from the middle on, but not for a table whose
end leaves the address space. -/
theorem Buffer.checkTable_walks_zeros :
    (zeros 64).bytes.size < UInt32.size ∧
      (zeros 64).checkTable 32 2 16 = .ok () ∧ (zeros 64).HasEntry 32 1 16 ∧
      (∃ x, (zeros 64).checkTable 16 0xFFFFFFFF 16 = .error x) ∧
      Slot.entry? 16 0xFFFFFFFE 16 = none := by
  have hsize : (zeros 64).bytes.size = 64 := size_zeroBytes 64
  have hlt : (zeros 64).bytes.size < UInt32.size := by rw [hsize]; decide
  have hok : (zeros 64).checkTable 32 2 16 = .ok () :=
    (checkTable_eq_ok_iff hlt).2 (by rw [hsize]; decide)
  have hnot : (zeros 64).checkTable 16 0xFFFFFFFF 16 ≠ .ok () := by
    rw [ne_eq, checkTable_eq_ok_iff hlt, hsize]
    decide
  obtain ⟨x, hx⟩ : ∃ x, (zeros 64).checkTable 16 0xFFFFFFFF 16 = .error x := by
    cases hcheck : (zeros 64).checkTable 16 0xFFFFFFFF 16 with
    | error x => exact ⟨x, rfl⟩
    | ok u => exact absurd hcheck hnot
  obtain ⟨hentries, -, -⟩ := @checkTable_walks Unit _ hlt 32 2 16
  obtain ⟨-, hlast, -⟩ := @checkTable_walks Unit _ hlt 16 0xFFFFFFFF 16
  refine ⟨hlt, hok, hentries hok 1 (by decide), ⟨x, hx⟩, ?_⟩
  refine (hlast x hx (by decide)).resolve_right ?_
  rintro ⟨a, y, ha, -⟩
  rw [Slot.entry?_eq_some_iff] at ha
  have hword := a.toNat_lt
  rw [← ha] at hword
  exact absurd hword (by decide)

end Crossing
