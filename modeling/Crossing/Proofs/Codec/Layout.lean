import Crossing.Proofs.Instance.Reads

/-!
# The layout of values in guest memory

What guest memory has to look like for a slot to hold a value, said of bytes at positions and
without a word on how they are read. `Buffer.Shows` is one element, `Instance.ShowsText` a text,
`Instance.ShowsTable` a table. `Instance.Leaf` gives the payload of the kinds that lead to no other
slot and wrap no closure; `Instance.Derives` adds closures and, with their items one slot behind the
other, arrays and objects.

Positions are natural numbers, so nothing wraps around. Since a closure is wrapped each time it is
read, a derivation counts the closures wrapped before it and lists those that it wraps itself.
-/

namespace Crossing

/-! ## Tags -/

/-- A tag byte stands for one kind. -/
theorem SlotKind.ofTag_eq_ok_iff {tag : UInt8} {kind : SlotKind} :
    ofTag tag = .ok kind ↔ tag = kind.tag := by
  constructor
  · unfold ofTag
    intro h
    rw [← UInt8.toNat_inj]
    split at h <;> cases h <;> assumption
  · rintro rfl
    exact ofTag_tag kind

/-- A tag is that of a kind of element exactly when it is the kind's own. -/
theorem ElementKind.ofTag_eq_ok_iff {tag : UInt32} {kind : ElementKind} :
    ofTag tag = .ok kind ↔ tag = kind.tag := by
  constructor
  · unfold ofTag
    intro h
    rw [← UInt32.toNat_inj]
    split at h <;> cases h <;> assumption
  · rintro rfl
    exact ofTag_tag kind

section
variable {Code : Type}

/-! ## Slots, texts and tables -/

namespace Instance

/-- The kind stands in the slot at position `p`. -/
def ShowsKind (i : Instance Code) (p : Nat) (kind : SlotKind) : Prop :=
  i.guest.buffer.Shows .u8 (p + 12) kind.tag

/-- The text whose pointer and length stand at position `p`: its bytes lie in memory, and they are
read with what the host brings along. -/
def ShowsText (i : Instance Code) (p : Nat) (t : String) : Prop :=
  ∃ pointer length : UInt32,
    i.guest.buffer.Shows .u32 p pointer ∧ i.guest.buffer.Shows .u32 (p + 4) length ∧
      pointer.toNat + length.toNat ≤ i.guest.buffer.bytes.size ∧
        i.config.features.decode (i.guest.buffer.bytes.extract pointer.toNat
          (pointer.toNat + length.toNat)) = t

/-- The table whose offset stands at position `p`: it begins that far behind the base of the arena,
and its `count` entries of `stride` bytes lie in memory. -/
structure ShowsTable (i : Instance Code) (p base count stride : Nat) : Prop where
  offset : ∃ offset : UInt32, i.guest.buffer.Shows .u32 p offset ∧
    base = i.config.arenaBase.toNat + offset.toNat
  inside : base + count * stride ≤ i.guest.buffer.bytes.size

/-- A table inside of memory begins at an address. -/
theorem ShowsTable.exists_word {i : Instance Code} {p base count stride : Nat}
    (h : i.ShowsTable p base count stride)
    (hsize : i.guest.buffer.bytes.size ≤ 65535 * 65536) :
    ∃ address : UInt32, address.toNat = base := by
  have hinside := h.inside
  exact ⟨UInt32.ofNat base, UInt32.toNat_ofNat_of_lt' (by
    show _ < 2 ^ 32
    omega)⟩

/-! ## Values -/

/-- The payload of a slot of this kind at position `p` is that of the value; the kinds that lead to
other slots or wrap a closure have none. -/
inductive Leaf (i : Instance Code) (p : Nat) : SlotKind → Value → Prop
  | undefined : Leaf i p .undefined .undefined
  | null : Leaf i p .null .null
  | boolean (b : Bool) : Leaf i p (.boolean b) (.boolean b)
  | int32 {x : Int32} : i.guest.buffer.Shows .i32 p x → Leaf i p .int32 (.number (.ofInt32 x))
  | float64 {x : Double} : i.guest.buffer.Shows .f64 p x → Leaf i p .float64 (.number x)
  | string {t : String} : i.ShowsText p t → Leaf i p .string (.string t)
  | nullHandle : i.guest.buffer.Shows .u32 p 0 → Leaf i p .handle .null
  | handle {id : UInt32} {e : HandleEntry} : i.guest.buffer.Shows .u32 p id → id ≠ 0 →
      i.handles.entries[id]? = some e → Leaf i p .handle e.value
  | raw {id : UInt32} {v : Value} : i.guest.buffer.Shows .u32 p id → i.raw.values[id]? = some v →
      Leaf i p .raw v
  | window {start length : UInt32} {kind : ElementKind} :
      i.guest.buffer.Shows .u32 p start → i.guest.buffer.Shows .u32 (p + 4) length →
      i.guest.buffer.Shows .u32 (p + 8) kind.tag →
      (start.toNat + length.toNat) * kind.size.toNat ≤ i.guest.buffer.bytes.size →
      Leaf i p .window (.window ⟨kind, i.guest.memory, start, length⟩)

mutual

/-- The slot at position `p`, inside of `depth` arrays and objects, holds the value `v` when `n`
closures have been wrapped before; `cs` are those that it wraps. -/
inductive Derives (i : Instance Code) : Nat → Nat → Nat → Value → List Closure → Prop
  | leaf {depth p n : Nat} {kind : SlotKind} {v : Value} :
      i.ShowsKind p kind → i.Leaf p kind v → Derives i depth p n v []
  | closure {depth p n : Nat} {kind : ClosureKind} {adapter pointer deallocator : UInt32} :
      i.ShowsKind p (.closure kind) → i.guest.buffer.Shows .u32 p adapter →
      i.guest.buffer.Shows .u32 (p + 4) pointer → i.guest.buffer.Shows .u32 (p + 8) deallocator →
      Derives i depth p n (.closure n) [{ kind, adapter, pointer, deallocator }]
  | array {depth p n base : Nat} {count : UInt32} {vs : List Value} {cs : List Closure} :
      i.ShowsKind p .array → depth < i.config.maxDepth →
      i.guest.buffer.Shows .u32 (p + 4) count → i.ShowsTable p base count.toNat 16 →
      vs.length = count.toNat → DerivesItems i (depth + 1) base n vs cs →
      Derives i depth p n (.array vs) cs
  | object {depth p n values keys : Nat} {count : UInt32} {es : List (String × Value)}
      {cs : List Closure} :
      i.ShowsKind p .object → depth < i.config.maxDepth →
      i.guest.buffer.Shows .u32 (p + 4) count → i.ShowsTable p values count.toNat 16 →
      i.ShowsTable (p + 8) keys count.toNat 8 →
      es.length = count.toNat → DerivesPairs i (depth + 1) keys values n es cs →
      Derives i depth p n (.object (Entries.ofPairs es)) cs

/-- The slots from position `p` on hold the values, one behind the other. -/
inductive DerivesItems (i : Instance Code) :
    Nat → Nat → Nat → List Value → List Closure → Prop
  | nil {depth p n : Nat} : DerivesItems i depth p n [] []
  | cons {depth p n : Nat} {v : Value} {vs : List Value} {cs ds : List Closure} :
      Derives i depth p n v cs → DerivesItems i depth (p + 16) (n + cs.length) vs ds →
      DerivesItems i depth p n (v :: vs) (cs ++ ds)

/-- The keys from position `k` on and the slots from position `p` on hold the pairs. -/
inductive DerivesPairs (i : Instance Code) :
    Nat → Nat → Nat → Nat → List (String × Value) → List Closure → Prop
  | nil {depth k p n : Nat} : DerivesPairs i depth k p n [] []
  | cons {depth k p n : Nat} {key : String} {v : Value} {es : List (String × Value)}
      {cs ds : List Closure} :
      i.ShowsText k key → Derives i depth p n v cs →
      DerivesPairs i depth (k + 8) (p + 16) (n + cs.length) es ds →
      DerivesPairs i depth k p n ((key, v) :: es) (cs ++ ds)

end

variable {i : Instance Code} {depth p n : Nat} {v : Value} {cs : List Closure}

/-- A value is derived from a slot with a kind. -/
theorem Derives.exists_kind (h : Derives i depth p n v cs) : ∃ kind, i.ShowsKind p kind := by
  cases h <;> exact ⟨_, by assumption⟩

/-- A value is derived from a slot inside of memory. -/
theorem Derives.inside (h : Derives i depth p n v cs) : p + 13 ≤ i.guest.buffer.bytes.size := by
  have h1 : ElementKind.u8.size.toNat = 1 := rfl
  obtain ⟨kind, hkind⟩ := h.exists_kind
  have := hkind.inside
  omega

mutual

/-- Whether a slot holds a value does not depend on how many closures were wrapped before. -/
theorem Derives.renumber (n' : Nat) : ∀ {depth p n : Nat} {v : Value} {cs : List Closure},
    Derives i depth p n v cs → ∃ v', Derives i depth p n' v' cs
  | _, _, _, _, _, .leaf hkind hleaf => ⟨_, .leaf hkind hleaf⟩
  | _, _, _, _, _, .closure hkind h₀ h₁ h₂ => ⟨_, .closure hkind h₀ h₁ h₂⟩
  | _, _, _, _, _, .array hkind hdepth hcount htable hlength hitems =>
    have ⟨_, hlength', hitems'⟩ := hitems.renumber n'
    ⟨_, .array hkind hdepth hcount htable (hlength'.trans hlength) hitems'⟩
  | _, _, _, _, _, .object hkind hdepth hcount hvalues hkeys hlength hpairs =>
    have ⟨_, hlength', hpairs'⟩ := hpairs.renumber n'
    ⟨_, .object hkind hdepth hcount hvalues hkeys (hlength'.trans hlength) hpairs'⟩

/-- With other closures wrapped before, items are held under other numbers, and the same closures
are wrapped. -/
theorem DerivesItems.renumber (n' : Nat) :
    ∀ {depth p n : Nat} {vs : List Value} {cs : List Closure}, DerivesItems i depth p n vs cs →
      ∃ vs', vs'.length = vs.length ∧ DerivesItems i depth p n' vs' cs
  | _, _, _, _, _, .nil => ⟨[], rfl, .nil⟩
  | _, _, _, _, _, .cons hv hvs =>
    have ⟨_, hv'⟩ := hv.renumber n'
    have ⟨_, hlength, hvs'⟩ := hvs.renumber _
    ⟨_ :: _, congrArg Nat.succ hlength, .cons hv' hvs'⟩

/-- So are pairs. -/
theorem DerivesPairs.renumber (n' : Nat) :
    ∀ {depth k p n : Nat} {es : List (String × Value)} {cs : List Closure},
      DerivesPairs i depth k p n es cs →
        ∃ es', es'.length = es.length ∧ DerivesPairs i depth k p n' es' cs
  | _, _, _, _, _, _, .nil => ⟨[], rfl, .nil⟩
  | _, _, _, _, _, _, .cons hkey hv hes =>
    have ⟨_, hv'⟩ := hv.renumber n'
    have ⟨_, hlength, hes'⟩ := hes.renumber _
    ⟨_ :: _, congrArg Nat.succ hlength, .cons hkey hv' hes'⟩

end

/-! ## By the kind of a slot -/

/-- One kind stands in a slot. -/
theorem ShowsKind.unique {k k' : SlotKind} (h : i.ShowsKind p k) (h' : i.ShowsKind p k') :
    k = k' := by
  have htag : Except.ok k = (Except.ok k' : Except Fault SlotKind) := by
    rw [← SlotKind.ofTag_tag k, ← SlotKind.ofTag_tag k', Buffer.Shows.unique h h']
  exact Except.ok.inj htag

/-- A slot that leads to no other and wraps no closure holds the value of its payload. -/
theorem derives_leaf_iff {kind : SlotKind} (h : i.ShowsKind p kind)
    (harray : kind ≠ .array) (hobject : kind ≠ .object) (hclosure : ∀ k, kind ≠ .closure k) :
    Derives i depth p n v cs ↔ i.Leaf p kind v ∧ cs = [] := by
  constructor
  · rintro (⟨h', hleaf⟩ | ⟨h', -, -, -⟩ | ⟨h', -, -, -, -, -⟩ | ⟨h', -, -, -, -, -, -⟩)
    · exact ⟨h.unique h' ▸ hleaf, rfl⟩
    · exact absurd (h.unique h') (hclosure _)
    · exact absurd (h.unique h') harray
    · exact absurd (h.unique h') hobject
  · rintro ⟨hleaf, rfl⟩
    exact .leaf h hleaf

/-- The slot of a closure holds the next closure, with the three words in it. -/
theorem derives_closure_iff {kind : ClosureKind} (h : i.ShowsKind p (.closure kind)) :
    Derives i depth p n v cs ↔ ∃ adapter pointer deallocator,
      i.guest.buffer.Shows .u32 p adapter ∧ i.guest.buffer.Shows .u32 (p + 4) pointer ∧
        i.guest.buffer.Shows .u32 (p + 8) deallocator ∧
          v = .closure n ∧ cs = [{ kind, adapter, pointer, deallocator }] := by
  constructor
  · rintro (⟨h', hleaf⟩ | ⟨h', h₀, h₁, h₂⟩ | ⟨h', -, -, -, -, -⟩ | ⟨h', -, -, -, -, -, -⟩)
    · rw [← h.unique h'] at hleaf
      cases hleaf
    · cases h.unique h'
      exact ⟨_, _, _, h₀, h₁, h₂, rfl, rfl⟩
    · cases h.unique h'
    · cases h.unique h'
  · rintro ⟨adapter, pointer, deallocator, h₀, h₁, h₂, rfl, rfl⟩
    exact .closure h h₀ h₁ h₂

/-- The slot of an array holds the items of its table, where one more may be opened. -/
theorem derives_array_iff (h : i.ShowsKind p .array) :
    Derives i depth p n v cs ↔ depth < i.config.maxDepth ∧ ∃ base count vs,
      i.guest.buffer.Shows .u32 (p + 4) count ∧ i.ShowsTable p base count.toNat 16 ∧
        vs.length = count.toNat ∧ DerivesItems i (depth + 1) base n vs cs ∧ v = .array vs := by
  constructor
  · rintro (⟨h', hleaf⟩ | ⟨h', -, -, -⟩ | ⟨h', hdepth, hcount, htable, hlength, hitems⟩ |
      ⟨h', -, -, -, -, -, -⟩)
    · rw [← h.unique h'] at hleaf
      cases hleaf
    · cases h.unique h'
    · exact ⟨hdepth, _, _, _, hcount, htable, hlength, hitems, rfl⟩
    · cases h.unique h'
  · rintro ⟨hdepth, base, count, vs, hcount, htable, hlength, hitems, rfl⟩
    exact .array h hdepth hcount htable hlength hitems

/-- The slot of an object holds the pairs of its two tables, where one more may be opened, and a key
that comes again gives its value to the first. -/
theorem derives_object_iff (h : i.ShowsKind p .object) :
    Derives i depth p n v cs ↔ depth < i.config.maxDepth ∧ ∃ values keys count es,
      i.guest.buffer.Shows .u32 (p + 4) count ∧ i.ShowsTable p values count.toNat 16 ∧
        i.ShowsTable (p + 8) keys count.toNat 8 ∧ es.length = count.toNat ∧
          DerivesPairs i (depth + 1) keys values n es cs ∧
            v = .object (Entries.ofPairs es) := by
  constructor
  · rintro (⟨h', hleaf⟩ | ⟨h', -, -, -⟩ | ⟨h', -, -, -, -, -⟩ |
      ⟨h', hdepth, hcount, hvalues, hkeys, hlength, hpairs⟩)
    · rw [← h.unique h'] at hleaf
      cases hleaf
    · cases h.unique h'
    · cases h.unique h'
    · exact ⟨hdepth, _, _, _, _, hcount, hvalues, hkeys, hlength, hpairs, rfl⟩
  · rintro ⟨hdepth, values, keys, count, es, hcount, hvalues, hkeys, hlength, hpairs, rfl⟩
    exact .object h hdepth hcount hvalues hkeys hlength hpairs

end Instance

end

end Crossing
