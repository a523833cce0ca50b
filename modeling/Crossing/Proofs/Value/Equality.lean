import Crossing.Value.Basic

/-!
# Equality of values is an equivalence

`Double.sameValueZero` compares by a key that forgets the payload of a NaN and the sign of a zero
(`Double.sameValueZero_iff`), so it is an equivalence; `Value.same_refl`, `Value.same_symm` and
`Value.same_trans` lift that through arrays and objects. For the handle table it matters that
equality and identity agree: a value with an identity is equal to exactly the values of that
identity (`Value.same_eq_of_identity?`), and equal values have the same identity
(`Value.identity?_eq_of_same`).
-/

namespace Crossing

namespace Double

/-- What equality of values sees of a number: the bits, except that all NaNs look alike and both
zeros do. -/
def key (x : Double) : Option UInt64 :=
  if x.isNaN then none else if x.isZero then some 0 else some x.bits

/-- A number whose bits are all zero is a zero. -/
theorem isZero_of_bits_eq_zero {x : Double} (h : x.bits = 0) : x.isZero = true := by
  simp [isZero, h]

/-- Numbers are the same exactly when their keys are. -/
theorem sameValueZero_iff {x y : Double} : x.sameValueZero y = true ↔ x.key = y.key := by
  have hx : x.isZero = false → x.bits ≠ 0 := fun h h0 => by
    rw [isZero_of_bits_eq_zero h0] at h; cases h
  have hy : y.isZero = false → y.bits ≠ 0 := fun h h0 => by
    rw [isZero_of_bits_eq_zero h0] at h; cases h
  have hb : x.bits = y.bits → x.isZero = y.isZero ∧ x.isNaN = y.isNaN := fun h => by
    obtain ⟨_⟩ := x
    obtain ⟨_⟩ := y
    cases h
    exact ⟨rfl, rfl⟩
  unfold sameValueZero numericEq key
  cases hxn : x.isNaN <;> cases hyn : y.isNaN <;> cases hxz : x.isZero <;> cases hyz : y.isZero <;>
    grind

/-- A number is the same as itself, even if it is none. -/
theorem sameValueZero_refl (x : Double) : x.sameValueZero x = true := sameValueZero_iff.2 rfl

/-- That goes both ways. -/
theorem sameValueZero_symm {x y : Double} (h : x.sameValueZero y = true) :
    y.sameValueZero x = true :=
  sameValueZero_iff.2 (sameValueZero_iff.1 h).symm

/-- It goes from one to the next. -/
theorem sameValueZero_trans {x y z : Double} (h : x.sameValueZero y = true)
    (h' : y.sameValueZero z = true) : x.sameValueZero z = true :=
  sameValueZero_iff.2 ((sameValueZero_iff.1 h).trans (sameValueZero_iff.1 h'))

end Double

namespace Value

/-! ## The three laws -/

mutual

/-- Every value is equal to itself, a NaN too. -/
theorem same_refl : ∀ v : Value, same v v = true
  | .undefined | .null => rfl
  | .boolean _ | .string _ | .symbol _ | .reference _ | .closure _ | .window _ => by simp [same]
  | .number x => x.sameValueZero_refl
  | .array items => sameItems_refl items
  | .object entries => sameEntries_refl entries

/-- Items are the same as themselves. -/
theorem sameItems_refl : ∀ vs : List Value, sameItems vs vs = true
  | [] => rfl
  | v :: vs => by
    rw [sameItems, same_refl v, sameItems_refl vs]
    rfl

/-- So are properties. -/
theorem sameEntries_refl : ∀ es : List (String × Value), sameEntries es es = true
  | [] => rfl
  | (k, v) :: es => by
    rw [sameEntries, same_refl v, sameEntries_refl es, beq_self_eq_true]
    rfl

end

mutual

/-- Equality of values is symmetric. -/
theorem same_symm : ∀ {a b : Value}, same a b = true → same b a = true
  | .undefined, b, h | .null, b, h => by cases b <;> simp_all [same]
  | .boolean _, b, h | .string _, b, h | .symbol _, b, h | .reference _, b, h
  | .closure _, b, h | .window _, b, h => by cases b <;> simp_all [same]
  | .number _, b, h => by
    cases b <;> simp only [same, Bool.false_eq_true] at h
    exact Double.sameValueZero_symm h
  | .array _, b, h => by
    cases b <;> simp only [same, Bool.false_eq_true] at h
    exact sameItems_symm h
  | .object _, b, h => by
    cases b <;> simp only [same, Bool.false_eq_true] at h
    exact sameEntries_symm h

/-- That items are the same goes both ways. -/
theorem sameItems_symm : ∀ {as bs : List Value}, sameItems as bs = true → sameItems bs as = true
  | [], [], _ => rfl
  | [], _ :: _, h | _ :: _, [], h => by simp [sameItems] at h
  | a :: as, b :: bs, h => by
    rw [sameItems, Bool.and_eq_true] at h ⊢
    exact ⟨same_symm h.1, sameItems_symm h.2⟩

/-- So it does for properties. -/
theorem sameEntries_symm :
    ∀ {as bs : List (String × Value)}, sameEntries as bs = true → sameEntries bs as = true
  | [], [], _ => rfl
  | [], _ :: _, h | _ :: _, [], h => by simp [sameEntries] at h
  | (k, a) :: as, (l, b) :: bs, h => by
    rw [sameEntries, Bool.and_eq_true, Bool.and_eq_true] at h ⊢
    exact ⟨⟨beq_iff_eq.2 (beq_iff_eq.1 h.1.1).symm, same_symm h.1.2⟩, sameEntries_symm h.2⟩

end

mutual

/-- Equality of values is transitive. -/
theorem same_trans : ∀ {a b c : Value}, same a b = true → same b c = true → same a c = true
  | .undefined, b, c, h, h' | .null, b, c, h, h' => by
    cases b <;> simp only [same, Bool.false_eq_true] at h
    exact h'
  | .boolean _, b, c, h, h' | .string _, b, c, h, h' | .symbol _, b, c, h, h'
  | .reference _, b, c, h, h' | .closure _, b, c, h, h' | .window _, b, c, h, h' => by
    cases b <;> cases c <;> simp_all [same]
  | .number _, b, c, h, h' => by
    cases b <;> simp only [same, Bool.false_eq_true] at h
    cases c <;> simp only [same, Bool.false_eq_true] at h'
    exact Double.sameValueZero_trans h h'
  | .array _, b, c, h, h' => by
    cases b <;> simp only [same, Bool.false_eq_true] at h
    cases c <;> simp only [same, Bool.false_eq_true] at h'
    exact sameItems_trans h h'
  | .object _, b, c, h, h' => by
    cases b <;> simp only [same, Bool.false_eq_true] at h
    cases c <;> simp only [same, Bool.false_eq_true] at h'
    exact sameEntries_trans h h'

/-- That items are the same goes from one list to the next. -/
theorem sameItems_trans : ∀ {as bs cs : List Value},
    sameItems as bs = true → sameItems bs cs = true → sameItems as cs = true
  | [], [], _, _, h' => h'
  | [], _ :: _, _, h, _ | _ :: _, [], _, h, _ => by simp [sameItems] at h
  | _ :: _, _ :: _, [], _, h' => by simp [sameItems] at h'
  | a :: as, b :: bs, c :: cs, h, h' => by
    rw [sameItems, Bool.and_eq_true] at h h' ⊢
    exact ⟨same_trans h.1 h'.1, sameItems_trans h.2 h'.2⟩

/-- So it does for properties. -/
theorem sameEntries_trans : ∀ {as bs cs : List (String × Value)},
    sameEntries as bs = true → sameEntries bs cs = true → sameEntries as cs = true
  | [], [], _, _, h' => h'
  | [], _ :: _, _, h, _ | _ :: _, [], _, h, _ => by simp [sameEntries] at h
  | _ :: _, _ :: _, [], _, h' => by simp [sameEntries] at h'
  | (k, a) :: as, (l, b) :: bs, (m, c) :: cs, h, h' => by
    rw [sameEntries, Bool.and_eq_true, Bool.and_eq_true] at h h' ⊢
    exact ⟨⟨beq_iff_eq.2 ((beq_iff_eq.1 h.1.1).trans (beq_iff_eq.1 h'.1.1)),
      same_trans h.1.2 h'.1.2⟩, sameEntries_trans h.2 h'.2⟩

end

/-! ## Equality with texts and arrays -/

/-- What equals a text is that text. -/
theorem eq_string_of_same {v : Value} {t : String} (h : v.same (.string t) = true) :
    v = .string t := by
  cases v with
  | string s => rw [beq_iff_eq.1 (show (s == t) = true from h)]
  | _ => simp [same] at h

/-- What equals an array is an array. -/
theorem exists_of_same_array {v : Value} {items : List Value} (h : v.same (.array items) = true) :
    ∃ values, v = .array values ∧ sameItems values items = true := by
  cases v with
  | array values => exact ⟨values, rfl, by rwa [same] at h⟩
  | _ => simp [same] at h

/-! ## Equality and properties -/

/-- Equal objects have equal values under each key. -/
theorem rel_get? {as bs : List (String × Value)} (h : sameEntries as bs = true) (key : String) :
    Option.Rel (fun a b : Value => a.same b = true) (Entries.get? key as)
      (Entries.get? key bs) := by
  induction as generalizing bs with
  | nil =>
    cases bs with
    | nil => exact .none
    | cons b bs => simp [sameEntries] at h
  | cons a as ih =>
    cases bs with
    | nil => simp [sameEntries] at h
    | cons b bs =>
      obtain ⟨k, v⟩ := a
      obtain ⟨l, w⟩ := b
      rw [sameEntries, Bool.and_eq_true, Bool.and_eq_true, beq_iff_eq] at h
      obtain ⟨⟨rfl, hv⟩, hrest⟩ := h
      rw [Entries.get?, Entries.get?]
      by_cases hk : k = key
      · rw [if_pos hk, if_pos hk]
        exact .some hv
      · rw [if_neg hk, if_neg hk]
        exact ih hrest

/-! ## Equality and identity -/

/-- No host object is a closure. -/
theorem identity_ne_closure (o : HostObject) (id : Nat) :
    o.identity ≠ .closure id := by
  cases o <;> simp [HostObject.identity]

/-- Equal values have the same identity, or neither has one. -/
theorem identity?_eq_of_same {v w : Value} (h : v.same w = true) : v.identity? = w.identity? := by
  cases v <;> cases w <;> simp_all [same, identity?]

/-- To be equal to a value with an identity is to have that identity. -/
theorem same_eq_of_identity? {v w : Value} {key : Identity} (h : v.identity? = some key) :
    w.same v = decide (w.identity? = some key) := by
  cases v <;> simp only [identity?, Option.some.injEq, reduceCtorEq] at h <;> subst h <;>
    cases w <;>
      simp [same, identity?, Bool.beq_eq_decide_eq, identity_ne_closure,
        (identity_ne_closure _ _).symm]

end Value

end Crossing
