import Crossing.Handle
import Crossing.Proofs.Value.Equality
import Mathlib.Data.Set.Function

/-!
# What equality and identity owe each other

The table of handles finds a value with an identity through an index and any other one by comparing,
so it depends on equality being an equivalence and on equal values having one identity. Then equal
values are looked up alike in every table, however it came about, and are lent under one handle
(`HandleTable.lookup_congr`, `HandleTable.acquire_congr`).

An identity is seen from outside as an address. Whether that tells objects apart is up to where they
lie: `Value.same_of_address?` asks that no two live ones lie at the same place.
-/

namespace Crossing

namespace Value

/-- The address of a value with an identity, where `place` says at which address each host object
and each closure lies. -/
def address? (place : Identity → UInt64) (v : Value) : Option UInt64 := v.identity?.map place

/-- What the value refers to is among the live host objects and closures. -/
def IsLive (live : Set Identity) (v : Value) : Prop := ∀ key, v.identity? = some key → key ∈ live

variable {a b : Value} {place : Identity → UInt64} {live : Set Identity} {k : UInt64}

/-- Where live objects lie apart, values with one address are equal. -/
theorem same_of_address? (hplace : Set.InjOn place live) (ha : a.IsLive live) (hb : b.IsLive live)
    (hak : a.address? place = some k) (hbk : b.address? place = some k) : a.same b = true := by
  obtain ⟨key, hkey, rfl⟩ := Option.map_eq_some_iff.1 hak
  obtain ⟨key', hkey', hplaces⟩ := Option.map_eq_some_iff.1 hbk
  have heq : key' = key := hplace (hb key' hkey') (ha key hkey) hplaces
  subst heq
  rw [same_eq_of_identity? hkey', hkey, decide_eq_true_eq]

/-- Comparing with either of two equal values gives the same. -/
theorem same_congr_right (h : a.same b = true) (v : Value) : v.same a = v.same b :=
  Bool.eq_iff_iff.2 ⟨fun hv => same_trans hv h, fun hv => same_trans hv (same_symm h)⟩

/-- Undefined and null are equal to themselves only. -/
theorem isNullish_eq_of_same (h : a.same b = true) : a.isNullish = b.isNullish := by
  cases a <;> cases b <;> simp_all [same, isNullish]

end Value

namespace HandleTable

variable {a b : Value}

/-- Equal values are looked up alike, through the index and by comparing. -/
theorem lookup_congr (t : HandleTable) (h : a.same b = true) : t.lookup a = t.lookup b := by
  unfold lookup
  rw [Value.identity?_eq_of_same h]
  simp only [Value.same_congr_right h]

/-- Equal values are lent under one handle. -/
theorem acquire_congr (t : HandleTable) (h : a.same b = true) :
    (t.acquire a).1 = (t.acquire b).1 := by
  unfold acquire
  rw [Value.isNullish_eq_of_same h, t.lookup_congr h]
  split
  · rfl
  · split
    · split <;> rfl
    · rfl

end HandleTable

/-- Equality is an equivalence on all values, however they are nested. Equal values lie at the same
address, or neither has one, wherever host objects and closures lie; and where no two live ones lie
at the same address, values that have one address are equal. So no table of handles tells equal
values apart, neither when it looks them up nor when it lends them. -/
theorem Value.same_equivalence :
    Equivalence (fun a b : Value => a.same b = true) ∧
    (∀ (place : Identity → UInt64) (a b : Value), a.same b = true →
      a.address? place = b.address? place) ∧
    (∀ (place : Identity → UInt64) (live : Set Identity), Set.InjOn place live →
      ∀ (a b : Value) (k : UInt64), a.IsLive live → b.IsLive live →
        a.address? place = some k → b.address? place = some k → a.same b = true) ∧
    ∀ (t : HandleTable) (a b : Value), a.same b = true →
      t.lookup a = t.lookup b ∧ (t.acquire a).1 = (t.acquire b).1 := by
  refine ⟨⟨same_refl, same_symm, same_trans⟩, fun place a b h => ?_,
    fun place live hplace a b k ha hb => same_of_address? hplace ha hb,
    fun t a b h => ⟨t.lookup_congr h, t.acquire_congr h⟩⟩
  rw [address?, identity?_eq_of_same h, address?]

/-- Objects of the host lie at one address, closures at another. -/
def Value.twoPlaces : Identity → UInt64
  | .named _ | .copy _ => 32
  | .closure _ => 16

/-- A NaN with one payload and a zero with one sign in an array with an object of the host, and the
same array with other ones: they are equal, and lent under one handle. The object by itself is the
only live one at its address. -/
theorem Value.same_equivalence_nested :
    let v := Value.array [.number ⟨0x7ff8000000000001⟩, .number ⟨0x8000000000000000⟩,
      .reference (.named "h")]
    let w := Value.array [.number ⟨0xfff8000000000000⟩, .number ⟨0⟩, .reference (.named "h")]
    v.same w = true ∧ (HandleTable.empty.acquire v).1 = (HandleTable.empty.acquire w).1 ∧
      Set.InjOn twoPlaces {.named "h", .closure 0} ∧
      (reference (.named "h")).IsLive {.named "h", .closure 0} ∧
      (reference (.named "h")).address? twoPlaces = some 32 ∧
      (reference (.named "h")).same (.reference (.named "h")) = true := by
  intro v w
  have hsame : v.same w = true := by decide
  have hplace : Set.InjOn twoPlaces {.named "h", .closure 0} := by
    rintro _ (rfl | rfl) _ (rfl | rfl) hab
    · rfl
    · exact absurd hab (by decide)
    · exact absurd hab (by decide)
    · rfl
  have hlive : (reference (.named "h")).IsLive {.named "h", .closure 0} := by
    rintro _ ⟨⟩
    exact .inl rfl
  obtain ⟨-, -, hplaced, hlent⟩ := same_equivalence
  exact ⟨hsame, (hlent .empty v w hsame).2, hplace, hlive, rfl,
    hplaced twoPlaces _ hplace _ _ 32 hlive hlive rfl rfl⟩

end Crossing
