import Crossing.Proofs.Instance.Chronicle

/-!
# The loans in a value

`Value.loans` lists the symbols, host objects, closures and windows in a value, in the order in
which encoding comes to them. These are the parts that keep their identity and cross by handle or
number. A value without any is encoded by writing memory alone (`Writing.encodeAt`), so that the
tables of the host stay as they are.
-/

namespace Crossing

open Effect

/-! ## The loans in a value -/

namespace Value

/-- Whether encoding lends the value by handle. -/
def isLent : Value → Bool
  | reference _ | closure _ | window _ => true
  | _ => false

/-- Whether encoding registers the value. -/
def isSymbol : Value → Bool
  | symbol _ => true
  | _ => false

mutual

/-- The symbols, host objects, closures and windows in a value, in the order of its parts. -/
def loans : Value → List Value
  | array items => loansItems items
  | object entries => loansEntries entries
  | symbol s => [symbol s]
  | reference o => [reference o]
  | closure id => [closure id]
  | window w => [window w]
  | _ => []

/-- The loans in items. -/
def loansItems : List Value → List Value
  | [] => []
  | v :: vs => loans v ++ loansItems vs

/-- The loans in properties. Keys are texts and lend nothing. -/
def loansEntries : List (String × Value) → List Value
  | [] => []
  | (_, v) :: es => loans v ++ loansEntries es

end

/-- The host objects, closures and windows in a value. -/
def lent (v : Value) : List Value := v.loans.filter isLent

/-- The symbols in a value. -/
def symbols (v : Value) : List Value := v.loans.filter isSymbol

/-- What is lent is neither undefined nor null. -/
theorem isNullish_of_isLent {v : Value} (h : v.isLent = true) : v.isNullish = false := by
  cases v <;> simp_all [isLent, isNullish]

mutual

/-- What is lent is a symbol or goes by handle. -/
theorem isSymbol_eq_of_mem_loans : ∀ (v : Value) {w : Value}, w ∈ v.loans → w.isSymbol = !w.isLent
  | .undefined, _, h | .null, _, h | .boolean _, _, h | .number _, _, h | .string _, _, h => by
    simp [loans] at h
  | .symbol _, _, h | .reference _, _, h | .closure _, _, h | .window _, _, h => by
    rw [loans, List.mem_singleton] at h
    subst h
    rfl
  | .array items, _, h => isSymbol_eq_of_mem_loansItems items h
  | .object entries, _, h => isSymbol_eq_of_mem_loansEntries entries h

/-- A loan in items is a symbol or is lent by handle, and not both. -/
theorem isSymbol_eq_of_mem_loansItems :
    ∀ (vs : List Value) {w : Value}, w ∈ loansItems vs → w.isSymbol = !w.isLent
  | [], _, h => by simp [loansItems] at h
  | v :: vs, _, h => by
    rcases List.mem_append.1 h with h | h
    · exact isSymbol_eq_of_mem_loans v h
    · exact isSymbol_eq_of_mem_loansItems vs h

/-- So is a loan in properties. -/
theorem isSymbol_eq_of_mem_loansEntries :
    ∀ (es : List (String × Value)) {w : Value}, w ∈ loansEntries es → w.isSymbol = !w.isLent
  | [], _, h => by simp [loansEntries] at h
  | (_, v) :: es, _, h => by
    rcases List.mem_append.1 h with h | h
    · exact isSymbol_eq_of_mem_loans v h
    · exact isSymbol_eq_of_mem_loansEntries es h

end

end Value

section
variable {Code : Type}

/-! ## Values without loans -/

namespace Writing

variable {R : Instance Code → Instance Code → Prop}

mutual

/-- A value with nothing to lend in it is encoded by writing alone. -/
theorem encodeAt (h : Writing R) (room : Nat) (address : UInt32) (v : Value) (hv : v.loans = []) :
    Keeps R (encodeAt room address v) := by
  unfold Effect.encodeAt
  refine h.bind (h.note _ rfl) fun _ => ?_
  cases v with
  | undefined => exact h.writeKind _ _
  | null => exact h.writeKind _ _
  | boolean b => exact h.writeKind _ _
  | number x => exact h.encodeNumber _ _
  | string text => exact h.bind (h.storeText _ _) fun _ => h.writeKind _ _
  | array items => exact h.bind (h.openArray _ _ _) fun _ => h.encodeItems _ _ _ items hv
  | object entries => exact h.bind (h.openObject _ _ _) fun _ => h.encodeEntries _ _ _ _ entries hv
  | symbol s => cases hv
  | reference o => cases hv
  | closure id => cases hv
  | window w => cases hv

/-- Encoding items without loans takes no more than writing does. -/
theorem encodeItems (h : Writing R) (room : Nat) (table index : UInt32) (items : List Value)
    (hv : Value.loansItems items = []) : Keeps R (encodeItems room table index items) := by
  cases items with
  | nil => exact h.pure _
  | cons v rest =>
    obtain ⟨hv, hrest⟩ := List.append_eq_nil_iff.1 hv
    unfold Effect.encodeItems
    exact h.bind (h.entryAddress _ _ _) fun _ => h.bind (h.encodeAt _ _ v hv) fun _ =>
      h.encodeItems _ _ _ rest hrest

/-- So does encoding properties without loans. -/
theorem encodeEntries (h : Writing R) (room : Nat) (keys values index : UInt32)
    (entries : List (String × Value)) (hv : Value.loansEntries entries = []) :
    Keeps R (encodeEntries room keys values index entries) := by
  cases entries with
  | nil => exact h.pure _
  | cons entry rest =>
    obtain ⟨key, v⟩ := entry
    obtain ⟨hv, hrest⟩ := List.append_eq_nil_iff.1 hv
    unfold Effect.encodeEntries
    exact h.bind (h.entryAddress _ _ _) fun _ => h.bind (h.storeText _ _) fun _ =>
      h.bind (h.entryAddress _ _ _) fun _ => h.bind (h.encodeAt _ _ v hv) fun _ =>
        h.encodeEntries _ _ _ _ rest hrest

end

/-- So does encoding a value without loans. -/
theorem encode (h : Writing R) (address : UInt32) {v : Value} (hv : v.loans = []) :
    Keeps R (encode address v) :=
  h.bind h.get fun _ => h.encodeAt _ _ v hv

/-- So does preparing it. -/
theorem prepare (h : Writing R) {v : Value} (hv : v.loans = []) : Keeps R (prepare v) :=
  h.bind (h.alloc _) fun _ => h.bind (h.encode _ hv) fun _ => h.pure _

/-- So does marshalling arguments without loans. -/
theorem marshal (h : Writing R) {arguments : List Value} (hv : Value.loansItems arguments = []) :
    Keeps R (marshal arguments) :=
  h.bind (h.alloc _) fun _ => h.bind (h.bind h.get fun _ => h.bind (h.openArray _ _ _) fun _ =>
    h.encodeItems _ _ _ arguments hv) fun _ => h.pure _

end Writing

end

end Crossing
