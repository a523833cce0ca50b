import Crossing.Proofs.Value.Equality
import Mathlib.Data.Finset.Card

/-!
# What entries record

Pairs that are inserted one after the other leave behind which keys there were, each once and in the
order in which they first came, and the last value of each. `Entries.Records` says so, and nothing
but the entries that result from the pairs does (`Entries.records_iff`).

Keys are distinct in such entries. So the keys in their order and the values under them are all that
equality of objects looks at (`Value.sameEntries_iff`).
-/

namespace Crossing

namespace Entries

section
variable {α : Type} {key : String} {es es' pairs : List (String × α)}

/-! ## Looking up -/

/-- A key leads nowhere exactly when it is none of the keys. -/
theorem get?_eq_none_iff : get? key es = none ↔ key ∉ keys es := by
  induction es with
  | nil => simp [get?, keys]
  | cons e rest ih =>
    obtain ⟨k, v⟩ := e
    rw [get?, keys, List.map_cons, List.mem_cons, not_or]
    by_cases hk : k = key
    · simp [hk]
    · rw [if_neg hk, ih]
      exact (and_iff_right (Ne.symm hk)).symm

/-- Where keys are distinct, looking up the key of an entry finds its value. -/
theorem get?_of_mem (h : (keys es).Nodup) {e : String × α} (he : e ∈ es) :
    get? e.1 es = some e.2 := by
  induction es with
  | nil => cases he
  | cons e' rest ih =>
    obtain ⟨hnew, hrest⟩ := List.nodup_cons.1 h
    rw [get?]
    rcases List.mem_cons.1 he with rfl | he
    · rw [if_pos rfl]
    · have hk : e'.1 ≠ e.1 := fun hk => hnew (hk.symm ▸ List.mem_map_of_mem he)
      rw [if_neg hk, ih hrest he]

/-! ## Inserting pairs -/

/-- A new key goes to the end. -/
theorem insert_of_notMem {value : α} (h : key ∉ keys es) :
    insert key value es = es ++ [(key, value)] := by
  induction es with
  | nil => rfl
  | cons e rest ih =>
    rw [keys, List.map_cons, List.mem_cons, not_or] at h
    rw [insert, if_neg (Ne.symm h.1), ih h.2]
    rfl

/-- The last pair is inserted into what the others make. -/
theorem ofPairs_concat (pairs : List (String × α)) (e : String × α) :
    ofPairs (pairs ++ [e]) = insert e.1 e.2 (ofPairs pairs) := by
  rw [ofPairs, List.foldl_append]
  rfl

/-- The keys are those of the pairs, each where it came first. -/
theorem keys_ofPairs (pairs : List (String × α)) :
    keys (ofPairs pairs) = (pairs.map Prod.fst).eraseDups := by
  induction pairs using List.reverseRecOn with
  | nil => rfl
  | append_singleton pairs e ih =>
    rw [ofPairs_concat, keys_insert, ih, List.map_append, List.eraseDups_append]
    by_cases hk : e.1 ∈ pairs.map Prod.fst
    · rw [if_pos (List.mem_eraseDups.2 hk)]
      simp [List.removeAll, hk]
    · rw [if_neg fun h => hk (List.mem_eraseDups.1 h)]
      simp [List.removeAll, hk, List.eraseDups_cons]

/-- Pairs make entries that repeat no key. -/
theorem nodup_ofPairs (pairs : List (String × α)) : (keys (ofPairs pairs)).Nodup := by
  induction pairs using List.reverseRecOn with
  | nil => exact List.nodup_nil
  | append_singleton pairs e ih =>
    rw [ofPairs_concat]
    exact nodup_insert _ _ _ ih

/-- The value of a key is that of its last pair. -/
theorem get?_ofPairs (key : String) (pairs : List (String × α)) :
    get? key (ofPairs pairs) = (pairs.findRev? fun e => e.1 == key).map Prod.snd := by
  induction pairs using List.reverseRecOn with
  | nil => rfl
  | append_singleton pairs e ih =>
    rw [ofPairs_concat, get?_insert, ih, List.findRev?_eq_find?_reverse,
      List.findRev?_eq_find?_reverse, List.reverse_append, List.reverse_singleton,
      List.singleton_append, List.find?_cons]
    by_cases hk : key = e.1
    · simp [hk]
    · rw [if_neg hk, beq_eq_false_iff_ne.2 (Ne.symm hk)]

/-- The values of entries after an insertion are those before it and the new one. -/
theorem forall_insert {p : α → Prop} {value : α} (hvalue : p value) (h : ∀ e ∈ es, p e.2) :
    ∀ e ∈ insert key value es, p e.2 := by
  induction es with
  | nil =>
    intro e he
    obtain rfl := List.mem_singleton.1 he
    exact hvalue
  | cons e' rest ih =>
    intro e he
    have hrest : ∀ e ∈ rest, p e.2 := fun e he => h e (.tail _ he)
    rw [insert] at he
    split at he <;> rcases List.mem_cons.1 he with rfl | he
    · exact hvalue
    · exact hrest e he
    · exact h _ (.head _)
    · exact ih hrest e he

/-- The values of the entries that pairs make are values of the pairs. -/
theorem forall_ofPairs {p : α → Prop} (h : ∀ e ∈ pairs, p e.2) : ∀ e ∈ ofPairs pairs, p e.2 := by
  induction pairs using List.reverseRecOn with
  | nil => exact fun e he => nomatch he
  | append_singleton pairs e ih =>
    rw [ofPairs_concat]
    exact forall_insert (h e (List.mem_append_right _ (.head _)))
      (ih fun e' he' => h e' (List.mem_append_left _ he'))

/-- Entries with distinct keys are what results from them as pairs. -/
theorem ofPairs_of_nodup (h : (keys es).Nodup) : ofPairs es = es := by
  induction es using List.reverseRecOn with
  | nil => rfl
  | append_singleton es e ih =>
    rw [keys, List.map_append, List.nodup_append] at h
    obtain ⟨hnodup, -, hnew⟩ := h
    rw [ofPairs_concat, ih hnodup, insert_of_notMem]
    exact fun hmem => hnew _ hmem _ (.head _) rfl

/-! ## The record -/

/-- The entries record the pairs: each of their keys once, in the order in which the keys first
came, and with each key the value it came with last. -/
structure Records (pairs es : List (String × α)) : Prop where
  nodup : (keys es).Nodup
  keys : keys es = (pairs.map Prod.fst).eraseDups
  get? : ∀ key, get? key es = (pairs.findRev? fun e => e.1 == key).map Prod.snd
  /-- Going through the entries meets each key together with its value. -/
  entries : es.map (fun e => (e.1, some e.2)) =
    (Entries.keys es).map fun key => (key, Entries.get? key es)
  length : es.length = (pairs.map Prod.fst).toFinset.card

/-- Pairs are recorded by the entries that they make. -/
theorem records_ofPairs (pairs : List (String × α)) : Records pairs (ofPairs pairs) where
  nodup := nodup_ofPairs pairs
  keys := keys_ofPairs pairs
  get? := fun key => get?_ofPairs key pairs
  entries := by
    rw [Entries.keys, List.map_map]
    refine List.map_congr_left fun e he => ?_
    rw [Function.comp_apply, get?_of_mem (nodup_ofPairs pairs) he]
  length := by
    have hset : (pairs.map Prod.fst).toFinset = (Entries.keys (ofPairs pairs)).toFinset := by
      ext key
      rw [List.mem_toFinset, List.mem_toFinset, keys_ofPairs, List.mem_eraseDups]
    rw [hset, List.toFinset_card_of_nodup (nodup_ofPairs pairs), Entries.keys, List.length_map]

/-- Where as many entries result as there are pairs, no key comes twice. -/
theorem nodup_of_length_ofPairs (h : (ofPairs pairs).length = pairs.length) :
    (keys pairs).Nodup := by
  have hcard := (records_ofPairs pairs).length
  rw [h, ← List.length_map Prod.fst] at hcard
  exact Multiset.coe_nodup.1 (Multiset.toFinset_card_eq_card_iff_nodup.1 hcard.symm)

/-- The entries that result from pairs record them, and no others do. -/
theorem records_iff : Records pairs es ↔ es = ofPairs pairs := by
  refine ⟨fun h => ?_, fun h => h ▸ records_ofPairs pairs⟩
  have h' := records_ofPairs pairs
  have hinjective : Function.Injective fun e : String × α => (e.1, some e.2) := by
    rintro ⟨_, _⟩ ⟨_, _⟩ ⟨⟩
    rfl
  refine List.map_injective_iff.2 hinjective ?_
  rw [h.entries, h'.entries, h.keys, h'.keys]
  simp only [h.get?, h'.get?]

end

end Entries

/-! ## Equality of objects -/

namespace Value

variable {as bs : List (String × Value)}

/-- Equal objects have the same keys. -/
theorem keys_eq_of_sameEntries (h : sameEntries as bs = true) :
    Entries.keys as = Entries.keys bs := by
  induction as generalizing bs with
  | nil =>
    cases bs with
    | nil => rfl
    | cons b bs => simp [sameEntries] at h
  | cons a as ih =>
    cases bs with
    | nil => simp [sameEntries] at h
    | cons b bs =>
      obtain ⟨k, v⟩ := a
      obtain ⟨l, w⟩ := b
      simp only [sameEntries, Bool.and_eq_true, beq_iff_eq] at h
      simp only [Entries.keys, List.map_cons, h.1.1] at ih ⊢
      rw [ih h.2]

/-- Where keys are distinct, objects are equal when they have the same keys in the same order and
equal values under them. -/
theorem sameEntries_iff (h : (Entries.keys as).Nodup) :
    sameEntries as bs = true ↔ Entries.keys as = Entries.keys bs ∧
      ∀ key, Option.Rel (fun a b : Value => a.same b = true) (Entries.get? key as)
        (Entries.get? key bs) := by
  refine ⟨fun hsame => ⟨keys_eq_of_sameEntries hsame, rel_get? hsame⟩, ?_⟩
  rintro ⟨hkeys, hvalues⟩
  induction as generalizing bs with
  | nil =>
    rw [List.map_eq_nil_iff.1 hkeys.symm]
    rfl
  | cons a as ih =>
    obtain ⟨k, v⟩ := a
    obtain ⟨⟨l, w⟩, bs, rfl, rfl, hrest⟩ := List.map_eq_cons_iff.1 hkeys.symm
    obtain ⟨hnew, hnodup⟩ := List.nodup_cons.1 h
    have hfirst := hvalues l
    rw [Entries.get?, Entries.get?, if_pos rfl, if_pos rfl] at hfirst
    cases hfirst with
    | some hvalue =>
      rw [sameEntries, hvalue, beq_self_eq_true]
      refine ih hnodup hrest.symm fun key => ?_
      by_cases hkey : l = key
      · -- The key of the first entries comes in neither rest.
        subst hkey
        have hnew' : l ∉ Entries.keys bs := fun h => hnew (hrest.subst h)
        rw [Entries.get?_eq_none_iff.2 hnew, Entries.get?_eq_none_iff.2 hnew']
        exact .none
      · have hlater := hvalues key
        rwa [Entries.get?, Entries.get?, if_neg hkey, if_neg hkey] at hlater

end Value

end Crossing
