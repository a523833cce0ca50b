/-!
# Entries in insertion order

A list of keys with values, in which a key that comes again keeps its first place and takes the new
value. `keys_insert` says what an insertion does to the keys, `get?_insert` to the values, and
`nodup_insert` that keys stay distinct.
-/

namespace Crossing.Entries

section
variable {α : Type}

/-- Sets the value of a key: in its place, or at the end when it is new. -/
def insert (key : String) (value : α) : List (String × α) → List (String × α)
  | [] => [(key, value)]
  | (k, v) :: rest => if k = key then (k, value) :: rest else (k, v) :: insert key value rest

/-- The value of a key. -/
def get? (key : String) : List (String × α) → Option α
  | [] => none
  | (k, v) :: rest => if k = key then some v else get? key rest

/-- The keys in their order. -/
def keys (es : List (String × α)) : List String := es.map Prod.fst

/-- The entries that result from inserting pairs one by one. -/
def ofPairs (pairs : List (String × α)) : List (String × α) :=
  pairs.foldl (fun es e => insert e.1 e.2 es) []

/-- A key that is new comes last, and one that is there keeps its place. -/
theorem keys_insert (key : String) (value : α) (es : List (String × α)) :
    keys (insert key value es) = if key ∈ keys es then keys es else keys es ++ [key] := by
  induction es with
  | nil => simp [insert, keys]
  | cons e rest ih =>
    obtain ⟨k, v⟩ := e
    by_cases h : k = key
    · simp [insert, keys, h]
    · have hk : key ≠ k := fun hk => h hk.symm
      simp only [keys] at ih
      simp only [insert, h, if_false, keys, List.map_cons, ih, List.mem_cons, hk, false_or]
      split <;> simp_all

/-- After an insertion its key leads to its value, and every other key to what it led to before. -/
theorem get?_insert (key : String) (value : α) (es : List (String × α)) (k : String) :
    get? k (insert key value es) = if k = key then some value else get? k es := by
  induction es with
  | nil =>
    by_cases h : k = key
    · simp [insert, get?, h]
    · have hk : ¬ key = k := fun hk => h hk.symm
      simp [insert, get?, h, hk]
  | cons e rest ih =>
    obtain ⟨k', v⟩ := e
    by_cases h : k' = key
    · subst h
      by_cases hk : k' = k
      · simp [insert, get?, hk]
      · have hk' : ¬ k = k' := fun hk' => hk hk'.symm
        simp [insert, get?, hk, hk']
    · simp only [insert, h, if_false, get?, ih]
      split
      · rename_i hk
        subst hk
        simp [h]
      · rfl

/-- An insertion repeats no key. -/
theorem nodup_insert (key : String) (value : α) (es : List (String × α)) (h : (keys es).Nodup) :
    (keys (insert key value es)).Nodup := by
  rw [keys_insert]
  split
  · exact h
  · rename_i hk
    rw [List.nodup_append]
    exact ⟨h, by simp, fun a ha b hb => by
      rw [List.mem_singleton] at hb
      exact fun hab => hk (hb ▸ hab ▸ ha)⟩

end

end Crossing.Entries
