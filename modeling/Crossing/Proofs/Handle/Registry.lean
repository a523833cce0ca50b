import Mathlib.Data.Set.Card
import Crossing.Proofs.Instance.Tables

/-!
# Histories of the registry

`RawRegistry.serveAll` answers queries one after the other and keeps the history, every query with
its answer. What a number stands for can be read off the history alone: `Registered` says that a
value was registered under it and not taken out since, `Dropped` that its value was taken out.
`Tracks` ties the registry to the history; a query keeps it (`Tracks.serve`), so that a run does
(`tracks_serveAll`), as long as the numbers are words.

`RawRegistry.serveAll_faithful` says what that comes to for the answers: numbers grow, a number
answers its value until the value is taken out, and is unknown from then on.
`Machine.raw_runs` says that nothing else than such queries ever happens to the registry of an
instance.
-/

namespace Crossing

namespace RawRegistry

/-- What is asked of a registry. -/
inductive Query where
  | register (v : Value)
  | unregister (id : UInt32)
  | get (id : UInt32)

/-- What is answered: a new number, the value that was taken out, or the value of a number. -/
inductive Reply where
  | number (id : UInt32)
  | taken (v : Option Value)
  | value (result : Except Fault Value)

def Query.isRegister : Query → Bool
  | register _ => true
  | _ => false

def Reply.number? : Reply → Option UInt32
  | number id => some id
  | _ => none

/-- A query and its answer. -/
abbrev Entry : Type := Query × Reply

/-- Answers one query. -/
def serve (r : RawRegistry) : Query → Reply × RawRegistry
  | .register v => (.number (r.register v).1, (r.register v).2)
  | .unregister id => (.taken (r.unregister id).1, (r.unregister id).2)
  | .get id => (.value (r.get id), r)

/-- Answers queries one after the other, and keeps their history. -/
def serveAll (r : RawRegistry) : List Query → List Entry × RawRegistry
  | [] => ([], r)
  | q :: qs =>
    ((q, (r.serve q).1) :: ((r.serve q).2.serveAll qs).1, ((r.serve q).2.serveAll qs).2)

/-! ## What a history tells -/

/-- The numbers that were given out, in turn. -/
def numbers (h : List Entry) : List UInt32 := h.filterMap fun e => e.2.number?

/-- The value was registered under the number, and was not taken out since. -/
def Registered (h : List Entry) (id : UInt32) (v : Value) : Prop :=
  ∃ before after, h = before ++ (.register v, .number id) :: after ∧
    ∀ x, (.unregister id, x) ∉ after

/-- The number was given out, and its value was taken out after that. -/
def Dropped (h : List Entry) (id : UInt32) : Prop :=
  ∃ before x after, h = before ++ (.unregister id, x) :: after ∧ id ∈ numbers before

/-- Where the entry asks for the number, it is answered as one that stands for `o`. -/
structure Entry.Tells (e : Entry) (id : UInt32) (o : Option Value) : Prop where
  get : e.1 = .get id → e.2 = .value (match o with
    | some v => .ok v
    | none => .error (.unknownRawValue id))
  unregister : e.1 = .unregister id → e.2 = .taken o

/-- The answers of a history agree with what was registered and taken out before. -/
structure Faithful (h : List Entry) : Prop where
  /-- Every registration answers a number. -/
  registers : ∀ v reply, (.register v, reply) ∈ h → ∃ id, reply = .number id
  numbers_pairwise : (numbers h).Pairwise (· < ·)
  numbers_ne_zero : ∀ id ∈ numbers h, id ≠ 0
  /-- A number stands for its value until that is taken out. -/
  held : ∀ before e after id v, h = before ++ e :: after → Registered before id v →
    e.Tells id (some v)
  /-- From then on it is unknown. -/
  dropped : ∀ before e after id, h = before ++ e :: after → Dropped before id → e.Tells id none
  /-- So is a number that was not given out so far. -/
  unknown : ∀ before e after id, h = before ++ e :: after → id ∉ numbers before → e.Tells id none

variable {h : List Entry} {e x : Entry} {q : Query} {r : RawRegistry} {id : UInt32} {v : Value}

/-- The numbers of two histories are given out in turn. -/
theorem numbers_append (h h' : List Entry) : numbers (h ++ h') = numbers h ++ numbers h' :=
  List.filterMap_append

/-- A number that was answered was given out. -/
theorem mem_numbers_of_mem (he : (q, .number id) ∈ h) : id ∈ numbers h :=
  List.mem_filterMap.2 ⟨_, he, rfl⟩

/-- A history with one entry more is cut before that entry, or in front of it. -/
theorem snoc_eq_append_cons_iff {before after : List Entry} :
    h ++ [e] = before ++ x :: after ↔
      (h = before ∧ e = x ∧ after = []) ∨ ∃ mid, h = before ++ x :: mid ∧ after = mid ++ [e] := by
  constructor
  · intro heq
    rcases List.eq_nil_or_concat after with rfl | ⟨mid, y, rfl⟩
    · obtain ⟨hh, he⟩ := List.append_inj' heq rfl
      exact .inl ⟨hh, List.head_eq_of_cons_eq he, rfl⟩
    · rw [List.concat_eq_append, ← List.cons_append, ← List.append_assoc] at heq
      obtain ⟨hh, he⟩ := List.append_inj' heq rfl
      exact .inr ⟨mid, hh, by rw [List.concat_eq_append, he]⟩
  · rintro (⟨rfl, rfl, rfl⟩ | ⟨mid, rfl, rfl⟩)
    · rfl
    · simp only [List.append_assoc, List.cons_append]

/-- A value is registered by the last entry, or was before and is not taken out by it. -/
theorem registered_snoc_iff :
    Registered (h ++ [e]) id v ↔
      e = (.register v, .number id) ∨ Registered h id v ∧ ∀ x, e ≠ (.unregister id, x) := by
  constructor
  · rintro ⟨before, after, heq, hnot⟩
    rcases snoc_eq_append_cons_iff.1 heq with ⟨-, rfl, -⟩ | ⟨mid, rfl, rfl⟩
    · exact .inl rfl
    · refine .inr ⟨⟨before, mid, rfl, fun x hx => hnot x (List.mem_append_left _ hx)⟩, ?_⟩
      rintro x rfl
      exact hnot x (List.mem_append_right _ (List.mem_singleton_self _))
  · rintro (rfl | ⟨⟨before, after, rfl, hnot⟩, hne⟩)
    · exact ⟨h, [], rfl, fun x => List.not_mem_nil⟩
    · refine ⟨before, after ++ [e], by simp only [List.append_assoc, List.cons_append], ?_⟩
      intro x hx
      rcases List.mem_append.1 hx with hx | hx
      · exact hnot x hx
      · exact hne x (List.mem_singleton.1 hx).symm

/-- A number is taken out by the last entry, or was before. -/
theorem dropped_snoc_iff :
    Dropped (h ++ [e]) id ↔ Dropped h id ∨ id ∈ numbers h ∧ ∃ x, e = (.unregister id, x) := by
  constructor
  · rintro ⟨before, x, after, heq, hid⟩
    rcases snoc_eq_append_cons_iff.1 heq with ⟨rfl, rfl, -⟩ | ⟨mid, rfl, -⟩
    · exact .inr ⟨hid, x, rfl⟩
    · exact .inl ⟨before, x, mid, rfl, hid⟩
  · rintro (⟨before, x, after, rfl, hid⟩ | ⟨hid, x, rfl⟩)
    · exact ⟨before, x, after ++ [e], by simp only [List.append_assoc, List.cons_append], hid⟩
    · exact ⟨h, x, [], rfl, hid⟩

/-- A number that was given out and dropped has been given out. -/
theorem Dropped.mem_numbers (hd : Dropped h id) : id ∈ numbers h := by
  obtain ⟨before, x, after, rfl, hid⟩ := hd
  rw [numbers_append]
  exact List.mem_append_left _ hid

/-- What is registered under a number was given it. -/
theorem Registered.mem_numbers (hr : Registered h id v) : id ∈ numbers h := by
  obtain ⟨before, after, rfl, -⟩ := hr
  exact mem_numbers_of_mem (List.mem_append_right _ List.mem_cons_self)

/-! ## One query -/

/-- A query about another number, or a registration under one, changes nothing for the number. -/
theorem values_serve (hnumber : (r.serve q).1 ≠ .number id) (htaken : q ≠ .unregister id) :
    (r.serve q).2.values[id]? = r.values[id]? := by
  cases q with
  | get id' => rfl
  | register v =>
    have hne : (r.register v).1 ≠ id := fun heq => hnumber (congrArg Reply.number heq)
    exact Std.HashMap.getElem?_insert.trans (if_neg fun heq => hne (eq_of_beq heq))
  | unregister id' =>
    have hne : id' ≠ id := fun heq => htaken (congrArg Query.unregister heq)
    exact Std.HashMap.getElem?_erase.trans (if_neg fun heq => hne (eq_of_beq heq))

/-- What is asked of a number is answered by what it stands for. -/
theorem tells_serve {o : Option Value} (ho : r.values[id]? = o) :
    Entry.Tells (q, (r.serve q).1) id o where
  get := by
    rintro rfl
    show Reply.value (r.get id) = _
    cases o <;> rw [get, ho]
  unregister := by
    rintro rfl
    exact congrArg Reply.taken ho

/-- The registry holds what is registered after the history, and has given out the numbers of the
history, in turn. -/
structure Tracks (h : List Entry) (r : RawRegistry) : Prop where
  lastId : r.lastId = h.countP fun e => e.1.isRegister
  registers : ∀ v reply, (.register v, reply) ∈ h → ∃ id, reply = .number id
  numbers_pairwise : (numbers h).Pairwise (· < ·)
  numbers_bounds : ∀ id ∈ numbers h, 0 < id.toNat ∧ id.toNat ≤ r.lastId
  values_iff : ∀ id v, r.values[id]? = some v ↔ Registered h id v
  dropped : ∀ id, Dropped h id → r.values[id]? = none

namespace Tracks

/-- An empty registry has an empty history. -/
theorem empty : Tracks [] .empty where
  lastId := rfl
  registers := by simp
  numbers_pairwise := .nil
  numbers_bounds := by simp [numbers]
  values_iff id v := by
    simp [RawRegistry.empty, Registered]
  dropped id _ := by simp [RawRegistry.empty]

/-- No value stands behind a number that was not given out. -/
theorem values_of_notMem (t : Tracks h r) (hid : id ∉ numbers h) : r.values[id]? = none := by
  cases hv : r.values[id]? with
  | none => rfl
  | some v => exact absurd ((t.values_iff id v).1 hv).mem_numbers hid

/-- A registration: its number is new, and it alone comes to stand for something else. -/
theorem register (t : Tracks h r) (hfits : (r.register v).2.Fits) :
    Tracks (h ++ [(.register v, .number (r.register v).1)]) (r.register v).2 := by
  have hnew : (r.register v).1.toNat = r.lastId + 1 := UInt32.toNat_ofNat_of_lt' hfits
  have hlast : (r.register v).2.lastId = r.lastId + 1 := rfl
  have hlt : ∀ id ∈ numbers h, id < (r.register v).1 := fun id hid => by
    rw [UInt32.lt_iff_toNat_lt, hnew]
    exact Nat.lt_succ_of_le (t.numbers_bounds id hid).2
  have hfresh : (r.register v).1 ∉ numbers h := fun hid => UInt32.lt_irrefl _ (hlt _ hid)
  have hself : (r.register v).2.values[(r.register v).1]? = some v :=
    Std.HashMap.getElem?_insert_self
  have hother (id : UInt32) (hne : id ≠ (r.register v).1) :
      (r.register v).2.values[id]? = r.values[id]? :=
    values_serve (q := .register v) (fun heq => hne (Reply.number.inj heq).symm) nofun
  have hnumbers : numbers [((.register v, .number (r.register v).1) : Entry)] =
      [(r.register v).1] := rfl
  refine ⟨?_, fun w reply hmem => ?_, ?_, fun id hid => ?_, fun id w => ?_, fun id hd => ?_⟩
  · rw [hlast, t.lastId, List.countP_append]
    rfl
  · rcases List.mem_append.1 hmem with hmem | hmem
    · exact t.registers w reply hmem
    · exact ⟨_, (Prod.mk.inj (List.mem_singleton.1 hmem)).2⟩
  · rw [numbers_append, hnumbers, List.pairwise_append]
    refine ⟨t.numbers_pairwise, List.pairwise_singleton _ _, fun id hid id' hid' => ?_⟩
    rw [List.mem_singleton.1 hid']
    exact hlt id hid
  · rw [numbers_append, hnumbers, List.mem_append, List.mem_singleton] at hid
    rcases hid with hid | rfl
    · exact ⟨(t.numbers_bounds id hid).1, Nat.le_succ_of_le (t.numbers_bounds id hid).2⟩
    · rw [hnew]
      exact ⟨Nat.succ_pos _, Nat.le_refl _⟩
  · rw [registered_snoc_iff]
    by_cases hid : id = (r.register v).1
    · subst hid
      rw [hself, Option.some.injEq]
      refine ⟨fun hv => .inl (by rw [hv]), ?_⟩
      rintro (heq | ⟨hreg, -⟩)
      · exact Query.register.inj (Prod.mk.inj heq).1
      · exact absurd hreg.mem_numbers hfresh
    · rw [hother id hid, t.values_iff]
      refine ⟨fun hreg => .inr ⟨hreg, nofun⟩, ?_⟩
      rintro (heq | ⟨hreg, -⟩)
      · exact absurd (Reply.number.inj (Prod.mk.inj heq).2).symm hid
      · exact hreg
  · rcases dropped_snoc_iff.1 hd with hd | ⟨-, x, heq⟩
    · rw [hother id fun heq => hfresh (heq ▸ hd.mem_numbers)]
      exact t.dropped id hd
    · cases heq

/-- A query that registers nothing: the numbers are the same, and so is what they stand for, but
that an unregistered one stands for nothing. -/
theorem other (t : Tracks h r) (hq : q.isRegister = false) :
    Tracks (h ++ [(q, (r.serve q).1)]) (r.serve q).2 := by
  have hnumber (id : UInt32) : (r.serve q).1 ≠ .number id := by
    cases q with
    | register v => cases hq
    | unregister id' | get id' => nofun
  have hlast : (r.serve q).2.lastId = r.lastId := by
    cases q with
    | register v => cases hq
    | unregister id' | get id' => rfl
  have hnumbers : numbers (h ++ [(q, (r.serve q).1)]) = numbers h := by
    rw [numbers_append]
    cases q with
    | register v => cases hq
    | unregister id | get id => exact List.append_nil _
  have hself (id : UInt32) (hq : q = .unregister id) : (r.serve q).2.values[id]? = none := by
    subst hq
    exact Std.HashMap.getElem?_erase_self
  refine ⟨?_, fun w reply hmem => ?_, ?_, ?_, fun id w => ?_, fun id hd => ?_⟩
  · rw [hlast, t.lastId, List.countP_append, List.countP_singleton, hq]
    rfl
  · rcases List.mem_append.1 hmem with hmem | hmem
    · exact t.registers w reply hmem
    · rw [← (Prod.mk.inj (List.mem_singleton.1 hmem)).1] at hq
      cases hq
  · rw [hnumbers]
    exact t.numbers_pairwise
  · rw [hnumbers, hlast]
    exact t.numbers_bounds
  · rw [registered_snoc_iff]
    by_cases hid : q = .unregister id
    · rw [hself id hid]
      refine ⟨nofun, ?_⟩
      rintro (heq | ⟨-, hne⟩)
      · exact absurd (Prod.mk.inj heq).2 (hnumber id)
      · exact absurd (congrArg₂ Prod.mk hid rfl) (hne _)
    · rw [values_serve (hnumber id) hid, t.values_iff]
      refine ⟨fun hreg => .inr ⟨hreg, fun x heq => hid (Prod.mk.inj heq).1⟩, ?_⟩
      rintro (heq | ⟨hreg, -⟩)
      · exact absurd (Prod.mk.inj heq).2 (hnumber id)
      · exact hreg
  · by_cases hid : q = .unregister id
    · exact hself id hid
    · rw [values_serve (hnumber id) hid]
      rcases dropped_snoc_iff.1 hd with hd | ⟨-, x, heq⟩
      · exact t.dropped id hd
      · exact absurd (Prod.mk.inj heq).1 hid

/-- The registry goes on tracking the history when a query is answered. -/
theorem serve (t : Tracks h r) (hfits : (r.serve q).2.Fits) :
    Tracks (h ++ [(q, (r.serve q).1)]) (r.serve q).2 := by
  cases q with
  | register v => exact t.register hfits
  | unregister id => exact t.other rfl
  | get id => exact t.other rfl

/-- The number of values is the number of numbers under which one is registered. -/
theorem size_eq (t : Tracks h r) : r.size = {id | ∃ v, Registered h id v}.ncard := by
  have hset : {id | ∃ v, Registered h id v} = (r.values.keys.toFinset : Set UInt32) := by
    ext id
    simp only [Set.mem_ofPred_eq, List.coe_toFinset, Std.HashMap.mem_keys, ← t.values_iff,
      ← Std.HashMap.isSome_getElem?_iff_mem, Option.isSome_iff_exists]
  have hnodup : r.values.keys.Nodup := Std.HashMap.nodup_keys
  rw [hset, Set.ncard_coe_finset, List.toFinset_card_of_nodup hnodup, Std.HashMap.length_keys]
  rfl

end Tracks

/-! ## Runs -/

/-- Queries are answered in two goes as they are in one. -/
theorem serveAll_append (r : RawRegistry) (ps qs : List Query) :
    r.serveAll (ps ++ qs) = ((r.serveAll ps).1 ++ ((r.serveAll ps).2.serveAll qs).1,
      ((r.serveAll ps).2.serveAll qs).2) := by
  induction ps generalizing r with
  | nil => rfl
  | cons p ps ih => rw [List.cons_append, serveAll, ih, serveAll, List.cons_append]

/-- Every query is in the history. -/
theorem queries_serveAll (r : RawRegistry) (qs : List Query) :
    (r.serveAll qs).1.map Prod.fst = qs := by
  induction qs generalizing r with
  | nil => rfl
  | cons q qs ih => rw [serveAll, List.map_cons, ih]

/-- Where a history is cut, the queries are, and the entry at the cut was answered by the registry
after the ones before. -/
theorem serveAll_cut {qs : List Query} {before after : List Entry}
    (hcut : (r.serveAll qs).1 = before ++ e :: after) :
    ∃ ps rs, qs = ps ++ e.1 :: rs ∧ (r.serveAll ps).1 = before ∧
      e = (e.1, ((r.serveAll ps).2.serve e.1).1) := by
  induction before generalizing r qs with
  | nil =>
    cases qs with
    | nil => cases hcut
    | cons q qs =>
      rw [serveAll, List.nil_append] at hcut
      obtain ⟨rfl, -⟩ := List.cons.inj hcut
      exact ⟨[], qs, rfl, rfl, rfl⟩
  | cons b before ih =>
    cases qs with
    | nil => cases hcut
    | cons q qs =>
      rw [serveAll, List.cons_append] at hcut
      obtain ⟨rfl, hrest⟩ := List.cons.inj hcut
      obtain ⟨ps, rs, rfl, rfl, he⟩ := ih hrest
      exact ⟨q :: ps, rs, rfl, rfl, he⟩

/-- A run of queries gives out as many numbers as are asked for. -/
theorem lastId_serveAll (r : RawRegistry) (qs : List Query) :
    (r.serveAll qs).2.lastId = r.lastId + qs.countP Query.isRegister := by
  induction qs generalizing r with
  | nil => rfl
  | cons q qs ih =>
    rw [serveAll, ih, List.countP_cons]
    cases q <;> simp [serve, RawRegistry.register, RawRegistry.unregister, Query.isRegister]
    omega

/-- The registry tracks its history as long as the numbers are words. -/
theorem tracks_serveAll (qs : List Query) (hcount : qs.countP Query.isRegister < UInt32.size) :
    Tracks (empty.serveAll qs).1 (empty.serveAll qs).2 := by
  induction qs using List.reverseRecOn with
  | nil => exact .empty
  | append_singleton qs q ih =>
    have hle : qs.countP Query.isRegister ≤ (qs ++ [q]).countP Query.isRegister := by
      rw [List.countP_append]
      exact Nat.le_add_right _ _
    have hfits : (empty.serveAll (qs ++ [q])).2.Fits := by
      rw [Fits, lastId_serveAll]
      exact Nat.lt_of_le_of_lt (Nat.le_of_eq (Nat.zero_add _)) hcount
    rw [serveAll_append] at hfits ⊢
    exact (ih (Nat.lt_of_le_of_lt hle hcount)).serve hfits

/-- For all queries to an empty registry with fewer than 2³² registrations: each is answered, the
numbers that are given out grow and are not zero, a number stands for its value from the
registration until the value is first taken out, which answers that value, and is unknown from then
on and before; as many values are there as were registered and not taken out. In any registry, a
query changes nothing for the numbers that it is not about. -/
theorem serveAll_faithful (qs : List Query) (hcount : qs.countP Query.isRegister < UInt32.size) :
    (empty.serveAll qs).1.map Prod.fst = qs ∧ Faithful (empty.serveAll qs).1 ∧
    (empty.serveAll qs).2.size = {id | ∃ v, Registered (empty.serveAll qs).1 id v}.ncard ∧
    ∀ (r : RawRegistry) (q : Query) (id : UInt32),
      (r.serve q).1 ≠ .number id → q ≠ .unregister id →
      (r.serve q).2.get id = r.get id ∧ ((r.serve q).2.unregister id).1 = (r.unregister id).1 := by
  have t := tracks_serveAll qs hcount
  have hcut {before e after} (h : (empty.serveAll qs).1 = before ++ e :: after) {id o}
      (ho : ∀ r, Tracks before r → r.values[id]? = o) : Entry.Tells e id o := by
    obtain ⟨ps, rs, rfl, rfl, he⟩ := serveAll_cut h
    rw [List.countP_append] at hcount
    have tps := tracks_serveAll ps (Nat.lt_of_le_of_lt (Nat.le_add_right _ _) hcount)
    rw [he]
    exact tells_serve (ho _ tps)
  refine ⟨queries_serveAll _ qs, ?_, t.size_eq, fun r q id hnumber htaken => ?_⟩
  · exact
      { registers := t.registers
        numbers_pairwise := t.numbers_pairwise
        numbers_ne_zero := by
          rintro id hid rfl
          exact Nat.lt_irrefl 0 (t.numbers_bounds 0 hid).1
        held := fun before e after id v h hreg => hcut h fun r t => (t.values_iff id v).2 hreg
        dropped := fun before e after id h hd => hcut h fun r t => t.dropped id hd
        unknown := fun before e after id h hid => hcut h fun r t => t.values_of_notMem hid }
  · have hvalues := values_serve hnumber htaken
    exact ⟨by rw [get, get, hvalues], hvalues⟩

/-- A number is not given out again after its value was taken out. -/
theorem serveAll_faithful_reused :
    [Query.register .null, .unregister 1, .register .undefined].countP Query.isRegister <
      UInt32.size ∧
    (numbers (empty.serveAll [.register .null, .unregister 1, .register .undefined]).1).Pairwise
      (· < ·) :=
  have hcount : [Query.register .null, .unregister 1, .register .undefined].countP
      Query.isRegister < UInt32.size := by decide
  ⟨hcount, (serveAll_faithful _ hcount).2.1.numbers_pairwise⟩

end RawRegistry

/-! ## Instances -/

open Effect

section
variable {Code : Type}

/-- The registry of the second instance is what queries make of that of the first. -/
def Queried (i i' : Instance Code) : Prop := ∃ qs, i'.raw = (i.raw.serveAll qs).2

/-- Every action comes to a sequence of queries. -/
theorem Queried.acting : Acting (@Queried Code) := by
  have hsame {i i' : Instance Code} (h : i'.raw = i.raw) : Queried i i' := ⟨[], h⟩
  have hsteady : Steady (@Queried Code) := by
    refine ⟨fun _ => hsame rfl, ?_⟩
    rintro i i' i'' ⟨ps, hps⟩ ⟨qs, hqs⟩
    exact ⟨ps ++ qs, by rw [RawRegistry.serveAll_append, ← hps, hqs]⟩
  exact Tabular.acting
    { hsteady with
      modify := fun f hf i => hsame (hf i).2
      acquire := fun v => hsteady.lending fun _ _ _ => hsame rfl
      registerRaw := fun v => hsteady.registering fun _ _ => ⟨[.register v], rfl⟩
      increment := fun id => hsteady.gaining fun _ _ _ => hsame rfl
      decrement := fun id => hsteady.losing fun _ _ _ _ => hsame rfl
      unregisterRaw := fun id i => ⟨[.unregister id], rfl⟩ }

/-- Whatever is done to an instance, its registry is one that queries to an empty one lead to. -/
theorem Machine.raw_runs (guest : Guest Code) (config : Config) (as : List (Action Code)) :
    ∃ qs, ((Machine.boot guest config).runs as).inst.raw =
      (RawRegistry.empty.serveAll qs).2 :=
  Queried.acting.runs _ as

end

end Crossing
