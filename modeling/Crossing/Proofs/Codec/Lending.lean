import Crossing.Proofs.Codec.Capacity
import Crossing.Proofs.Codec.Loans
import Crossing.Proofs.Handle.Credits
import Crossing.Proofs.Instance.Tables

/-!
# What encoding lends

Encoding lends the loans in a value (`Value.loans`), in the order in which it comes to them.
`Effect.LendsUpTo vs e` says that the effect goes through the list `vs` from its front: it lends all
of it when it comes to its end, and when it faults it has lent some first part of it and gives
nothing back. `Effect.lendsUpTo_encodeAt` proves it by recursion over the value.

`Machine.credited_encode` says what a successful encoding leaves in the tables, and
`Machine.lendsNothing_iff` when a failed one has lent nothing.
-/

namespace Crossing

open Effect

section
variable {Code α β : Type}

/-! ## Effects that lend -/

/-- The tables of `i'` are those of `i` when the values `vs` were lent or registered in turn. -/
structure Lending (vs : List Value) (i i' : Instance Code) : Prop where
  handles : i'.handles = i.handles.acquireAll (vs.filter Value.isLent)
  raw : i'.raw = i.raw.registerAll (vs.filter Value.isSymbol)

namespace Lending

variable {vs ws : List Value} {i i' i'' : Instance Code}

/-- What differs in memory, allocator and journal at most lends nothing. -/
theorem of_confined (h : Confined i i') : Lending [] i i' := ⟨h.handles, h.raw⟩

/-- Steps in a row lend the values of one and then those of the other. -/
theorem trans (h : Lending vs i i') (h' : Lending ws i' i'') : Lending (vs ++ ws) i i'' where
  handles := by
    rw [h'.handles, h.handles, List.filter_append, HandleTable.acquireAll_append]
  raw := by
    rw [h'.raw, h.raw, List.filter_append, RawRegistry.registerAll_append]

end Lending

namespace Effect

/-- The effect lends the values `vs` in turn. When it faults it has lent a first part of them. -/
def LendsUpTo (vs : List Value) (e : Effect Code α) : Prop :=
  ∀ i, ∃ done rest, vs = done ++ rest ∧ Lending done i (exec e i).2 ∧
    ∀ a, (exec e i).1 = .ok a → rest = []

namespace LendsUpTo

variable {vs ws : List Value} {e : Effect Code α} {f : α → Effect Code β}

/-- What writes slots, tables and texts lends nothing. -/
theorem of_confined (h : Keeps Confined e) : LendsUpTo [] e :=
  fun i => ⟨[], [], rfl, .of_confined (h i), fun _ _ => rfl⟩

/-- Effects in a row lend up to the values of both; when the first one faults, the rest was never
lent. -/
theorem bind (he : LendsUpTo vs e) (hf : ∀ a, LendsUpTo ws (f a)) :
    LendsUpTo (vs ++ ws) (e >>= f) := by
  intro i
  obtain ⟨done, rest, rfl, hl, hok⟩ := he i
  rw [exec_bind]
  revert hl hok
  rcases exec e i with ⟨x | a, i'⟩ <;> intro hl hok
  · refine ⟨done, rest ++ ws, List.append_assoc done rest ws, hl, fun b hb => ?_⟩
    cases hb
  · obtain ⟨done', rest', rfl, hl', hok'⟩ := hf a i'
    have hrest : rest = [] := hok a rfl
    subst hrest
    rw [List.append_nil]
    exact ⟨done ++ done', rest', (List.append_assoc done done' rest').symm, hl.trans hl', hok'⟩

/-- Lending begins after an effect that lends nothing. -/
theorem after (he : Keeps Confined e) (hf : ∀ a, LendsUpTo ws (f a)) : LendsUpTo ws (e >>= f) :=
  (of_confined he).bind hf

/-- Lending is over before an effect that lends nothing. -/
theorem before (he : LendsUpTo vs e) (hf : ∀ a, Keeps Confined (f a)) : LendsUpTo vs (e >>= f) :=
  List.append_nil vs ▸ he.bind fun a => of_confined (hf a)

/-- Lending a value lends it. -/
theorem acquire {v : Value} (hv : v.isLent = true) :
    LendsUpTo [v] (acquire v : Effect Code UInt32) := by
  intro i
  have hs : v.isSymbol = false := by cases v <;> simp_all [Value.isLent, Value.isSymbol]
  obtain ⟨journal, h⟩ := exec_acquire v i
  rw [h]
  split
  · refine ⟨[], [v], rfl, ⟨rfl, rfl⟩, fun _ ha => ?_⟩
    cases ha
  · refine ⟨[v], [], rfl, ⟨?_, ?_⟩, fun _ _ => rfl⟩
    · rw [List.filter_cons_of_pos hv]
      rfl
    · rw [List.filter_cons_of_neg (by simp [hs])]
      rfl

/-- Registering a symbol lends it. -/
theorem registerRaw (s : Symbol) :
    LendsUpTo [.symbol s] (registerRaw (.symbol s) : Effect Code UInt32) := by
  intro i
  rw [exec_registerRaw]
  split
  · refine ⟨[], [.symbol s], rfl, ⟨rfl, rfl⟩, fun _ ha => ?_⟩
    cases ha
  · exact ⟨[.symbol s], [], rfl, ⟨rfl, rfl⟩, fun _ _ => rfl⟩

/-- The slot of a value that is lent lends that value, even if writing the slot faults then. -/
theorem encodeHandle (address : UInt32) {v : Value} (hv : v.isLent = true) :
    LendsUpTo [v] (encodeHandle address v : Effect Code Unit) :=
  (acquire hv).before fun _ => Confined.writing.bind (Confined.writing.writeWord _ _ _) fun _ =>
    Confined.writing.writeKind _ _

end LendsUpTo

mutual

/-- Encoding a value lends what is in it, in order. -/
theorem lendsUpTo_encodeAt (room : Nat) (address : UInt32) (v : Value) :
    LendsUpTo v.loans (encodeAt room address v : Effect Code Unit) := by
  have hw : Writing fun i i' : Instance Code => Confined i i' := Confined.writing
  unfold encodeAt
  refine .after (hw.note _ rfl) fun _ => ?_
  cases v with
  | undefined => exact .of_confined (hw.writeKind _ _)
  | null => exact .of_confined (hw.writeKind _ _)
  | boolean b => exact .of_confined (hw.writeKind _ _)
  | number x => exact .of_confined (hw.encodeNumber _ _)
  | string text => exact .of_confined (hw.bind (hw.storeText _ _) fun _ => hw.writeKind _ _)
  | array items => exact .after (hw.openArray _ _ _) fun _ => lendsUpTo_encodeItems _ _ _ items
  | object entries =>
    exact .after (hw.openObject _ _ _) fun _ => lendsUpTo_encodeEntries _ _ _ _ entries
  | symbol s =>
    exact (LendsUpTo.registerRaw s).before fun _ => hw.bind (hw.writeWord _ _ _) fun _ =>
      hw.writeKind _ _
  | reference o => exact .encodeHandle _ rfl
  | closure id => exact .encodeHandle _ rfl
  | window w => exact .encodeHandle _ rfl

/-- Items lend their loans. -/
theorem lendsUpTo_encodeItems (room : Nat) (table index : UInt32) (items : List Value) :
    LendsUpTo (Value.loansItems items) (encodeItems room table index items : Effect Code Unit) := by
  have hw : Writing fun i i' : Instance Code => Confined i i' := Confined.writing
  cases items with
  | nil => exact .of_confined (hw.pure _)
  | cons v rest =>
    unfold encodeItems
    exact .after (hw.entryAddress _ _ _) fun _ => (lendsUpTo_encodeAt _ _ v).bind fun _ =>
      lendsUpTo_encodeItems _ _ _ rest

/-- Properties lend the loans of their values. -/
theorem lendsUpTo_encodeEntries (room : Nat) (keys values index : UInt32)
    (entries : List (String × Value)) :
    LendsUpTo (Value.loansEntries entries)
      (encodeEntries room keys values index entries : Effect Code Unit) := by
  have hw : Writing fun i i' : Instance Code => Confined i i' := Confined.writing
  cases entries with
  | nil => exact .of_confined (hw.pure _)
  | cons entry rest =>
    obtain ⟨key, v⟩ := entry
    unfold encodeEntries
    exact .after (hw.entryAddress _ _ _) fun _ => .after (hw.storeText _ _) fun _ =>
      .after (hw.entryAddress _ _ _) fun _ => (lendsUpTo_encodeAt _ _ v).bind fun _ =>
        lendsUpTo_encodeEntries _ _ _ _ rest

end

end Effect

/-! ## Operations that encode -/

/-- The operation encodes, and `vs` are the loans in what it encodes. -/
inductive Operation.Encodes : {α : Type} → Operation Code α → List Value → Prop
  | encode (address : UInt32) (v : Value) : Encodes (.encode address v) v.loans
  | encodeArray (address : UInt32) (items : List Value) :
      Encodes (.encodeArray address items) (Value.loansItems items)
  | prepare (v : Value) : Encodes (.prepare v) v.loans

namespace Operation.Encodes

variable {op : Operation Code α} {vs : List Value}

/-- An operation that encodes lends the loans of what it encodes. -/
theorem lendsUpTo (h : op.Encodes vs) : LendsUpTo vs op.run := by
  have hw : Writing fun i i' : Instance Code => Confined i i' := Confined.writing
  have hencode (address : UInt32) (v : Value) :
      LendsUpTo v.loans (Effect.encode address v : Effect Code Unit) :=
    .after hw.get fun _ => lendsUpTo_encodeAt _ _ v
  cases h with
  | encode address v => exact hencode address v
  | encodeArray address items =>
    exact .after hw.get fun _ => .after (hw.openArray _ _ _) fun _ =>
      lendsUpTo_encodeItems _ _ _ items
  | prepare v =>
    exact .after (hw.alloc _) fun _ => (hencode _ v).before fun _ => hw.pure _

/-- What an operation encodes is registered or lent by handle. -/
theorem isSymbol_eq (h : op.Encodes vs) {w : Value} (hw : w ∈ vs) : w.isSymbol = !w.isLent := by
  cases h with
  | encode address v => exact v.isSymbol_eq_of_mem_loans hw
  | encodeArray address items => exact Value.isSymbol_eq_of_mem_loansItems items hw
  | prepare v => exact v.isSymbol_eq_of_mem_loans hw

end Operation.Encodes

/-- Every handle has the owners that it had, the same handles are live, and the same raw values are
registered. -/
structure Instance.LendsNothing (i i' : Instance Code) : Prop where
  owners : ∀ id, i'.handles.owners? id = i.handles.owners? id
  raw : ∀ id : UInt32, i'.raw.values[id]? = i.raw.values[id]?

namespace Lending

variable {vs : List Value} {i i' : Instance Code}

/-- Handles and owners after lending, when no number overflows. -/
theorem credited (h : Lending vs i i') (hi : i.TablesSound)
    (hadmits : i.handles.AdmitsAll ((vs.filter Value.isLent).map .acquire)) :
    Credited (vs.filter Value.isLent) i.handles i'.handles := by
  rw [h.handles]
  refine HandleTable.credited_acquireAll hi.handles (fun v hv => ?_) hadmits
  exact Value.isNullish_of_isLent (List.mem_filter.1 hv).2

/-- Each value that was lent has one handle afterwards. -/
theorem existsUnique_lends (h : Lending vs i i') (hi : i.TablesSound)
    (hadmits : i.handles.AdmitsAll ((vs.filter Value.isLent).map .acquire)) {v : Value}
    (hv : v ∈ vs.filter Value.isLent) : ∃! id, i'.handles.Lends id v := by
  obtain ⟨id, hl⟩ := (h.credited hi hadmits).lends v hv
  have hfits : i'.handles.Fits :=
    h.handles ▸ HandleTable.fits_acquireAll hadmits (List.ne_nil_of_mem hv)
  have hsound : i'.handles.Sound := h.handles ▸ HandleTable.sound_acquireAll hi.handles _
  obtain ⟨l, r⟩ := hsound hfits
  exact ⟨id, hl, fun id' hl' => r.eq_of_lends hl' hl⟩

/-- Raw values after lending, when no number overflows. -/
theorem values (h : Lending vs i i') (hi : i.TablesSound)
    (hraw : i.raw.lastId + (vs.filter Value.isSymbol).length < UInt32.size) (id : UInt32) :
    i'.raw.values[id]? =
      if i.raw.lastId < id.toNat then (vs.filter Value.isSymbol)[id.toNat - (i.raw.lastId + 1)]?
      else i.raw.values[id]? := by
  rw [h.raw]
  exact RawRegistry.values_registerAll hi.raw _ hraw id

/-- Only lending no value leaves no trace in the tables. -/
theorem eq_nil_iff (h : Lending vs i i') (hi : i.TablesSound)
    (hvs : ∀ v ∈ vs, v.isSymbol = !v.isLent)
    (hadmits : i.handles.AdmitsAll ((vs.filter Value.isLent).map .acquire))
    (hraw : i.raw.lastId + (vs.filter Value.isSymbol).length < UInt32.size) :
    i.LendsNothing i' ↔ vs = [] := by
  constructor
  · intro hnone
    rw [List.eq_nil_iff_forall_not_mem]
    intro v hv
    cases hlent : v.isLent with
    | true =>
      -- The handle of a lent value has more owners than before.
      have hmem : v ∈ vs.filter Value.isLent := List.mem_filter.2 ⟨hv, hlent⟩
      have hcredited := h.credited hi hadmits
      obtain ⟨id, e', he', hsame⟩ := hcredited.lends v hmem
      have howners := hnone.owners id
      rw [HandleTable.owners?, he', HandleTable.owners?, Option.map_some] at howners
      obtain ⟨e, he, hown⟩ := Option.map_eq_some_iff.1 howners.symm
      obtain ⟨e'', he'', hvalue, hcount⟩ := hcredited.kept he
      rw [he', Option.some.injEq] at he''
      subst he''
      have hpos : 0 < (vs.filter Value.isLent).countP e.value.same :=
        List.countP_pos_iff.2 ⟨v, hmem, hvalue ▸ hsame⟩
      rw [← hown] at hcount
      omega
    | false =>
      -- A registered symbol stands behind the last number, where nothing stood.
      have hmem : v ∈ vs.filter Value.isSymbol :=
        List.mem_filter.2 ⟨hv, by rw [hvs v hv, hlent]; rfl⟩
      have hlen := List.length_pos_of_mem hmem
      have hid : (i.raw.lastId + 1).toUInt32.toNat = i.raw.lastId + 1 :=
        UInt32.toNat_ofNat_of_lt' (by omega)
      have hnew := h.values hi hraw (i.raw.lastId + 1).toUInt32
      rw [hnone.raw, RawRegistry.values_of_lastId_lt hi.raw (by unfold RawRegistry.Fits; omega)
        (by omega), if_pos (by omega), hid, Nat.sub_self] at hnew
      exact absurd hnew.symm (by simpa using List.ne_nil_of_length_pos hlen)
  · rintro rfl
    exact ⟨fun id => by rw [h.handles]; rfl, fun id => by rw [h.raw]; rfl⟩

end Lending

/-! ## Encoding at an address that is no multiple of four -/

/-- A word cannot be written at such an address. -/
theorem Effect.exec_writeWord_misaligned {address index a : UInt32} (value : UInt32)
    (i : Instance Code) (ha : Slot.word? address index = some a)
    (hmod : a % 4 ≠ 0) :
    ∃ i', exec (writeWord address index value) i = (.error (.misaligned a 4), i') ∧
      Confined i i' := by
  obtain ⟨v, i₁, hviews, -⟩ := answers_views i
  have hindex : Buffer.elementIndex .u32 a = .error (.misaligned a 4) := if_neg hmod
  have hexec : (exec (writeWord address index value) i).1 = .error (.misaligned a 4) := by
    have hpart : exec (slotPart v address (some a)) i₁ = (.ok a, i₁) := rfl
    unfold writeWord
    rw [exec_bind_of_ok hviews, ha, exec_bind_of_ok hpart, store, hindex]
    rfl
  exact ⟨_, Prod.ext hexec rfl, Confined.writing.writeWord address index value i⟩

/-- A value that goes by handle is lent before the first word is written, so it is lent although
its encoding fails. -/
theorem Effect.exec_encode_misaligned (address : UInt32) {v : Value} (hv : v.isLent = true)
    (i : Instance Code) (hmod : address % 4 ≠ 0) (hroom : i.handles.RoomFor 1) :
    ∃ i', exec (encode address v) i = (.error (.misaligned address 4), i') ∧ Lending [v] i i' := by
  have haddress : Slot.word? address 0 = some address := Slot.entry?_eq_some_iff.2 (by simp)
  have hencode : exec (encode address v) i =
      exec (encodeHandle address v) (i.log (.encoding v.typeName address)) := by
    rw [encode, exec_bind_of_ok (exec_get i)]
    unfold encodeAt
    rw [exec_bind_of_ok (exec_record _ i)]
    cases v with
    | reference o => rfl
    | closure id => rfl
    | window w => rfl
    | _ => cases hv
  obtain ⟨journal, hacquire⟩ := exec_acquire v (i.log (.encoding v.typeName address))
  have hspare : (i.log (.encoding v.typeName address)).handles.overflows v = false :=
    hroom.overflows_eq_false v
  rw [hspare, if_neg Bool.false_ne_true] at hacquire
  obtain ⟨i', hword, hconfined⟩ := exec_writeWord_misaligned (i.handles.acquire v).1
    { i.log (.encoding v.typeName address) with
      handles := (i.handles.acquire v).2, journal } haddress hmod
  refine ⟨i', ?_, ?_⟩
  · rw [hencode, encodeHandle, exec_bind_of_ok hacquire]
    exact exec_bind_of_error hword
  · have hs : v.isSymbol = false := by cases v <;> simp_all [Value.isLent, Value.isSymbol]
    refine ⟨?_, ?_⟩
    · rw [hconfined.handles, List.filter_cons_of_pos hv]
      rfl
    · rw [hconfined.raw, List.filter_cons_of_neg (by simp [hs])]
      rfl

namespace Machine

/-- What a successful encoding leaves in the tables of an instance that a run has reached, where no
number overflows. The handle of each value gained as many owners as there are host objects, closures
and windows in the encoded value that are equal to it; there are new handles for those that had
none, and no others; and the symbols are registered in a row behind the last number. -/
theorem credited_encode (guest : Guest Code) (config : Config) (as : List (Action Code))
    {m m' : Machine Code} (hm : (boot guest config).runs as = m) {address : UInt32} {v : Value}
    (h : m.perform (.encode address v) = (.ok (), m'))
    (hadmits : m.inst.handles.AdmitsAll (v.lent.map .acquire))
    (hraw : m.inst.raw.lastId + v.symbols.length < UInt32.size) :
    Credited v.lent m.inst.handles m'.inst.handles ∧
      (∀ w ∈ v.lent, ∃! id, m'.inst.handles.Lends id w) ∧
      ∀ id : UInt32,
        (m.inst.raw.lastId < id.toNat → m.inst.raw.values[id]? = none) ∧
        m'.inst.raw.values[id]? =
          if m.inst.raw.lastId < id.toNat then v.symbols[id.toNat - (m.inst.raw.lastId + 1)]?
          else m.inst.raw.values[id]? := by
  have hi : m.inst.TablesSound := hm ▸ tables_runs guest config as
  obtain ⟨done, rest, hvs, hl, hrest⟩ := (Operation.Encodes.encode address v).lendsUpTo m.inst
  rw [perform, run_eq, Prod.mk.injEq] at h
  obtain ⟨hok, rfl⟩ := h
  rw [hrest () hok, List.append_nil] at hvs
  subst hvs
  refine ⟨hl.credited hi hadmits, fun w hw => hl.existsUnique_lends hi hadmits hw,
    fun id => ⟨?_, ?_⟩⟩
  · exact RawRegistry.values_of_lastId_lt hi.raw (by unfold RawRegistry.Fits; omega)
  · exact hl.values hi hraw id

/-- A host object that is lent already is encoded twice in one array, with a symbol and a closure in
between. It gains two owners under its one handle. -/
theorem credited_encode_shared :
    ∃ m m', (boot (Guest.ofPages Unit 1 16) .standard).runs
        [.perform (.acquire (.reference (.named "h")))] = m ∧
      m.perform (.encode 0 (.array [.reference (.named "h"), .symbol ⟨"s", none⟩, .closure 0,
        .reference (.named "h")])) = (.ok (), m') ∧
      Credited [.reference (.named "h"), .closure 0, .reference (.named "h")] m.inst.handles
        m'.inst.handles ∧
      (∃! id, m'.inst.handles.Lends id (.reference (.named "h"))) ∧
      m'.inst.raw.values[(1 : UInt32)]? = some (.symbol ⟨"s", none⟩) := by
  obtain ⟨m, hm⟩ : ∃ m, (boot (Guest.ofPages Unit 1 16) .standard).runs
      [.perform (.acquire (.reference (.named "h")))] = m := ⟨_, rfl⟩
  have hs : m.inst.Sound := hm ▸ sound_runs (by decide) (by decide) _ _
  obtain ⟨journal, hinst⟩ : ∃ journal, m.inst =
      { (boot (Guest.ofPages Unit 1 16) .standard).inst with
        handles := (HandleTable.empty.acquire (.reference (.named "h"))).2, journal } := by
    obtain ⟨journal, hacquire⟩ := exec_acquire (.reference (.named "h"))
      (boot (Guest.ofPages Unit 1 16) .standard).inst
    have hspare : (boot (Guest.ofPages Unit 1 16) .standard).inst.handles.overflows
        (.reference (.named "h")) = false := HandleTable.RoomFor.overflows_eq_false
      (l := 0) (.empty (by decide)) _
    rw [hspare, if_neg Bool.false_ne_true] at hacquire
    refine ⟨journal, ?_⟩
    rw [← hm, runs_cons, runs_nil, inst_act_perform, Operation.run, hacquire]
    rfl
  have hguest : m.inst.guest = Guest.ofPages Unit 1 16 := by rw [hinst]; rfl
  have harena : m.inst.arena.base = 0 := by rw [hinst]; rfl
  have hdepth : m.inst.config.maxDepth = 128 := by rw [hinst]; rfl
  have hraw : m.inst.raw = .empty := by rw [hinst]; rfl
  have hsize : (Guest.ofPages Unit 1 16).buffer.bytes.size = 65536 := Buffer.size_zeroBytes _
  have hroom : 16 + 71 ≤ (Guest.ofPages Unit 1 16).limit :=
    Nat.le_trans (by decide) (Nat.le_max_right _ (16 * 65536))
  have hloans : m.inst.RoomFor 4 := by
    refine ⟨?_, by rw [hraw]; decide⟩
    rw [hinst]
    exact HandleTable.RoomFor.acquire (.empty (by decide)) _
  obtain ⟨_, i', hexec, -⟩ := @answers_encodeAt Unit m.inst hs 128 0
    (.array [.reference (.named "h"), .symbol ⟨"s", none⟩, .closure 0, .reference (.named "h")])
    (by decide) (by decide) (by rw [hguest, hsize]; decide) (by rw [harena]; exact Nat.zero_le _)
    (by rw [hguest]; exact hroom) hloans
  have hperform : m.perform (.encode 0 (.array [.reference (.named "h"), .symbol ⟨"s", none⟩,
      .closure 0, .reference (.named "h")])) = (.ok (), { m with inst := i' }) := by
    refine perform_of_exec ?_
    rw [Operation.run, encode, exec_bind_of_ok (exec_get _), hdepth]
    exact hexec
  have hadmits : m.inst.handles.AdmitsAll ((Value.array [.reference (.named "h"),
      .symbol ⟨"s", none⟩, .closure 0, .reference (.named "h")]).lent.map .acquire) := by
    have hall := Follows.empty.admitsAll [.acquire (.reference (.named "h")),
      .acquire (.reference (.named "h")), .acquire (.closure 0),
      .acquire (.reference (.named "h"))] (by decide)
    rw [hinst]
    exact hall.2
  obtain ⟨hkept, hone, hvalues⟩ :=
    credited_encode _ _ _ hm hperform hadmits (by rw [hraw]; decide)
  refine ⟨m, _, hm, hperform, hkept, hone _ List.mem_cons_self, ?_⟩
  rw [(hvalues 1).2, hraw]
  rfl

/-- When an operation that encodes fails, where no number overflows, it has lent a first part of
what it was to lend, and takes nothing back. So it leaves no trace in the tables exactly if it
failed before the first symbol, host object, closure or window. -/
theorem lendsNothing_iff {α : Type} (guest : Guest Code) (config : Config) (as : List (Action Code))
    {m m' : Machine Code} (hm : (boot guest config).runs as = m) {op : Operation Code α}
    {vs : List Value} (hop : op.Encodes vs) {x : Fault} (h : m.perform op = (.error x, m'))
    (hadmits : m.inst.handles.AdmitsAll ((vs.filter Value.isLent).map .acquire))
    (hraw : m.inst.raw.lastId + (vs.filter Value.isSymbol).length < UInt32.size) :
    ∃ done rest, vs = done ++ rest ∧ Lending done m.inst m'.inst ∧
      (m.inst.LendsNothing m'.inst ↔ done = []) := by
  have hi : m.inst.TablesSound := hm ▸ tables_runs guest config as
  obtain ⟨done, rest, rfl, hl, -⟩ := hop.lendsUpTo m.inst
  rw [perform, run_eq, Prod.mk.injEq] at h
  obtain ⟨-, rfl⟩ := h
  rw [List.filter_append, List.map_append] at hadmits
  rw [List.filter_append, List.length_append] at hraw
  refine ⟨done, rest, rfl, hl, hl.eq_nil_iff hi (fun v hv => ?_)
    (HandleTable.admitsAll_append.1 hadmits).1 (by omega)⟩
  exact hop.isSymbol_eq (List.mem_append_left rest hv)

/-- Where nothing may be opened, an array with a host object in it is refused before the host object
is reached. -/
theorem lendsNothing_iff_tooDeep :
    ∃ m', ((boot (Guest.ofPages Unit 1 16) { Config.standard with maxDepth := 0 }).runs []).perform
        (.encode 0 (.array [.reference (.named "h")])) = (.error (.tooDeep 0), m') ∧
      ∃ done rest, [.reference (.named "h")] = done ++ rest ∧
        Lending done (boot (Guest.ofPages Unit 1 16) { Config.standard with maxDepth := 0 }).inst
          m'.inst ∧
        ((boot (Guest.ofPages Unit 1 16) { Config.standard with maxDepth := 0 }).inst.LendsNothing
          m'.inst ↔ done = []) := by
  have hperform : ((boot (Guest.ofPages Unit 1 16) { Config.standard with maxDepth := 0 }).runs
      []).perform (.encode 0 (.array [.reference (.named "h")])) = (.error (.tooDeep 0), _) := rfl
  have hfits := Follows.empty.admitsAll [.acquire (.reference (.named "h"))] (by decide)
  exact ⟨_, hperform, lendsNothing_iff _ _ [] rfl
    (.encode 0 (.array [.reference (.named "h")])) hperform hfits (by decide)⟩

/-- A host object is encoded at an address that is no multiple of four: that fails, no word of the
guest's memory holds its handle, and the handle is live. -/
theorem not_lendsNothing_misaligned :
    ∃ m', ((boot (Guest.ofPages Unit 1 16) .standard).runs []).perform
        (.encode 2 (.reference (.named "h"))) = (.error (.misaligned 2 4), m') ∧
      ¬ ((boot (Guest.ofPages Unit 1 16) .standard).runs []).inst.LendsNothing m'.inst := by
  obtain ⟨i', hexec, hl⟩ := exec_encode_misaligned 2 (v := .reference (.named "h")) rfl
    (boot (Guest.ofPages Unit 1 16) .standard).inst (by decide) (.empty (by decide))
  refine ⟨_, perform_of_exec hexec, fun hnone => ?_⟩
  have hfits := Follows.empty.admitsAll [.acquire (.reference (.named "h"))] (by decide)
  refine List.cons_ne_nil _ _ ((hl.eq_nil_iff (tables_runs _ _ []) ?_ hfits (by decide)).1 hnone)
  intro v hv
  rw [List.mem_singleton.1 hv]
  rfl

end Machine

end

end Crossing
