import Crossing.Proofs.Codec.Acceptance
import Crossing.Proofs.Codec.RoundTrip
import Crossing.Proofs.Codec.Intact

/-!
# Calls of capabilities

The guest calls a capability by name, with slots for its arguments and one for its result. When the
arguments are values that were prepared and that nothing has touched since (`Machine.Stages`), the
body of the capability is entered once, with what comes back of them (`Value.recovered`) and before
anything is written. Whatever the body does, its end is the end of the call: `Machine.Ends` gives
the four ways in which the call can come out, and where its result was encoded, decoding gives what
comes back of the result.

When the name is unknown or a slot does not decode, no body is entered and memory is as it was.
`Machine.capability_called` says both of every machine that a run reaches, and that what the body is
given equals what was prepared exactly when that is well-formed. A text of 2³² letters is not
(`Machine.not_called_faithfully`).
-/

namespace Crossing

open Effect

section
variable {Code : Type} {i i' : Instance Code}

/-! ## Arguments -/

/-- A value of which memory holds what it can is decoded to what comes back of it. -/
theorem reads_decode (hs : i.Sound) (hf : i.Fits) {lo hi : Nat} {slot : UInt32} {v : Value}
    (h : i.Staged i.config.maxDepth lo hi slot v.stored) :
    ∃ v', v'.same v.recovered = true ∧ Reads i (decode slot) v' := by
  obtain ⟨v', hsame, hreads⟩ := reads_decodeAt hs hf _ lo hi slot v.stored h
  refine ⟨v', hsame, .get fun i' h' => ?_⟩
  rw [h'.config]
  exact hreads

/-- Staged arguments are decoded to what comes back of them, in their order. -/
theorem reads_arguments (hs : i.Sound) (hf : i.Fits) {vs : List Value} {slots : List UInt32}
    (h : List.Forall₂ (fun v slot => ∃ lo hi, i.Staged i.config.maxDepth lo hi slot v.stored)
      vs slots) :
    ∃ values, List.Forall₂ (fun w v : Value => w.same v.recovered = true) values vs ∧
      Reads i (slots.mapM decode) values := by
  induction h with
  | nil => exact ⟨[], .nil, .pure []⟩
  | @cons v slot vs slots hstaged _ ih =>
    obtain ⟨lo, hi, hv⟩ := hstaged
    obtain ⟨w, hsame, hreads⟩ := reads_decode hs hf hv
    obtain ⟨ws, hall, hreads'⟩ := ih
    refine ⟨w :: ws, .cons hsame hall, ?_⟩
    rw [List.mapM_cons]
    exact hreads.bind (hreads'.bind (.pure _))

/-- What comes back of arguments equals them exactly when each is well-formed. -/
theorem forall₂_same_iff {values vs : List Value}
    (h : List.Forall₂ (fun w v : Value => w.same v.recovered = true) values vs) :
    List.Forall₂ (fun w v : Value => w.same v = true) values vs ↔ ∀ v ∈ vs, v.WellFormed := by
  induction h with
  | nil => exact iff_of_true .nil nofun
  | cons hsame _ ih =>
    rw [List.forall₂_cons, List.forall_mem_cons, ih]
    exact and_congr_left fun _ => Value.same_iff_of_recovered hsame

/-- What comes back of a text is what memory holds of it. -/
theorem forall₂_recovered_string {t : String} {values : List Value}
    (h : List.Forall₂ (fun w v : Value => w.same v.recovered = true) values [.string t]) :
    values = [.string (storedText t)] := by
  rcases h with _ | ⟨hvalue, ⟨⟩⟩
  rw [Value.eq_string_of_same hvalue]

/-- The empty text equals no other one. -/
theorem not_forall₂_same_empty {t : String} (h : t.toUTF8.size ≠ 0) :
    ¬ List.Forall₂ (fun w v : Value => w.same v = true) [.string ""] [.string t] := by
  intro hsame
  have htext : "" = t := beq_iff_eq.1 (List.forall₂_cons.1 hsame).1
  rw [← htext] at h
  exact h rfl

/-- Arguments that are decoded one after the other can each be decoded at once. -/
theorem exec_decode_of_arguments (hs : i.Sound) {slots : List UInt32} {values : List Value}
    (h : exec (slots.mapM decode) i = (.ok values, i')) {slot : UInt32} (hslot : slot ∈ slots) :
    ∃ v, (exec (decode slot) i).1 = .ok v := by
  have hparses (a : UInt32) := Parses.decode hs.guest.size_le hs.base a
  have halike := Instance.Settled.alike ⟨hs.views, hs.base⟩
  obtain ⟨cs, heach, -⟩ := (Parses.mapM fun a _ => hparses a).sound halike h
  obtain ⟨n, v, cs', hv⟩ := heach.exists_of_mem hslot
  obtain ⟨v', hv'⟩ := hv.renumber _
  obtain ⟨i'', hexec, -⟩ := (hparses slot).complete halike hv'
  exact ⟨v', by rw [hexec]⟩

/-- Arguments that can each be decoded at once are decoded one after the other, which leaves
everything but views, journal and newly wrapped closures as it was. -/
theorem exec_arguments_of_decode (hs : i.Sound) {slots : List UInt32}
    (h : ∀ slot ∈ slots, ∃ v, (exec (decode slot) i).1 = .ok v) :
    ∃ values cs i', exec (slots.mapM decode) i = (.ok values, i') ∧ Alike (i.wrapping cs) i' := by
  have hparses (a : UInt32) := Parses.decode hs.guest.size_le hs.base a
  have halike := Instance.Settled.alike ⟨hs.views, hs.base⟩
  have heach : ∀ slot ∈ slots, ∀ n, ∃ v cs, i.Derives 0 slot.toNat n v cs := by
    intro slot hslot n
    obtain ⟨v, hv⟩ := h slot hslot
    obtain ⟨cs, hcs, -⟩ := (hparses slot).sound halike (Prod.ext hv rfl)
    obtain ⟨v', hv'⟩ := hcs.renumber n
    exact ⟨v', cs, hv'⟩
  obtain ⟨values, cs, hvalues⟩ := Layout.each.exists_of_forall heach _
  obtain ⟨i', hexec, hi'⟩ := (Parses.mapM fun a _ => hparses a).complete halike hvalues
  exact ⟨values, cs, i', hexec, hi'⟩

/-- Arguments that do not decode leave the guest as it was. -/
theorem guest_of_arguments (hs : i.Sound) {slots : List UInt32} {x : Fault}
    (h : exec (slots.mapM decode) i = (.error x, i')) : i'.guest = i.guest := by
  have halike := Instance.Settled.alike ⟨hs.views, hs.base⟩
  obtain ⟨cs, hi'⟩ := (Parses.mapM fun a _ =>
    Parses.decode hs.guest.size_le hs.base a).faults halike h
  exact hi'.guest

/-! ## The call -/

/-- A capability is looked up before its arguments are decoded. -/
theorem Effect.exec_summon {name : String} {slots : List UInt32} (hlive : i.dead = false) :
    exec (summon name slots) i =
      match i.capabilities.get? name with
      | none => (.error (.unknownCapability name), i)
      | some c => exec (do
          let values ← slots.mapM decode
          record (.invoked name values)
          return (c, values)) i := by
  unfold summon
  rw [exec_bind_of_ok (exec_ensureAlive hlive), exec_bind_of_ok (exec_get i)]
  cases i.capabilities.get? name <;> rfl

namespace Machine

/-- A call enters the body of the capability that is found. -/
theorem call_capability (m : Machine Code) (name : String) (slot : UInt32) (slots : List UInt32) :
    m.call (.capability name slot slots) =
      match exec (summon name slots) m.inst with
      | (.ok (c, values), i') => (.entered c.code [] values,
          { inst := i', frames := .capability c.fallible slot :: m.frames })
      | (.error x, i') => (.answered (.error x), { m with inst := i' }) := by
  simp only [call, run_eq]
  rcases exec (summon name slots) m.inst with ⟨x | ⟨c, values⟩, i'⟩ <;> rfl

/-- The call ends when the body does; a result that is asked for is encoded. -/
theorem leave_capability {m : Machine Code} {fallible : Bool} {slot : UInt32} {frames : List Frame}
    (hm : m.frames = .capability fallible slot :: frames) (completion : Completion) :
    m.leave completion =
      match completion.answer fallible with
      | .error x => (.answered (.error x), { m with frames })
      | .ok v =>
        if slot = 0 then (.answered (.ok .undefined), { m with frames })
        else (.answered ((exec (encode slot v) m.inst).1.map fun _ => .undefined),
          { inst := (exec (encode slot v) m.inst).2, frames }) := by
  unfold leave
  rw [hm]
  dsimp only
  cases completion.answer fallible <;> rfl

/-- A result that could be encoded. -/
theorem leave_encoded {m : Machine Code} {fallible : Bool} {slot : UInt32} {frames : List Frame}
    {completion : Completion} {v : Value} (hm : m.frames = .capability fallible slot :: frames)
    (hanswer : completion.answer fallible = .ok v) (hslot : slot ≠ 0)
    (hencode : exec (encode slot v) m.inst = (.ok (), i')) :
    m.leave completion = (.answered (.ok .undefined), ⟨i', frames⟩) := by
  rw [leave_capability hm, hanswer]
  dsimp only
  rw [if_neg hslot, hencode]
  rfl

/-! ### Slots -/

/-- In the run `as` from `m` the value was prepared in the slot, and nothing of it has been touched
since. -/
def Stages (m : Machine Code) (as : List (Action Code)) (v : Value) (slot : UInt32) : Prop :=
  ∃ before after, as = before ++ .perform (.prepare v) :: after ∧
    ((m.runs before).perform (.prepare v)).1 = .ok slot ∧
      Intact ((m.runs before).perform (.prepare v)).2.inst (m.runs as).inst slot

/-- In the run `as` from `m` the slot was allocated. -/
def Allots (m : Machine Code) (as : List (Action Code)) (slot : UInt32) : Prop :=
  ∃ before after, as = before ++ .perform (.alloc 16) :: after ∧
    ((m.runs before).perform (.alloc 16)).1 = .ok slot

variable {m : Machine Code} {as : List (Action Code)} {slot : UInt32}

/-- A value that was prepared and left alone is staged. -/
theorem Stages.staged (hs : m.inst.Sound) {v : Value} (h : m.Stages as v slot) :
    ∃ lo hi, (m.runs as).inst.Staged (m.runs as).inst.config.maxDepth lo hi slot v.stored := by
  obtain ⟨before, after, rfl, hslot, hintact⟩ := h
  have hs' := (Enlarges.acting.runs m before hs).sound
  obtain ⟨hg, hanswer⟩ := ensures_prepare_stored hs' v
  obtain ⟨_, lo, hlo, hle, hstaged⟩ := hanswer hslot
  rw [runs_append, runs_cons] at hintact ⊢
  have he := Enlarges.acting.runs ((m.runs before).act (.perform (.prepare v))) after hg.sound
  have ht := TablesLater.acting.runs ((m.runs before).act (.perform (.prepare v))) after
  have hstaged' := hintact.staged hg.sound he ht (by omega) hle hstaged
  exact ⟨lo, _, by rw [he.config]; exact hstaged'⟩

/-- A slot that was allocated lies below the heap's top ever after. -/
theorem Allots.le_heapTop (hs : m.inst.Sound) (h : m.Allots as slot) :
    slot.toNat + 16 ≤ (m.runs as).inst.guest.heapTop.toNat := by
  obtain ⟨before, after, rfl, hslot⟩ := h
  have hs' := (Enlarges.acting.runs m before hs).sound
  obtain ⟨hg, hanswer⟩ := ensures_alloc (W := ∅) hs' 16
  have hstop := (hanswer hslot).stop
  have h16 : (16 : UInt32).toNat = 16 := rfl
  rw [h16] at hstop
  rw [runs_append, runs_cons, ← hstop]
  exact (Enlarges.acting.runs ((m.runs before).act (.perform (.alloc 16))) after hg.sound).heapTop

/-- A slot stays allocated whatever is done later. -/
theorem Allots.append (h : m.Allots as slot) (bs : List (Action Code)) :
    m.Allots (as ++ bs) slot := by
  obtain ⟨before, after, rfl, hslot⟩ := h
  exact ⟨before, after ++ bs, by rw [List.append_assoc, List.cons_append], hslot⟩

/-- A slot that was allocated is aligned, and not the null address. -/
theorem Allots.aligned (hs : m.inst.Sound) (h : m.Allots as slot) :
    8 ∣ slot.toNat ∧ slot ≠ 0 := by
  obtain ⟨before, after, rfl, hslot⟩ := h
  have hs' := (Enlarges.acting.runs m before hs).sound
  have hb := (ensures_alloc (W := ∅) hs' 16).2 hslot
  refine ⟨hb.aligned, ?_⟩
  rintro rfl
  have hpos := hs'.guest.heap_pos
  have hfresh := hb.fresh
  rw [UInt32.toNat_zero] at hfresh
  omega

/-! ### How a call comes out -/

/-- How the call of a capability comes out under the bodies `frames` when its body has come to
`result` on the instance `i`. A fault is the answer, a value that is not asked for is dropped, and
else it is encoded into the slot, which may fault too. What comes back of a value that is encoded is
decoded from the slot, which is an equal value exactly when the value is well-formed. -/
inductive Ends (frames : List Frame) (slot : UInt32) (i : Instance Code) :
    Except Fault Value → Reply Code × Machine Code → Prop
  | faulted (x : Fault) : Ends frames slot i (.error x) (.answered (.error x), ⟨i, frames⟩)
  | dropped (v : Value) (h : slot = 0) :
      Ends frames slot i (.ok v) (.answered (.ok .undefined), ⟨i, frames⟩)
  | refused (v : Value) (h : slot ≠ 0) (x : Fault) (i' : Instance Code)
      (hencode : exec (encode slot v) i = (.error x, i')) :
      Ends frames slot i (.ok v) (.answered (.error x), ⟨i', frames⟩)
  | encoded (v : Value) (h : slot ≠ 0) (i' : Instance Code)
      (hdecode : ∃ v', ((⟨i', frames⟩ : Machine Code).perform (.decode slot)).1 = .ok v' ∧
        v'.same v.recovered = true ∧ (v'.same v = true ↔ v.WellFormed)) :
      Ends frames slot i (.ok v) (.answered (.ok .undefined), ⟨i', frames⟩)

/-- A body on a sound instance ends a call in one of these ways, when the slot was allocated. -/
theorem ends_leave {frames : List Frame} {fallible : Bool} (hs : m.inst.Sound)
    (hf : m.inst.Fits) (hm : m.frames = .capability fallible slot :: frames)
    (hslot : slot = 0 ∨ slot.toNat + 16 ≤ m.inst.guest.heapTop.toNat) (completion : Completion) :
    Ends frames slot m.inst (completion.answer fallible) (m.leave completion) := by
  rw [leave_capability hm]
  cases completion.answer fallible with
  | error x => exact .faulted x
  | ok v =>
    dsimp only
    by_cases h0 : slot = 0
    · rw [if_pos h0]
      exact .dropped v h0
    rw [if_neg h0]
    have hroom := hslot.resolve_left h0
    obtain ⟨hg, hanswer⟩ := ensures_encode hs slot v
    have hfits : FitsKept m.inst (exec (encode slot v) m.inst).2 :=
      FitsKept.acting.encode slot v m.inst
    rcases hencode : exec (encode slot v) m.inst with ⟨x | ⟨⟩, i'⟩
    · exact .refused v h0 x i' hencode
    · rw [hencode] at hg hanswer hfits
      have hstaged := hanswer rfl (by omega)
      obtain ⟨v', hsame, hreads⟩ := reads_decode hg.sound (hfits hf) hstaged
      obtain ⟨i'', hdecode, -⟩ := hreads i' (.refl hg.sound)
      have hperform : (⟨i', frames⟩ : Machine Code).perform (.decode slot) =
          (.ok v', ⟨i'', frames⟩) := perform_of_exec hdecode
      exact .encoded v h0 i'
        ⟨v', by rw [hperform], hsame, Value.same_iff_of_recovered hsame⟩

/-- A call that finds no capability or cannot decode an argument is answered with a fault, and
leaves the guest as it was. -/
theorem call_refused (hs : m.inst.Sound) {name : String} {slots : List UInt32}
    (h : m.inst.capabilities.get? name = none ∨
      ∃ a ∈ slots, ∀ v, (m.perform (.decode a)).1 ≠ .ok v) (slot : UInt32) :
    ∃ x m', m.call (.capability name slot slots) = (.answered (.error x), m') ∧
      m'.frames = m.frames ∧ m'.inst.guest = m.inst.guest := by
  suffices hsummon : ∃ x i', exec (summon name slots) m.inst = (.error x, i') ∧
      i'.guest = m.inst.guest by
    obtain ⟨x, i', hexec, hguest⟩ := hsummon
    refine ⟨x, { m with inst := i' }, ?_, rfl, hguest⟩
    rw [call_capability, hexec]
  by_cases hdead : m.inst.dead = true
  · exact ⟨.dead, m.inst, exec_bind_of_error (exec_ensureAlive_of_dead hdead), rfl⟩
  rw [exec_summon (Bool.not_eq_true _ ▸ hdead)]
  rcases hc : m.inst.capabilities.get? name with _ | c
  · exact ⟨_, _, rfl, rfl⟩
  obtain ⟨a, ha, hundecodable⟩ := h.resolve_left (by rw [hc]; exact nofun)
  dsimp only
  rcases hvalues : exec (slots.mapM decode) m.inst with ⟨x | values, i'⟩
  · exact ⟨x, i', exec_bind_of_error hvalues, guest_of_arguments hs hvalues⟩
  · obtain ⟨v, hv⟩ := exec_decode_of_arguments hs hvalues ha
    exact absurd hv (hundecodable v)

/-- A call of a registered capability on prepared arguments enters its body once, with what comes
back of those that were prepared. -/
theorem call_entered (hs : m.inst.Sound) {name : String} {c : Capability Code} {vs : List Value}
    {slots : List UInt32} (hlive : m.inst.dead = false)
    (hc : m.inst.capabilities.get? name = some c)
    (hstaged : List.Forall₂ (fun v slot =>
      ∃ lo hi, m.inst.Staged m.inst.config.maxDepth lo hi slot v.stored) vs slots)
    (hf : m.inst.Fits) (slot : UInt32) :
    ∃ values m', m.call (.capability name slot slots) = (.entered c.code [] values, m') ∧
      List.Forall₂ (fun w v : Value => w.same v.recovered = true) values vs ∧
        m'.frames = .capability c.fallible slot :: m.frames ∧ Alike m.inst m'.inst := by
  obtain ⟨values, hsame, hreads⟩ := reads_arguments hs hf hstaged
  have hreads' : Reads m.inst (do
      let values ← slots.mapM decode
      record (.invoked name values)
      return (c, values)) (c, values) :=
    hreads.bind ((Reads.record (.invoked name values)).bind (.pure (c, values)))
  obtain ⟨i', hexec, halike⟩ := hreads' m.inst (.refl hs)
  refine ⟨values, { inst := i', frames := .capability c.fallible slot :: m.frames }, ?_, hsame, rfl,
    halike⟩
  rw [call_capability, exec_summon hlive, hc]
  dsimp only
  rw [hexec]

/-! ### A host with a value -/

/-- A host prepares a value, allocates a slot and registers a capability. -/
def arranged (v : Value) : List (Action Unit) :=
  [.perform (.prepare v), .perform (.alloc 16), .perform (.addCapability "f" ⟨(), false⟩)]

/-- On a fresh guest a small value without loans can be prepared and a slot allocated behind it.
Nothing is lent for that, and there is room for more. -/
theorem exec_arranged {v : Value} (hloans : v.stored.loans = []) (hdepth : v.stored.depth ≤ 128)
    (hextent : v.stored.extent ≤ 47) : ∃ argument slot i₁ i₂,
    exec (prepare v) (Instance.ofGuest (Guest.ofPages Unit 1 65535) .standard) =
        (.ok argument, i₁) ∧ i₁.Sound ∧
      exec (alloc 16) i₁ = (.ok slot, i₂) ∧ Grows (Set.Ici i₁.guest.heapTop.toNat) i₁ i₂ ∧
      Block i₁ slot 16 i₂ ∧
      Confined (Instance.ofGuest (Guest.ofPages Unit 1 65535) .standard) i₂ ∧
      i₂.guest.heapTop.toNat + 65536 ≤ i₂.guest.limit := by
  have hs : (Instance.ofGuest (Guest.ofPages Unit 1 65535) .standard).Sound :=
    .ofGuest (by decide) (by decide) _
  have hroom : 16 + ((23 + 47) + ((7 + 16) + 65536)) ≤ (Guest.ofPages Unit 1 65535).limit :=
    Nat.le_trans (by decide) (Nat.le_max_right _ (65535 * 65536))
  have htop : (Instance.ofGuest (Guest.ofPages Unit 1 65535) .standard).guest.heapTop.toNat = 16 :=
    rfl
  have hanswers := (answers_prepare hs v.stored hdepth (Nat.zero_le _)
    (by rw [htop]; exact Nat.le_trans (by omega) hroom)
    (.ofGuest _ _ (by rw [hloans]; decide))).mono (show 23 + v.stored.extent ≤ 23 + 47 by omega)
  have hc₁ := Confined.writing.prepare hloans
    (.ofGuest (Guest.ofPages Unit 1 65535) .standard)
  rw [prepare_stored] at hanswers hc₁
  obtain ⟨argument, i₁, hprepare, s₁, g₁, -⟩ := hanswers.delivers (ensures_prepare_stored hs v)
  have hroom₁ := s₁.room hroom
  have hanswers : Answers (7 + 16) 0 (alloc 16) i₁ := by
    refine answers_alloc g₁.sound ?_
    show i₁.guest.heapTop.toNat + (7 + 16) ≤ i₁.guest.limit
    omega
  obtain ⟨slot, i₂, halloc, s₂, g₂, hb⟩ := hanswers.delivers
    (ensures_alloc (W := Set.Ici i₁.guest.heapTop.toNat) g₁.sound 16)
  have hc₂ := Confined.writing.alloc 16 i₁
  rw [hprepare] at hc₁
  rw [halloc] at hc₂
  exact ⟨argument, slot, i₁, i₂, hprepare, g₁.sound, halloc, g₂, hb,
    Confined.allocating.trans hc₁ hc₂, s₂.room hroom₁⟩

/-- A small value without loans is staged and the slot is there, nothing was lent, and there is room
for more. -/
theorem runs_arranged {v : Value} (hloans : v.stored.loans = []) (hdepth : v.stored.depth ≤ 128)
    (hextent : v.stored.extent ≤ 47) : ∃ argument slot m,
    (boot (Guest.ofPages Unit 1 65535) .standard).runs (arranged v) = m ∧
      (boot (Guest.ofPages Unit 1 65535) .standard).Stages (arranged v) v argument ∧
      (boot (Guest.ofPages Unit 1 65535) .standard).Allots (arranged v) slot ∧
      8 ∣ slot.toNat ∧ slot ≠ 0 ∧ m.inst.dead = false ∧
      m.inst.capabilities.get? "f" = some ⟨(), false⟩ ∧
      m.inst.handles = .empty ∧ m.inst.raw = .empty ∧
      m.inst.guest.heapTop.toNat + 65536 ≤ m.inst.guest.limit := by
  obtain ⟨argument, slot, i₁, i₂, hprepare, hs₁, halloc, hgrows, hblock, hc, hlimit⟩ :=
    exec_arranged hloans hdepth hextent
  have hperform : (boot (Guest.ofPages Unit 1 65535) .standard).perform (.prepare v) =
      (.ok argument, { inst := i₁ }) := perform_of_exec hprepare
  have hperform' : ({ inst := i₁ } : Machine Unit).perform (.alloc 16) =
      (.ok slot, { inst := i₂ }) := perform_of_exec halloc
  have hruns : (boot (Guest.ofPages Unit 1 65535) .standard).runs (arranged v) =
      { inst := { i₂ with capabilities := i₂.capabilities.add "f" ⟨(), false⟩ } } := by
    have hact : (boot (Guest.ofPages Unit 1 65535) .standard).act (.perform (.prepare v)) =
        { inst := i₁ } := act_of_perform hperform
    have hact' : ({ inst := i₁ } : Machine Unit).act (.perform (.alloc 16)) = { inst := i₂ } :=
      act_of_perform hperform'
    rw [arranged, runs_cons, hact, runs_cons, hact', runs_cons, runs_nil]
    rfl
  refine ⟨argument, slot, _, hruns, ⟨[], _, rfl, ?_, ?_⟩, ⟨[_], _, rfl, ?_⟩, hblock.aligned, ?_,
    hc.dead, (Entries.get?_insert _ _ _ _).trans (if_pos rfl), hc.handles, hc.raw, hlimit⟩
  · rw [runs_nil, hperform]
  · rw [hruns, runs_nil, hperform]
    have hagrees : Agrees i₂
        { i₂ with capabilities := i₂.capabilities.add "f" ⟨(), false⟩ } := by
      constructor <;> rfl
    refine .of_grows (hgrows.trans (hagrees.grows hgrows.sound)) ⟨?_, ?_⟩ argument
    · rw [hagrees.handles, hc.handles]
      exact HandleTable.fits_empty
    · rw [hagrees.raw, hc.raw]
      exact RawRegistry.fits_empty
  · rw [runs_cons, runs_nil, act, hperform, hperform']
  · rintro rfl
    have hpos := hs₁.guest.heap_pos
    have hfresh := hblock.fresh
    rw [UInt32.toNat_zero] at hfresh
    omega

/-- A value without loans can be encoded into a slot on the heap where there is room for it, and
that lends nothing. -/
theorem exec_encode_plain {i : Instance Code} (hs : i.Sound) (hbase : i.config.arenaBase = 0)
    {slot : UInt32} (hal : 8 ∣ slot.toNat) (hne : slot ≠ 0)
    (hslot : slot.toNat + 16 ≤ i.guest.heapTop.toNat) {v : Value} (hloans : v.loans = [])
    (hdepth : v.depth ≤ i.config.maxDepth)
    (hroom : i.guest.heapTop.toNat + v.extent ≤ i.guest.limit) (htables : i.RoomFor 0) :
    ∃ i', exec (encode slot v) i = (.ok (), i') := by
  have hpos : slot.toNat ≠ 0 := fun h => hne (UInt32.toNat_inj.1 h)
  have htop : i.guest.heapTop.toNat ≤ i.guest.buffer.bytes.size := by
    have := hs.guest.heap_le
    omega
  have hanswers : Answers v.extent v.loans.length (encode slot v) i := by
    refine .get (answers_encodeAt hs v hdepth hal (by omega) ?_ hroom (by rwa [hloans]))
    rw [hs.base, hbase]
    exact Nat.zero_le _
  obtain ⟨_, i', hexec, -⟩ := hanswers
  exact ⟨i', hexec⟩

/-! ### Calls in a run -/

/-- Calls of capabilities on a guest of at most 65535 pages, in any state that a run reaches.

Of a registered capability on prepared arguments that nothing has touched since, the body is entered
once, on what comes back of them in their order, and nothing but views and journal has changed by
then. That equals what was prepared exactly when each argument is well-formed. After whatever the
body does, its end is that of the call, in one of the ways of `Ends`. The slot for the result is
zero or was allocated before.

When the name is unknown or an argument does not decode, the call is answered with a fault at once,
and the guest is as it was. -/
theorem capability_called {pages maxPages : UInt32} (hpages : pages.toNat ≤ 65535)
    (hmax : maxPages.toNat ≤ 65535) (config : Config) (as : List (Action Code))
    {m : Machine Code} (hm : (boot (Guest.ofPages Code pages maxPages) config).runs as = m) :
    (∀ {name : String} {c : Capability Code} {vs : List Value} {slots : List UInt32}
        {slot : UInt32},
      m.inst.dead = false → m.inst.capabilities.get? name = some c →
      List.Forall₂ ((boot (Guest.ofPages Code pages maxPages) config).Stages as) vs slots →
      (slot = 0 ∨ (boot (Guest.ofPages Code pages maxPages) config).Allots as slot) →
      ∃ values m', m.call (.capability name slot slots) = (.entered c.code [] values, m') ∧
        List.Forall₂ (fun w v : Value => w.same v.recovered = true) values vs ∧
        (List.Forall₂ (fun w v : Value => w.same v = true) values vs ↔ ∀ v ∈ vs, v.WellFormed) ∧
        m'.frames = .capability c.fallible slot :: m.frames ∧ Alike m.inst m'.inst ∧
        ∀ body completion, (m'.runs body).frames = m'.frames →
          Ends m.frames slot (m'.runs body).inst (completion.answer c.fallible)
            ((m'.runs body).leave completion)) ∧
    ∀ (name : String) (slot : UInt32) (slots : List UInt32),
      (m.inst.capabilities.get? name = none ∨
        ∃ a ∈ slots, ∀ v, (m.perform (.decode a)).1 ≠ .ok v) →
      ∃ x m', m.call (.capability name slot slots) = (.answered (.error x), m') ∧
        m'.frames = m.frames ∧ m'.inst.guest = m.inst.guest := by
  have hs : m.inst.Sound := hm ▸ sound_runs hpages hmax config as
  have hf : m.inst.Fits := hm ▸ fits_runs _ config as
  have hboot : (boot (Guest.ofPages Code pages maxPages) config).inst.Sound :=
    .ofGuest hpages hmax config
  refine ⟨?_, fun name slot slots h => call_refused hs h slot⟩
  intro name c vs slots slot hlive hc hstages hslot
  have hstaged : List.Forall₂ (fun v slot =>
      ∃ lo hi, m.inst.Staged m.inst.config.maxDepth lo hi slot v.stored) vs slots := by
    refine hstages.imp fun v slot hstage => ?_
    have := hstage.staged hboot
    rwa [hm] at this
  obtain ⟨values, m', hcall, hsame, hframes, halike⟩ := call_entered hs hlive hc hstaged hf slot
  refine ⟨values, m', hcall, hsame, forall₂_same_iff hsame, hframes, halike,
    fun body completion hbody => ?_⟩
  have he := Enlarges.acting.runs m' body (halike.sound hs)
  have hf' : (m'.runs body).inst.Fits := by
    refine FitsKept.acting.runs m' body ⟨?_, ?_⟩
    · rw [halike.handles]
      exact hf.handles
    · rw [halike.raw]
      exact hf.raw
  refine ends_leave he.sound hf' (hbody.trans hframes) (hslot.imp_right fun hallots => ?_)
    completion
  have htop := hallots.le_heapTop hboot
  rw [hm, ← halike.guest] at htop
  exact Nat.le_trans htop he.heapTop

/-- The capability is called with an array, returns true, and true is decoded from the slot. Under a
name that is not registered nothing is called. -/
theorem capability_called_array : ∃ argument slot m,
    (boot (Guest.ofPages Unit 1 65535) .standard).runs
        (arranged (.array [.boolean true, .string "x"])) = m ∧
      (∃ values m', m.call (.capability "f" slot [argument]) = (.entered () [] values, m') ∧
        List.Forall₂ (fun w v : Value => w.same v = true) values
          [.array [.boolean true, .string "x"]] ∧
        ∃ m'', m'.leave (.returned (.boolean true)) = (.answered (.ok .undefined), m'') ∧
          ∃ v', (m''.perform (.decode slot)).1 = .ok v' ∧ v'.same (.boolean true) = true) ∧
      ∃ x m', (boot (Guest.ofPages Unit 1 65535) .standard).call (.capability "f" slot [argument]) =
        (.answered (.error x), m') := by
  have hwf : (Value.array [.boolean true, .string "x"]).WellFormed :=
    ⟨trivial, fun h => absurd h (by decide), trivial⟩
  have hstored := Value.stored_of_wellFormed _ hwf
  obtain ⟨argument, slot, m, hm, hstages, hallots, hal, hne, hlive, hc, hhandles, hraw, hroom⟩ :=
    runs_arranged (v := .array [.boolean true, .string "x"]) (by rw [hstored]; rfl)
      (by rw [hstored]; decide) (by rw [hstored]; decide)
  obtain ⟨values, m', hcall, -, hsame, hframes, halike, hends⟩ :=
    (capability_called (by decide) (by decide) .standard _ hm).1 hlive hc (.cons hstages .nil)
      (.inr hallots)
  obtain ⟨x, m₀, hrefused, -⟩ :=
    (capability_called (m := boot (Guest.ofPages Unit 1 65535) .standard) (by decide) (by decide)
      .standard [] rfl).2 "f" slot [argument] (.inl rfl)
  refine ⟨argument, slot, m, hm,
    ⟨values, m', hcall, hsame.2 (List.forall_mem_singleton.2 hwf), ?_⟩, x, m₀, hrefused⟩
  have hboot : (boot (Guest.ofPages Unit 1 65535) .standard).inst.Sound :=
    .ofGuest (by decide) (by decide) _
  have hs : m'.inst.Sound := halike.sound (hm ▸ sound_runs (by decide) (by decide) _ _)
  have hbase : m'.inst.config.arenaBase = 0 := by
    rw [halike.config, ← hm, (Enlarges.acting.runs _ _ hboot).config]
    rfl
  have htop := hallots.le_heapTop hboot
  rw [hm, ← halike.guest] at htop
  have hroom' : m'.inst.guest.heapTop.toNat + 0 ≤ m'.inst.guest.limit := by
    rw [halike.guest]
    exact Nat.le_trans (Nat.le_add_right _ _) hroom
  have htables : m'.inst.RoomFor 0 := by
    refine ⟨?_, ?_⟩
    · rw [halike.handles, hhandles]
      exact .empty (by decide)
    · rw [halike.raw, hraw]
      decide
  obtain ⟨i', hencode⟩ := exec_encode_plain hs hbase hal hne htop (v := .boolean true) rfl
    (Nat.zero_le _) hroom' htables
  have hanswer : (Completion.returned (.boolean true)).answer false = .ok (.boolean true) := rfl
  have hleave := leave_encoded hframes hanswer hne hencode
  have hend : Ends m.frames slot m'.inst (.ok (.boolean true))
      (m'.leave (.returned (.boolean true))) := hends [] (.returned (.boolean true)) rfl
  rw [hleave] at hend
  refine ⟨_, hleave, ?_⟩
  cases hend with
  | dropped _ h0 => exact absurd h0 hne
  | encoded _ _ _ hdecode =>
    obtain ⟨v', hv', -, hiff⟩ := hdecode
    exact ⟨v', hv', hiff.2 trivial⟩

/-- A text of 2³² letters is prepared, and nothing of it is touched. The capability that is called
with it gets a value that is not equal to it: the empty text. -/
theorem not_called_faithfully : ∃ argument m,
    (boot (Guest.ofPages Unit 1 65535) .standard).runs
        (arranged (.string (letters UInt32.size))) = m ∧
      (boot (Guest.ofPages Unit 1 65535) .standard).Stages
        (arranged (.string (letters UInt32.size))) (.string (letters UInt32.size)) argument ∧
      ∃ m', m.call (.capability "f" 0 [argument]) = (.entered () [] [.string ""], m') ∧
        ¬ List.Forall₂ (fun w v : Value => w.same v = true) [.string ""]
          [.string (letters UInt32.size)] := by
  have htext := storedText_letters
  have hlength := size_letters UInt32.size
  generalize letters UInt32.size = t at *
  have hstored : (Value.string t).stored = .string "" := congrArg Value.string htext
  obtain ⟨argument, -, m, hm, hstages, -, -, -, hlive, hc, -⟩ :=
    runs_arranged (v := .string t) (by rw [hstored]; rfl) (by rw [hstored]; decide)
      (by rw [hstored]; decide)
  have hboot : (boot (Guest.ofPages Unit 1 65535) .standard).inst.Sound :=
    .ofGuest (by decide) (by decide) _
  obtain ⟨lo, hi, hstaged⟩ := hstages.staged hboot
  rw [hm] at hstaged
  obtain ⟨values, m', hcall, hsame, -⟩ :=
    call_entered (hm ▸ sound_runs (by decide) (by decide) _ _) hlive hc
      (.cons ⟨lo, hi, hstaged⟩ .nil) (hm ▸ fits_runs _ _ _) 0
  rw [forall₂_recovered_string hsame, htext] at hcall
  exact ⟨argument, m, hm, hstages, m', hcall, not_forall₂_same_empty (by rw [hlength]; decide)⟩

end Machine

end

end Crossing
