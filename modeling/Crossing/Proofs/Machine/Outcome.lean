import Crossing.Proofs.Codec.Nesting
import Crossing.Proofs.Machine.Invocation

/-!
# Results of fallible capabilities

A fallible capability hands its failure to the guest as data, so that a call of it is answered in
the same way whether its body succeeds or fails. Its result becomes an object around the value or
the error, which nests one level deeper (`Outcome.depth_toValue`). What comes back of that object is
the object around what comes back of the payload (`Outcome.recovered_toValue`), and an object that
is equal to it tells of an equal outcome (`Outcome.rel_ofValue?`).

`Machine.Conveyed` says how a call comes out whose outcome nests less deep than is configured and
for which every block can be had, and `Machine.outcome_conveyed` says so of calls in any state that
a run reaches. The slot tells of the very outcome exactly when its payload is well-formed, which a
text of 2³² letters is not (`Machine.not_told`).
-/

namespace Crossing

open Effect

/-! ## The object of an outcome -/

namespace Outcome

/-- The object nests one level deeper than the payload. -/
theorem depth_toValue (o : Outcome) : o.toValue.depth = o.payload.depth + 1 := by
  cases o with
  | success v => simp [toValue, payload, Value.depth, Value.depthEntries]
  | failure e => simp [toValue, payload, Value.depth, Value.depthEntries]

/-- The texts of the object can be stored when those of the payload can be. -/
theorem storable_toValue (o : Outcome) : o.toValue.Storable ↔ o.payload.Storable := by
  have hkey (key : String) (hsize : key.toUTF8.size ≤ 7) : StorableText key :=
    .inl (Nat.lt_of_le_of_lt hsize (by decide))
  have hvalue := hkey "value" (by decide)
  have herror := hkey "error" (by decide)
  have hsuccess := hkey "success" (by decide)
  cases o with
  | success v => exact ⟨fun h => h.2.1, fun h => ⟨hvalue, h, hsuccess, trivial, trivial⟩⟩
  | failure e => exact ⟨fun h => h.2.1, fun h => ⟨herror, h, hsuccess, trivial, trivial⟩⟩

/-- What comes back of the outcome: that which comes back of its payload. -/
def recovered : Outcome → Outcome
  | success v => success v.recovered
  | failure e => failure e.recovered

/-- What comes back of the object is the object of what comes back. -/
theorem recovered_toValue (o : Outcome) : o.toValue.recovered = o.recovered.toValue := by
  have hkey (key : String) (hsize : key.toUTF8.size.toUInt32 ≠ 0) : storedText key = key :=
    storedText_of_countable fun hzero => absurd hzero hsize
  have hvalue := hkey "value" (by decide)
  have herror := hkey "error" (by decide)
  have hsuccess := hkey "success" (by decide)
  cases o with
  | success v =>
    show Value.object (Entries.ofPairs [(storedText "value", v.recovered),
      (storedText "success", .boolean true)]) = _
    rw [hvalue, hsuccess]
    rfl
  | failure e =>
    show Value.object (Entries.ofPairs [(storedText "error", e.recovered),
      (storedText "success", .boolean false)]) = _
    rw [herror, hsuccess]
    rfl

/-- What equals the outcome that comes back of `o` equals `o` exactly when the payload is
well-formed. -/
theorem same_iff_of_recovered {o o' : Outcome} (h : o'.same o.recovered = true) :
    o'.same o = true ↔ o.payload.WellFormed := by
  cases o <;> cases o' <;> first | exact Value.same_iff_of_recovered h | cases h

/-- Equal values tell of equal outcomes, or neither tells of one. -/
theorem rel_ofValue? {v w : Value} (h : v.same w = true) :
    Option.Rel (fun o o' : Outcome => o.same o' = true) (ofValue? v) (ofValue? w) := by
  cases v with
  | object as =>
    cases w with
    | object bs =>
      rw [Value.same] at h
      have hpayload (key : String) (f : Value → Outcome)
          (hf : ∀ {a b : Value}, a.same b = true → (f a).same (f b) = true) :
          Option.Rel (fun o o' : Outcome => o.same o' = true)
            ((Entries.get? key as).map f) ((Entries.get? key bs).map f) := by
        have hrel := Value.rel_get? h key
        generalize Entries.get? key as = x, Entries.get? key bs = y at hrel ⊢
        cases hrel with
        | none => exact .none
        | some hab => exact .some (hf hab)
      have hrel := Value.rel_get? h "success"
      unfold ofValue?
      dsimp only
      generalize Entries.get? "success" as = x, Entries.get? "success" bs = y at hrel ⊢
      cases hrel with
      | none => exact .none
      | @some a b hab =>
        cases a with
        | boolean p =>
          cases b with
          | boolean q =>
            obtain rfl : p = q := beq_iff_eq.1 hab
            cases p with
            | true => exact hpayload "value" success id
            | false => exact hpayload "error" failure id
          | _ => simp [Value.same] at hab
        | _ => cases b <;> first | exact .none | simp [Value.same] at hab
    | _ => simp [Value.same] at h
  | _ => cases w <;> first | exact .none | simp [Value.same] at h

/-- What equals the object of an outcome tells of an equal outcome. -/
theorem exists_of_same_toValue {v : Value} {o : Outcome} (h : v.same o.toValue = true) :
    ∃ o', ofValue? v = some o' ∧ o'.same o = true := by
  have hrel := rel_ofValue? h
  rw [ofValue?_toValue] at hrel
  generalize ofValue? v = r at hrel
  cases hrel with
  | some hsame => exact ⟨_, rfl, hsame⟩

end Outcome

/-- What the body of a fallible capability came to. A fault is a failure that tells its message. -/
def Completion.outcome : Completion → Outcome
  | .returned v => .success v
  | .failed e => .failure e
  | .faulted x => .failure (.string x.message)

/-- A fallible capability answers with the object of its outcome, in every case. -/
theorem Completion.answer_true (completion : Completion) :
    completion.answer true = .ok completion.outcome.toValue := by
  cases completion <;> rfl

section
variable {Code : Type}

namespace Machine

/-! ## The call -/

/-- A call of a registered capability enters its body when each argument decodes. Nothing but views
and journal has changed by then, and closures have been wrapped. -/
theorem call_enters {m : Machine Code} (hs : m.inst.Sound) {name : String} {c : Capability Code}
    {slots : List UInt32} (hlive : m.inst.dead = false)
    (hc : m.inst.capabilities.get? name = some c)
    (hslots : ∀ a ∈ slots, ∃ v, (m.perform (.decode a)).1 = .ok v) (slot : UInt32) :
    ∃ values m', m.call (.capability name slot slots) = (.entered c.code [] values, m') ∧
      m'.frames = .capability c.fallible slot :: m.frames ∧
      ∃ cs, Alike (m.inst.wrapping cs) m'.inst := by
  obtain ⟨values, cs, i', hvalues, halike⟩ := exec_arguments_of_decode hs hslots
  have hsummon : exec (summon name slots) m.inst =
      (.ok (c, values), i'.log (.invoked name values)) := by
    rw [exec_summon hlive, hc]
    exact exec_bind_of_ok hvalues
  exact ⟨values, _, by rw [call_capability, hsummon], rfl, cs, halike.log _⟩

/-! ## Its result -/

/-- The outcome of a body can be handed to the guest: it nests less deep than is configured, and the
allocator refuses no block that encoding it takes. -/
structure Conveyable (m : Machine Code) (completion : Completion) : Prop where
  shallow : completion.outcome.payload.depth < m.inst.config.maxDepth
  served : ∀ size, (m.leave completion).1 ≠ .answered (.error (.allocationFailed size))

/-- The slot is decoded to a value that tells of the outcome, up to equality. -/
def Tells (m : Machine Code) (slot : UInt32) (o : Outcome) : Prop :=
  ∃ v o', (m.perform (.decode slot)).1 = .ok v ∧ Outcome.ofValue? v = some o' ∧ o'.same o = true

/-- How the call of a fallible capability comes out under the bodies `frames` when its body has come
to an outcome that can be handed over. It is answered without a fault, and the slot tells of what
comes back of the outcome, which is the outcome itself exactly when its payload is well-formed; or
the payload has a text that cannot be stored; or the host panics, because a table is full. -/
inductive Conveyed (frames : List Frame) (slot : UInt32) (o : Outcome) :
    Reply Code × Machine Code → Prop
  | told (i' : Instance Code) (h : o.payload.Storable)
      (htells : (⟨i', frames⟩ : Machine Code).Tells slot o.recovered)
      (hiff : (⟨i', frames⟩ : Machine Code).Tells slot o ↔ o.payload.WellFormed) :
      Conveyed frames slot o (.answered (.ok .undefined), ⟨i', frames⟩)
  | tooLong (i' : Instance Code) (h : ¬ o.payload.Storable) (address length size : UInt32) :
      Conveyed frames slot o
        (.answered (.error (.outOfBounds address length size)), ⟨i', frames⟩)
  | panicked (i' : Instance Code) (h : i'.Crowded) :
      Conveyed frames slot o (.answered (.error .overflow), ⟨i', frames⟩)

section
variable {m : Machine Code} {frames : List Frame} {slot : UInt32} {completion : Completion}

/-- A slot that holds what comes back of an outcome's object tells of what comes back of the
outcome. -/
theorem tells_of_decode {o : Outcome} {v : Value} (hv : (m.perform (.decode slot)).1 = .ok v)
    (hsame : v.same o.toValue.recovered = true) :
    m.Tells slot o.recovered ∧ (m.Tells slot o ↔ o.payload.WellFormed) := by
  rw [Outcome.recovered_toValue] at hsame
  obtain ⟨o', ho, hsame'⟩ := Outcome.exists_of_same_toValue hsame
  refine ⟨⟨v, o', hv, ho, hsame'⟩, ?_⟩
  rw [← Outcome.same_iff_of_recovered hsame']
  constructor
  · rintro ⟨w, o'', hw, ho', hequal⟩
    cases hv.symm.trans hw
    cases ho.symm.trans ho'
    exact hequal
  · exact fun hequal => ⟨v, o', hv, ho, hequal⟩

/-- The end of a fallible capability. -/
theorem leave_conveyed (h : m.Conveyable completion) (hs : m.inst.Sound) (hf : m.inst.Fits)
    (hbase : m.inst.config.arenaBase.toNat ≤ m.inst.guest.heapTop.toNat)
    (hm : m.frames = .capability true slot :: frames) (hal : 8 ∣ slot.toNat) (hne : slot ≠ 0)
    (hslot : slot.toNat + 16 ≤ m.inst.guest.heapTop.toNat) :
    Conveyed frames slot completion.outcome (m.leave completion) := by
  have hspans : m.inst.Spans slot 16 := by
    have hpos : slot.toNat ≠ 0 := fun h => hne (UInt32.toNat_inj.1 h)
    have hle := hs.guest.heap_le
    exact ⟨by omega, Nat.lt_of_le_of_lt hslot m.inst.guest.heapTop.toNat_lt⟩
  have hdecided : Decided (completion.outcome.toValue.depth ≤ m.inst.config.maxDepth)
      completion.outcome.toValue.Storable m.inst (fun _ _ => True)
      (exec (encode slot completion.outcome.toValue) m.inst) :=
    Decides.get (decides_encodeAt (hs.ready hbase) _ hal hspans)
  have hends := ends_leave hs hf hm (.inr hslot) completion
  obtain ⟨-, hstaged⟩ := ensures_encode hs slot completion.outcome.toValue
  have hserved := h.served
  have hleave := leave_capability hm completion
  rw [completion.answer_true] at hends hleave
  dsimp only at hleave
  rw [if_neg hne] at hleave
  rw [hleave] at hends hserved ⊢
  generalize exec (encode slot completion.outcome.toValue) m.inst = r at *
  cases hdecided with
  | answered =>
    have hstorable := (Outcome.storable_toValue _).1
      (hstaged rfl (Nat.le_trans (Nat.add_le_add_left (by decide) _) hslot)).storable
    cases hends with
    | dropped _ h0 => exact absurd h0 hne
    | encoded _ _ _ hdecode =>
      obtain ⟨v, hv, hsame, -⟩ := hdecode
      obtain ⟨htells, hiff⟩ := tells_of_decode hv hsame
      exact .told _ hstorable htells hiff
  | tooDeep hdeep =>
    refine absurd ?_ hdeep
    rw [Outcome.depth_toValue]
    exact h.shallow
  | tooLong hlong => exact .tooLong _ (fun hp => hlong ((Outcome.storable_toValue _).2 hp)) _ _ _
  | refused => exact absurd rfl (hserved _)
  | panicked hcrowded => exact .panicked _ hcrowded

end

/-! ## Calls in a run -/

/-- Results of fallible capabilities on a guest of at most 65535 pages, in any state that a run
reaches and where the arena begins at or below the heap's top.

A call of the capability enters its body when the arguments decode, and nothing but views, journal
and the closures in the arguments has changed by then. Whatever the body does, when it has come to
an outcome that can be handed over, the call comes out in one of the ways of `Conveyed`. The slot
for the result was allocated before.

The object of an outcome tells of that very outcome. -/
theorem outcome_conveyed {pages maxPages : UInt32} (hpages : pages.toNat ≤ 65535)
    (hmax : maxPages.toNat ≤ 65535) (config : Config) (as : List (Action Code))
    {m : Machine Code} (hm : (boot (Guest.ofPages Code pages maxPages) config).runs as = m) :
    (∀ {name : String} {c : Capability Code} {slots : List UInt32} {slot : UInt32},
      m.inst.dead = false → m.inst.capabilities.get? name = some c → c.fallible = true →
      (∀ a ∈ slots, ∃ v, (m.perform (.decode a)).1 = .ok v) →
      (boot (Guest.ofPages Code pages maxPages) config).Allots as slot →
      config.arenaBase.toNat ≤ m.inst.guest.heapTop.toNat →
      ∃ values m', m.call (.capability name slot slots) = (.entered c.code [] values, m') ∧
        m'.frames = .capability true slot :: m.frames ∧
        (∃ cs, Alike (m.inst.wrapping cs) m'.inst) ∧
        ∀ body completion, (m'.runs body).frames = m'.frames →
          (m'.runs body).Conveyable completion →
          Conveyed m.frames slot completion.outcome ((m'.runs body).leave completion)) ∧
    ∀ o : Outcome, Outcome.ofValue? o.toValue = some o := by
  refine ⟨?_, Outcome.ofValue?_toValue⟩
  intro name c slots slot hlive hc hfallible hslots hallots hbase
  have hs : m.inst.Sound := hm ▸ sound_runs hpages hmax config as
  have hf : m.inst.Fits := hm ▸ fits_runs _ config as
  obtain ⟨values, m', hcall, hframes, halike⟩ := call_enters hs hlive hc hslots slot
  rw [hfallible] at hframes
  refine ⟨values, m', hcall, hframes, halike, fun body completion hbody h => ?_⟩
  -- Neither the call nor its body lowers the heap's top.
  have he : Enlarges m.inst (m'.runs body).inst := by
    have h := Enlarges.acting.runs m (.call (.capability name slot slots) :: body) hs
    rwa [runs_cons, act, hcall] at h
  have hf' : (m'.runs body).inst.Fits := by
    have h := FitsKept.acting.runs m (.call (.capability name slot slots) :: body) hf
    rwa [runs_cons, act, hcall] at h
  have hboot : (boot (Guest.ofPages Code pages maxPages) config).inst.Sound :=
    .ofGuest hpages hmax config
  have hconfig : (m'.runs body).inst.config = config :=
    he.config.trans (hm ▸ (Enlarges.acting.runs _ as hboot).config)
  have hbase' := Nat.le_trans hbase he.heapTop
  obtain ⟨hal, hne⟩ := hallots.aligned hboot
  have hslot := hallots.le_heapTop hboot
  rw [hm] at hslot
  exact leave_conveyed h he.sound hf' (hconfig ▸ hbase') (hbody.trans hframes) hal hne
    (Nat.le_trans hslot he.heapTop)

/-! ### The body of a fallible capability -/

/-- The body of a fallible capability runs above `frames`, on a machine that has room for its
result. -/
structure Poised (m : Machine Unit) (frames : List Frame) (slot : UInt32) : Prop where
  frames : m.frames = .capability true slot :: frames
  sound : m.inst.Sound
  fits : m.inst.Fits
  config : m.inst.config = .standard
  aligned : 8 ∣ slot.toNat
  ne_zero : slot ≠ 0
  below : slot.toNat + 16 ≤ m.inst.guest.heapTop.toNat
  limit : m.inst.guest.heapTop.toNat + 65536 ≤ m.inst.guest.limit
  loans : m.inst.RoomFor 0

/-- A small outcome without loans is handed over. -/
theorem Poised.leave {m : Machine Unit} {frames : List Frame} {slot : UInt32}
    (h : m.Poised frames slot) (completion : Completion)
    (hloans : completion.outcome.toValue.stored.loans = [])
    (hdepth : completion.outcome.toValue.stored.depth ≤ 128)
    (hextent : completion.outcome.toValue.stored.extent ≤ 65536)
    (hshallow : completion.outcome.payload.depth < 128) :
    (∃ m', m.leave completion = (.answered (.ok .undefined), m')) ∧ m.Conveyable completion := by
  have hlimit := h.limit
  obtain ⟨i', hencode⟩ := exec_encode_plain h.sound (by rw [h.config]; rfl) h.aligned h.ne_zero
    h.below hloans (by rw [h.config]; exact hdepth) (by omega) h.loans
  rw [encode_stored] at hencode
  have hleave := leave_encoded h.frames completion.answer_true h.ne_zero hencode
  refine ⟨⟨_, hleave⟩, by rw [h.config]; exact hshallow, fun size hrefused => ?_⟩
  rw [hleave] at hrefused
  cases hrefused

/-- A host that has also registered a fallible capability. -/
def arrangedFallible : List (Action Unit) :=
  arranged (.boolean true) ++ [.perform (.addCapability "g" ⟨(), true⟩)]

/-- The capability is there to be called, with an argument that decodes and a slot. Nothing was
lent, and there is room for its result. -/
theorem runs_arrangedFallible : ∃ argument slot m,
    (boot (Guest.ofPages Unit 1 65535) .standard).runs arrangedFallible = m ∧
      (boot (Guest.ofPages Unit 1 65535) .standard).Allots arrangedFallible slot ∧
      (∃ v, (m.perform (.decode argument)).1 = .ok v) ∧ m.inst.dead = false ∧
      m.inst.capabilities.get? "g" = some ⟨(), true⟩ ∧ 8 ∣ slot.toNat ∧ slot ≠ 0 ∧
      m.inst.handles = .empty ∧ m.inst.raw = .empty ∧
      m.inst.guest.heapTop.toNat + 65536 ≤ m.inst.guest.limit := by
  have hboot : (boot (Guest.ofPages Unit 1 65535) .standard).inst.Sound :=
    .ofGuest (by decide) (by decide) _
  obtain ⟨argument, slot, m₀, hm₀, hstages, hallots, hal, hne, hlive, -, hhandles, hraw, hlimit⟩ :=
    runs_arranged (v := .boolean true) rfl (by decide) (by decide)
  have hs₀ : m₀.inst.Sound := hm₀ ▸ sound_runs (by decide) (by decide) _ _
  obtain ⟨lo, hi, hstaged⟩ := hstages.staged hboot
  rw [hm₀] at hstaged
  obtain ⟨m, hm⟩ : ∃ m, (boot (Guest.ofPages Unit 1 65535) .standard).runs arrangedFallible = m :=
    ⟨_, rfl⟩
  have hruns : m = { m₀ with inst := { m₀.inst with
      capabilities := m₀.inst.capabilities.add "g" ⟨(), true⟩ } } := by
    rw [← hm, arrangedFallible, runs_append, hm₀]
    rfl
  have hagrees : Agrees m₀.inst m.inst := by
    rw [hruns]
    constructor <;> rfl
  have hstaged' := hstaged.mono hs₀ (hagrees.grows hs₀) _ _ _ _ _ .empty .empty
  rw [← hagrees.config] at hstaged'
  obtain ⟨v, -, hreads⟩ := reads_decode (hagrees.sound hs₀) (hm ▸ fits_runs _ _ _) hstaged'
  obtain ⟨i', hdecode, -⟩ := hreads _ (.refl (hagrees.sound hs₀))
  refine ⟨argument, slot, m, hm, hallots.append _, ⟨v, congrArg Prod.fst hdecode⟩, ?_⟩
  rw [hruns]
  exact ⟨hlive, (Entries.get?_insert _ _ _ _).trans (if_pos rfl), hal, hne, hhandles, hraw, hlimit⟩

/-- When it is called, its body runs. -/
theorem poised_arrangedFallible : ∃ argument slot m values m',
    (boot (Guest.ofPages Unit 1 65535) .standard).runs arrangedFallible = m ∧
      (boot (Guest.ofPages Unit 1 65535) .standard).Allots arrangedFallible slot ∧
      (∃ v, (m.perform (.decode argument)).1 = .ok v) ∧ m.inst.dead = false ∧
      m.inst.capabilities.get? "g" = some ⟨(), true⟩ ∧
      m.call (.capability "g" slot [argument]) = (.entered () [] values, m') ∧
      m'.Poised m.frames slot := by
  have hboot : (boot (Guest.ofPages Unit 1 65535) .standard).inst.Sound :=
    .ofGuest (by decide) (by decide) _
  obtain ⟨argument, slot, m, hm, hallots, hargument, hlive, hc, hal, hne, hhandles, hraw, hlimit⟩ :=
    runs_arrangedFallible
  have hslot := hallots.le_heapTop hboot
  rw [hm] at hslot
  obtain ⟨values, m', hcall, hframes, cs, halike⟩ :=
    call_enters (hm ▸ sound_runs (by decide) (by decide) _ _) hlive hc
      (List.forall_mem_singleton.2 hargument) slot
  have hguest : m'.inst.guest = m.inst.guest := halike.guest
  have hcalled : (boot (Guest.ofPages Unit 1 65535) .standard).runs
      (arrangedFallible ++ [.call (.capability "g" slot [argument])]) = m' := by
    rw [runs_append, hm, runs_cons, act, hcall, runs_nil]
  refine ⟨argument, slot, m, values, m', hm, hallots, hargument, hlive, hc, hcall,
    { frames := hframes
      sound := hcalled ▸ sound_runs (by decide) (by decide) _ _
      fits := hcalled ▸ fits_runs _ _ _
      config := by
        rw [← hcalled, (Enlarges.acting.runs _ _ hboot).config]
        rfl
      aligned := hal
      ne_zero := hne
      below := by rwa [hguest]
      limit := by rwa [hguest]
      loans := ⟨?_, ?_⟩ }⟩
  · rw [halike.handles, Instance.wrapping, hhandles]
    exact .empty (by decide)
  · rw [halike.raw, Instance.wrapping, hraw]
    decide

/-- A failure whose error is itself the object of a success is handed over, and the slot tells of
the failure. -/
theorem outcome_conveyed_lookalike : ∃ argument slot m values m' m'',
    (boot (Guest.ofPages Unit 1 65535) .standard).runs arrangedFallible = m ∧
      m.call (.capability "g" slot [argument]) = (.entered () [] values, m') ∧
      m'.leave (.failed (Outcome.success .null).toValue) = (.answered (.ok .undefined), m'') ∧
      m''.Tells slot (.failure (Outcome.success .null).toValue) := by
  obtain ⟨argument, slot, m, values, m', hm, hallots, hargument, hlive, hc, hcall, hpoised⟩ :=
    poised_arrangedFallible
  obtain ⟨_, _, hcall', hframes, -, hconveyed⟩ :=
    (outcome_conveyed (by decide) (by decide) .standard arrangedFallible hm).1 hlive hc rfl
      (List.forall_mem_singleton.2 hargument) hallots (Nat.zero_le _)
  cases hcall.symm.trans hcall'
  have hwf : (Outcome.success .null).toValue.WellFormed := by
    refine ⟨by decide, ?_, trivial, ?_, trivial, trivial⟩ <;> exact fun h => absurd h (by decide)
  obtain ⟨⟨m'', hleave⟩, hconveyable⟩ :=
    hpoised.leave (.failed (Outcome.success .null).toValue) rfl (by decide) (by decide)
      (by decide)
  have hend := hconveyed [] _ rfl hconveyable
  rw [runs_nil, hleave] at hend
  refine ⟨argument, slot, m, values, m', m'', hm, hcall, hleave, ?_⟩
  cases hend with
  | told i' _ _ hiff => exact hiff.2 hwf

/-- A fallible capability returns a text of 2³² letters. The call is answered without a fault, and
the slot tells of another outcome: that an empty text was returned. -/
theorem not_told : ∃ argument slot m values m' m'',
    (boot (Guest.ofPages Unit 1 65535) .standard).runs arrangedFallible = m ∧
      m.call (.capability "g" slot [argument]) = (.entered () [] values, m') ∧
      m'.leave (.returned (.string (letters UInt32.size))) = (.answered (.ok .undefined), m'') ∧
      m''.Tells slot (.success (.string "")) ∧
      ¬ m''.Tells slot (.success (.string (letters UInt32.size))) := by
  have htext := storedText_letters
  have hlength := size_letters UInt32.size
  generalize letters UInt32.size = t at *
  obtain ⟨argument, slot, m, values, m', hm, -, -, -, -, hcall, hpoised⟩ :=
    poised_arrangedFallible
  have hstored : (Outcome.success (.string t)).toValue.stored =
      (Outcome.success (.string "")).toValue.stored := by
    show Value.object [(_, .string (storedText t)), _] = _
    rw [htext]
    rfl
  have hoverlong : ¬ (Value.string t).WellFormed := by
    intro hcountable
    have hzero : t.toUTF8.size = 0 := hcountable (by rw [hlength]; decide)
    rw [hlength] at hzero
    exact absurd hzero (by decide)
  obtain ⟨⟨m'', hleave⟩, hconveyable⟩ := hpoised.leave (.returned (.string t))
    (by rw [Completion.outcome, hstored]; rfl) (by rw [Completion.outcome, hstored]; decide)
    (by rw [Completion.outcome, hstored]; decide) (Nat.zero_lt_succ _)
  have hend := leave_conveyed hconveyable hpoised.sound hpoised.fits
    (by rw [hpoised.config]; exact Nat.zero_le _) hpoised.frames hpoised.aligned hpoised.ne_zero
    hpoised.below
  rw [hleave] at hend
  refine ⟨argument, slot, m, values, m', m'', hm, hcall, hleave, ?_⟩
  cases hend with
  | told i' _ htells hiff =>
    have hrecovered : (Value.string t).recovered = .string "" := congrArg Value.string htext
    refine ⟨?_, fun h => hoverlong (hiff.1 h)⟩
    rwa [Completion.outcome, Outcome.recovered, hrecovered] at htells

end Machine

end

end Crossing
