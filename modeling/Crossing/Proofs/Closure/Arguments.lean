import Crossing.Proofs.Closure.InFlight
import Crossing.Proofs.Closure.Pairing
import Crossing.Proofs.Codec.Footprint
import Crossing.Proofs.Instance.Blocks
import Crossing.Proofs.Machine.Invocation

/-!
# The arguments of a call

A call of a closure encodes its arguments as an array into a block of their own, behind everything
that was allocated before, and passes the block to the adapter together with the closure's pointer.
`Machine.Invokes` says what that comes to: the adapter is invoked once, with the pointer that the
closure had when the call began, and from what stands in the block at that moment is decoded what
comes back of the arguments (`Value.recovered`). That equals them exactly when they are well-formed,
which a text of 2³² letters is not (`Machine.not_arrived`). Arguments that cannot be encoded invoke
nothing (`Machine.Uninvoked`).

The pointer is read before the arguments are encoded, and for a single-use closure it is cleared
then; neither the encoding nor calls that the adapter makes write into memory that was in use, so
the block of an outer call is not disturbed by the inner ones.
-/

namespace Crossing

open Effect

section
variable {Code : Type} {i i' : Instance Code} {id id' : Nat}

/-! ## Invocations of adapters -/

/-- Whether an event tells that an adapter is invoked. -/
def Event.isAdapterCall : Event → Bool
  | .called (.adapter _) _ _ => true
  | _ => false

/-- The invocations of adapters so far, oldest first. -/
def Instance.adapterCalls (i : Instance Code) : List Event := i.events.filter Event.isAdapterCall

/-- An event is one invocation more when it tells of one. -/
theorem Instance.adapterCalls_log (i : Instance Code) (e : Event) :
    (i.log e).adapterCalls = i.adapterCalls ++ if e.isAdapterCall then [e] else [] := by
  rw [adapterCalls, events_log, List.filter_append, adapterCalls]
  cases h : e.isAdapterCall <;> simp [h]

/-- What is not the invocation of an adapter. -/
theorem Instance.adapterCalls_log_of_not (i : Instance Code) {e : Event}
    (he : e.isAdapterCall = false) : (i.log e).adapterCalls = i.adapterCalls := by
  rw [adapterCalls_log, he]
  exact List.append_nil _

/-- What only wraps closures invokes no adapter. -/
theorem Wraps.adapterCalls_eq {es : List Event} (h : Wraps i i' es) :
    i'.adapterCalls = i.adapterCalls := by
  have hnone : es.filter Event.isAdapterCall = [] := by
    rw [List.filter_eq_nil_iff]
    intro e he
    cases e with
    | called callee index arguments => exact absurd he (h.uncalled _ _ _)
    | _ => exact Bool.false_ne_true
  rw [Instance.adapterCalls, h.events, List.filter_append, hnone, List.append_nil]
  rfl

namespace Machine

variable {m m' : Machine Code}

/-- A drop invokes the deallocator at most. -/
theorem Dropped.adapterCalls_eq (h : m.Dropped id m') :
    m'.inst.adapterCalls = m.inst.adapterCalls := by
  cases h with
  | queued _ _ hi => rw [hi]; rfl
  | again _ _ _ hi => rw [hi]
  | empty _ _ _ hi => rw [hi]; rfl
  | freed pending _ _ _ _ hi =>
    rw [hi, Instance.adapterCalls_log_of_not _ rfl, Instance.adapterCalls_log_of_not _ rfl]
    rfl

/-- The end of a call invokes no adapter. -/
theorem Ended.adapterCalls_eq (h : m.Ended id m') :
    m'.inst.adapterCalls = m.inst.adapterCalls := by
  obtain ⟨es, hw⟩ := Wraps.operating.takeTransfer
    (m.inst.updateClosure id fun c => { c with inFlight := c.inFlight - 1 })
  have hconcluded : (m.concluded id).inst.adapterCalls = m.inst.adapterCalls := hw.adapterCalls_eq
  cases h with
  | quiet _ hm => rw [hm, hconcluded]
  | dropped kind _ hd =>
    exact (hd.adapterCalls_eq.trans (Instance.adapterCalls_log_of_not _ rfl)).trans hconcluded

end Machine

/-! ## Encoded arguments -/

/-- Items that equal what comes back of an array's items do so one by one. -/
theorem Value.forall₂_of_sameItems : ∀ {values items : List Value},
    sameItems values (mergedItems (storedItems items)) = true →
      List.Forall₂ (fun w v : Value => w.same v.recovered = true) values items
  | [], [], _ => .nil
  | _ :: _, [], h => by simp [storedItems, mergedItems, sameItems] at h
  | [], _ :: _, h => by simp [storedItems, mergedItems, sameItems] at h
  | _ :: _, _ :: _, h => by
    rw [storedItems, mergedItems, sameItems, Bool.and_eq_true] at h
    exact .cons h.1 (forall₂_of_sameItems h.2)

/-- Arguments are staged as an array behind a slot in a block of its own. -/
theorem ensures_marshal (hs : i.Sound) (arguments : List Value) :
    Ensures (Set.Ici i.guest.heapTop.toNat) (marshal arguments) i fun slot i' =>
      8 ∣ slot.toNat ∧ i.guest.heapTop.toNat ≤ slot.toNat ∧
        slot.toNat + 16 ≤ i'.guest.buffer.bytes.size ∧ ∃ lo, slot.toNat + 16 ≤ lo ∧
          lo ≤ i'.guest.heapTop.toNat ∧
            i'.Staged i'.config.maxDepth lo i'.guest.heapTop.toNat slot
              (Value.array arguments).stored := by
  have h16 : Slot.size.toNat = 16 := rfl
  refine (ensures_alloc hs Slot.size).andThen fun slot i₁ g₁ hb => ?_
  have hstop := hb.stop
  have hfresh := hb.fresh
  have hinside := hb.inside
  refine (ensures_encodeArray g₁.sound slot arguments).bind ?_ fun _ i₂ g₂ hstaged => ?_
  · rintro b (⟨hb, -⟩ | hb)
    · exact Nat.le_trans hfresh hb
    · exact Nat.le_trans g₁.heapTop hb
  · have hsize := g₂.size
    rw [← g₂.config] at hstaged
    exact .pure g₂.sound
      ⟨hb.aligned, hfresh, by omega, _, by omega, g₂.heapTop, hstaged (by omega)⟩

/-- A staged array is decoded to what comes back of its items, in their order. -/
theorem decode_array {m : Machine Code} (hs : m.inst.Sound) {arguments : List Value}
    (hf : m.inst.Fits) {lo hi : Nat} {slot : UInt32}
    (h : m.inst.Staged m.inst.config.maxDepth lo hi slot (Value.array arguments).stored) :
    ∃ values, (m.perform (.decode slot)).1 = .ok (.array values) ∧
      List.Forall₂ (fun w v : Value => w.same v.recovered = true) values arguments := by
  obtain ⟨v, hsame, hreads⟩ := reads_decode hs hf h
  obtain ⟨values, rfl, hitems⟩ := Value.exists_of_same_array hsame
  obtain ⟨i', hdecode, -⟩ := hreads m.inst (.refl hs)
  have hperform : m.perform (.decode slot) = (.ok (.array values), { m with inst := i' }) :=
    Machine.perform_of_exec hdecode
  exact ⟨values, by rw [hperform], Value.forall₂_of_sameItems hitems⟩

/-! ## The checks -/

/-- The checks of a call leave memory, tables and configuration alone. -/
theorem Checked.agrees (h : Checked id i i') : Agrees i i' := by
  rcases h with rfl | ⟨-, rfl⟩ <;> constructor <;> rfl

/-- The checks of a call leave the transfer slot as it is. -/
theorem Checked.transfer_eq (h : Checked id i i') : i'.transfer = i.transfer := by
  rcases h with rfl | ⟨-, rfl⟩ <;> rfl

/-- The checks of a call count no call. -/
theorem Checked.inFlight_eq (h : Checked id i i') (id' : Nat) :
    (i'.closure id').inFlight = (i.closure id').inFlight := by
  rcases h with rfl | ⟨-, rfl⟩
  · rfl
  · by_cases hne : id = id'
    · subst hne
      exact i.inFlight_updateClosure id _ fun _ => rfl
    · rw [i.closure_updateClosure_of_ne _ hne]

/-- The checks of a call invoke no adapter. -/
theorem Checked.adapterCalls_eq (h : Checked id i i') : i'.adapterCalls = i.adapterCalls := by
  rw [Instance.adapterCalls, h.events_eq.1, Instance.adapterCalls]

/-- A call is counted in the record that the checks have left. -/
theorem Undisturbed.closure_called (h : Undisturbed i i') (hlt : id < i.closures.size) :
    (i'.called id).closure id =
      { i.closure id with inFlight := (i.closure id).inFlight + 1 } := by
  have hlt' : id < i'.closures.size := by rwa [h.closures]
  rw [Instance.called, Instance.closure_updateClosure_self _ hlt', Instance.closure, h.closures,
    Instance.closure]

/-! ## The call -/

namespace Machine

variable {m m₁ m₂ m' : Machine Code} {arguments : List Value} {pointer slot : UInt32} {x : Fault}

/-- Nothing but memory and tables is different in `m'`: no adapter was invoked, no call was counted,
and what the transfer slot held it still holds. -/
structure Uninvoked (m m' : Machine Code) : Prop where
  frames : m'.frames = m.frames
  calls : m'.inst.adapterCalls = m.inst.adapterCalls
  inFlight : ∀ id, (m'.inst.closure id).inFlight = (m.inst.closure id).inFlight
  transfer : m'.inst.transfer = m.inst.transfer

/-- How a call of the closure `id` goes on that has invoked the adapter with `words`: the adapter is
entered, or the call ends for want of one. -/
def proceed (m : Machine Code) (id : Nat) (words : List UInt32) :
    Except Fault Code → Reply Code × Machine Code
  | .ok code => m.enter (.adapter id) code words []
  | .error fault => m.endCall id (.error fault)

/-- A call of the closure `id` in `m` invokes the adapter in `m'`: with two words, the pointer that
the closure had in `m` and the slot that the arguments were encoded into on the way to `m₂`. `r` is
what the guest's table has at the adapter's index, so the invocation enters the adapter's function
exactly when there is one (`entered`). -/
structure Invokes (m m₂ : Machine Code) (id : Nat) (arguments : List Value) (slot : UInt32)
    (r : Except Fault Code) (m' : Machine Code) : Prop where
  invoked : (m₂.updateClosure id fun c => { c with inFlight := c.inFlight + 1 }).run
      (target (.adapter id) (m.inst.closure id).adapter .two
        [(m.inst.closure id).pointer, slot]) = (r, m')
  entered : ∀ code, r = .ok code ↔
    m'.inst.guest.functions[(m.inst.closure id).adapter.toNat]? = some (some code)
  calls : m'.inst.adapterCalls = m.inst.adapterCalls ++
    [.called (.adapter id) (m.inst.closure id).adapter [(m.inst.closure id).pointer, slot]]
  frames : m'.frames = m.frames
  inFlight : (m'.inst.closure id).inFlight = (m.inst.closure id).inFlight + 1
  transfer : m'.inst.transfer = m.inst.transfer
  aligned : 8 ∣ slot.toNat
  /-- The slot lies behind everything that was handed out before the call. -/
  fresh : m.inst.guest.heapTop.toNat ≤ slot.toNat
  below : slot.toNat + 16 ≤ m'.inst.guest.heapTop.toNat
  inside : slot.toNat + 16 ≤ m'.inst.guest.buffer.bytes.size
  /-- What was in use before the call, blocks of outer calls among it, is as it was. -/
  kept : ∀ a < m.inst.guest.heapTop.toNat,
    m'.inst.guest.buffer.byteAt a = m.inst.guest.buffer.byteAt a
  /-- What comes back of the arguments is decoded from the slot. It equals them exactly when each of
  them is well-formed. -/
  decodes : ∃ values, (m'.perform (.decode slot)).1 = .ok (.array values) ∧
    List.Forall₂ (fun w v : Value => w.same v.recovered = true) values arguments ∧
      (List.Forall₂ (fun w v : Value => w.same v = true) values arguments ↔
        ∀ v ∈ arguments, v.WellFormed)
  reply : m.callClosure id arguments = m'.proceed id [(m.inst.closure id).pointer, slot] r
  once : (m.callClosure id arguments).2.inst.adapterCalls = m'.inst.adapterCalls
  /-- Whatever the adapter has done, the end of its body invokes no adapter again. -/
  left : ∀ (later : List (Action Code)) (completion : Completion),
    ((m.callClosure id arguments).2.runs later).frames = .adapter id :: m.frames →
      (((m.callClosure id arguments).2.runs later).leave completion).2.inst.adapterCalls =
        ((m.callClosure id arguments).2.runs later).inst.adapterCalls

/-- A call by index is told of, whether there is a function or not. -/
theorem run_target (m : Machine Code) (callee : Callee) (index : UInt32) (signature : Signature)
    (words : List UInt32) :
    m.run (target callee index signature words) =
      ((exec (target callee index signature words) m.inst).1,
        m.log (.called callee index words)) := by
  rw [run_eq, target_inst, log]

/-- The checks and the encoding of a call, as effects on the instance. -/
theorem exec_of_run {α : Type} {e : Effect Code α} {r : Except Fault α}
    (h : m.run e = (r, m')) : ∃ i, exec e m.inst = (r, i) ∧ m' = { m with inst := i } := by
  rw [run_eq, Prod.mk.injEq] at h
  exact ⟨_, Prod.ext h.1 rfl, h.2.symm⟩

/-- The checks of a call and the encoding of its arguments invoke nothing, whatever comes of it. -/
theorem uninvoked_marshal {r : Except Fault UInt32}
    (hauthorize : m.run (authorize id) = (.ok pointer, m₁))
    (hmarshal : m₁.run (marshal arguments) = (r, m₂)) : Uninvoked m m₂ := by
  obtain ⟨i₁, hauthorize', rfl⟩ := exec_of_run hauthorize
  obtain ⟨i₂, hmarshal', rfl⟩ := exec_of_run hmarshal
  dsimp only at hmarshal'
  have hc := (authorize_checked id m.inst).1
  have hu := Undisturbed.encoding.marshal arguments i₁
  obtain ⟨es, hw⟩ := Wraps.entering.marshal arguments i₁
  rw [hauthorize'] at hc
  rw [hmarshal'] at hu hw
  refine ⟨rfl, hw.adapterCalls_eq.trans hc.adapterCalls_eq, fun id' => ?_,
    hu.transfer.trans hc.transfer_eq⟩
  rw [Instance.closure, hu.closures]
  exact hc.inFlight_eq id'

/-- Arguments that cannot be encoded answer the call with the fault, and nothing is invoked. -/
theorem uninvoked_callClosure (hauthorize : m.run (authorize id) = (.ok pointer, m₁))
    (hmarshal : m₁.run (marshal arguments) = (.error x, m₂)) :
    m.callClosure id arguments = (.answered (.error x), m₂) ∧ Uninvoked m m₂ := by
  refine ⟨?_, uninvoked_marshal hauthorize hmarshal⟩
  obtain ⟨i₁, hauthorize', rfl⟩ := exec_of_run hauthorize
  obtain ⟨i₂, hmarshal', rfl⟩ := exec_of_run hmarshal
  exact callClosure_of_unstaged hauthorize' hmarshal'

/-- The arguments stand in `i'`, in a block of their own behind all that was in use in `i`. -/
structure Marshalled (i i' : Instance Code) (arguments : List Value) (slot : UInt32) : Prop where
  grows : Grows (Set.Ici i.guest.heapTop.toNat) i i'
  fits : i'.Fits
  aligned : 8 ∣ slot.toNat
  fresh : i.guest.heapTop.toNat ≤ slot.toNat
  below : slot.toNat + 16 ≤ i'.guest.heapTop.toNat
  inside : slot.toNat + 16 ≤ i'.guest.buffer.bytes.size
  staged : ∃ lo, i'.Staged i'.config.maxDepth lo i'.guest.heapTop.toNat slot
    (Value.array arguments).stored

/-- Arguments that are encoded stand in such a block. -/
theorem marshalled_of_exec {i₁ i₂ : Instance Code} (hs : i.Sound) (hf : i.Fits)
    (hauthorize : exec (authorize id) i = (.ok pointer, i₁))
    (hmarshal : exec (marshal arguments) i₁ = (.ok slot, i₂)) :
    Marshalled i i₂ arguments slot := by
  have hagrees : Agrees i i₁ := by
    have hc := (authorize_checked id i).1
    rw [hauthorize] at hc
    exact hc.agrees
  obtain ⟨hg, hanswer⟩ := ensures_marshal (hagrees.sound hs) arguments
  have hfits : FitsKept i₁ (exec (marshal arguments) i₁).2 :=
    FitsKept.acting.marshal arguments i₁
  rw [hmarshal] at hg hanswer hfits
  obtain ⟨haligned, hfresh, hinside, lo, hlo, hle, hstaged⟩ := hanswer rfl
  rw [hagrees.heapTop] at hg hfresh
  exact
    { grows := (hagrees.grows hs).trans hg
      fits := hfits ⟨hagrees.handles ▸ hf.handles, hagrees.raw ▸ hf.raw⟩
      aligned := haligned
      fresh := hfresh
      below := Nat.le_trans hlo hle
      inside := hinside
      staged := ⟨lo, hstaged⟩ }

/-- Arguments that are encoded reach the adapter. -/
theorem invokes_callClosure (hs : m.inst.Sound) (hf : m.inst.Fits)
    (hauthorize : m.run (authorize id) = (.ok pointer, m₁))
    (hmarshal : m₁.run (marshal arguments) = (.ok slot, m₂)) :
    ∃ r m', Invokes m m₂ id arguments slot r m' := by
  have hkept := uninvoked_marshal hauthorize hmarshal
  obtain ⟨i₁, hauthorize', rfl⟩ := exec_of_run hauthorize
  obtain ⟨i₂, hmarshal', rfl⟩ := exec_of_run hmarshal
  have hblock := marshalled_of_exec hs hf hauthorize' hmarshal'
  have hreply := callClosure_of_staged hauthorize' hmarshal'
  dsimp only at hmarshal'
  obtain ⟨rfl, -⟩ := admitted_of_authorize hauthorize'
  obtain ⟨hc, hok⟩ := authorize_checked id m.inst
  have hu := Undisturbed.encoding.marshal arguments i₁
  rw [hauthorize'] at hc hok
  rw [hmarshal'] at hu
  have hlt := Instance.lt_size_of_pointer (hok _ rfl).1
  have hclosure := hu.closure_called (hc.events_eq.2 ▸ hlt)
  rw [hclosure] at hreply
  dsimp only at hreply
  rw [((Evolves.of_checked hc).descends hlt).adapter] at hreply
  generalize hindex : (m.inst.closure id).adapter = index at *
  generalize hpointer : (m.inst.closure id).pointer = pointer at *
  have hcalled : Agrees i₂ ((i₂.called id).log (.called (.adapter id) index [pointer, slot])) := by
    constructor <;> rfl
  have hs₂ := hblock.grows.sound
  have hgrows := hblock.grows.trans (hcalled.grows hs₂)
  refine ⟨(exec (target (.adapter id) index .two [pointer, slot]) (i₂.called id)).1,
    ({ m with inst := i₂.called id } : Machine Code).log
      (.called (.adapter id) index [pointer, slot]), ?_⟩
  exact
    { invoked := by
        rw [hindex, hpointer]
        exact run_target _ _ _ _ _
      entered := fun code => by
        rw [hindex]
        exact target_eq_ok_iff rfl
      calls := by
        rw [hindex, hpointer]
        exact (Instance.adapterCalls_log _ _).trans (congrArg (· ++ _) hkept.calls)
      frames := rfl
      inFlight := (congrArg Closure.inFlight hclosure).trans
        (congrArg (· + 1) (hc.inFlight_eq id))
      transfer := hkept.transfer
      aligned := hblock.aligned
      fresh := hblock.fresh
      below := hblock.below
      inside := hblock.inside
      kept := fun a ha => hgrows.kept a (Nat.not_le.2 ha)
      decodes := by
        have hs' : (({ m with inst := i₂.called id } : Machine Code).log
            (.called (.adapter id) index [pointer, slot])).inst.Sound := hgrows.sound
        obtain ⟨lo, hstaged⟩ := hblock.staged
        have hstaged' := hstaged.mono hs₂ (hcalled.grows (W := ∅) hs₂) _ _ _ _ _ .empty .empty
        obtain ⟨values, hdecode, hsame⟩ :=
          decode_array hs' ⟨hblock.fits.handles, hblock.fits.raw⟩ hstaged'
        exact ⟨values, hdecode, hsame, forall₂_same_iff hsame⟩
      reply := by
        rw [hreply, hpointer]
        cases (exec (target _ _ _ _) (i₂.called id)).1 <;> rfl
      once := by
        rw [hreply]
        split
        · rfl
        · exact (endCall_ended _ id _).adapterCalls_eq
      left := fun later completion hf => by
        rw [leave_adapter hf]
        exact (endCall_ended _ id _).adapterCalls_eq }

/-- A call that passes its checks on an instance that a run has reached, on a guest of at most 65535
pages, is made with the pointer that the closure had when it began. It invokes nothing when its
arguments cannot be encoded. Else it invokes the adapter once, with that pointer and a block behind
all blocks before, from which is decoded what comes back of the arguments. -/
theorem conveys_callClosure {pages maxPages : UInt32} (hpages : pages.toNat ≤ 65535)
    (hmax : maxPages.toNat ≤ 65535) (config : Config) (as : List (Action Code))
    {m : Machine Code} (hm : (boot (Guest.ofPages Code pages maxPages) config).runs as = m)
    {id : Nat} (arguments : List Value) {pointer : UInt32} {m₁ : Machine Code}
    (hauthorize : m.run (authorize id) = (.ok pointer, m₁)) :
    pointer = (m.inst.closure id).pointer ∧
      (∀ x m₂, m₁.run (marshal arguments) = (.error x, m₂) →
        m.callClosure id arguments = (.answered (.error x), m₂) ∧ Uninvoked m m₂) ∧
      ∀ slot m₂, m₁.run (marshal arguments) = (.ok slot, m₂) →
        (∃ r m', Invokes m m₂ id arguments slot r m') ∧
        ∀ b ∈ (boot (Guest.ofPages Code pages maxPages) config).blocks as,
          b.start.toNat + b.size.toNat ≤ slot.toNat := by
  have hboot : (boot (Guest.ofPages Code pages maxPages) config).inst.Sound :=
    .ofGuest hpages hmax config
  have hs : m.inst.Sound := hm ▸ sound_runs hpages hmax config as
  have hf : m.inst.Fits := hm ▸ fits_runs _ config as
  have hblocks (b : Extent) (hb : b ∈ (boot (Guest.ofPages Code pages maxPages) config).blocks as) :
      b.start.toNat + b.size.toNat ≤ m.inst.guest.heapTop.toNat :=
    hm ▸ le_heapTop_of_mem_blocks hboot hb
  refine ⟨?_, fun x m₂ h => uninvoked_callClosure hauthorize h, fun slot m₂ h => ?_⟩
  · obtain ⟨i₁, hexec, -⟩ := exec_of_run hauthorize
    exact (admitted_of_authorize hexec).1
  · obtain ⟨r, m', hinvokes⟩ := invokes_callClosure hs hf hauthorize h
    exact ⟨⟨r, m', hinvokes⟩, fun b hb => Nat.le_trans (hblocks b hb) hinvokes.fresh⟩

/-- Arguments are encoded just like what memory holds of them. -/
theorem marshal_stored (arguments : List Value) :
    (marshal (Value.storedItems arguments) : Effect Code UInt32) = marshal arguments := by
  unfold marshal encodeArray
  simp only [Value.length_storedItems, encodeItems_stored]

/-- A few arguments without loans are encoded where a closure can be called. -/
theorem marshal_callable {m : Machine Unit} (hs : m.inst.Sound) (h : Callable m.inst)
    (arguments : List Value) (hloans : Value.loansItems (Value.storedItems arguments) = [])
    (hdepth : (Value.array arguments).stored.depth ≤ 128)
    (hextent : (Value.array arguments).stored.extent ≤ 65536) :
    ∃ slot m₂, m.run (marshal arguments) = (.ok slot, m₂) := by
  have htop := h.heapTop
  have hlimit := h.limit
  obtain ⟨slot, i, hmarshal, -⟩ := answers_marshal hs (Value.storedItems arguments)
    (by rw [h.config]; exact hdepth) (by rw [h.config]; exact Nat.zero_le _)
    (Nat.le_trans (Nat.add_le_add htop (Nat.add_le_add_left hextent 23))
      (Nat.le_trans (by decide) hlimit))
    (by rw [hloans]; exact h.loans)
  rw [marshal_stored] at hmarshal
  exact ⟨slot, _, by rw [run_eq, hmarshal]⟩

/-- A closure that is called with a truth value gets it. -/
theorem conveys_wrappedFirst : ∃ slot m₂ r m' values,
    wrappedFirst.run (authorize 0) = (.ok 1, wrappedFirst) ∧
      wrappedFirst.run (marshal [.boolean true]) = (.ok slot, m₂) ∧
      Invokes wrappedFirst m₂ 0 [.boolean true] slot r m' ∧
      (m'.perform (.decode slot)).1 = .ok (.array values) ∧
      List.Forall₂ (fun w v : Value => w.same v = true) values [.boolean true] := by
  have hauthorize : wrappedFirst.run (authorize 0) = (.ok 1, wrappedFirst) := rfl
  have hpages : (1 : UInt32).toNat ≤ 65535 := by decide
  have hmax : (16 : UInt32).toNat ≤ 65535 := by decide
  obtain ⟨slot, m₂, hmarshal⟩ := marshal_callable sound_wrappedFirst callable_wrappedFirst
    [.boolean true] rfl (by decide) (by decide)
  obtain ⟨⟨r, m', hinvokes⟩, -⟩ := (conveys_callClosure hpages hmax .standard
    [.perform (.register ()), .perform (.wrap .shared 1 1 0)] rfl [.boolean true] hauthorize).2.2
      slot m₂ hmarshal
  obtain ⟨values, hdecode, -, hsame⟩ := hinvokes.decodes
  exact ⟨slot, m₂, r, m', values, hauthorize, hmarshal, hinvokes, hdecode,
    hsame.2 (List.forall_mem_singleton.2 trivial)⟩

/-- A call with a text of 2³² letters passes its checks and encodes its argument. What the adapter
decodes is an empty text, which does not equal the argument. -/
theorem not_arrived : ∃ slot m₂ r m',
    wrappedFirst.run (authorize 0) = (.ok 1, wrappedFirst) ∧
      wrappedFirst.run (marshal [.string (letters UInt32.size)]) = (.ok slot, m₂) ∧
      Invokes wrappedFirst m₂ 0 [.string (letters UInt32.size)] slot r m' ∧
      (m'.perform (.decode slot)).1 = .ok (.array [.string ""]) ∧
      ¬ List.Forall₂ (fun w v : Value => w.same v = true) [.string ""]
        [.string (letters UInt32.size)] := by
  have hauthorize : wrappedFirst.run (authorize 0) = (.ok 1, wrappedFirst) := rfl
  have hf : wrappedFirst.inst.Fits := ⟨HandleTable.fits_empty, RawRegistry.fits_empty⟩
  have htext := storedText_letters
  have hlength := size_letters UInt32.size
  generalize letters UInt32.size = t at *
  have hstored : (Value.string t).stored = .string "" := congrArg Value.string htext
  have hitems : Value.storedItems [.string t] = [.string ""] := by
    rw [Value.storedItems, hstored]
    rfl
  have harray : (Value.array [.string t]).stored = .array [.string ""] :=
    congrArg Value.array hitems
  obtain ⟨slot, m₂, hmarshal⟩ := marshal_callable sound_wrappedFirst callable_wrappedFirst
    [.string t] (by rw [hitems]; rfl) (by rw [harray]; decide)
    (by rw [harray]; decide)
  obtain ⟨r, m', hinvokes⟩ := invokes_callClosure sound_wrappedFirst hf hauthorize hmarshal
  obtain ⟨values, hdecode, hsame, -⟩ := hinvokes.decodes
  rw [forall₂_recovered_string hsame, htext] at hdecode
  exact ⟨slot, m₂, r, m', hauthorize, hmarshal, hinvokes, hdecode,
    not_forall₂_same_empty (by rw [hlength]; decide)⟩

end Machine

end

end Crossing
