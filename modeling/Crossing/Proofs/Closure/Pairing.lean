import Crossing.Proofs.Codec.Capacity
import Crossing.Proofs.Codec.Loans

/-!
# Which value answers a call

The value of a closure call is what the transfer slot holds when the body of the adapter ends. The
slot is one for the whole instance, and it is emptied when a call ends, not when one begins: a value
that is parked before a call, or in it by another body, answers the call when nothing takes it out.

`Tells` says that the journal tells all that happens to the slot. `Machine.Leaves` is a value that
the body of a call has parked itself and that is still there at its end, `Machine.Paired` the
answer that a call has if nothing but its own body can give it one. `Machine.paired_iff` says
exactly when the answer of a call is that one; on `Machine.parkedFirst` it is not.
-/

namespace Crossing

open Effect

section
variable {Code α : Type}

/-! ## The slot and the journal -/

/-- What the transfer slot holds after an event. -/
def Event.onSlot : Event → Option Value → Option Value
  | .parked v, _ => some v
  | .taken _, _ => none
  | .aborted _, _ => none
  | _, slot => slot

/-- Whether the event is about the transfer slot. -/
def Event.isSlot : Event → Bool
  | .parked _ | .taken _ | .aborted _ => true
  | _ => false

/-- Events that are not about the transfer slot leave what is in it. -/
theorem Event.onSlot_of_not_isSlot {e : Event} (h : e.isSlot = false) (slot : Option Value) :
    e.onSlot slot = slot := by
  cases e <;> first | rfl | cases h

/-- Events that are not about the slot leave it as it was. -/
theorem Event.foldl_onSlot_of_not_isSlot {es : List Event} (h : ∀ e ∈ es, e.isSlot = false)
    (slot : Option Value) : es.foldl (fun slot e => e.onSlot slot) slot = slot := by
  induction es with
  | nil => rfl
  | cons e es ih =>
    rw [List.foldl_cons, onSlot_of_not_isSlot (h e (.head _))]
    exact ih fun e he => h e (.tail _ he)

/-- The events `es` bring `i` to `i'`, as far as the journal and the transfer slot go. -/
structure Tells (i i' : Instance Code) (es : List Event) : Prop where
  events : i'.events = i.events ++ es
  transfer : i'.transfer = es.foldl (fun slot e => e.onSlot slot) i.transfer

namespace Tells

variable {i i' i'' : Instance Code} {es es' : List Event}

/-- Without a step nothing is told. -/
theorem refl (i : Instance Code) : Tells i i [] where
  events := by simp
  transfer := rfl

/-- Two steps are told of by the events of both, in their order. -/
theorem trans (h : Tells i i' es) (h' : Tells i' i'' es') : Tells i i'' (es ++ es') where
  events := by rw [h'.events, h.events, List.append_assoc]
  transfer := by rw [h'.transfer, h.transfer, List.foldl_append]

/-- A change that touches neither journal nor slot. -/
theorem of_eq (hj : i'.journal = i.journal) (ht : i'.transfer = i.transfer) : Tells i i' [] where
  events := by simp [Instance.events, hj]
  transfer := ht

/-- An event that is not about the slot. -/
theorem log (i : Instance Code) {e : Event} (he : e.isSlot = false) : Tells i (i.log e) [e] where
  events := i.events_log e
  transfer := by simp [Event.onSlot_of_not_isSlot he]

/-- Telling by events holds over any number of steps. -/
theorem steady : Steady fun i i' : Instance Code => ∃ es, Tells i i' es where
  refl i := ⟨[], refl i⟩
  trans := fun ⟨_, h⟩ ⟨_, h'⟩ => ⟨_, h.trans h'⟩

/-- What is about neither a closure nor the transfer slot is told by events that leave the slot
alone. -/
theorem oblivious : Oblivious fun i i' : Instance Code => ∃ es, Tells i i' es where
  toSteady := steady
  modify f hf i := ⟨[], of_eq (hf i).1 (hf i).2.1⟩
  record e he i := ⟨[e], log i (by cases e <;> first | rfl | cases he)⟩

/-- The journal tells all that operations do to the slot. -/
theorem operating : Operating fun i i' : Instance Code => ∃ es, Tells i i' es :=
  oblivious.operating
    (fun kind adapter pointer deallocator i =>
      ⟨[.wrapped i.closures.size { kind, adapter, pointer, deallocator }],
        ⟨i.events_log _, rfl⟩⟩)
    (fun v i => ⟨[.parked v], ⟨i.events_log _, rfl⟩⟩)
    (fun i => by
      rw [exec_takeTransfer]
      cases i.transfer with
      | none => exact ⟨[], refl i⟩
      | some v => exact ⟨[.taken v], ⟨i.events_log _, rfl⟩⟩)
    (fun report i => ⟨[.aborted report], ⟨i.events_log _, rfl⟩⟩)

/-- The journal tells all that actions do to the slot. -/
theorem acting : Acting fun i i' : Instance Code => ∃ es, Tells i i' es where
  toOperating := operating
  entry e he i := ⟨[e], log i (by cases e <;> first | rfl | cases he)⟩
  started _ := ⟨[], of_eq rfl rfl⟩
  step e he i := ⟨[e], log i (by cases e <;> first | rfl | cases he)⟩
  updateClosure _ _ _ := ⟨[], of_eq rfl rfl⟩

end Tells

/-! ## Answers of calls -/

namespace Machine

/-- Through the run `as` from `m` the bodies `frames` go on running. -/
def StaysOn (frames : List Frame) (m : Machine Code) (as : List (Action Code)) : Prop :=
  ∀ n, frames <:+ (m.runs (as.take n)).frames

/-- A run of no action leaves all bodies running. -/
theorem StaysOn.nil (m : Machine Code) : StaysOn m.frames m [] := fun n => by
  have h : m.runs (List.take n []) = m := by rw [List.take_nil, runs_nil]
  exact ⟨[], congrArg frames h.symm⟩

/-- The call whose body has just ended under the bodies `frames` answers `v`: at once, or when the
deallocator has come to its end that a drop of the closure had waited to call. -/
inductive Returns (frames : List Frame) (v : Value) : Reply Code × Machine Code → Prop
  | now (m : Machine Code) : Returns frames v (.answered (.ok v), m)
  | later (code : Code) (words : List UInt32) (values : List Value) (m : Machine Code) (id : Nat)
      (pending : Option (Except Fault Value)) (as : List (Action Code)) (completion : Completion)
      (hm : m.frames = .deallocator id pending :: frames)
      (hs : StaysOn (.deallocator id pending :: frames) m as)
      (he : (m.runs as).frames = .deallocator id pending :: frames)
      (hr : ((m.runs as).leave completion).1 = .answered (.ok v)) :
      Returns frames v (.entered code words values, m)

/-- In the run `as` from `m` the body on top of `frames` parks `v` itself, and nothing is parked,
taken or thrown away after that. -/
def Leaves (frames : List Frame) (m : Machine Code) (as : List (Action Code)) (v : Value) : Prop :=
  ∃ before slot after, as = before ++ .perform (.storeTransfer slot) :: after ∧
    (m.runs before).frames = frames ∧
    ((m.runs before).perform (.storeTransfer slot)).1 = .ok () ∧
    ((m.runs before).perform (.storeTransfer slot)).2.inst.transfer = some v ∧
    ∃ es, (m.runs as).inst.events =
        ((m.runs before).perform (.storeTransfer slot)).2.inst.events ++ es ∧
      ∀ e ∈ es, e.isSlot = false

/-- The answer `v` is what the body on top of `frames` left in the slot in the run `as` from `m`,
and undefined if it left nothing. -/
structure Paired (frames : List Frame) (m : Machine Code) (as : List (Action Code)) (v : Value) :
    Prop where
  own : ∀ w, Leaves frames m as w → v = w
  nothing : (∀ w, ¬ Leaves frames m as w) → v = .undefined

/-- What a body left in the slot is there at the end. -/
theorem Leaves.transfer_eq {frames : List Frame} {m : Machine Code} {as : List (Action Code)}
    {v : Value} (h : Leaves frames m as v) : (m.runs as).inst.transfer = some v := by
  obtain ⟨before, slot, after, rfl, -, -, hv, es, hes, hslot⟩ := h
  obtain ⟨es', ht⟩ := Tells.acting.runs ((m.runs before).perform (.storeTransfer slot)).2 after
  have hruns : m.runs (before ++ .perform (.storeTransfer slot) :: after) =
      ((m.runs before).perform (.storeTransfer slot)).2.runs after := by
    rw [runs_append]
    rfl
  rw [hruns] at hes ⊢
  rw [ht.events, List.append_cancel_left_eq] at hes
  rw [ht.transfer, hes, Event.foldl_onSlot_of_not_isSlot hslot, hv]

/-- A drop that comes after a call passes the call's answer on, or the fault of the deallocator. -/
theorem Returns.of_drop {m : Machine Code} {id : Nat} {answer : Except Fault Value}
    {frames : List Frame} {v : Value} (h : Returns frames v (m.drop id (some answer)))
    (hf : m.frames = frames) : answer = .ok v := by
  subst hf
  have hanswer : ∀ dropped, (.answered (dropAnswer (some answer) dropped) : Reply Code) =
      .answered (.ok v) → answer = .ok v := by
    intro dropped h
    cases answer <;> cases dropped <;> cases h
    rfl
  have hnow : ∀ dropped m', Returns m.frames v
      ((.answered (dropAnswer (some answer) dropped), m') : Reply Code × Machine Code) →
      answer = .ok v := by
    intro dropped m' h
    generalize hreply : (.answered (dropAnswer (some answer) dropped) : Reply Code) = reply at h
    cases h with
    | now => exact hanswer dropped hreply
    | later => cases hreply
  revert h
  unfold drop
  dsimp only
  split
  · exact hnow _ _
  split
  · exact hnow _ _
  split
  · exact hnow _ _
  rw [run_eq]
  generalize exec _ _ = r
  rcases r with ⟨fault | code, i'⟩
  · exact hnow _ _
  · intro h
    cases h with
    | later _ _ _ _ id' pending as completion hm hs he hr =>
      cases hm
      unfold leave at hr
      rw [he] at hr
      exact hanswer _ hr

/-- The answer of a call is what the slot holds when its body ends, and undefined if it holds
nothing. -/
theorem Returns.of_endCall {m : Machine Code} {id : Nat} {result : Except Fault Unit}
    {frames : List Frame} {v : Value} (h : Returns frames v (m.endCall id result))
    (hf : m.frames = frames) :
    result = .ok () ∧ v = m.inst.transfer.getD .undefined := by
  have hanswer : (result.map fun _ => m.inst.transfer.getD .undefined) = .ok v →
      result = .ok () ∧ v = m.inst.transfer.getD .undefined := by
    intro h
    cases result with
    | error => cases h
    | ok => exact ⟨rfl, (Except.ok.inj h).symm⟩
  rw [endCall_eq] at h
  split at h
  · exact hanswer (Returns.of_drop h hf)
  · generalize hreply : (Reply.answered _ : Reply Code) = reply at h
    cases h with
    | now => exact hanswer (Reply.answered.inj hreply)
    | later => cases hreply

/-- The answer of a call is what the slot holds when its body ends, and undefined if it holds
nothing. -/
theorem Returns.of_leave {m : Machine Code} {id : Nat} {frames : List Frame} {v : Value}
    {completion : Completion} (hm : m.frames = .adapter id :: frames)
    (h : Returns frames v (m.leave completion)) : v = m.inst.transfer.getD .undefined := by
  unfold leave at h
  rw [hm] at h
  exact (Returns.of_endCall h rfl).2

/-- A call answers no value before a body of its adapter has run. -/
theorem not_returns_callClosure (m : Machine Code) (id : Nat) (arguments : List Value) (v : Value) :
    ¬ Returns m.frames v (m.callClosure id arguments) := by
  unfold callClosure
  dsimp only
  rw [run_eq]
  generalize exec _ m.inst = r
  rcases r with ⟨fault | words, i'⟩
  · intro h
    dsimp only at h
    generalize hreply : (Reply.answered _ : Reply Code) = reply at h
    cases h <;> cases hreply
  · dsimp only
    rw [run_eq]
    generalize exec (target _ _ _ _) _ = r
    rcases r with ⟨fault | code, i''⟩
    · intro h
      dsimp only at h
      cases (Returns.of_endCall h rfl).1
    · intro h
      cases h with
      | later _ _ _ _ id' pending as completion hm => cases hm

/-- A call of the closure `id` that was made in `m₀` has entered its adapter in `m`, and after the
run `as` the body of the adapter is the innermost one again. -/
structure Activation (id : Nat) (arguments : List Value) (m₀ m : Machine Code)
    (as : List (Action Code)) : Prop where
  called : (m₀.callClosure id arguments).2 = m
  entered : m.frames = .adapter id :: m₀.frames
  stays : StaysOn m.frames m as
  innermost : (m.runs as).frames = m.frames

/-! ## A value from before the call -/

/-- A closure that can be called, on an instance that has room for the arguments. -/
structure Callable (i : Instance Unit) : Prop where
  config : i.config = .standard
  heapTop : i.guest.heapTop.toNat ≤ 16
  limit : 16 * 65536 ≤ i.guest.limit
  loans : i.RoomFor 0
  functions : i.guest.functions = #[none, some ()]
  closures : i.closures = #[{ kind := .shared, adapter := 1, pointer := 1, deallocator := 0 }]
  dead : i.dead = false

/-- What is confined to memory and takes nothing of the heap keeps the closure callable. -/
theorem Callable.confined {i i' : Instance Unit} (h : Callable i) (hc : Confined i i')
    (hs : Spends 0 0 i i') (hconfig : i'.config = i.config) : Callable i' where
  config := hconfig.trans h.config
  heapTop := Nat.le_trans hs.heapTop h.heapTop
  limit := Nat.le_trans h.limit hs.limit
  loans := hs.roomFor 0 h.loans
  functions := hc.functions.trans h.functions
  closures := hc.closures.trans h.closures
  dead := hc.dead.trans h.dead

/-- A closure on a machine with nothing running. -/
def wrappedFirst : Machine Unit :=
  (boot (Guest.ofPages Unit 1 16) .standard).runs
    [.perform (.register ()), .perform (.wrap .shared 1 1 0)]

/-- The machine is in the state that a run can reach. -/
theorem sound_wrappedFirst : wrappedFirst.inst.Sound :=
  sound_runs (by decide) (by decide) .standard _

/-- Its closure can be called. -/
theorem callable_wrappedFirst : Callable wrappedFirst.inst where
  config := rfl
  heapTop := Nat.le_refl _
  limit := Nat.le_max_right _ _
  loans := ⟨.empty (by decide), by decide⟩
  functions := rfl
  closures := rfl
  dead := rfl

/-- Its guest has one page. -/
theorem size_wrappedFirst : wrappedFirst.inst.guest.buffer.bytes.size = 65536 := by
  have hbuffer : wrappedFirst.inst.guest.buffer = (Guest.ofPages Unit 1 16).buffer := rfl
  rw [hbuffer, Guest.buffer_ofPages]
  exact Buffer.size_zeroBytes _

/-- The closure, and a value in the transfer slot before anything was called. -/
def parkedFirst : Machine Unit :=
  wrappedFirst.runs [.perform (.store 0 .u8 28 6), .perform (.storeTransfer 16)]

/-- The guest writes the tag of a truth value into a slot, and the value is put into the transfer
slot. -/
theorem parkedFirst_inst :
    parkedFirst.inst.Sound ∧ Callable parkedFirst.inst ∧
      parkedFirst.inst.transfer = some (.boolean true) := by
  have hsound : parkedFirst.inst.Sound := by
    rw [parkedFirst, wrappedFirst, ← runs_append]
    exact sound_runs (by decide) (by decide) .standard _
  have hs := sound_wrappedFirst
  have hcallable := callable_wrappedFirst
  have hsize := size_wrappedFirst
  have hmemory : wrappedFirst.inst.guest.memory = 0 := rfl
  have hmachine := parkedFirst.eq_def
  generalize wrappedFirst = m at *
  have hconfined := Confined.writing.store 0 .u8 28 (6 : UInt8) m.inst
  have hanswers : Answers 0 0 (store m.inst.guest.memory .u8 28 (6 : UInt8)) m.inst :=
    answers_store hs (k := .u8) (6 : UInt8) rfl (by rw [hsize]; decide)
  obtain ⟨_, i₁, hstore, hspends, hgrows, hholds⟩ :=
    hanswers.delivers (ensures_store hs .u8 28 (6 : UInt8))
  have hkind : i₁.KindAt 16 (.boolean true) := hholds
  rw [hmemory] at hstore
  rw [hstore] at hconfined
  have hreads : Reads i₁ (decode 16) (.boolean true) := by
    refine .get fun i' _ => ?_
    unfold decodeAt
    exact (Reads.kindAt hkind).bind ((Reads.record _).bind (.pure _))
  obtain ⟨i₂, halike, hpark⟩ := exec_storeTransfer hgrows.sound hreads
  have hinst : parkedFirst.inst =
      { i₂.log (.parked (.boolean true)) with transfer := some (.boolean true) } := by
    rw [hmachine, runs_cons, runs_cons, runs_nil, inst_act_perform, inst_act_perform]
    show (exec (storeTransfer 16) (exec (store 0 .u8 28 (6 : UInt8)) m.inst).2).2 = _
    rw [hstore, hpark]
  have hcallable₁ := hcallable.confined hconfined hspends hgrows.config
  refine ⟨hsound, ?_, by rw [hinst]⟩
  rw [hinst]
  obtain ⟨views, journal, rfl⟩ := halike.eq
  exact { hcallable₁ with loans := ⟨hcallable₁.loans.handles, hcallable₁.loans.raw⟩ }

/-- The call of the closure enters its adapter, with the value still in the slot. -/
theorem parkedFirst_called : ∃ i, (parkedFirst.callClosure 0 []).2 =
      ⟨i, .adapter 0 :: parkedFirst.frames⟩ ∧
    i.transfer = some (.boolean true) ∧ i.closures =
      #[{ kind := .shared, adapter := 1, pointer := 1, deallocator := 0, inFlight := 1 }] := by
  obtain ⟨hs, hcallable, htransfer⟩ := parkedFirst_inst
  generalize parkedFirst = m at *
  obtain ⟨hconfig, htop, hlimit, hloans, hfunctions, hclosures, hdead⟩ := hcallable
  have hclosure : m.inst.closure 0 =
      { kind := .shared, adapter := 1, pointer := 1, deallocator := 0 } := by
    rw [Instance.closure, hclosures]
    rfl
  have hauthorize : exec (authorize 0) m.inst = (.ok 1, m.inst) := by
    rw [exec_authorize_shared hdead (by rw [hclosure]; rfl) (by rw [hclosure]), hclosure]
  obtain ⟨slot, i, hmarshal, -⟩ := answers_marshal hs [] (by rw [hconfig]; decide)
    (by rw [hconfig]; exact Nat.zero_le _) (by
      have : (Value.array []).extent = 7 := rfl
      omega) hloans
  have hconfined : Confined m.inst (exec (marshal []) m.inst).2 :=
    Confined.writing.marshal rfl m.inst
  rw [hmarshal] at hconfined
  have hcalled : (i.called 0).closures =
      #[{ kind := .shared, adapter := 1, pointer := 1, deallocator := 0, inFlight := 1 }] := by
    show (i.closures.modify 0 fun c => { c with inFlight := c.inFlight + 1 }) = _
    rw [hconfined.closures, hclosures]
    rfl
  have hcode : (i.called 0).guest.functions[((i.called 0).closure 0).adapter.toNat]? =
      some (some ()) := by
    show i.guest.functions[((i.called 0).closure 0).adapter.toNat]? = _
    rw [Instance.closure, hcalled, hconfined.functions, hfunctions]
    rfl
  refine ⟨_, callClosure_of_exec hauthorize hmarshal hcode, ?_, hcalled⟩
  rw [Instance.transfer_log]
  exact hconfined.transfer.trans htransfer

/-- The body of the adapter has begun and has done nothing yet. -/
theorem parkedFirst_activation :
    Activation 0 [] parkedFirst (parkedFirst.callClosure 0 []).2 [] := by
  obtain ⟨i, hm, -, -⟩ := parkedFirst_called
  exact
    { called := rfl
      entered := by rw [hm]
      stays := .nil _
      innermost := by rw [runs_nil] }

/-- When the body ends at once, the call answers the value that was there before it. -/
theorem parkedFirst_returns : Returns parkedFirst.frames (.boolean true)
    (((parkedFirst.callClosure 0 []).2.runs []).leave (.returned .undefined)) := by
  obtain ⟨i, hm, htransfer, hclosures⟩ := parkedFirst_called
  rw [runs_nil, hm]
  generalize parkedFirst.frames = frames
  show Returns frames _ (Machine.endCall ⟨i, frames⟩ 0 (.ok ()))
  have hqueued : ((Machine.concluded ⟨i, frames⟩ 0).inst.closure 0).dropQueued = false := by
    rw [concluded, exec_takeTransfer, Instance.transfer_updateClosure, htransfer]
    show ((i.closures.modify 0 _).getD 0 default).dropQueued = false
    rw [hclosures]
    rfl
  rw [endCall_eq, hqueued, htransfer]
  exact .now _

/-- A value that was parked before a call answers it, though the body of the call left nothing. -/
theorem not_paired_parkedFirst :
    Activation 0 [] parkedFirst (parkedFirst.callClosure 0 []).2 [] ∧
      Returns parkedFirst.frames (.boolean true)
        (((parkedFirst.callClosure 0 []).2.runs []).leave (.returned .undefined)) ∧
      ¬ Paired (parkedFirst.callClosure 0 []).2.frames (parkedFirst.callClosure 0 []).2 []
        (.boolean true) := by
  refine ⟨parkedFirst_activation, parkedFirst_returns, fun hp => ?_⟩
  have hnothing := hp.nothing fun w => by
    rintro ⟨_ | _, _, _, h, -⟩ <;> cases h
  cases hnothing

/-! ## When the answer is the body's own -/

/-- The answer of a closure call is the one that its own body has given exactly when the slot holds
nothing at the end of the body but undefined or what the body has left there. -/
theorem paired_iff {m₀ m : Machine Code} {id : Nat} {arguments : List Value}
    {as : List (Action Code)} (ha : Activation id arguments m₀ m as) {completion : Completion}
    {v : Value} (hr : Returns m₀.frames v ((m.runs as).leave completion)) :
    Paired m.frames m as v ↔
      ∀ w, (m.runs as).inst.transfer = some w → w ≠ .undefined → Leaves m.frames m as w := by
  have hv := hr.of_leave (ha.innermost.trans ha.entered)
  constructor
  · intro hp w hw hne
    rw [hw, Option.getD_some] at hv
    by_cases hl : ∃ u, Leaves m.frames m as u
    · obtain ⟨u, hu⟩ := hl
      have := hu.transfer_eq
      rw [hw, Option.some.injEq] at this
      rwa [this]
    · exact absurd (hv.symm.trans (hp.nothing fun u hu => hl ⟨u, hu⟩)) hne
  · intro h
    refine ⟨fun w hw => ?_, fun hno => ?_⟩
    · rw [hv, hw.transfer_eq, Option.getD_some]
    · cases ht : (m.runs as).inst.transfer with
      | none => rw [hv, ht, Option.getD_none]
      | some w =>
        by_cases hne : w = .undefined
        · rw [hv, ht, Option.getD_some, hne]
        · exact absurd (h w ht hne) (hno w)

/-- The call answers the value that was parked before it, and that is the answer of its body exactly
if the body left it in the slot. -/
theorem paired_iff_parkedFirst :
    Activation 0 [] parkedFirst (parkedFirst.callClosure 0 []).2 [] ∧
      Returns parkedFirst.frames (.boolean true)
        (((parkedFirst.callClosure 0 []).2.runs []).leave (.returned .undefined)) ∧
      (Paired (parkedFirst.callClosure 0 []).2.frames (parkedFirst.callClosure 0 []).2 []
          (.boolean true) ↔
        ∀ w, ((parkedFirst.callClosure 0 []).2.runs []).inst.transfer = some w → w ≠ .undefined →
          Leaves (parkedFirst.callClosure 0 []).2.frames (parkedFirst.callClosure 0 []).2 [] w) :=
  ⟨parkedFirst_activation, parkedFirst_returns,
    paired_iff parkedFirst_activation parkedFirst_returns⟩

end Machine

end

end Crossing
