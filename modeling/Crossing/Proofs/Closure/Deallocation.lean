import Crossing.Proofs.Instance.Chronicle

/-!
# Guest closures are given back once

A shared or exclusive closure is handed to its deallocator when its drop has been requested and no
call of it is running, then and only then, once, and with the pointer that it was wrapped with.

`Wraps` says what operations do to closures: they wrap new ones. `Tracked` is the invariant of one
closure, `Settled` adds what holds between the actions of a machine. `Settled.act` is the step and
`Settled.runs` the run; `Machine.deallocations_eq` says what it comes to from a fresh machine.
-/

namespace Crossing

open Effect

section
variable {Code α : Type}

/-! ## Closures of an instance -/

/-- The table index and the words of a call to the deallocator of the closure `id`. -/
def Event.deallocation? (id : Nat) : Event → Option (UInt32 × List UInt32)
  | .called (.deallocator id') index arguments => if id' = id then some (index, arguments) else none
  | _ => none

/-- The calls made so far to the deallocator of the closure `id`. -/
def Instance.deallocations (i : Instance Code) (id : Nat) : List (UInt32 × List UInt32) :=
  i.events.filterMap (Event.deallocation? id)

/-- No call of the closure is running, and none holds up a drop of it. -/
def Closure.Idle (c : Closure) : Prop := c.inFlight = 0 ∧ c.dropQueued = false

/-- A closure that was never wrapped is idle. -/
theorem Instance.idle_of_size_le {i : Instance Code} {id : Nat} (h : i.closures.size ≤ id) :
    (i.closure id).Idle := by
  rw [closure_of_size_le h]
  exact ⟨rfl, rfl⟩

/-- The instance `i'` has the closures of `i` and, after them, those whose wrapping the events `es`
tell of. None of the events is a call. -/
structure Wraps (i i' : Instance Code) (es : List Event) : Prop where
  events : i'.events = i.events ++ es
  size_le : i.closures.size ≤ i'.closures.size
  closure : ∀ id < i.closures.size, i'.closure id = i.closure id
  idle : ∀ id, i.closures.size ≤ id → (i'.closure id).Idle
  wrapped : ∀ id c, .wrapped id c ∈ es → i.closures.size ≤ id ∧ id < i'.closures.size ∧
    i'.closure id = c ∧ c.Idle ∧ c.dropped = false
  uncalled : ∀ callee index arguments, .called callee index arguments ∉ es

namespace Wraps

variable {i i' i'' : Instance Code} {es es' : List Event}

/-- No step wraps nothing. -/
theorem refl (i : Instance Code) : Wraps i i [] where
  events := by simp
  size_le := Nat.le_refl _
  closure _ _ := rfl
  idle _ h := Instance.idle_of_size_le h
  wrapped := by simp
  uncalled := by simp

/-- Two steps wrap what the first wraps and then what the second does. -/
theorem trans (h : Wraps i i' es) (h' : Wraps i' i'' es') : Wraps i i'' (es ++ es') where
  events := by rw [h'.events, h.events, List.append_assoc]
  size_le := Nat.le_trans h.size_le h'.size_le
  closure id hid := by
    rw [h'.closure id (Nat.lt_of_lt_of_le hid h.size_le), h.closure id hid]
  idle id hid := by
    by_cases hlt : id < i'.closures.size
    · rw [h'.closure id hlt]
      exact h.idle id hid
    · exact h'.idle id (Nat.le_of_not_lt hlt)
  wrapped id c hc := by
    rcases List.mem_append.1 hc with hc | hc
    · obtain ⟨hle, hlt, he, hfresh⟩ := h.wrapped id c hc
      exact ⟨hle, Nat.lt_of_lt_of_le hlt h'.size_le, by rw [h'.closure id hlt, he], hfresh⟩
    · obtain ⟨hle, hlt, he, hfresh⟩ := h'.wrapped id c hc
      exact ⟨Nat.le_trans h.size_le hle, hlt, he, hfresh⟩
  uncalled callee index arguments hc := by
    rcases List.mem_append.1 hc with hc | hc
    · exact h.uncalled _ _ _ hc
    · exact h'.uncalled _ _ _ hc

/-- An event that is no wrapping and no call. -/
theorem of_record (e : Event) (hw : ∀ id c, e ≠ .wrapped id c)
    (hc : ∀ callee index arguments, e ≠ .called callee index arguments) (i : Instance Code) :
    Wraps i (i.log e) [e] where
  events := i.events_log e
  size_le := Nat.le_refl _
  closure _ _ := rfl
  idle _ h := Instance.idle_of_size_le h
  wrapped id c h := absurd (List.mem_singleton.1 h).symm (hw id c)
  uncalled _ _ _ h := absurd (List.mem_singleton.1 h).symm (hc _ _ _)

/-- A change that touches neither journal nor closures. -/
theorem of_eq (hj : i'.journal = i.journal) (hc : i'.closures = i.closures) : Wraps i i' [] where
  events := by simp [Instance.events, hj]
  size_le := Nat.le_of_eq (by rw [hc])
  closure _ _ := by simp [Instance.closure, hc]
  idle id h := by
    simp only [Instance.closure, hc]
    exact Instance.idle_of_size_le h
  wrapped := by simp
  uncalled := by simp

/-- Wrapping closures and calling none holds over any number of steps. -/
theorem steady : Steady fun i i' : Instance Code => ∃ es, Wraps i i' es where
  refl i := ⟨[], refl i⟩
  trans := fun ⟨_, h⟩ ⟨_, h'⟩ => ⟨_, h.trans h'⟩

/-- What is about neither a closure nor the transfer slot wraps nothing. -/
theorem oblivious : Oblivious fun i i' : Instance Code => ∃ es, Wraps i i' es where
  toSteady := steady
  modify f hf i := ⟨[], of_eq (hf i).1 (hf i).2.2⟩
  record e he i :=
    ⟨[e], of_record e (by rintro id c rfl; cases he) (by rintro _ _ _ rfl; cases he) i⟩

/-- Wrapping a closure puts its record behind the others. -/
theorem of_wrap (kind : ClosureKind) (adapter pointer deallocator : UInt32) (i : Instance Code) :
    Wraps i (exec (wrap kind adapter pointer deallocator) i).2
      [.wrapped i.closures.size { kind, adapter, pointer, deallocator }] := by
  have hwrap : (exec (wrap kind adapter pointer deallocator) i).2 =
      { i with
        journal := i.journal.push (.wrapped i.closures.size { kind, adapter, pointer, deallocator })
        closures := i.closures.push { kind, adapter, pointer, deallocator } } := rfl
  rw [hwrap]
  refine ⟨by simp [Instance.events], by simp, fun id hid => ?_, fun id hid => ?_, fun id c hc => ?_,
    by simp⟩
  · simp [Instance.closure, Array.getElem?_push, Nat.ne_of_lt hid]
  · rcases Nat.eq_or_lt_of_le hid with rfl | hlt
    · simp [Instance.closure, Closure.Idle]
    · exact Instance.idle_of_size_le (by simpa using Nat.succ_le_of_lt hlt)
  · simp only [List.mem_singleton, Event.wrapped.injEq] at hc
    obtain ⟨rfl, rfl⟩ := hc
    simp [Instance.closure, Closure.Idle]

/-- Every operation only wraps closures. -/
theorem operating : Operating fun i i' : Instance Code => ∃ es, Wraps i i' es :=
  oblivious.operating
    (fun _ _ _ _ i => ⟨_, of_wrap _ _ _ _ i⟩)
    (fun v => steady.bind (fun i => ⟨_, of_record _ (by simp) (by simp) i⟩) fun _ i =>
      ⟨[], of_eq rfl rfl⟩)
    (by
      refine steady.bind steady.get fun i => ?_
      split
      · exact steady.pure _
      · refine steady.bind (fun i => ⟨_, of_record _ (by simp) (by simp) i⟩) fun _ =>
          steady.bind (fun i => ⟨[], of_eq rfl rfl⟩) fun _ => steady.pure _)
    (fun report => steady.bind (fun i => ⟨_, of_record _ (by simp) (by simp) i⟩) fun _ =>
      steady.bind (fun i => ⟨[], of_eq rfl rfl⟩) fun _ => steady.throw _)

/-- Operations, the entry point and the arguments of capabilities only wrap closures. -/
theorem entering : Entering fun i i' : Instance Code => ∃ es, Wraps i i' es where
  toServing := operating.toServing
  entry e he i :=
    ⟨[e], of_record e (by rintro id c rfl; cases he) (by rintro _ _ _ rfl; cases he) i⟩
  started _ := ⟨[], of_eq rfl rfl⟩

end Wraps

/-! ## What the steps of closures do -/

/-- Only a closure with its pointer and without a queued drop may be called. -/
theorem Closure.of_checkLive {c : Closure} (h : c.checkLive = .ok ()) :
    c.pointer ≠ 0 ∧ c.dropQueued = false := by
  unfold checkLive at h
  split at h
  · split at h <;> cases h
  · next hc => simpa using hc

/-- The checks of a call change nothing but the record of a single-use closure. -/
def Checked (id : Nat) (i i' : Instance Code) : Prop :=
  i' = i ∨ (i.closure id).kind = .once ∧
    i' = i.updateClosure id fun c => { c with pointer := 0, dropped := true }

/-- The checks of a call leave the journal and the number of closures as they are. -/
theorem Checked.events_eq {id : Nat} {i i' : Instance Code} (h : Checked id i i') :
    i'.events = i.events ∧ i'.closures.size = i.closures.size := by
  rcases h with rfl | ⟨-, rfl⟩
  · exact ⟨rfl, rfl⟩
  · exact ⟨rfl, i.size_updateClosure _ _⟩

/-- The checks of a call let only a closure through that has its pointer and no drop queued. -/
theorem Effect.authorize_checked (id : Nat) (i : Instance Code) :
    Checked id i (exec (authorize id) i).2 ∧
      ∀ pointer, (exec (authorize id) i).1 = .ok pointer →
        (i.closure id).pointer ≠ 0 ∧ (i.closure id).dropQueued = false := by
  cases hdead : i.dead with
  | true =>
    rw [exec_authorize_of_dead hdead]
    exact ⟨.inl rfl, nofun⟩
  | false =>
    cases hlive : (i.closure id).checkLive with
    | error x =>
      rw [exec_authorize_of_error hdead hlive]
      exact ⟨.inl rfl, nofun⟩
    | ok =>
      refine ⟨?_, fun _ _ => Closure.of_checkLive hlive⟩
      rw [exec_authorize hdead hlive]
      cases hk : (i.closure id).kind with
      | shared => exact .inl rfl
      | exclusive => exact .inl rfl
      | once => exact .inr ⟨hk, rfl⟩

namespace Machine

variable (m : Machine Code) (id : Nat)

/-- The instance of a machine when a drop has been queued. -/
def queued : Instance Code := m.inst.updateClosure id fun c => { c with dropQueued := true }

/-- The instance of a machine when a closure has no pointer any more. -/
def emptied : Instance Code :=
  m.inst.updateClosure id fun c => { c with dropped := true, pointer := 0 }

/-- What a drop does: it queues itself behind the running calls, finds nothing to give back, or
calls the deallocator. -/
inductive Dropped (m' : Machine Code) : Prop
  | queued (hn : (m.inst.closure id).inFlight ≠ 0) (hf : m'.frames = m.frames)
      (hi : m'.inst = m.queued id)
  | again (hn : (m.inst.closure id).inFlight = 0) (hd : (m.inst.closure id).dropped = true)
      (hf : m'.frames = m.frames) (hi : m'.inst = m.inst)
  | empty (hn : (m.inst.closure id).inFlight = 0) (hp : (m.inst.closure id).pointer = 0)
      (hf : m'.frames = m.frames) (hi : m'.inst = m.emptied id)
  | freed (pending : Option (Except Fault Value)) (hn : (m.inst.closure id).inFlight = 0)
      (hp : (m.inst.closure id).pointer ≠ 0) (hd : (m.inst.closure id).dropped = false)
      (hf : m'.frames = m.frames ∨ m'.frames = .deallocator id pending :: m.frames)
      (hi : m'.inst = ((m.emptied id).log
          (.dropping id (m.inst.closure id).kind (m.inst.closure id).pointer)).log
        (.called (.deallocator id) (m.inst.closure id).deallocator [(m.inst.closure id).pointer]))

/-- Dropping a closure does one of these. -/
theorem drop_dropped (pending : Option (Except Fault Value)) :
    m.Dropped id (m.drop id pending).2 := by
  unfold drop
  dsimp only
  split
  · next hn => exact .queued hn rfl rfl
  next hn =>
  rw [Decidable.not_not] at hn
  split
  · next hd => exact .again hn hd rfl rfl
  next hd =>
  split
  · next hp => exact .empty hn hp rfl rfl
  next hp =>
  rw [run_eq, exec_bind_of_ok (exec_record _ _)]
  generalize hr : exec (target (.deallocator id) _ _ _) _ = r
  have hrun : r.2 = ((m.emptied id).log
        (.dropping id (m.inst.closure id).kind (m.inst.closure id).pointer)).log
      (.called (.deallocator id) (m.inst.closure id).deallocator [(m.inst.closure id).pointer]) :=
    by
    rw [← hr]
    exact target_inst _ _ _ _ _
  rcases r with ⟨fault | code, i'⟩
  · exact .freed pending hn hp (by simpa using hd) (.inl rfl) hrun
  · exact .freed pending hn hp (by simpa using hd) (.inr rfl) hrun

/-- What the end of a call does: it counts the call off and empties the transfer slot, and it
carries out a drop that waited for just this call. -/
inductive Ended (m' : Machine Code) : Prop
  | quiet (hq : ((m.concluded id).inst.closure id).dropQueued = true →
      ((m.concluded id).inst.closure id).inFlight ≠ 0) (hm : m' = m.concluded id)
  | dropped (kind : ClosureKind) (hq : ((m.concluded id).inst.closure id).dropQueued = true)
      (hd : ((m.concluded id).log (.dropDeferred id kind)).Dropped id m')

/-- The end of a call does one of these. -/
theorem endCall_ended (result : Except Fault Unit) : m.Ended id (m.endCall id result).2 := by
  rw [endCall_eq]
  split
  · next hq =>
    simp only [Bool.and_eq_true, decide_eq_true_eq] at hq
    exact .dropped _ hq.1 (drop_dropped _ _ _)
  · next hq =>
    simp only [Bool.and_eq_true, decide_eq_true_eq, not_and] at hq
    exact .quiet hq rfl

/-- What a call of a closure does: it is refused, or it is counted and then enters the adapter or
ends at once. -/
inductive Calls (m' : Machine Code) : Prop
  | refused (i₁ : Instance Code) (es : List Event) (hc : Checked id m.inst i₁)
      (hw : Wraps i₁ m'.inst es) (hf : m'.frames = m.frames)
  | counted (i₁ i₂ : Instance Code) (es : List Event) (index : UInt32) (words : List UInt32)
      (m₃ : Machine Code)
      (hc : Checked id m.inst i₁) (hp : (m.inst.closure id).pointer ≠ 0)
      (hq : (m.inst.closure id).dropQueued = false) (hw : Wraps i₁ i₂ es)
      (hi : m₃.inst = (i₂.updateClosure id fun c => { c with inFlight := c.inFlight + 1 }).log
        (.called (.adapter id) index words))
      (hf : m₃.frames = m.frames)
      (hm : m' = { m₃ with frames := .adapter id :: m.frames } ∨
        ∃ fault, m' = (m₃.endCall id (.error fault)).2)

/-- A call of a closure does one of these. -/
theorem callClosure_calls (arguments : List Value) :
    m.Calls id (m.callClosure id arguments).2 := by
  obtain ⟨hc, hok⟩ := authorize_checked id m.inst
  rcases hauthorize : exec (authorize id) m.inst with ⟨fault | pointer, i₁⟩ <;>
    rw [hauthorize] at hc hok
  · rw [callClosure_of_refused hauthorize]
    exact .refused i₁ [] hc (.refl i₁) rfl
  obtain ⟨hp, hq⟩ := hok pointer rfl
  obtain ⟨es, hw⟩ := Wraps.entering.marshal arguments i₁
  rcases hmarshal : exec (marshal arguments) i₁ with ⟨fault | slot, i₂⟩ <;> rw [hmarshal] at hw
  · rw [callClosure_of_unstaged hauthorize hmarshal]
    exact .refused i₁ es hc hw rfl
  rw [callClosure_of_staged hauthorize hmarshal]
  split
  · exact .counted i₁ i₂ es _ _ ⟨_, m.frames⟩ hc hp hq hw rfl rfl (.inl rfl)
  · next fault _ =>
    exact .counted i₁ i₂ es _ _ ⟨_, m.frames⟩ hc hp hq hw rfl rfl (.inr ⟨fault, rfl⟩)

end Machine

/-! ## One closure -/

/-- The closure `id` was wrapped as `c`: with a pointer, and shared or exclusive. -/
structure Instance.Owes (i : Instance Code) (id : Nat) (c : Closure) : Prop where
  wrapped : .wrapped id c ∈ i.events
  kind : c.kind ≠ .once
  pointer : c.pointer ≠ 0

/-- How far a closure that was wrapped as `c` has come, by its record `k` and the calls `frees` to
its deallocator: it is held, with a drop queued if one was requested, or it has been given back. -/
inductive Stage (c : Closure) (requested : Bool) (k : Closure)
    (frees : List (UInt32 × List UInt32)) : Prop
  | held (hp : k.pointer = c.pointer) (hd : k.dropped = false) (hq : k.dropQueued = requested)
      (hf : frees = [])
  | freed (hr : requested = true) (hn : k.inFlight = 0) (hp : k.pointer = 0) (hd : k.dropped = true)
      (hf : frees = [(c.deallocator, [c.pointer])])

/-- The record of the closure `id` tells how far it has come, and whether its drop has been
requested. -/
structure Tracked (id : Nat) (requested : Bool) (i : Instance Code) : Prop where
  born : ∀ c, .wrapped id c ∈ i.events → id < i.closures.size
  unborn : i.closures.size ≤ id → requested = false ∧ i.deallocations id = []
  queued : (i.closure id).dropQueued = true → requested = true
  kind : ∀ c, i.Owes id c →
    (i.closure id).kind = c.kind ∧ (i.closure id).deallocator = c.deallocator
  stage : ∀ c, i.Owes id c → Stage c requested (i.closure id) (i.deallocations id)

/-- Nothing about the closure `id` is different in `i'`. -/
structure Apart (id : Nat) (i i' : Instance Code) : Prop where
  size : i'.closures.size = i.closures.size
  closure : i'.closure id = i.closure id
  wrapped : ∀ c, .wrapped id c ∈ i'.events → .wrapped id c ∈ i.events
  frees : i'.deallocations id = i.deallocations id

namespace Apart

variable {id id' : Nat} {i i' i'' : Instance Code}

/-- Nothing is different without a step. -/
theorem refl (i : Instance Code) : Apart id i i := ⟨rfl, rfl, fun _ hc => hc, rfl⟩

/-- What neither of two steps touches, both together do not touch. -/
theorem trans (h : Apart id i i') (h' : Apart id i' i'') : Apart id i i'' where
  size := h'.size.trans h.size
  closure := h'.closure.trans h.closure
  wrapped c hc := h.wrapped c (h'.wrapped c hc)
  frees := h'.frees.trans h.frees

/-- An event that does not wrap the closure and does not call its deallocator. -/
theorem log (i : Instance Code) {e : Event} (hw : ∀ c, e ≠ .wrapped id c)
    (hf : e.deallocation? id = none) : Apart id i (i.log e) where
  size := rfl
  closure := rfl
  wrapped c hc := by
    rw [Instance.events_log, List.mem_append, List.mem_singleton] at hc
    exact hc.resolve_right fun he => hw c he.symm
  frees := by simp [Instance.deallocations, List.filterMap_append, hf]

/-- A change of another closure. -/
theorem updateClosure (i : Instance Code) (f : Closure → Closure) (hne : id' ≠ id) :
    Apart id i (i.updateClosure id' f) where
  size := i.size_updateClosure id' f
  closure := i.closure_updateClosure_of_ne f hne
  wrapped _ hc := hc
  frees := rfl

end Apart

namespace Tracked

variable {id : Nat} {requested : Bool} {i i' : Instance Code} {es : List Event}

/-- Steps that do not touch the closure leave it as far as it has come. -/
theorem apart (h : Tracked id requested i) (ha : Apart id i i') : Tracked id requested i' := by
  have howes : ∀ c, i'.Owes id c → i.Owes id c := fun c hc => ⟨ha.wrapped c hc.1, hc.2, hc.3⟩
  refine ⟨fun c hc => ?_, fun hle => ?_, fun hq => ?_, fun c hc => ?_, fun c hc => ?_⟩
  · rw [ha.size]
    exact h.born c (ha.wrapped c hc)
  · rw [ha.size] at hle
    rw [ha.frees]
    exact h.unborn hle
  · rw [ha.closure] at hq
    exact h.queued hq
  · rw [ha.closure]
    exact h.kind c (howes c hc)
  · rw [ha.closure, ha.frees]
    exact h.stage c (howes c hc)

/-- Operations make no calls. -/
theorem deallocations_wraps (hw : Wraps i i' es) : i'.deallocations id = i.deallocations id := by
  have hnone : es.filterMap (Event.deallocation? id) = [] := by
    rw [List.filterMap_eq_nil_iff]
    intro e he
    cases e with
    | called callee index arguments => exact absurd he (hw.uncalled _ _ _)
    | _ => rfl
  rw [Instance.deallocations, hw.events, List.filterMap_append, hnone, List.append_nil]
  rfl

/-- A closure that is wrapped by an operation is new; one that was there stays as it was. -/
theorem wraps (h : Tracked id requested i) (hw : Wraps i i' es) : Tracked id requested i' := by
  have hold : ∀ c, .wrapped id c ∈ i.events → i'.closure id = i.closure id := fun c hc =>
    hw.closure id (h.born c hc)
  have hcases : ∀ c, .wrapped id c ∈ i'.events → .wrapped id c ∈ i.events ∨ .wrapped id c ∈ es :=
    fun c hc => by rwa [hw.events, List.mem_append] at hc
  refine ⟨fun c hc => ?_, fun hle => ?_, fun hq => ?_, fun c hc => ?_, fun c hc => ?_⟩
  · rcases hcases c hc with hc | hc
    · exact Nat.lt_of_lt_of_le (h.born c hc) hw.size_le
    · exact (hw.wrapped id c hc).2.1
  · rw [deallocations_wraps hw]
    exact h.unborn (Nat.le_trans hw.size_le hle)
  · by_cases hlt : id < i.closures.size
    · rw [hw.closure id hlt] at hq
      exact h.queued hq
    · rw [(hw.idle id (Nat.le_of_not_lt hlt)).2] at hq
      cases hq
  · rcases hcases c hc.1 with he | he
    · rw [hold c he]
      exact h.kind c ⟨he, hc.2, hc.3⟩
    · obtain ⟨-, -, rfl, -⟩ := hw.wrapped id c he
      exact ⟨rfl, rfl⟩
  · rw [deallocations_wraps hw]
    rcases hcases c hc.1 with he | he
    · rw [hold c he]
      exact h.stage c ⟨he, hc.2, hc.3⟩
    · obtain ⟨hle, -, rfl, ⟨-, hq⟩, hd⟩ := hw.wrapped id c he
      obtain ⟨rfl, hf⟩ := h.unborn hle
      exact .held rfl hd hq hf

/-- A change of the record that leaves the contract as it was. -/
theorem update {requested' : Bool} {f : Closure → Closure} (h : Tracked id requested i)
    (hf : ∀ k, (f k).kind = k.kind ∧ (f k).deallocator = k.deallocator)
    (hr : i.closures.size ≤ id → requested' = false)
    (hq : id < i.closures.size → (f (i.closure id)).dropQueued = true → requested' = true)
    (hs : ∀ c, i.Owes id c → Stage c requested (i.closure id) (i.deallocations id) →
      Stage c requested' (f (i.closure id)) (i.deallocations id)) :
    Tracked id requested' (i.updateClosure id f) := by
  have hself : ∀ c, i.Owes id c → (i.updateClosure id f).closure id = f (i.closure id) :=
    fun c hc => i.closure_updateClosure_self f (h.born c hc.1)
  refine ⟨fun c hc => ?_, fun hle => ?_, fun hq' => ?_, fun c hc => ?_, fun c hc => ?_⟩
  · rw [i.size_updateClosure]
    exact h.born c hc
  · rw [i.size_updateClosure] at hle
    exact ⟨hr hle, (h.unborn hle).2⟩
  · by_cases hlt : id < i.closures.size
    · rw [i.closure_updateClosure_self f hlt] at hq'
      exact hq hlt hq'
    · rw [i.closure_updateClosure_of_size_le f (Nat.le_of_not_lt hlt)] at hq'
      cases hq'
  · rw [hself c ⟨hc.1, hc.2, hc.3⟩, (hf _).1, (hf _).2]
    exact h.kind c ⟨hc.1, hc.2, hc.3⟩
  · rw [hself c ⟨hc.1, hc.2, hc.3⟩]
    exact hs c ⟨hc.1, hc.2, hc.3⟩ (h.stage c ⟨hc.1, hc.2, hc.3⟩)

/-- No drop was requested of a closure that has its pointer and no drop queued. -/
theorem not_requested (h : Tracked id requested i) (hp : (i.closure id).pointer ≠ 0)
    (hq : (i.closure id).dropQueued = false) (c : Closure) (hc : i.Owes id c) :
    requested = false := by
  cases h.stage c hc with
  | held _ _ hq' => rw [← hq', hq]
  | freed _ _ hp' => exact absurd hp' hp

/-- One call more, while no drop was requested. -/
theorem countUp (h : Tracked id requested i) (hfalse : ∀ c, i.Owes id c → requested = false) :
    Tracked id requested (i.updateClosure id fun c => { c with inFlight := c.inFlight + 1 }) := by
  refine h.update (fun _ => ⟨rfl, rfl⟩) (fun hle => (h.unborn hle).1) (fun _ => h.queued)
    fun c hc hs => ?_
  cases hs with
  | held hp hd hq hf => exact .held hp hd hq hf
  | freed hr => exact absurd (hfalse c hc) (by simp [hr])

/-- One call less. -/
theorem countDown (h : Tracked id requested i) :
    Tracked id requested (i.updateClosure id fun c => { c with inFlight := c.inFlight - 1 }) := by
  refine h.update (fun _ => ⟨rfl, rfl⟩) (fun hle => (h.unborn hle).1) (fun _ => h.queued)
    fun c hc hs => ?_
  cases hs with
  | held hp hd hq hf => exact .held hp hd hq hf
  | freed hr hn hp hd hf => exact .freed hr (by simp [hn]) hp hd hf

/-- The call of the deallocator, with what the record held. -/
theorem freed (h : Tracked id requested i) (hn : (i.closure id).inFlight = 0)
    (hp : (i.closure id).pointer ≠ 0) :
    Tracked id true (((i.updateClosure id fun c => { c with dropped := true, pointer := 0 }).log
      (.dropping id (i.closure id).kind (i.closure id).pointer)).log
      (.called (.deallocator id) (i.closure id).deallocator [(i.closure id).pointer])) := by
  have hlt := Instance.lt_size_of_pointer hp
  have hself := i.closure_updateClosure_self (fun c => { c with dropped := true, pointer := 0 }) hlt
  refine ⟨fun c _ => by simpa using hlt, fun hle => ?_, fun _ => rfl, fun c hc => ?_,
    fun c hc => ?_⟩
  · simp only [Instance.closures_log, Instance.size_updateClosure] at hle
    exact absurd hlt (Nat.not_lt_of_le hle)
  all_goals
    have howes : i.Owes id c := ⟨by simpa using hc.1, hc.2, hc.3⟩
    simp only [Instance.closure_log, hself]
  · exact h.kind c howes
  · obtain ⟨-, hdealloc⟩ := h.kind c howes
    cases h.stage c howes with
    | held hp' _ _ hf =>
      refine .freed rfl hn rfl rfl ?_
      rw [Instance.deallocations] at hf ⊢
      simp [List.filterMap_append, List.filterMap_cons, hf, Event.deallocation?, hdealloc, hp']
    | freed _ _ hp' => exact absurd hp' hp

end Tracked

/-! ## One closure of a machine -/

/-- Whether the action requests the drop of the closure `id`, which a machine `m` has. -/
def Action.drops (id : Nat) (m : Machine Code) : Action Code → Bool
  | .call (.drop id') => id' == id && decide (id < m.inst.closures.size)
  | _ => false

/-- Whether the drop of the closure `id` is requested in a run. -/
def Machine.requested (id : Nat) (m : Machine Code) : List (Action Code) → Bool
  | [] => false
  | a :: as => a.drops id m || (m.act a).requested id as

/-- Whether the body is a call of the closure `id`. -/
def Frame.isCall (id : Nat) : Frame → Bool
  | .adapter id' => id' == id
  | _ => false

namespace Machine.Dropped

variable {m m' : Machine Code} {id : Nat}

/-- A drop leaves the count of the calls of its closure as it was. -/
theorem inFlight_eq (h : m.Dropped id m') :
    (m'.inst.closure id).inFlight = (m.inst.closure id).inFlight := by
  cases h with
  | queued _ _ hi | empty _ _ _ hi =>
    rw [hi]
    exact Instance.inFlight_updateClosure _ _ _ fun _ => rfl
  | again _ _ _ hi => rw [hi]
  | freed _ _ _ _ _ hi =>
    rw [hi, Instance.closure_log, Instance.closure_log]
    exact Instance.inFlight_updateClosure _ _ _ fun _ => rfl

/-- A drop enters the deallocator at most, which is no call. -/
theorem countP_isCall (h : m.Dropped id m') (id' : Nat) :
    m'.frames.countP (Frame.isCall id') = m.frames.countP (Frame.isCall id') := by
  cases h with
  | queued _ hf _ | again _ _ hf _ | empty _ _ hf _ => rw [hf]
  | freed pending _ _ _ hf _ => rcases hf with hf | hf <;> simp [hf, Frame.isCall]

end Machine.Dropped

/-- Between actions the running calls are counted, and a drop that was requested waits for nothing
but them. -/
structure Settled (id : Nat) (requested : Bool) (m : Machine Code) : Prop where
  tracked : Tracked id requested m.inst
  inFlight : (m.inst.closure id).inFlight = m.frames.countP (Frame.isCall id)
  prompt : ∀ c, m.inst.Owes id c → requested = true → (m.inst.closure id).inFlight = 0 →
    (m.inst.closure id).dropped = true

namespace Settled

variable {id id' : Nat} {requested : Bool} {m m' : Machine Code} {es : List Event}

/-- An action that does not touch the closure, and leaves as many calls of it on the stack, leaves
it settled. -/
theorem apart (h : Settled id requested m) (ha : Apart id m.inst m'.inst)
    (hf : m'.frames.countP (Frame.isCall id) = m.frames.countP (Frame.isCall id)) :
    Settled id requested m' where
  tracked := h.tracked.apart ha
  inFlight := by rw [ha.closure, hf, h.inFlight]
  prompt c hc hr hn := by
    rw [ha.closure] at hn ⊢
    exact h.prompt c ⟨ha.wrapped c hc.1, hc.2, hc.3⟩ hr hn

/-- Wrapping other closures leaves it settled. -/
theorem wraps (h : Settled id requested m) (hw : Wraps m.inst m'.inst es)
    (hf : m'.frames.countP (Frame.isCall id) = m.frames.countP (Frame.isCall id)) :
    Settled id requested m' := by
  have hcount : (m'.inst.closure id).inFlight = (m.inst.closure id).inFlight := by
    by_cases hlt : id < m.inst.closures.size
    · rw [hw.closure id hlt]
    · rw [(hw.idle id (Nat.le_of_not_lt hlt)).1,
        (Instance.idle_of_size_le (Nat.le_of_not_lt hlt)).1]
  refine ⟨h.tracked.wraps hw, by rw [hcount, h.inFlight, hf], fun c hc hr hn => ?_⟩
  by_cases hlt : id < m.inst.closures.size
  · have hold : .wrapped id c ∈ m.inst.events := by
      have := hc.1
      rw [hw.events, List.mem_append] at this
      exact this.resolve_right fun he => absurd (hw.wrapped id c he).1 (Nat.not_le_of_lt hlt)
    rw [hw.closure id hlt]
    exact h.prompt c ⟨hold, hc.2, hc.3⟩ hr (hcount ▸ hn)
  · have := (h.tracked.unborn (Nat.le_of_not_lt hlt)).1
    rw [hr] at this
    cases this

/-- The drop of another closure. -/
theorem drop_of_ne (h : Settled id requested m) (hd : m.Dropped id' m') (hne : id' ≠ id) :
    Settled id requested m' := by
  refine h.apart ?_ (hd.countP_isCall id)
  cases hd with
  | queued hn hf hi | empty hn hp hf hi =>
    rw [hi]
    exact .updateClosure _ _ hne
  | again hn hd hf hi =>
    rw [hi]
    exact .refl _
  | freed pending hn hp hd hf hi =>
    rw [hi]
    exact ((Apart.updateClosure _ _ hne).trans (.log _ (by simp) rfl)).trans
      (.log _ (by simp) (by simp [Event.deallocation?, hne]))

/-- The drop of the closure itself: afterwards it waits for nothing but running calls. -/
theorem drop (h : Tracked id requested m.inst)
    (hn : (m.inst.closure id).inFlight = m.frames.countP (Frame.isCall id))
    (hd : m.Dropped id m') :
    Settled id (requested || decide (id < m.inst.closures.size)) m' := by
  have hreq : ∀ c, m.inst.Owes id c → (requested || decide (id < m.inst.closures.size)) = true :=
    fun c hc => by simp [h.born c hc.1]
  have hunborn : m.inst.closures.size ≤ id →
      (requested || decide (id < m.inst.closures.size)) = false := fun hle => by
    simp [(h.unborn hle).1, hle]
  have hcount := hd.inFlight_eq
  have hcounted : (m'.inst.closure id).inFlight = m'.frames.countP (Frame.isCall id) := by
    rw [hcount, hn, hd.countP_isCall]
  cases hd with
  | queued hn' hf hi =>
    refine ⟨?_, hcounted, fun c _ _ h0 => absurd (hcount ▸ h0) hn'⟩
    rw [hi]
    refine h.update (fun _ => ⟨rfl, rfl⟩) hunborn (fun hlt _ => by simp [hlt]) fun c hc hs => ?_
    cases hs with
    | held hp hd hq hf => exact .held hp hd (hreq c hc).symm hf
    | freed hr hn => exact absurd hn hn'
  | again hn' hd hf hi =>
    rw [← hi] at h hd hreq hunborn
    refine ⟨⟨h.born, fun hle => ⟨?_, (h.unborn hle).2⟩, fun hq => ?_, h.kind, fun c hc => ?_⟩,
      hcounted, fun _ _ _ _ => hd⟩
    · rw [← hi]
      exact hunborn hle
    · simp [h.queued hq]
    · rw [← hi, hreq c hc]
      cases h.stage c hc with
      | held hp hd' => rw [hd] at hd'; cases hd'
      | freed hr hn hp hd hf => exact .freed rfl hn hp hd hf
  | empty hn' hp hf hi =>
    refine ⟨?_, hcounted, fun c hc _ _ => ?_⟩
    · rw [hi]
      refine h.update (fun _ => ⟨rfl, rfl⟩) hunborn (fun hlt _ => by simp [hlt]) fun c hc hs => ?_
      cases hs with
      | held hp' => exact absurd (hp'.symm.trans hp) hc.pointer
      | freed hr hn hp hd hf => exact .freed (hreq c hc) hn rfl rfl hf
    · rw [hi] at hc ⊢
      rw [Machine.emptied, Instance.closure_updateClosure_self _ (h.born c hc.1)]
  | freed pending hn' hp hd hf hi =>
    have hlt := Instance.lt_size_of_pointer hp
    refine ⟨?_, hcounted, fun c _ _ _ => ?_⟩
    · simp only [hi, hlt, decide_true, Bool.or_true]
      exact h.freed hn' hp
    · rw [hi, Instance.closure_log, Instance.closure_log, Machine.emptied,
        Instance.closure_updateClosure_self _ hlt]

/-! ## Calls -/

/-- The end of a call of another closure. -/
theorem endCall_of_ne (h : Settled id requested m) (hne : id' ≠ id) (result : Except Fault Unit) :
    Settled id requested (m.endCall id' result).2 := by
  have hcount : Settled id requested
      (m.updateClosure id' fun c => { c with inFlight := c.inFlight - 1 }) :=
    h.apart (.updateClosure _ _ hne) rfl
  obtain ⟨es, hw⟩ := Wraps.operating.takeTransfer
    (m.inst.updateClosure id' fun c => { c with inFlight := c.inFlight - 1 })
  have hconcluded : Settled id requested (m.concluded id') := hcount.wraps hw rfl
  cases m.endCall_ended id' result with
  | quiet _ hm => rwa [hm]
  | dropped kind _ hd =>
    have hlog : Settled id requested ((m.concluded id').log (.dropDeferred id' kind)) :=
      hconcluded.apart (.log _ (by simp) rfl) rfl
    exact hlog.drop_of_ne hd hne

/-- The end of a call that had been counted. -/
theorem endCall (h : Tracked id requested m.inst)
    (hn : (m.inst.closure id).inFlight = m.frames.countP (Frame.isCall id) + 1)
    (result : Except Fault Unit) : Settled id requested (m.endCall id result).2 := by
  have hlt : id < m.inst.closures.size := Nat.lt_of_not_le fun hle => by
    rw [(Instance.idle_of_size_le hle).1] at hn
    cases hn
  obtain ⟨es, hw⟩ := Wraps.operating.takeTransfer
    (m.inst.updateClosure id fun c => { c with inFlight := c.inFlight - 1 })
  have hconcluded : Tracked id requested (m.concluded id).inst := h.countDown.wraps hw
  have hn' : ((m.concluded id).inst.closure id).inFlight =
      (m.concluded id).frames.countP (Frame.isCall id) := by
    rw [Machine.concluded, hw.closure id (by simpa using hlt),
      Instance.closure_updateClosure_self _ hlt]
    simp [hn]
  cases m.endCall_ended id result with
  | quiet hq hm =>
    rw [hm]
    refine ⟨hconcluded, hn', fun c hc hr h0 => ?_⟩
    cases hconcluded.stage c hc with
    | held _ _ hq' => exact absurd h0 (hq (hq'.trans hr))
    | freed _ _ _ hd => exact hd
  | dropped kind hq hd =>
    have hlog : Tracked id requested ((m.concluded id).log (.dropDeferred id kind)).inst :=
      hconcluded.apart (.log _ (by simp) rfl)
    have hr := hconcluded.queued hq
    have hs := drop hlog hn' hd
    rw [hr, Bool.true_or] at hs
    rwa [hr]

/-- The checks of a call. -/
theorem checked (h : Settled id requested m) {i₁ : Instance Code} (hc : Checked id' m.inst i₁) :
    Settled id requested { m with inst := i₁ } := by
  rcases hc with rfl | ⟨hk, rfl⟩
  · exact h
  by_cases hne : id' = id
  · subst hne
    -- Only a single-use closure is changed, and such a one owes nothing.
    have hno : ∀ c, ¬ m.inst.Owes id' c := fun c hc =>
      hc.kind ((h.tracked.kind c hc).1.symm.trans hk)
    refine ⟨h.tracked.update (fun _ => ⟨rfl, rfl⟩) (fun hle => (h.tracked.unborn hle).1)
      (fun _ => h.tracked.queued) fun c hc _ => absurd hc (hno c), ?_,
      fun c hc => absurd ⟨hc.1, hc.2, hc.3⟩ (hno c)⟩
    have hcount := m.inst.inFlight_updateClosure id'
      (fun c => { c with pointer := 0, dropped := true }) fun _ => rfl
    exact hcount.trans h.inFlight
  · exact h.apart (.updateClosure _ _ hne) rfl

/-- A call of any closure. -/
theorem callClosure (h : Settled id requested m) (id' : Nat) (arguments : List Value) :
    Settled id requested (m.callClosure id' arguments).2 := by
  cases m.callClosure_calls id' arguments with
  | refused i₁ es hc hw hf =>
    exact (h.checked hc).wraps hw (by rw [hf])
  | counted i₁ i₂ es index words m₃ hc hp hq hw hi hf hm =>
    have h₂ : Settled id requested { m with inst := i₂ } := (h.checked hc).wraps hw rfl
    by_cases hne : id' = id
    · subst hne
      have hlt := Instance.lt_size_of_pointer hp
      have hfalse : ∀ c, i₂.Owes id' c → requested = false := fun c hc' => by
        refine h.tracked.not_requested hp hq c ⟨?_, hc'.2, hc'.3⟩
        have hmem := hc'.wrapped
        rw [hw.events, List.mem_append, hc.events_eq.1] at hmem
        refine hmem.resolve_right fun he => absurd (hw.wrapped id' c he).1 ?_
        rw [hc.events_eq.2]
        exact Nat.not_le_of_lt hlt
      have h₃ : Tracked id' requested m₃.inst := by
        rw [hi]
        exact (h₂.tracked.countUp hfalse).apart (.log _ (by simp) rfl)
      have hn : (m₃.inst.closure id').inFlight = m.frames.countP (Frame.isCall id') + 1 := by
        have hlt₂ : id' < i₂.closures.size := Nat.lt_of_lt_of_le (hc.events_eq.2 ▸ hlt) hw.size_le
        rw [hi, Instance.closure_log, Instance.closure_updateClosure_self _ hlt₂]
        exact congrArg (· + 1) h₂.inFlight
      rcases hm with hm | ⟨fault, hm⟩
      · rw [hm]
        refine ⟨h₃, by simp [hn, Frame.isCall], fun c hc' hr => ?_⟩
        have hc₂ : i₂.Owes id' c := ⟨by simpa [hi] using hc'.1, hc'.2, hc'.3⟩
        rw [hfalse c hc₂] at hr
        cases hr
      · rw [hm]
        exact endCall h₃ (hf ▸ hn) _
    · have h₃ : Settled id requested m₃ := by
        refine h₂.apart ?_ (by rw [hf])
        rw [hi]
        exact (Apart.updateClosure _ _ hne).trans (.log _ (by simp) rfl)
      rcases hm with hm | ⟨fault, hm⟩
      · rw [hm]
        exact h₃.apart (.refl _) (by simp [hf, Frame.isCall, hne])
      · rw [hm]
        exact h₃.endCall_of_ne hne _

/-- Running an effect that only wraps closures. -/
theorem run (h : Settled id requested m) {e : Effect Code α}
    (he : Keeps (fun i i' => ∃ es, Wraps i i' es) e) : Settled id requested (m.run e).2 := by
  obtain ⟨es, hw⟩ := he m.inst
  exact h.wraps hw rfl

/-- A body that is no call of the closure begins or ends. -/
theorem of_frames (h : Settled id requested m) {frames : List Frame}
    (hf : frames.countP (Frame.isCall id) = m.frames.countP (Frame.isCall id)) :
    Settled id requested { m with frames } :=
  h.apart (.refl _) hf

/-- Any call: it is a request when it drops the closure. -/
theorem call (h : Settled id requested m) (c : Call) :
    Settled id (requested || (Action.call c).drops id m) (m.call c).2 := by
  cases c with
  | start =>
    have hrun := h.run Wraps.entering.begin
    simp only [Machine.call, Action.drops, Bool.or_false]
    revert hrun
    generalize m.run Effect.begin = r
    rcases r with ⟨_ | _ | code, m'⟩ <;> intro hrun
    · exact hrun
    · exact hrun
    · exact hrun.of_frames (by simp [Frame.isCall])
  | indirect index signature arguments =>
    have hrun : Settled id requested (m.run (target .direct index signature arguments)).2 := by
      refine h.apart ?_ rfl
      rw [Machine.run_eq, target_inst]
      exact .log _ (by simp) rfl
    simp only [Machine.call, Action.drops, Bool.or_false]
    revert hrun
    generalize m.run _ = r
    rcases r with ⟨_ | code, m'⟩ <;> intro hrun
    · exact hrun
    · exact hrun.of_frames (by simp [Frame.isCall])
  | closure id' arguments =>
    simp only [Action.drops, Bool.or_false]
    exact h.callClosure id' arguments
  | drop id' =>
    have hd := m.drop_dropped id' none
    simp only [Machine.call, Action.drops]
    by_cases hne : id' = id
    · subst hne
      simpa using drop h.tracked h.inFlight hd
    · simpa [beq_false_of_ne hne] using h.drop_of_ne hd hne
  | capability name slot arguments =>
    have hrun := h.run (Wraps.entering.summon name arguments)
    simp only [Machine.call, Action.drops, Bool.or_false]
    revert hrun
    generalize m.run _ = r
    rcases r with ⟨_ | ⟨c, values⟩, m'⟩ <;> intro hrun
    · exact hrun
    · exact hrun.of_frames (by simp [Frame.isCall])

/-- The end of any body. -/
theorem leave (h : Settled id requested m) (completion : Completion) :
    Settled id requested (m.leave completion).2 := by
  unfold Machine.leave
  cases hm : m.frames with
  | nil => exact h
  | cons frame frames =>
    cases frame with
    | adapter id' =>
      by_cases hne : id' = id
      · subst hne
        refine endCall (m := { m with frames }) h.tracked ?_ _
        rw [h.inFlight, hm]
        simp [Frame.isCall]
      · refine endCall_of_ne (m := { m with frames }) (h.of_frames ?_) hne _
        simp [hm, Frame.isCall, hne]
    | entryPoint | direct | deallocator id' pending =>
      exact h.of_frames (by simp [hm, Frame.isCall])
    | capability fallible slot =>
      have h' : Settled id requested { m with frames } :=
        h.of_frames (by simp [hm, Frame.isCall])
      dsimp only
      split
      · exact h'
      · next v _ =>
        split
        · exact h'
        · exact h'.run (e := Effect.encode slot v) (Wraps.operating.encode _ _)

/-- One action. -/
theorem act (h : Settled id requested m) (a : Action Code) :
    Settled id (requested || a.drops id m) (m.act a) := by
  cases a with
  | perform op =>
    simp only [Action.drops, Bool.or_false]
    exact h.run (Wraps.operating.run op)
  | call c => exact h.call c
  | leave completion =>
    simp only [Action.drops, Bool.or_false]
    exact h.leave completion

/-- A run. -/
theorem runs (h : Settled id requested m) (as : List (Action Code)) :
    Settled id (requested || m.requested id as) (m.runs as) := by
  induction as generalizing m requested with
  | nil => simpa [Machine.requested] using h
  | cons a as ih => simpa [Machine.requested, Bool.or_assoc] using ih (h.act a)

/-- A fresh machine has no closures. -/
theorem boot (id : Nat) (guest : Guest Code) (config : Config) :
    Settled id false (Machine.boot guest config) where
  tracked :=
    { born := fun _ hc => by cases hc
      unborn := fun _ => ⟨rfl, rfl⟩
      queued := fun hq => by cases hq
      kind := fun _ hc => by cases hc.wrapped
      stage := fun _ hc => by cases hc.wrapped }
  inFlight := rfl
  prompt _ hc := by cases hc.wrapped

end Settled

/-! ## Deallocation -/

/-- After any run, the calls to the deallocator of a shared or exclusive closure that was wrapped
with a pointer are one, with that pointer, if its drop was requested and no call of it is running,
and none if not. The calls that are running are the bodies of its adapter.

A call is one that the guest's table is asked for, and it enters the function exactly when the table
has one at the deallocator's index (`Machine.drop_eq_entered_iff`). -/
theorem Machine.deallocations_eq (guest : Guest Code) (config : Config) (as : List (Action Code))
    (id : Nat) (c : Closure) (hw : .wrapped id c ∈ ((boot guest config).runs as).inst.events)
    (hk : c.kind ≠ .once) (hp : c.pointer ≠ 0) :
    (((boot guest config).runs as).inst.closure id).inFlight =
        ((boot guest config).runs as).frames.countP (Frame.isCall id) ∧
      ((boot guest config).runs as).inst.deallocations id =
        if (boot guest config).requested id as = true ∧
          (((boot guest config).runs as).inst.closure id).inFlight = 0
        then [(c.deallocator, [c.pointer])] else [] := by
  have h := (Settled.boot id guest config).runs as
  rw [Bool.false_or] at h
  have hc : ((boot guest config).runs as).inst.Owes id c := ⟨hw, hk, hp⟩
  refine ⟨h.inFlight, ?_⟩
  split
  · next hr =>
    have hd := h.prompt c hc hr.1 hr.2
    cases h.tracked.stage c hc with
    | held _ hd' => rw [hd] at hd'; cases hd'
    | freed _ _ _ _ hf => exact hf
  · next hr =>
    cases h.tracked.stage c hc with
    | held _ _ _ hf => exact hf
    | freed hr' hn => exact absurd ⟨hr', hn⟩ hr

/-- A closure that is dropped twice is given back once. -/
theorem Machine.deallocations_eq_dropped_twice :
    ((boot (.ofPages Unit 1 1) .standard).runs
      [.perform (.wrap .shared 1 8 2), .call (.drop 0), .call (.drop 0)]).inst.deallocations 0 =
      [(2, [8])] :=
  (deallocations_eq (.ofPages Unit 1 1) .standard
    [.perform (.wrap .shared 1 8 2), .call (.drop 0), .call (.drop 0)] 0
    { kind := .shared, adapter := 1, pointer := 8, deallocator := 2 } (.head _) (by decide)
    (by decide)).2.trans (if_pos ⟨by decide, by decide⟩)

end

end Crossing
