import Crossing.Proofs.Closure.Deallocation

/-!
# The uses of a closure

A closure is used by calls while the guest is alive and by drops. `Machine.history` lists its uses
in a run, and a run is cut at the first of them (`Machine.history_cases`).

`Machine.step_act` says once what an action can be to a closure: nothing (`Aside`), a call or a drop
of it, or the end of a body of its adapter. Whatever it is, `Evolves` holds between the instances: a
closure keeps its contract, its pointer is the one it was wrapped with or zero, and no function of
the guest is called for a closure whose pointer is zero.
-/

namespace Crossing

open Effect

section
variable {Code α : Type}

/-! ## History -/

/-- What is done with a closure. -/
inductive Use where
  | called
  | dropped
  deriving DecidableEq

/-- The use that an action makes of the closure `id`, which a machine `m` has. A call is none when
the guest has aborted. -/
def Action.use? (id : Nat) (m : Machine Code) : Action Code → Option Use
  | .call (.closure id' _) =>
    if id' = id ∧ id < m.inst.closures.size ∧ m.inst.dead = false then some .called else none
  | .call (.drop id') => if id' = id ∧ id < m.inst.closures.size then some .dropped else none
  | _ => none

namespace Machine

/-- The uses of the closure `id` in a run, oldest first. -/
def history (id : Nat) (m : Machine Code) : List (Action Code) → List Use
  | [] => []
  | a :: as => (a.use? id m).toList ++ (m.act a).history id as

/-- A drop is requested in a run if one of the uses is a drop. -/
theorem requested_iff (id : Nat) (m : Machine Code) (as : List (Action Code)) :
    m.requested id as = true ↔ .dropped ∈ m.history id as := by
  induction as generalizing m with
  | nil => simp [requested, history]
  | cons a as ih =>
    have ha : a.drops id m = true ↔ .dropped ∈ (a.use? id m).toList := by
      cases a with
      | perform op => simp [Action.drops, Action.use?]
      | leave completion => simp [Action.drops, Action.use?]
      | call c =>
        cases c with
        | drop id' =>
          by_cases h : id' = id <;> by_cases hlt : id < m.inst.closures.size <;>
            simp [Action.drops, Action.use?, h, hlt]
        | closure id' arguments =>
          simp only [Action.drops, Action.use?]
          split <;> simp
        | _ => simp [Action.drops, Action.use?]
    rw [requested, history, Bool.or_eq_true, List.mem_append, ha, ih]

/-- A run makes no use of a closure, or it is cut at the first use. -/
theorem history_cases (id : Nat) (m : Machine Code) (as : List (Action Code)) :
    m.history id as = [] ∨ ∃ before a after u, as = before ++ a :: after ∧
      m.history id before = [] ∧ a.use? id (m.runs before) = some u ∧
      m.history id as = u :: ((m.runs before).act a).history id after := by
  induction as generalizing m with
  | nil => exact .inl rfl
  | cons a as ih =>
    cases ha : a.use? id m with
    | some u => exact .inr ⟨[], a, as, u, rfl, rfl, ha, by rw [history, ha]; rfl⟩
    | none =>
      have hcons (bs : List (Action Code)) : m.history id (a :: bs) = (m.act a).history id bs := by
        rw [history, ha]
        rfl
      rcases ih (m.act a) with hnil | ⟨before, b, after, u, rfl, hb, hu, hh⟩
      · exact .inl ((hcons as).trans hnil)
      · exact .inr ⟨a :: before, b, after, u, rfl, (hcons before).trans hb, hu,
          (hcons _).trans hh⟩

end Machine

/-! ## Calls of guest functions for a closure -/

/-- Whether an event tells that the adapter or the deallocator of the closure `id` is called. -/
def Event.isInvocation (id : Nat) : Event → Bool
  | .called (.adapter id') _ _ | .called (.deallocator id') _ _ => id' == id
  | _ => false

/-- The calls of guest functions for the closure `id` so far. -/
def Instance.invocations (i : Instance Code) (id : Nat) : List Event :=
  i.events.filter (Event.isInvocation id)

/-- Whether the body is the adapter or the deallocator of the closure `id`. -/
def Frame.isOf (id : Nat) : Frame → Bool
  | .adapter id' | .deallocator id' _ => id' == id
  | _ => false

/-- An event is one call more when it tells of one. -/
theorem Instance.invocations_log (i : Instance Code) (e : Event) (id : Nat) :
    (i.log e).invocations id = i.invocations id ++ if e.isInvocation id then [e] else [] := by
  rw [invocations, events_log, List.filter_append, invocations]
  cases h : e.isInvocation id <;> simp [h]

/-! ## Steps that are nothing to a closure -/

/-- The closure `id` is the same in `i'`, unless it was wrapped since `i`, and no guest function was
called for it. -/
structure Aside (id : Nat) (i i' : Instance Code) : Prop where
  size_le : i.closures.size ≤ i'.closures.size
  closure : id < i.closures.size → i'.closure id = i.closure id
  wrapped : ∀ c, .wrapped id c ∈ i'.events → .wrapped id c ∈ i.events ∨
    i.closures.size ≤ id ∧ id < i'.closures.size ∧ i'.closure id = c ∧ c.Idle ∧ c.dropped = false
  invocations : i'.invocations id = i.invocations id

namespace Aside

variable {id id' : Nat} {i i' i'' : Instance Code} {es : List Event}

/-- Nothing is different without a step. -/
theorem refl (i : Instance Code) : Aside id i i := ⟨Nat.le_refl _, fun _ => rfl, fun _ => .inl, rfl⟩

/-- What neither of two steps does to the closure, both together do not do. -/
theorem trans (h : Aside id i i') (h' : Aside id i' i'') : Aside id i i'' where
  size_le := Nat.le_trans h.size_le h'.size_le
  closure hlt := (h'.closure (Nat.lt_of_lt_of_le hlt h.size_le)).trans (h.closure hlt)
  wrapped c hc := by
    rcases h'.wrapped c hc with hc | ⟨hle, hnew⟩
    · rcases h.wrapped c hc with hc | ⟨hle, hlt, hclosure, hfresh⟩
      · exact .inl hc
      · exact .inr ⟨hle, Nat.lt_of_lt_of_le hlt h'.size_le, (h'.closure hlt).trans hclosure, hfresh⟩
    · exact .inr ⟨Nat.le_trans h.size_le hle, hnew⟩
  invocations := h'.invocations.trans h.invocations

/-- Wrapping closures is nothing to those that there are. -/
theorem of_wraps (h : Wraps i i' es) : Aside id i i' where
  size_le := h.size_le
  closure hlt := h.closure id hlt
  wrapped c hc := by
    rw [h.events, List.mem_append] at hc
    exact hc.imp_right (h.wrapped id c)
  invocations := by
    have hnone : es.filter (Event.isInvocation id) = [] := by
      rw [List.filter_eq_nil_iff]
      intro e he
      cases e with
      | called callee index arguments => exact absurd he (h.uncalled _ _ _)
      | _ => exact Bool.false_ne_true
    rw [Instance.invocations, h.events, List.filter_append, hnone, List.append_nil]
    rfl

/-- An event that does not wrap the closure and is no call for it. -/
theorem log (i : Instance Code) {e : Event} (hw : ∀ c, e ≠ .wrapped id c)
    (he : e.isInvocation id = false) : Aside id i (i.log e) where
  size_le := Nat.le_refl _
  closure _ := rfl
  wrapped c hc := by
    rw [Instance.events_log, List.mem_append, List.mem_singleton] at hc
    exact .inl (hc.resolve_right fun h => hw c h.symm)
  invocations := by rw [i.invocations_log, he]; exact List.append_nil _

/-- A change of another closure. -/
theorem updateClosure (i : Instance Code) (f : Closure → Closure) (hne : id' ≠ id) :
    Aside id i (i.updateClosure id' f) where
  size_le := Nat.le_of_eq (i.size_updateClosure id' f).symm
  closure _ := i.closure_updateClosure_of_ne f hne
  wrapped _ := .inl
  invocations := rfl

/-- A change of a closure that does not exist is none. -/
theorem updateClosure_of_size_le (f : Closure → Closure) (h : i.closures.size ≤ id) :
    Aside id i (i.updateClosure id f) where
  size_le := Nat.le_of_eq (i.size_updateClosure id f).symm
  closure hlt := absurd hlt (Nat.not_lt_of_le h)
  wrapped _ := .inl
  invocations := rfl

/-- The drop of another closure. -/
theorem of_dropped {m m' : Machine Code} (h : m.Dropped id' m') (hne : id' ≠ id) :
    Aside id m.inst m'.inst ∧ ∀ f ∈ m'.frames, f.isOf id → f ∈ m.frames := by
  cases h with
  | queued _ hf hi => exact ⟨hi ▸ .updateClosure _ _ hne, fun f hm _ => hf ▸ hm⟩
  | again _ _ hf hi => exact ⟨hi ▸ .refl _, fun f hm _ => hf ▸ hm⟩
  | empty _ _ hf hi => exact ⟨hi ▸ .updateClosure _ _ hne, fun f hm _ => hf ▸ hm⟩
  | freed pending _ _ _ hf hi =>
    refine ⟨?_, fun f hm hof => ?_⟩
    · rw [hi]
      exact ((Aside.updateClosure _ _ hne).trans (.log _ (by simp) rfl)).trans
        (.log _ (by simp) (beq_false_of_ne hne))
    · rcases hf with hf | hf <;> rw [hf] at hm
      · exact hm
      · refine (List.mem_cons.1 hm).resolve_left ?_
        rintro rfl
        exact hne (beq_iff_eq.1 hof)

/-- Counting off a call of another closure. -/
theorem concluded (m : Machine Code) (hne : id' ≠ id) :
    Aside id m.inst (m.concluded id').inst := by
  obtain ⟨es, hw⟩ := Wraps.operating.takeTransfer
    (m.inst.updateClosure id' fun c => { c with inFlight := c.inFlight - 1 })
  exact (Aside.updateClosure _ _ hne).trans (.of_wraps hw)

/-- The end of a call of another closure. -/
theorem of_ended {m m' : Machine Code} (h : m.Ended id' m') (hne : id' ≠ id) :
    Aside id m.inst m'.inst ∧ ∀ f ∈ m'.frames, f.isOf id → f ∈ m.frames := by
  cases h with
  | quiet _ hm => exact hm ▸ ⟨.concluded m hne, fun f hm _ => hm⟩
  | dropped kind _ hd =>
    obtain ⟨ha, hf⟩ := of_dropped hd hne
    exact ⟨((Aside.concluded m hne).trans (.log _ (by simp) rfl)).trans ha, hf⟩

/-- The checks of a call of another closure. -/
theorem of_checked (h : Checked id' i i') (hne : id' ≠ id) : Aside id i i' := by
  rcases h with rfl | ⟨-, rfl⟩
  · exact .refl _
  · exact .updateClosure _ _ hne

/-- A call of another closure. -/
theorem of_calls {m m' : Machine Code} (h : m.Calls id' m') (hne : id' ≠ id) :
    Aside id m.inst m'.inst ∧ ∀ f ∈ m'.frames, f.isOf id → f ∈ m.frames := by
  cases h with
  | refused i₁ es hc hw hf =>
    exact ⟨(of_checked hc hne).trans (.of_wraps hw), fun f hm _ => hf ▸ hm⟩
  | counted i₁ i₂ es index words m₃ hc hp hq hw hi hf hm =>
    have h₃ : Aside id m.inst m₃.inst := by
      rw [hi]
      exact (((of_checked hc hne).trans (.of_wraps hw)).trans (.updateClosure _ _ hne)).trans
        (.log _ (by simp) (beq_false_of_ne hne))
    rcases hm with rfl | ⟨fault, rfl⟩
    · refine ⟨h₃, fun f hm hof => (List.mem_cons.1 hm).resolve_left ?_⟩
      rintro rfl
      exact hne (beq_iff_eq.1 hof)
    · obtain ⟨ha, hframes⟩ := of_ended (m₃.endCall_ended id' (.error fault)) hne
      exact ⟨h₃.trans ha, fun f hm hof => hf ▸ hframes f hm hof⟩

end Aside

/-! ## What an action is to a closure -/

/-- What is left of a closure when a call of it has been counted off. -/
theorem Machine.concluded_inst {id : Nat} {m : Machine Code} (h : id < m.inst.closures.size) :
    (m.concluded id).inst.closure id =
        { m.inst.closure id with inFlight := (m.inst.closure id).inFlight - 1 } ∧
      (m.concluded id).inst.invocations id = m.inst.invocations id := by
  obtain ⟨es, hw⟩ := Wraps.operating.takeTransfer
    (m.inst.updateClosure id fun c => { c with inFlight := c.inFlight - 1 })
  refine ⟨?_, (Aside.of_wraps hw).invocations⟩
  rw [concluded, hw.closure id (by simpa using h), Instance.closure_updateClosure_self _ h]

/-- What an action that leaves `m'` is to the closure `id`. -/
inductive Machine.Step (id : Nat) (m : Machine Code) (a : Action Code) : Machine Code → Prop
  | aside {m' : Machine Code} (hu : a.use? id m = none) (h : Aside id m.inst m'.inst)
      (hf : ∀ f ∈ m'.frames, f.isOf id → f ∈ m.frames) : Step id m a m'
  | called (arguments : List Value) (ha : a = .call (.closure id arguments))
      (hu : a.use? id m = some .called) : Step id m a (m.callClosure id arguments).2
  | dropped (ha : a = .call (.drop id)) (hu : a.use? id m = some .dropped) :
      Step id m a (m.drop id none).2
  | left (frames : List Frame) (completion : Completion) (ha : a = .leave completion)
      (hm : m.frames = .adapter id :: frames) :
      Step id m a (({ m with frames } : Machine Code).endCall id completion.result).2

namespace Machine.Step

variable {id : Nat} {m : Machine Code}

/-- A call of a closure. -/
theorem callClosure (id id' : Nat) (m : Machine Code) (arguments : List Value) :
    Step id m (.call (.closure id' arguments)) (m.callClosure id' arguments).2 := by
  have hcalls := m.callClosure_calls id' arguments
  by_cases hne : id' = id
  · subst hne
    by_cases hlt : id' < m.inst.closures.size
    · by_cases hdead : m.inst.dead = false
      · exact .called arguments rfl (if_pos ⟨rfl, hlt, hdead⟩)
      · rw [callClosure_of_refused (exec_authorize_of_dead (by simpa using hdead))]
        exact .aside (if_neg fun h => hdead h.2.2) (.refl _) fun f hf _ => hf
    · -- There is no such closure: its record has no pointer, and the call is refused.
      have hclosure := Instance.closure_of_size_le (Nat.le_of_not_lt hlt)
      refine .aside (if_neg fun h => hlt h.2.1) ?_ ?_ <;> cases hcalls with
      | counted i₁ i₂ es index words m₃ hc hp => rw [hclosure] at hp; exact absurd rfl hp
      | refused i₁ es hc hw hf => ?_
      · rcases hc with rfl | ⟨hk, -⟩
        · exact .of_wraps hw
        · rw [hclosure] at hk
          cases hk
      · exact fun f hm _ => hf ▸ hm
  · obtain ⟨h, hf⟩ := Aside.of_calls hcalls hne
    exact .aside (if_neg fun h => hne h.1) h hf

/-- A drop of a closure. -/
theorem drop (id id' : Nat) (m : Machine Code) :
    Step id m (.call (.drop id')) (m.drop id' none).2 := by
  have hdropped := m.drop_dropped id' none
  by_cases hne : id' = id
  · subst hne
    by_cases hlt : id' < m.inst.closures.size
    · exact .dropped rfl (if_pos ⟨rfl, hlt⟩)
    · -- There is no such closure: its record is neither in use nor dropped, and has no pointer.
      have hle := Nat.le_of_not_lt hlt
      have hclosure := Instance.closure_of_size_le hle
      refine .aside (if_neg fun h => hlt h.2) ?_ ?_ <;> cases hdropped with
      | queued hn => rw [hclosure] at hn; exact absurd rfl hn
      | again hn hd => rw [hclosure] at hd; cases hd
      | freed pending hn hp => rw [hclosure] at hp; exact absurd rfl hp
      | empty hn hp hf hi => ?_
      · exact hi ▸ .updateClosure_of_size_le _ hle
      · exact fun f hm _ => hf ▸ hm
  · obtain ⟨h, hf⟩ := Aside.of_dropped hdropped hne
    exact .aside (if_neg fun h => hne h.1) h hf

/-- Running an effect that is nothing to the closure, and what is on top of the stack then. -/
theorem run {a : Action Code} (hu : a.use? id m = none) {m₁ m' : Machine Code}
    (h : Aside id m.inst m₁.inst) (hm : m₁.frames = m.frames)
    (hm' : m' = m₁ ∨ ∃ f, f.isOf id = false ∧ m' = { m₁ with frames := f :: m₁.frames }) :
    Step id m a m' := by
  rcases hm' with rfl | ⟨f, hof, rfl⟩
  · exact .aside hu h fun f hf _ => hm ▸ hf
  · refine .aside hu h fun f' hf hof' => ?_
    rw [hm] at hf
    refine (List.mem_cons.1 hf).resolve_left ?_
    rintro rfl
    rw [hof] at hof'
    cases hof'

/-- Any call. -/
theorem call (id : Nat) (m : Machine Code) (c : Call) : Step id m (.call c) (m.call c).2 := by
  cases c with
  | start =>
    obtain ⟨es, hw⟩ := Wraps.entering.begin m.inst
    have hrun : Aside id m.inst (m.run begin).2.inst ∧ (m.run begin).2.frames = m.frames :=
      ⟨.of_wraps hw, rfl⟩
    simp only [Machine.call]
    revert hrun
    generalize m.run begin = r
    rcases r with ⟨_ | _ | code, m'⟩ <;> rintro ⟨h, hm⟩
    · exact run rfl h hm (.inl rfl)
    · exact run rfl h hm (.inl rfl)
    · exact run rfl h hm (.inr ⟨.entryPoint, rfl, rfl⟩)
  | indirect index signature arguments =>
    have hrun : Aside id m.inst (m.run (target .direct index signature arguments)).2.inst ∧
        (m.run (target .direct index signature arguments)).2.frames = m.frames := by
      refine ⟨?_, rfl⟩
      rw [run_eq, target_inst]
      exact .log _ (by simp) rfl
    simp only [Machine.call]
    revert hrun
    generalize m.run (target .direct index signature arguments) = r
    rcases r with ⟨_ | code, m'⟩ <;> rintro ⟨h, hm⟩
    · exact run rfl h hm (.inl rfl)
    · exact run rfl h hm (.inr ⟨.direct, rfl, rfl⟩)
  | closure id' arguments => exact callClosure id id' m arguments
  | drop id' => exact drop id id' m
  | capability name slot arguments =>
    obtain ⟨es, hw⟩ := Wraps.entering.summon name arguments m.inst
    have hrun : Aside id m.inst (m.run (summon name arguments)).2.inst ∧
        (m.run (summon name arguments)).2.frames = m.frames := ⟨.of_wraps hw, rfl⟩
    simp only [Machine.call]
    revert hrun
    generalize m.run (summon name arguments) = r
    rcases r with ⟨_ | ⟨c, values⟩, m'⟩ <;> rintro ⟨h, hm⟩
    · exact run rfl h hm (.inl rfl)
    · exact run rfl h hm (.inr ⟨.capability c.fallible slot, rfl, rfl⟩)

/-- The end of any body. -/
theorem leave (id : Nat) (m : Machine Code) (completion : Completion) :
    Step id m (.leave completion) (m.leave completion).2 := by
  unfold Machine.leave
  cases hm : m.frames with
  | nil => exact .aside rfl (.refl _) fun f hf _ => hf
  | cons frame frames =>
    have hpop : ∀ f ∈ frames, f.isOf id → f ∈ m.frames := fun f hf _ => hm ▸ .tail _ hf
    cases frame with
    | adapter id' =>
      by_cases hne : id' = id
      · subst hne
        exact .left frames completion rfl hm
      · obtain ⟨h, hf⟩ := Aside.of_ended
          (({ m with frames } : Machine Code).endCall_ended id' completion.result) hne
        exact .aside rfl h fun f hmem hof => hpop f (hf f hmem hof) hof
    | entryPoint | direct | deallocator id' pending => exact .aside rfl (.refl _) hpop
    | capability fallible slot =>
      dsimp only
      split
      · exact .aside rfl (.refl _) hpop
      · next v _ =>
        split
        · exact .aside rfl (.refl _) hpop
        · obtain ⟨es, hw⟩ := Wraps.operating.encode slot v m.inst
          exact .aside rfl (.of_wraps hw) hpop

/-- Any action. -/
theorem act (id : Nat) (m : Machine Code) (a : Action Code) : Step id m a (m.act a) := by
  cases a with
  | perform op =>
    obtain ⟨es, hw⟩ := Wraps.operating.run op m.inst
    exact .aside rfl (.of_wraps hw) fun f hf _ => hf
  | call c => exact call id m c
  | leave completion => exact leave id m completion

end Machine.Step

/-! ## How a closure evolves -/

/-- The record `k'` is that of the same closure, with its pointer or without. -/
structure Closure.Descends (k k' : Closure) : Prop where
  kind : k'.kind = k.kind
  adapter : k'.adapter = k.adapter
  deallocator : k'.deallocator = k.deallocator
  pointer : k'.pointer = k.pointer ∨ k'.pointer = 0

namespace Closure.Descends

variable {k k' k'' : Closure}

/-- A record is that of the same closure as itself. -/
theorem refl (k : Closure) : k.Descends k := ⟨rfl, rfl, rfl, .inl rfl⟩

/-- Records of the same closure are so in a row as well. -/
theorem trans (h : k.Descends k') (h' : k'.Descends k'') : k.Descends k'' where
  kind := h'.kind.trans h.kind
  adapter := h'.adapter.trans h.adapter
  deallocator := h'.deallocator.trans h.deallocator
  pointer := by
    rcases h'.pointer with hp | hp
    · rw [hp]
      exact h.pointer
    · exact .inr hp

/-- A pointer that is gone does not come back. -/
theorem pointer_eq_zero (h : k.Descends k') (hp : k.pointer = 0) : k'.pointer = 0 := by
  rcases h.pointer with hk | hk
  · rw [hk, hp]
  · exact hk

end Closure.Descends

/-- From `i` to `i'` the closure `id` keeps its contract, and nothing is called for it when it has
no pointer. -/
structure Evolves (id : Nat) (i i' : Instance Code) : Prop where
  size_le : i.closures.size ≤ i'.closures.size
  wrapped : ∀ c, .wrapped id c ∈ i'.events → .wrapped id c ∈ i.events ∨
    i.closures.size ≤ id ∧ id < i'.closures.size ∧ c.Descends (i'.closure id)
  descends : id < i.closures.size → (i.closure id).Descends (i'.closure id)
  spent : id < i.closures.size → (i.closure id).pointer = 0 →
    i'.invocations id = i.invocations id

namespace Evolves

variable {id : Nat} {i i' i'' : Instance Code} {m m' : Machine Code}

/-- Without a step the closure keeps its contract. -/
theorem refl (i : Instance Code) : Evolves id i i where
  size_le := Nat.le_refl _
  wrapped _ := .inl
  descends _ := .refl _
  spent _ _ := rfl

/-- What two steps keep, both together keep. -/
theorem trans (h : Evolves id i i') (h' : Evolves id i' i'') : Evolves id i i'' where
  size_le := Nat.le_trans h.size_le h'.size_le
  wrapped c hc := by
    rcases h'.wrapped c hc with hc | ⟨hle, hnew⟩
    · rcases h.wrapped c hc with hc | ⟨hle, hlt, hd⟩
      · exact .inl hc
      · exact .inr ⟨hle, Nat.lt_of_lt_of_le hlt h'.size_le, hd.trans (h'.descends hlt)⟩
    · exact .inr ⟨Nat.le_trans h.size_le hle, hnew⟩
  descends hlt := (h.descends hlt).trans (h'.descends (Nat.lt_of_lt_of_le hlt h.size_le))
  spent hlt hp := by
    rw [h'.spent (Nat.lt_of_lt_of_le hlt h.size_le) ((h.descends hlt).pointer_eq_zero hp),
      h.spent hlt hp]

/-- A closure that is not touched keeps its contract. -/
theorem aside (h : Aside id i i') : Evolves id i i' where
  size_le := h.size_le
  wrapped c hc := by
    rcases h.wrapped c hc with hc | ⟨hle, hlt, hclosure, -⟩
    · exact .inl hc
    · exact .inr ⟨hle, hlt, hclosure ▸ .refl _⟩
  descends hlt := by rw [h.closure hlt]; exact .refl _
  spent _ _ := h.invocations

/-- An update that gives the closure no new contract and no new pointer keeps the contract. -/
theorem updateClosure (i : Instance Code) (f : Closure → Closure)
    (hf : ∀ k : Closure, k.Descends (f k)) : Evolves id i (i.updateClosure id f) where
  size_le := Nat.le_of_eq (i.size_updateClosure id f).symm
  wrapped _ := .inl
  descends hlt := by
    rw [i.closure_updateClosure_self f hlt]
    exact hf _
  spent _ _ := rfl

/-- An event of a closure that had its pointer. -/
theorem log (h : Evolves id i i') (hp : (i.closure id).pointer ≠ 0) (callee : Callee)
    (index : UInt32) (words : List UInt32) :
    Evolves id i (i'.log (.called callee index words)) where
  size_le := h.size_le
  wrapped c hc := by
    rw [Instance.events_log, List.mem_append, List.mem_singleton] at hc
    exact h.wrapped c (hc.resolve_right (by simp))
  descends := h.descends
  spent _ hz := absurd hz hp

/-- A drop keeps the contract of every closure. -/
theorem of_dropped (h : m.Dropped id m') : Evolves id m.inst m'.inst := by
  have hempty : Evolves id m.inst (m.emptied id) :=
    updateClosure _ _ fun k => ⟨rfl, rfl, rfl, .inr rfl⟩
  cases h with
  | queued _ _ hi => exact hi ▸ updateClosure _ _ fun k => ⟨rfl, rfl, rfl, .inl rfl⟩
  | again _ _ _ hi => exact hi ▸ refl _
  | empty _ _ _ hi => exact hi ▸ hempty
  | freed pending _ hp _ _ hi =>
    rw [hi]
    exact (hempty.trans (aside (.log _ (by simp) rfl))).log hp _ _ _

/-- Counting a call off keeps it. -/
theorem concluded (m : Machine Code) (id : Nat) : Evolves id m.inst (m.concluded id).inst := by
  obtain ⟨es, hw⟩ := Wraps.operating.takeTransfer
    (m.inst.updateClosure id fun c => { c with inFlight := c.inFlight - 1 })
  have hcount : Evolves id m.inst
      (m.inst.updateClosure id fun c => { c with inFlight := c.inFlight - 1 }) :=
    updateClosure _ _ fun k => ⟨rfl, rfl, rfl, .inl rfl⟩
  exact hcount.trans (aside (.of_wraps hw))

/-- The end of a call keeps it. -/
theorem of_ended (h : m.Ended id m') : Evolves id m.inst m'.inst := by
  cases h with
  | quiet _ hm => exact hm ▸ concluded m id
  | dropped kind _ hd =>
    exact ((concluded m id).trans (aside (.log _ (by simp) rfl))).trans (of_dropped hd)

/-- The checks of a call keep it. -/
theorem of_checked (h : Checked id i i') : Evolves id i i' := by
  rcases h with rfl | ⟨-, rfl⟩
  · exact refl _
  · exact updateClosure _ _ fun k => ⟨rfl, rfl, rfl, .inr rfl⟩

/-- A call keeps it. -/
theorem of_calls (h : m.Calls id m') : Evolves id m.inst m'.inst := by
  cases h with
  | refused i₁ es hc hw hf => exact (of_checked hc).trans (aside (.of_wraps hw))
  | counted i₁ i₂ es index words m₃ hc hp hq hw hi hf hm =>
    have h₂ := (of_checked hc).trans (aside (.of_wraps hw))
    have hcount : Evolves id i₂
        (i₂.updateClosure id fun c => { c with inFlight := c.inFlight + 1 }) :=
      updateClosure _ _ fun k => ⟨rfl, rfl, rfl, .inl rfl⟩
    have h₃ : Evolves id m.inst m₃.inst := by
      rw [hi]
      exact (h₂.trans hcount).log hp _ _ _
    rcases hm with rfl | ⟨fault, rfl⟩
    · exact h₃
    · exact h₃.trans (of_ended (m₃.endCall_ended id _))

/-- Every action keeps it. -/
theorem act (id : Nat) (m : Machine Code) (a : Action Code) :
    Evolves id m.inst (m.act a).inst := by
  have hstep := Machine.Step.act id m a
  generalize m.act a = m' at *
  cases hstep with
  | aside _ h => exact aside h
  | called arguments => exact of_calls (m.callClosure_calls id arguments)
  | dropped => exact of_dropped (m.drop_dropped id none)
  | left frames completion =>
    exact of_ended (m := { m with frames }) (Machine.endCall_ended _ id completion.result)

/-- So does every run. -/
theorem runs (id : Nat) (m : Machine Code) (as : List (Action Code)) :
    Evolves id m.inst (m.runs as).inst := by
  induction as generalizing m with
  | nil => exact refl _
  | cons a as ih => exact (act id m a).trans (ih (m.act a))

end Evolves

end

end Crossing
