import Crossing.Proofs.Closure.Uses
import Crossing.Proofs.Codec.Faults

/-!
# Single-use closures

A single-use closure is used up by its first use, whatever comes of it: a call forgets the pointer
before the arguments are encoded, so also a call that fails there leaves nothing to call or to give
back. Before the first use nothing is called for the closure (`Machine.Untouched`), the first use
calls at most one guest function for it, with its pointer (`Machine.FirstUse`), and after it nothing
is called for it any more (`Evolves`).
-/

namespace Crossing

open Effect

section
variable {Code : Type} {id : Nat} {c : Closure} {m : Machine Code}

/-! ## Before the first use -/

/-- The closure `id` is as it was wrapped, and nothing was called for it. -/
structure Machine.Untouched (id : Nat) (m : Machine Code) : Prop where
  born : ∀ c, .wrapped id c ∈ m.inst.events →
    id < m.inst.closures.size ∧ m.inst.closure id = c ∧ c.Idle ∧ c.dropped = false
  quiet : m.inst.invocations id = []
  frames : ∀ f ∈ m.frames, f.isOf id = false

namespace Machine.Untouched

/-- On a fresh machine no closure is wrapped yet. -/
theorem boot (id : Nat) (guest : Guest Code) (config : Config) :
    Untouched id (Machine.boot guest config) where
  born _ hc := by cases hc
  quiet := rfl
  frames := by simp [Machine.boot]

/-- An action that is no use of the closure leaves it as it was. -/
theorem act (h : Untouched id m) {a : Action Code} (hu : a.use? id m = none) :
    Untouched id (m.act a) := by
  have hstep := Step.act id m a
  generalize m.act a = m' at *
  cases hstep with
  | aside _ ha hf =>
    refine ⟨fun c hc => ?_, ha.invocations.trans h.quiet, fun f hmem => ?_⟩
    · rcases ha.wrapped c hc with hc | ⟨-, hnew⟩
      · obtain ⟨hlt, hclosure, hfresh⟩ := h.born c hc
        exact ⟨Nat.lt_of_lt_of_le hlt ha.size_le, (ha.closure hlt).trans hclosure, hfresh⟩
      · exact hnew
    · cases hof : f.isOf id with
      | false => rfl
      | true => rw [← hof, h.frames f (hf f hmem hof)]
  | called arguments _ hu' => rw [hu] at hu'; cases hu'
  | dropped _ hu' => rw [hu] at hu'; cases hu'
  | left frames completion _ hm =>
    have hframe := h.frames (.adapter id) (hm ▸ .head _)
    simp [Frame.isOf] at hframe

/-- A run without uses of the closure leaves it as it was. -/
theorem runs (h : Untouched id m) {as : List (Action Code)} (hnil : m.history id as = []) :
    Untouched id (m.runs as) := by
  induction as generalizing m with
  | nil => exact h
  | cons a as ih =>
    rw [history, List.append_eq_nil_iff] at hnil
    exact ih (h.act (by simpa using hnil.1)) hnil.2

end Machine.Untouched

/-! ## The first use -/

/-- The closure `id` has no pointer, or has it no more. -/
structure Instance.Spent (i : Instance Code) (id : Nat) : Prop where
  lt : id < i.closures.size
  pointer : (i.closure id).pointer = 0

/-- A closure that is spent stays spent. -/
theorem Instance.Spent.evolves {i i' : Instance Code} (h : i.Spent id) (he : Evolves id i i') :
    i'.Spent id :=
  ⟨Nat.lt_of_lt_of_le h.lt he.size_le, (he.descends h.lt).pointer_eq_zero h.pointer⟩

/-- A guest function that is called with the pointer of the closure `id`, which was wrapped as `c`:
what is on the stack while it runs, what the journal tells of the call, and the words it is called
with. A call goes to the adapter, a drop to the deallocator. -/
inductive Hands (id : Nat) (c : Closure) : Use → Frame → Event → List UInt32 → Prop
  | adapter (slot : UInt32) : Hands id c .called (.adapter id)
      (.called (.adapter id) c.adapter [c.pointer, slot]) [c.pointer, slot]
  | deallocator : Hands id c .dropped (.deallocator id none)
      (.called (.deallocator id) c.deallocator [c.pointer]) [c.pointer]

/-- The index of the guest function that a use of the closure goes to. -/
def Closure.target (c : Closure) : Use → UInt32
  | .called => c.adapter
  | .dropped => c.deallocator

/-- Why a use of the closure, which was wrapped as `c`, enters no guest function: the arguments of a
call cannot be encoded, or there is no function at the index that the use goes to. -/
inductive Thwarts (c : Closure) (i : Instance Code) : Use → Fault → Prop
  | unstaged {x : Fault} (hx : x.isStaging) : Thwarts c i .called x
  | missing (u : Use)
      (hnone : ∀ code, i.guest.functions[(c.target u).toNat]? ≠ some (some code)) :
      Thwarts c i u (.unknownFunction (c.target u))

/-- What comes of the first use of a closure: a guest function is entered with its pointer, or the
use is answered with the fault that keeps it from entering one, before anything was called or when
there is no such function. -/
inductive Machine.FirstUse (id : Nat) (c : Closure) (u : Use) (m : Machine Code) :
    Reply Code × Machine Code → Prop
  | entered {code : Code} {frame : Frame} {e : Event} {words : List UInt32} {m' : Machine Code}
      (hh : Hands id c u frame e words) (hf : m'.frames = frame :: m.frames)
      (hi : m'.inst.invocations id = [e]) : FirstUse id c u m (.entered code words [], m')
  | refused {x : Fault} {m' : Machine Code} (hu : u = .called) (hx : Thwarts c m.inst u x)
      (hi : m'.inst.invocations id = []) : FirstUse id c u m (.answered (.error x), m')
  | missed {x : Fault} {frame : Frame} {e : Event} {words : List UInt32} {m' : Machine Code}
      (hh : Hands id c u frame e words) (hx : Thwarts c m.inst u x)
      (hi : m'.inst.invocations id = [e]) :
      FirstUse id c u m (.answered (.error x), m')

/-- Encoding arguments leaves the guest's functions as they were. -/
theorem Effect.functions_marshal (arguments : List Value) (i : Instance Code) :
    (exec (marshal arguments) i).2.guest.functions = i.guest.functions := by
  have hallocating : Allocating fun i i' : Instance Code =>
      i'.guest.functions = i.guest.functions :=
    { refl := fun _ => rfl
      trans := fun h h' => h'.trans h
      modify := fun _ hf i => (hf i).1.functions
      record := fun _ _ _ => rfl }
  have hencoding : Encoding fun i i' : Instance Code =>
      i'.guest.functions = i.guest.functions :=
    { hallocating.writing with
      acquire := hallocating.toSteady.acquire (fun _ _ => rfl) (fun _ _ _ => rfl) fun _ _ _ => rfl
      registerRaw := hallocating.toSteady.registerRaw fun _ _ => rfl }
  exact hencoding.marshal arguments i

namespace Machine.Untouched

/-- The encoding of the arguments keeps the record whose pointer was taken out, and invokes nothing
for it. -/
theorem marshal_emptied (h : Untouched id m) (hlt : id < m.inst.closures.size)
    {arguments : List Value} {r : Except Fault UInt32} {i : Instance Code}
    (hmarshal : exec (marshal arguments) (m.emptied id) = (r, i)) :
    id < i.closures.size ∧
      i.closure id = { m.inst.closure id with dropped := true, pointer := 0 } ∧
      i.invocations id = [] ∧ i.guest.functions = m.inst.guest.functions := by
  have hlt₁ : id < (m.emptied id).closures.size := by simpa [emptied] using hlt
  obtain ⟨es, hw⟩ := Wraps.entering.marshal arguments (m.emptied id)
  have hfunctions := functions_marshal arguments (m.emptied id)
  rw [hmarshal] at hw hfunctions
  refine ⟨Nat.lt_of_lt_of_le hlt₁ hw.size_le, (hw.closure id hlt₁).trans ?_,
    (Aside.of_wraps hw).invocations.trans h.quiet, hfunctions⟩
  rw [emptied, Instance.closure_updateClosure_self _ hlt]

/-- The first call of a single-use closure uses it up. -/
theorem callClosure (h : Untouched id m) (hw : .wrapped id c ∈ m.inst.events) (hk : c.kind = .once)
    (hp : c.pointer ≠ 0) (hdead : m.inst.dead = false) (arguments : List Value) :
    FirstUse id c .called m (m.callClosure id arguments) ∧
      (m.callClosure id arguments).2.inst.Spent id := by
  obtain ⟨hlt, hclosure, ⟨hflight, hqueued⟩, -⟩ := h.born c hw
  have hlive : (m.inst.closure id).checkLive = .ok () := by
    simp [hclosure, Closure.checkLive, hp, hqueued]
  -- The checks take the pointer out of the record before anything is encoded.
  have hauthorize : exec (authorize id) m.inst = (.ok c.pointer, m.emptied id) := by
    rw [exec_authorize hdead hlive, hclosure, hk, Closure.checkExclusive, if_pos hflight]
    rfl
  have hstages := stages_marshal arguments (m.emptied id)
  rcases hmarshal : exec (marshal arguments) (m.emptied id) with ⟨fault | slot, i⟩ <;>
    rw [hmarshal] at hstages <;>
    obtain ⟨hlt', hrecord, hquiet, hfunctions⟩ := h.marshal_emptied hlt hmarshal <;>
    rw [hclosure] at hrecord
  · rw [callClosure_of_unstaged hauthorize hmarshal]
    exact ⟨.refused rfl (.unstaged (hstages fault rfl)) hquiet,
      ⟨hlt', congrArg Closure.pointer hrecord⟩⟩
  have hcalled : (i.called id).closure id =
      { c with dropped := true, pointer := 0, inFlight := c.inFlight + 1 } := by
    rw [Instance.called, Instance.closure_updateClosure_self _ hlt', hrecord]
  have hspent : (i.called id).Spent id :=
    ⟨by simpa [Instance.called] using hlt', congrArg Closure.pointer hcalled⟩
  have hinvoked : ((i.called id).log
      (.called (.adapter id) c.adapter [c.pointer, slot])).invocations id =
        [.called (.adapter id) c.adapter [c.pointer, slot]] := by
    rw [Instance.invocations_log]
    show i.invocations id ++ _ = _
    simp [hquiet, Event.isInvocation]
  rw [callClosure_of_staged hauthorize hmarshal, hcalled]
  dsimp only
  split
  · exact ⟨.entered (.adapter slot) rfl hinvoked, ⟨hspent.lt, hspent.pointer⟩⟩
  -- There is no such adapter: the call ends at once, and no drop has waited for it.
  next fault hfault =>
  have hthwarts : Thwarts c m.inst .called fault := by
    obtain ⟨rfl, hnone⟩ := (target_eq_error_iff rfl).1 hfault
    refine .missing .called fun code hcode => hnone code ?_
    show i.guest.functions[c.adapter.toNat]? = _
    rw [hfunctions]
    exact hcode
  generalize hm₃ : ({ m with inst := _ } : Machine Code) = m₃
  have hspent₃ : m₃.inst.Spent id := hm₃ ▸ ⟨hspent.lt, hspent.pointer⟩
  obtain ⟨hclosure₃, hinvocations₃⟩ := concluded_inst hspent₃.lt
  have hnone : (m₃.inst.closure id).dropQueued = false := by
    rw [← hm₃]
    exact (congrArg Closure.dropQueued hcalled).trans hqueued
  refine ⟨?_, hspent₃.evolves (.of_ended (m₃.endCall_ended id _))⟩
  rw [endCall_eq, hclosure₃, hnone]
  refine .missed (.adapter slot) hthwarts (hinvocations₃.trans ?_)
  rw [← hm₃]
  exact hinvoked

/-- The first drop of a closure with a pointer gives it back. -/
theorem drop (h : Untouched id m) (hw : .wrapped id c ∈ m.inst.events) (hp : c.pointer ≠ 0) :
    FirstUse id c .dropped m (m.drop id none) ∧ (m.drop id none).2.inst.Spent id := by
  obtain ⟨hlt, hclosure, ⟨hflight, hqueued⟩, hdropped⟩ := h.born c hw
  have hspent : (m.emptied id).Spent id :=
    ⟨by simpa [emptied] using hlt,
      by rw [emptied, Instance.closure_updateClosure_self _ hlt]⟩
  have hinvoked : (((m.emptied id).log (.dropping id c.kind c.pointer)).log
      (.called (.deallocator id) c.deallocator [c.pointer])).invocations id =
        [.called (.deallocator id) c.deallocator [c.pointer]] := by
    rw [Instance.invocations_log, Instance.invocations_log]
    show (m.inst.invocations id ++ _) ++ _ = _
    simp [h.quiet, Event.isInvocation]
  unfold Machine.drop
  rw [hclosure]
  dsimp only
  rw [if_neg (not_not_intro hflight), hdropped, if_neg Bool.false_ne_true, if_neg hp, run_eq,
    exec_bind_of_ok (exec_record _ _), target_inst]
  cases htarget : (exec (target _ _ _ _) _).1 with
  | ok code => exact ⟨.entered .deallocator rfl hinvoked, ⟨hspent.lt, hspent.pointer⟩⟩
  | error fault =>
    obtain ⟨rfl, hnone⟩ := (target_eq_error_iff rfl).1 htarget
    exact ⟨.missed .deallocator (.missing .dropped hnone) hinvoked, ⟨hspent.lt, hspent.pointer⟩⟩

end Machine.Untouched

/-! ## Runs -/

/-- An action that uses the closure `id` calls it or drops it. -/
theorem Action.of_use? {a : Action Code} {u : Use} (h : a.use? id m = some u) :
    id < m.inst.closures.size ∧
      ((∃ arguments, a = .call (.closure id arguments) ∧ m.inst.dead = false ∧ u = .called) ∨
        a = .call (.drop id) ∧ u = .dropped) := by
  cases a with
  | perform op => cases h
  | leave completion => cases h
  | call c =>
    cases c with
    | closure id' arguments =>
      simp only [Action.use?, Option.ite_none_right_eq_some, Option.some.injEq] at h
      obtain ⟨⟨rfl, hlt, hdead⟩, rfl⟩ := h
      exact ⟨hlt, .inl ⟨arguments, rfl, hdead, rfl⟩⟩
    | drop id' =>
      simp only [Action.use?, Option.ite_none_right_eq_some, Option.some.injEq] at h
      obtain ⟨⟨rfl, hlt⟩, rfl⟩ := h
      exact ⟨hlt, .inr ⟨rfl, rfl⟩⟩
    | start => cases h
    | indirect => cases h
    | capability => cases h

namespace Machine

/-- A closure that has been used was wrapped before that. -/
theorem wrapped_of_lt {as bs : List (Action Code)} (h : id < (m.runs as).inst.closures.size)
    (hw : .wrapped id c ∈ (m.runs (as ++ bs)).inst.events) :
    .wrapped id c ∈ (m.runs as).inst.events := by
  rw [runs_append] at hw
  exact ((Evolves.runs id (m.runs as) bs).wrapped c hw).resolve_right fun hnew =>
    Nat.not_lt_of_le hnew.1 h

/-- A closure that a run uses is wrapped in the course of it. -/
theorem lt_of_history {as : List (Action Code)} (h : m.history id as ≠ []) :
    id < (m.runs as).inst.closures.size := by
  rcases history_cases id m as with hnil | ⟨before, a, after, u, rfl, -, hu, -⟩
  · exact absurd hnil h
  · rw [runs_append]
    exact Nat.lt_of_lt_of_le (Action.of_use? hu).1
      (Evolves.runs id (m.runs before) (a :: after)).size_le

/-- The run `as` of a fresh machine uses up the single-use closure `id`, which was wrapped as `c`,
with `call`, the use `u` that comes first. -/
structure UsedUp (id : Nat) (c : Closure) (m : Machine Code) (as before : List (Action Code))
    (call : Call) (after : List (Action Code)) (u : Use) : Prop where
  split : as = before ++ .call call :: after
  unused : m.history id before = []
  use : (Action.call call).use? id (m.runs before) = some u
  head : (m.history id as).head? = some u
  first : FirstUse id c u (m.runs before) ((m.runs before).call call)
  spent : (m.runs as).inst.Spent id
  invocations : (m.runs as).inst.invocations id =
    ((m.runs before).call call).2.inst.invocations id

/-- A single-use closure with a pointer is as it was wrapped, or its first use has used it up. -/
theorem once_cases (h : Untouched id m) {as : List (Action Code)}
    (hw : .wrapped id c ∈ (m.runs as).inst.events) (hk : c.kind = .once) (hp : c.pointer ≠ 0) :
    m.history id as = [] ∧ Untouched id (m.runs as) ∨
      ∃ before call after u, UsedUp id c m as before call after u := by
  rcases history_cases id m as with hnil | ⟨before, a, after, u, rfl, hnil, hu, hhistory⟩
  · exact .inl ⟨hnil, h.runs hnil⟩
  right
  have hbefore := h.runs hnil
  obtain ⟨hlt, huse⟩ := Action.of_use? hu
  have hw' := wrapped_of_lt hlt hw
  have hfirst : ∃ call, a = .call call ∧
      FirstUse id c u (m.runs before) ((m.runs before).call call) ∧
      ((m.runs before).call call).2.inst.Spent id := by
    rcases huse with ⟨arguments, rfl, hdead, rfl⟩ | ⟨rfl, rfl⟩
    · exact ⟨_, rfl, hbefore.callClosure hw' hk hp hdead arguments⟩
    · exact ⟨_, rfl, hbefore.drop hw' hp⟩
  obtain ⟨call, rfl, hfirst, hspent⟩ := hfirst
  have hruns : m.runs (before ++ .call call :: after) =
      ((m.runs before).call call).2.runs after := by
    rw [runs_append]
    rfl
  have hafter := Evolves.runs id ((m.runs before).call call).2 after
  exact ⟨before, call, after, u,
    { split := rfl
      unused := hnil
      use := hu
      head := by rw [hhistory]; rfl
      first := hfirst
      spent := by rw [hruns]; exact hspent.evolves hafter
      invocations := by rw [hruns]; exact hafter.spent hspent.lt hspent.pointer }⟩

/-- One guest function at most is called in the first use, and it is the one for that use. -/
theorem FirstUse.invocations_cases {u : Use} {r : Reply Code × Machine Code}
    (h : FirstUse id c u m r) :
    u = .called ∧ r.2.inst.invocations id = [] ∨
      ∃ frame e words, Hands id c u frame e words ∧ r.2.inst.invocations id = [e] := by
  cases h with
  | entered hh _ hi => exact .inr ⟨_, _, _, hh, hi⟩
  | refused hu _ hi => exact .inl ⟨hu, hi⟩
  | missed hh _ hi => exact .inr ⟨_, _, _, hh, hi⟩

/-! ## At most one call -/

/-- The closure's record has no pointer any more when it has been used. -/
theorem spent_of_history (guest : Guest Code) (config : Config) {as : List (Action Code)}
    (hw : .wrapped id c ∈ ((boot guest config).runs as).inst.events) (hk : c.kind = .once)
    (hp : c.pointer ≠ 0) (hne : (boot guest config).history id as ≠ []) :
    ((boot guest config).runs as).inst.Spent id := by
  rcases once_cases (.boot id guest config) hw hk hp with ⟨hnil, -⟩ | ⟨_, _, _, _, hused⟩
  · exact absurd hnil hne
  · exact hused.spent

/-- For a single-use closure that was wrapped with a pointer, one guest function is called at most.
When the first use is a call, the deallocator is never called; when it is a drop, the deallocator
is called, with the pointer, and the adapter never is. From a call on nothing more is called.

What is called is looked up in the guest's table, and its function is entered exactly when the table
has one at that index (`Effect.target_eq_ok_iff`). -/
theorem consumed_once (guest : Guest Code) (config : Config) (as : List (Action Code)) (id : Nat)
    (c : Closure) (hw : .wrapped id c ∈ ((boot guest config).runs as).inst.events)
    (hk : c.kind = .once) (hp : c.pointer ≠ 0) :
    (((boot guest config).runs as).inst.invocations id).length ≤ 1 ∧
      (((boot guest config).history id as).head? = some .called → ∀ index words,
        .called (.deallocator id) index words ∉ ((boot guest config).runs as).inst.events) ∧
      (((boot guest config).history id as).head? = some .dropped →
        ((boot guest config).runs as).inst.invocations id =
          [.called (.deallocator id) c.deallocator [c.pointer]]) ∧
      ∀ before after, as = before ++ after → .called ∈ (boot guest config).history id before →
        ((boot guest config).runs as).inst.invocations id =
          ((boot guest config).runs before).inst.invocations id := by
  have hmem : ∀ index words,
      .called (.deallocator id) index words ∈ ((boot guest config).runs as).inst.events →
      .called (.deallocator id) index words ∈ ((boot guest config).runs as).inst.invocations id :=
    fun index words he => List.mem_filter.2 ⟨he, beq_self_eq_true id⟩
  refine ⟨?_, fun hhead index words he => ?_, fun hhead => ?_, fun before after has hcalled => ?_⟩
  · rcases once_cases (.boot id guest config) hw hk hp with ⟨-, hm⟩ | ⟨_, _, _, _, hused⟩
    · rw [hm.quiet]
      exact Nat.zero_le 1
    · rw [hused.invocations]
      rcases hused.first.invocations_cases with ⟨-, hi⟩ | ⟨_, _, _, -, hi⟩ <;> rw [hi]
      · exact Nat.zero_le 1
      · exact Nat.le_refl 1
  · rcases once_cases (.boot id guest config) hw hk hp with ⟨hnil, -⟩ | ⟨_, _, _, u, hused⟩
    · rw [hnil] at hhead
      cases hhead
    · obtain rfl : u = .called := Option.some.inj (hused.head.symm.trans hhead)
      have hin := hmem index words he
      rw [hused.invocations] at hin
      rcases hused.first.invocations_cases with ⟨-, hi⟩ | ⟨_, _, _, hh, hi⟩ <;> rw [hi] at hin
      · cases hin
      · cases hh
        simp at hin
  · rcases once_cases (.boot id guest config) hw hk hp with ⟨hnil, -⟩ | ⟨_, _, _, u, hused⟩
    · rw [hnil] at hhead
      cases hhead
    · obtain rfl : u = .dropped := Option.some.inj (hused.head.symm.trans hhead)
      rw [hused.invocations]
      rcases hused.first.invocations_cases with ⟨hu, -⟩ | ⟨_, _, _, hh, hi⟩
      · cases hu
      · cases hh
        exact hi
  · subst has
    have hne := List.ne_nil_of_mem hcalled
    have hspent :=
      spent_of_history guest config (wrapped_of_lt (lt_of_history hne) hw) hk hp hne
    rw [runs_append]
    exact (Evolves.runs id _ after).spent hspent.lt hspent.pointer

/-- A single-use closure that is dropped and then called is given back, and not called. -/
theorem consumed_once_dropped :
    ((boot (.ofPages Unit 0 0) .standard).runs
      [.perform (.wrap .once 1 8 2), .call (.drop 0), .call (.closure 0 [])]).inst.invocations 0 =
        [.called (.deallocator 0) 2 [8]] :=
  (consumed_once (.ofPages Unit 0 0) .standard
    [.perform (.wrap .once 1 8 2), .call (.drop 0), .call (.closure 0 [])] 0
    { kind := .once, adapter := 1, pointer := 8, deallocator := 2 } (.head _) rfl
    (by decide)).2.2.1 (by decide)

/-! ## What becomes of the pointer -/

/-- What an action answers, unless it is an operation. -/
def reply (m : Machine Code) : Action Code → Option (Reply Code)
  | .perform _ => none
  | .call c => some (m.call c).1
  | .leave completion => some (m.leave completion).1

/-- The record of a closure is that of its wrapping, with the pointer or without. -/
theorem descends_runs (guest : Guest Code) (config : Config) {as : List (Action Code)}
    (hw : .wrapped id c ∈ ((boot guest config).runs as).inst.events) :
    c.Descends (((boot guest config).runs as).inst.closure id) := by
  rcases (Evolves.runs id (boot guest config) as).wrapped c hw with hc | ⟨-, -, hd⟩
  · cases hc
  · exact hd

end Machine

end

end Crossing
