import Crossing.Proofs.Closure.Refusals

/-!
# When a closure is given back

A drop gives a closure back by calling its deallocator: at once, or at the end of the call that the
drop has waited for. `Releases` says of which actions this is to be expected, by the history of the
closure and the bodies on the stack, and `Machine.entered_iff_releases` that the bridge does it then
and only then. Whether the guest has aborted does not come into it. An abort ends the calls of
closures, but a drop, asked for after the abort or queued before it, still enters the guest
(`Machine.not_rests_aborted`).
-/

namespace Crossing

open Effect

section
variable {Code : Type} {id : Nat} {c : Closure} {m : Machine Code}

/-- The action calls the closure `id`, drops it, or ends a call of it. -/
inductive Action.Concerns (id : Nat) (m : Machine Code) : Action Code → Prop
  | call (arguments : List Value) : Concerns id m (.call (.closure id arguments))
  | drop : Concerns id m (.call (.drop id))
  | leave (completion : Completion) (frames : List Frame) (hm : m.frames = .adapter id :: frames) :
      Concerns id m (.leave completion)

/-- The action gives the closure `id` back, which was wrapped as `c` and used as `history` tells: it
is a drop that nothing holds up, of a closure that can still be called, or the end of the last call
that has held one up. -/
inductive Releases (id : Nat) (c : Closure) (history : List Use) (m : Machine Code) :
    Action Code → Prop
  | direct (hlive : ¬ c.Over history) (hidle : ∀ f ∈ m.frames, f.isCall id = false) :
      Releases id c history m (.call (.drop id))
  | deferred (completion : Completion) (frames : List Frame)
      (hm : m.frames = .adapter id :: frames) (hidle : ∀ f ∈ frames, f.isCall id = false)
      (hdropped : .dropped ∈ history) (hkind : c.kind ≠ .once) (hpointer : c.pointer ≠ 0) :
      Releases id c history m (.leave completion)

namespace Machine

/-! ## What a record lets through -/

/-- A drop enters a function exactly when no call of the closure is running, the closure was not
given back, and its deallocator is there. -/
theorem drop_eq_entered_iff {pending : Option (Except Fault Value)} {code : Code}
    {words : List UInt32} {values : List Value} :
    (m.drop id pending).1 = .entered code words values ↔
      ((m.inst.closure id).inFlight = 0 ∧ (m.inst.closure id).dropped = false ∧
        (m.inst.closure id).pointer ≠ 0) ∧
      m.inst.guest.functions[(m.inst.closure id).deallocator.toNat]? = some (some code) ∧
      words = [(m.inst.closure id).pointer] ∧ values = [] := by
  unfold drop
  dsimp only
  split
  · next hn => exact iff_of_false (fun h => by cases h) fun h => hn h.1.1
  next hn =>
  split
  · next hd => exact iff_of_false (fun h => by cases h) fun h => by rw [h.1.2.1] at hd; cases hd
  next hd =>
  split
  · next hp => exact iff_of_false (fun h => by cases h) fun h => h.1.2.2 hp
  next hp =>
  rw [and_iff_right ⟨Decidable.not_not.1 hn, by simpa using hd, hp⟩, run_eq,
    exec_bind_of_ok (exec_record _ _)]
  generalize hr : exec (target (.deallocator id) _ _ _) _ = r
  have htarget : r.1 = .ok code ↔ m.inst.guest.functions[(m.inst.closure id).deallocator.toNat]? =
      some (some code) := by
    rw [← hr]
    exact target_eq_ok_iff rfl
  rw [← htarget]
  rcases r with ⟨x | code', i'⟩
  · exact iff_of_false (fun h => by cases h) fun h => nomatch h.1
  · constructor
    · intro h
      cases h
      exact ⟨rfl, rfl, rfl⟩
    · rintro ⟨hcode, rfl, rfl⟩
      cases hcode
      rfl

/-- The end of a call enters a function exactly when a drop has waited for just this call, and the
closure was not given back. -/
theorem endCall_eq_entered_iff (hlt : id < m.inst.closures.size) {result : Except Fault Unit}
    {code : Code} {words : List UInt32} {values : List Value} :
    (m.endCall id result).1 = .entered code words values ↔
      ((m.inst.closure id).inFlight - 1 = 0 ∧ (m.inst.closure id).dropQueued = true ∧
        (m.inst.closure id).dropped = false ∧ (m.inst.closure id).pointer ≠ 0) ∧
      m.inst.guest.functions[(m.inst.closure id).deallocator.toNat]? = some (some code) ∧
      words = [(m.inst.closure id).pointer] ∧ values = [] := by
  have hclosure := (concluded_inst hlt).1
  have hguest : (m.concluded id).inst.guest = m.inst.guest := by
    rw [concluded, exec_takeTransfer, Instance.transfer_updateClosure]
    cases m.inst.transfer <;> rfl
  rw [endCall_eq]
  split
  · next hq =>
    have hclosure' : (((m.concluded id).log (.dropDeferred id
        ((m.concluded id).inst.closure id).kind)).inst.closure id) =
        { m.inst.closure id with inFlight := (m.inst.closure id).inFlight - 1 } := hclosure
    have hguest' : ((m.concluded id).log (.dropDeferred id
        ((m.concluded id).inst.closure id).kind)).inst.guest = m.inst.guest := hguest
    rw [hclosure, Bool.and_eq_true, decide_eq_true_eq] at hq
    rw [drop_eq_entered_iff, hclosure', hguest']
    dsimp only at hq ⊢
    simp only [hq, true_and]
  · next hq =>
    rw [hclosure, Bool.and_eq_true, decide_eq_true_eq, not_and] at hq
    exact iff_of_false (fun h => by cases h) fun h => hq h.1.2.1 h.1.1

/-! ## The record and the history -/

variable (guest : Guest Code) (config : Config) {as : List (Action Code)}

/-- A closure that still has its pointer was not given back. A drop of it that is queued was asked
for, and waits for a call. -/
theorem waits_of_pointer
    (hw : .wrapped id c ∈ ((boot guest config).runs as).inst.events)
    (hp : (((boot guest config).runs as).inst.closure id).pointer ≠ 0) :
    (((boot guest config).runs as).inst.closure id).dropped = false ∧
      ((((boot guest config).runs as).inst.closure id).dropQueued = true →
        .dropped ∈ (boot guest config).history id as ∧ c.kind ≠ .once ∧
          (((boot guest config).runs as).inst.closure id).inFlight ≠ 0) := by
  have hd := descends_runs guest config hw
  have hp' : c.pointer ≠ 0 := fun h => hp (hd.pointer_eq_zero h)
  by_cases hk : c.kind = .once
  · rcases once_cases (.boot id guest config) hw hk hp' with ⟨-, hm⟩ | ⟨_, _, _, _, hused⟩
    · obtain ⟨-, hclosure, ⟨-, hqueued⟩, hdropped⟩ := hm.born c hw
      rw [hclosure, hdropped, hqueued]
      exact ⟨rfl, fun h => by cases h⟩
    · exact absurd hused.spent.pointer hp
  · have hs := (Settled.boot id guest config).runs as
    have hprompt := hs.prompt c ⟨hw, hk, hp'⟩
    have hrequested := requested_iff id (boot guest config) as
    rw [Bool.false_or] at hs hprompt
    cases hs.tracked.stage c ⟨hw, hk, hp'⟩ with
    | freed _ _ hzero => exact absurd hzero hp
    | held _ hdropped hqueued =>
      refine ⟨hdropped, fun hq => ?_⟩
      rw [hqueued] at hq
      refine ⟨hrequested.1 hq, hk, fun hn => ?_⟩
      rw [hprompt hq hn] at hdropped
      cases hdropped

/-- Nothing holds up a drop of a closure whose adapter is not running. -/
theorem inFlight_eq_zero_iff :
    (((boot guest config).runs as).inst.closure id).inFlight = 0 ↔
      ∀ f ∈ ((boot guest config).runs as).frames, f.isCall id = false := by
  rw [((Settled.boot id guest config).runs as).inFlight, List.countP_eq_zero]
  simp only [Bool.not_eq_true]

/-- A drop finds something to give back exactly when the closure can still be called and nothing
holds the drop up. -/
theorem held_iff (hw : .wrapped id c ∈ ((boot guest config).runs as).inst.events) :
    ((((boot guest config).runs as).inst.closure id).inFlight = 0 ∧
        (((boot guest config).runs as).inst.closure id).dropped = false ∧
        (((boot guest config).runs as).inst.closure id).pointer ≠ 0) ↔
      ¬ c.Over ((boot guest config).history id as) ∧
        ∀ f ∈ ((boot guest config).runs as).frames, f.isCall id = false := by
  rw [← over_iff guest config hw, ← inFlight_eq_zero_iff guest config]
  constructor
  · rintro ⟨hn, -, hp⟩
    refine ⟨?_, hn⟩
    rintro (hp' | hq)
    · exact hp hp'
    · exact ((waits_of_pointer guest config hw hp).2 hq).2.2 hn
  · rintro ⟨hover, hn⟩
    have hp := not_or.1 hover |>.1
    exact ⟨hn, (waits_of_pointer guest config hw hp).1, hp⟩

/-- While a call of a closure is running, a drop of it is queued exactly when one was asked for and
the closure is no single-use one. -/
theorem queued_iff {frames : List Frame}
    (hw : .wrapped id c ∈ ((boot guest config).runs as).inst.events)
    (hm : ((boot guest config).runs as).frames = .adapter id :: frames) :
    ((((boot guest config).runs as).inst.closure id).dropQueued = true ∧
        (((boot guest config).runs as).inst.closure id).dropped = false ∧
        (((boot guest config).runs as).inst.closure id).pointer ≠ 0) ↔
      .dropped ∈ (boot guest config).history id as ∧ c.kind ≠ .once ∧ c.pointer ≠ 0 := by
  have hd := descends_runs guest config hw
  constructor
  · rintro ⟨hq, -, hp⟩
    obtain ⟨hmem, hk, -⟩ := (waits_of_pointer guest config hw hp).2 hq
    exact ⟨hmem, hk, fun h => hp (hd.pointer_eq_zero h)⟩
  · rintro ⟨hmem, hk, hp'⟩
    have hs := (Settled.boot id guest config).runs as
    have hrequested := requested_iff id (boot guest config) as
    rw [Bool.false_or] at hs
    cases hs.tracked.stage c ⟨hw, hk, hp'⟩ with
    | held hpointer hdropped hqueued =>
      exact ⟨hqueued.trans (hrequested.2 hmem), hdropped, hpointer ▸ hp'⟩
    | freed _ hn =>
      have hcall := (inFlight_eq_zero_iff guest config).1 hn (.adapter id) (hm ▸ .head _)
      simp [Frame.isCall] at hcall

/-- While a call of a closure is running, no other is exactly when its record counts just one. -/
theorem inFlight_pred_eq_zero_iff {frames : List Frame}
    (hm : ((boot guest config).runs as).frames = .adapter id :: frames) :
    (((boot guest config).runs as).inst.closure id).inFlight - 1 = 0 ↔
      ∀ f ∈ frames, f.isCall id = false := by
  have hcall : (Frame.adapter id).isCall id = true := beq_self_eq_true id
  rw [((Settled.boot id guest config).runs as).inFlight, hm, List.countP_cons_of_pos hcall,
    Nat.add_sub_cancel, List.countP_eq_zero]
  simp only [Bool.not_eq_true]

/-! ## After an abort -/

/-- The end of a body of an adapter is the end of a call. -/
theorem leave_adapter {frames : List Frame} (hm : m.frames = .adapter id :: frames)
    (completion : Completion) :
    m.leave completion = ({ m with frames } : Machine Code).endCall id completion.result := by
  unfold leave
  rw [hm]

/-- In every run, once the instance is dead, an action at a closure enters a guest function exactly
when it is one that gives the closure back and the deallocator is in the guest's table. The function
is the deallocator then, and it is handed the pointer that the closure was wrapped with. Calls of
closures enter nothing. -/
theorem entered_iff_releases (as : List (Action Code)) (id : Nat) (c : Closure)
    (hw : .wrapped id c ∈ ((boot guest config).runs as).inst.events)
    (hdead : ((boot guest config).runs as).inst.dead = true) {a : Action Code}
    (ha : a.Concerns id ((boot guest config).runs as)) (code : Code) (words : List UInt32)
    (values : List Value) :
    ((boot guest config).runs as).reply a = some (.entered code words values) ↔
      Releases id c ((boot guest config).history id as) ((boot guest config).runs as) a ∧
        ((boot guest config).runs as).inst.guest.functions[c.deallocator.toNat]? =
          some (some code) ∧
        words = [c.pointer] ∧ values = [] := by
  have hd := descends_runs guest config hw
  cases ha with
  | call arguments =>
    have hrefused : (((boot guest config).runs as).callClosure id arguments).1 =
        .answered (.error .dead) := by
      rw [callClosure_of_refused (exec_authorize_of_dead hdead)]
    refine iff_of_false (fun h => ?_) fun h => nomatch h.1
    cases hrefused.symm.trans (Option.some.inj h)
  | drop =>
    have hheld := held_iff guest config hw
    rw [reply, Option.some.injEq, call, drop_eq_entered_iff, hd.deallocator]
    constructor
    · rintro ⟨hrecord, hcode, hwords, hvalues⟩
      obtain ⟨hlive, hidle⟩ := hheld.1 hrecord
      rw [hd.pointer.resolve_right hrecord.2.2] at hwords
      exact ⟨.direct hlive hidle, hcode, hwords, hvalues⟩
    · rintro ⟨hreleases, hcode, hwords, hvalues⟩
      cases hreleases with
      | direct hlive hidle =>
        have hrecord := hheld.2 ⟨hlive, hidle⟩
        rw [← hd.pointer.resolve_right hrecord.2.2] at hwords
        exact ⟨hrecord, hcode, hwords, hvalues⟩
  | leave completion frames hm =>
    have hlt : id <
        ({ (boot guest config).runs as with frames } : Machine Code).inst.closures.size :=
      ((Settled.boot id guest config).runs as).tracked.born c hw
    have hqueued := queued_iff guest config hw hm
    have hlast := inFlight_pred_eq_zero_iff guest config hm
    rw [reply, Option.some.injEq, leave_adapter hm, endCall_eq_entered_iff hlt, hd.deallocator]
    constructor
    · rintro ⟨⟨hn, hrecord⟩, hcode, hwords, hvalues⟩
      obtain ⟨hdropped, hk, hp⟩ := hqueued.1 hrecord
      rw [hd.pointer.resolve_right hrecord.2.2] at hwords
      exact ⟨.deferred completion frames hm (hlast.1 hn) hdropped hk hp, hcode, hwords, hvalues⟩
    · rintro ⟨hreleases, hcode, hwords, hvalues⟩
      cases hreleases with
      | deferred _ frames' hm' hidle hdropped hk hp =>
        obtain rfl : frames' = frames := (List.cons.inj (hm'.symm.trans hm)).2
        have hrecord := hqueued.2 ⟨hdropped, hk, hp⟩
        rw [← hd.pointer.resolve_right hrecord.2.2] at hwords
        exact ⟨⟨hlast.2 hidle, hrecord⟩, hcode, hwords, hvalues⟩

/-- A dead instance on which a closure is live, and nothing is running. -/
def abortedIdle : List (Action Unit) :=
  [.perform (.register ()), .perform (.wrap .shared 1 8 1), .perform (.abort ⟨none, none⟩)]

/-- A drop after the abort gives the closure back. -/
theorem entered_iff_releases_idle :
    ((boot (.ofPages Unit 1 16) .standard).runs abortedIdle).inst.dead = true ∧
      ((boot (.ofPages Unit 1 16) .standard).runs abortedIdle).reply (.call (.drop 0)) =
        some (.entered () [8] []) := by
  refine ⟨rfl, (entered_iff_releases (.ofPages Unit 1 16) .standard abortedIdle 0
    { kind := .shared, adapter := 1, pointer := 8, deallocator := 1 } (.head _) rfl .drop () [8]
    []).2 ⟨.direct ?_ (fun _ h => nomatch h), rfl, rfl, rfl⟩⟩
  rintro (hpointer | hdropped | ⟨hkind, -⟩)
  · exact absurd hpointer (by decide)
  · exact absurd hdropped (by decide)
  · cases hkind

/-- No action at a closure enters a guest function. -/
def Rests (m : Machine Code) : Prop :=
  ∀ id a, Action.Concerns id m a → ∀ code words values,
    m.reply a ≠ some (.entered code words values)

/-- The words that a reply enters a guest function with. -/
def words? : Reply Code → Option (List UInt32)
  | .answered _ => none
  | .entered _ words _ => some words

/-- A guest with a few bytes of memory and one function. -/
def smallGuest : Guest Unit where
  store := ⟨#[⟨⟨Array.replicate 48 0⟩, false⟩]⟩
  memory := 0
  functions := #[none, some ()]

/-- The adapter of a closure is running, which drops the closure and then aborts. -/
def abortedInside : List (Action Unit) :=
  [.perform (.wrap .shared 1 8 1), .call (.closure 0 []), .call (.drop 0),
    .perform (.abort ⟨none, none⟩)]

/-- A dead instance still enters the deallocator: when a live closure is dropped, and at the end of
the call in which the guest has aborted, when a drop has waited for it. -/
theorem not_rests_aborted :
    (((boot (.ofPages Unit 1 16) .standard).runs abortedIdle).inst.dead = true ∧
        ¬ ((boot (.ofPages Unit 1 16) .standard).runs abortedIdle).Rests) ∧
      ((boot smallGuest .standard).runs abortedInside).inst.dead = true ∧
        ¬ ((boot smallGuest .standard).runs abortedInside).Rests := by
  refine ⟨⟨rfl, fun h => h 0 _ .drop () [8] [] rfl⟩, by decide +kernel, fun h => ?_⟩
  have hcall : ((boot smallGuest .standard).runs abortedInside).frames.map (Frame.isCall 0) =
      [true] := by decide +kernel
  have hwords : words? (((boot smallGuest .standard).runs abortedInside).leave
      (.faulted (.trap "unreachable"))).1 = some [8] := by decide +kernel
  generalize (boot smallGuest .standard).runs abortedInside = m at *
  obtain ⟨frame, frames, hm, hframe, -⟩ := List.map_eq_cons_iff.1 hcall
  cases frame with
  | adapter id =>
    obtain rfl : id = 0 := beq_iff_eq.1 hframe
    have hrests := h 0 _ (.leave (.faulted (.trap "unreachable")) frames hm)
    rcases hreply : (m.leave (.faulted (.trap "unreachable"))).1 with _ | ⟨code, words, values⟩
    · rw [hreply] at hwords
      cases hwords
    · exact hrests code words values (congrArg some hreply)
  | _ => cases hframe

end Machine

end

end Crossing
