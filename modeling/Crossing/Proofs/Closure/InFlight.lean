import Crossing.Proofs.Closure.Release

/-!
# The calls of a closure that are running

The record of a closure counts its calls, the stack of a machine holds their bodies. `Settled` keeps
the two numbers equal, so the count is read off the stack: a call that has come to its end leaves
the count that it found, because it leaves the stack that it found (`Machine.CallOver.running_eq`).
Of a closure that is not shared no two bodies are on the stack (`Alone`): the checks of a call let
it through only while its count is zero.
-/

namespace Crossing

open Effect

section
variable {Code : Type} {id id' : Nat} {m m' : Machine Code} {arguments : List Value}

/-- The checks of a call let a closure that is not shared through only when none of its calls is
running. They give out the pointer that it has at that moment. -/
theorem Effect.admitted_of_authorize {i i' : Instance Code} {pointer : UInt32}
    (h : exec (authorize id) i = (.ok pointer, i')) :
    pointer = (i.closure id).pointer ∧
      ((i.closure id).kind ≠ .shared → (i.closure id).inFlight = 0) := by
  cases hdead : i.dead with
  | true =>
    rw [exec_authorize_of_dead hdead] at h
    cases h
  | false =>
    cases hlive : (i.closure id).checkLive with
    | error x =>
      rw [exec_authorize_of_error hdead hlive] at h
      cases h
    | ok =>
      rw [exec_authorize hdead hlive] at h
      cases hk : (i.closure id).kind with
      | shared =>
        rw [hk] at h
        cases h
        exact ⟨rfl, fun hne => absurd rfl hne⟩
      | exclusive | once =>
        rw [hk] at h
        dsimp only [Closure.checkExclusive] at h
        split at h
        · next hn =>
          cases h
          exact ⟨rfl, fun _ => hn⟩
        · cases h

namespace Machine

/-- The number of bodies on the stack that are calls of the closure `id`. -/
def running (m : Machine Code) (id : Nat) : Nat := m.frames.countP (Frame.isCall id)

/-! ## Bodies on the stack -/

/-- A drop leaves the calls that are running. -/
theorem Dropped.running_eq (h : m.Dropped id' m') : m'.running id = m.running id :=
  h.countP_isCall id

/-- The end of a call takes no body off the stack but its own, which is gone already. -/
theorem Ended.running_eq (h : m.Ended id' m') : m'.running id = m.running id := by
  cases h with
  | quiet _ hm => rw [hm]; rfl
  | dropped kind _ hd => exact hd.running_eq

/-- A call puts one body on the stack or leaves the bodies of calls as they were. -/
theorem Calls.running_cases (h : m.Calls id' m') :
    m'.frames = .adapter id' :: m.frames ∨ m'.running id = m.running id := by
  cases h with
  | refused _ _ _ _ hf => exact .inr (by rw [running, hf, running])
  | counted _ _ _ _ _ m₃ _ _ _ _ _ hf hm =>
    rcases hm with rfl | ⟨fault, rfl⟩
    · exact .inl rfl
    · refine .inr ((m₃.endCall_ended id' _).running_eq.trans ?_)
      rw [running, hf, running]

/-- The call of the closure `id` that was made in `m` is over: it did not enter the adapter, or the
body of the adapter has been left, however it ended. A drop that waited for the call may have
entered the deallocator. -/
inductive CallOver (m : Machine Code) (id : Nat) (arguments : List Value) : Machine Code → Prop
  | atOnce (h : (m.callClosure id arguments).2.frames ≠ .adapter id :: m.frames) :
      CallOver m id arguments (m.callClosure id arguments).2
  | later (as : List (Action Code)) (completion : Completion)
      (h : ((m.callClosure id arguments).2.runs as).frames = .adapter id :: m.frames) :
      CallOver m id arguments (((m.callClosure id arguments).2.runs as).leave completion).2

/-- A call that is over leaves the bodies of calls that it found. -/
theorem CallOver.running_eq (h : m.CallOver id' arguments m') : m'.running id = m.running id := by
  cases h with
  | atOnce h => exact (m.callClosure_calls id' arguments).running_cases.resolve_left h
  | later as completion h =>
    rw [leave_adapter h]
    exact (endCall_ended _ id' completion.result).running_eq

/-- A call that is over is a run. -/
theorem CallOver.exists_runs (h : m.CallOver id' arguments m') :
    ∃ as : List (Action Code), m' = m.runs as := by
  cases h with
  | atOnce _ => exact ⟨[.call (.closure id' arguments)], rfl⟩
  | later as completion _ =>
    exact ⟨.call (.closure id' arguments) :: (as ++ [.leave completion]), by
      rw [runs_cons, runs_append]; rfl⟩

/-! ## One call at a time -/

/-- No two calls of the closure `id` are running, unless it is shared. -/
def Alone (id : Nat) (m : Machine Code) : Prop :=
  (m.inst.closure id).kind ≠ .shared → m.running id ≤ 1

section
variable {requested : Bool}

/-- A call of a closure that is not shared finds none running, or does not enter the adapter. -/
theorem Alone.callClosure (h : Alone id m) (hs : Settled id requested m)
    (hk : (m.inst.closure id).kind ≠ .shared) (arguments : List Value) :
    (m.callClosure id arguments).2.running id ≤ 1 := by
  have hcases : (m.callClosure id arguments).2.frames = .adapter id :: m.frames ∨
      (m.callClosure id arguments).2.running id = m.running id :=
    (m.callClosure_calls id arguments).running_cases
  rcases hcases with hf | heq
  · rcases hauthorize : exec (authorize id) m.inst with ⟨x | pointer, i⟩
    · rw [callClosure_of_refused hauthorize]
      exact h hk
    · have hzero : m.running id = 0 :=
        hs.inFlight.symm.trans ((admitted_of_authorize hauthorize).2 hk)
      have hcall : (Frame.adapter id).isCall id = true := beq_self_eq_true id
      unfold running at hzero ⊢
      refine Nat.le_of_eq ?_
      rw [hf, List.countP_cons_of_pos hcall, hzero]
  · rw [heq]
    exact h hk

/-- No call is running of a closure that an action finds not wrapped yet. -/
theorem running_act_of_size_le (hs : Settled id requested m) (hle : m.inst.closures.size ≤ id)
    (a : Action Code) : (m.act a).running id = 0 := by
  have hnone : ∀ f ∈ m.frames, f.isCall id = false := by
    have hzero := (Instance.idle_of_size_le hle).1
    rw [hs.inFlight, List.countP_eq_zero] at hzero
    exact fun f hf => by simpa using hzero f hf
  have hstep := Step.act id m a
  generalize m.act a = m' at *
  cases hstep with
  | aside _ _ hf =>
    refine List.countP_eq_zero.2 fun f hmem hcall => ?_
    cases f with
    | adapter id' => exact Bool.false_ne_true ((hnone _ (hf _ hmem hcall)).symm.trans hcall)
    | _ => cases hcall
  | called arguments _ hu => exact absurd (Action.of_use? hu).1 (Nat.not_lt_of_le hle)
  | dropped _ hu => exact absurd (Action.of_use? hu).1 (Nat.not_lt_of_le hle)
  | left frames completion _ hm =>
    have hcall := hnone (.adapter id) (hm ▸ .head _)
    simp [Frame.isCall] at hcall

/-- No action puts a second call of a closure on the stack that is not shared, because the check of
a call refuses it. -/
theorem Alone.act (h : Alone id m) (hs : Settled id requested m) (a : Action Code) :
    Alone id (m.act a) := by
  intro hk
  by_cases hlt : id < m.inst.closures.size
  · have hs' := hs.act a
    have hstep := Step.act id m a
    rw [((Evolves.act id m a).descends hlt).kind] at hk
    have hle := h hk
    generalize m.act a = m' at *
    cases hstep with
    | aside _ ha _ => rwa [running, ← hs'.inFlight, ha.closure hlt, hs.inFlight]
    | called arguments => exact h.callClosure hs hk arguments
    | dropped => exact (m.drop_dropped id none).running_eq.symm ▸ hle
    | left frames completion _ hm =>
      rw [(endCall_ended _ id completion.result).running_eq]
      refine Nat.le_trans (List.Sublist.countP_le ?_) hle
      exact hm ▸ List.sublist_cons_self _ _
  · rw [running_act_of_size_le hs (Nat.le_of_not_lt hlt)]
    exact Nat.zero_le 1

/-- No run does. -/
theorem Alone.runs (h : Alone id m) (hs : Settled id requested m) (as : List (Action Code)) :
    Alone id (m.runs as) := by
  induction as generalizing m requested with
  | nil => exact h
  | cons a as ih => exact ih (h.act hs a) (hs.act a)

end

/-! ## The count -/

/-- The record of the closure `id` counts the bodies of its adapter on the stack of `m`, which is
one at most unless the closure is shared. Calls that are made in `m` give the count back. -/
structure CountsCalls (id : Nat) (m : Machine Code) : Prop where
  exact : (m.inst.closure id).inFlight = m.running id
  alone : (m.inst.closure id).kind ≠ .shared → m.running id ≤ 1
  /-- Whatever the body of the adapter did, and whether it returned, failed or trapped. -/
  restored : ∀ {id' : Nat} {arguments : List Value} {m' : Machine Code},
    m.CallOver id' arguments m' → (m'.inst.closure id).inFlight = (m.inst.closure id).inFlight
  /-- Whenever the stack is again what it was. -/
  back : ∀ as : List (Action Code), (m.runs as).frames = m.frames →
    ((m.runs as).inst.closure id).inFlight = (m.inst.closure id).inFlight

/-- At every point of every run, on any guest, the calls of every closure are counted. -/
theorem countsCalls_runs (guest : Guest Code) (config : Config) (as : List (Action Code))
    (id : Nat) : CountsCalls id ((boot guest config).runs as) := by
  have hs := (Settled.boot id guest config).runs as
  have hboot : Alone id (boot guest config) := fun _ => Nat.zero_le 1
  have halone := hboot.runs (Settled.boot id guest config) as
  generalize (boot guest config).runs as = m at hs halone
  exact
    { exact := hs.inFlight
      alone := halone
      restored := fun {id' arguments m'} h => by
        obtain ⟨bs, rfl⟩ := h.exists_runs
        rw [(hs.runs bs).inFlight, hs.inFlight]
        exact h.running_eq
      back := fun bs hf => by rw [(hs.runs bs).inFlight, hs.inFlight, hf] }

/-- A shared closure that is called from its own adapter. -/
def nested : List (Action Unit) :=
  [.perform (.wrap .shared 1 8 1), .call (.closure 0 []), .call (.closure 0 [])]

/-- Both calls are counted while they run, and the inner one is counted off when it traps. -/
example : ((boot smallGuest .standard).runs nested).running 0 = 2 ∧
    (((boot smallGuest .standard).runs (nested ++ [.leave (.faulted (.trap "unreachable"))])
      ).inst.closure 0).inFlight = 1 := by
  decide +kernel

end Machine

end

end Crossing
