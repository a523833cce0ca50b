import Crossing.Proofs.Closure.Once
import Crossing.Proofs.Codec.Faults

/-!
# Which calls are refused

A call is refused by what was done with its closure before. `Machine.over_iff` reads the record of a
closure back into its history: the closure can no longer be called when it was wrapped without a
pointer, when a drop of it was requested, queued or not, and a single-use one also when it was
called. Beyond that only an exclusive closure is refused, while a call of it is running.

That a fault comes from the checks of a call and not from what follows them is
`Machine.callClosure_fault_iff`.
-/

namespace Crossing

open Effect

section
variable {Code : Type} {id : Nat} {c : Closure} {m m' : Machine Code}

/-! ## Bodies that belong to a call -/

/-- Whether the body belongs to a call of the closure `id` that is running: its adapter, or the
deallocator that a drop has waited for the call to enter. -/
def Frame.isRunning (id : Nat) : Frame → Bool
  | .adapter id' => id' == id
  | .deallocator id' (some _) => id' == id
  | _ => false

/-- While the deallocator of a closure is running, the closure has no pointer. -/
def Machine.Freeing (id : Nat) (m : Machine Code) : Prop :=
  ∀ pending, .deallocator id pending ∈ m.frames → m.inst.Spent id

/-- The deallocators that are running in `m'` were running in `m`, or the closure is spent. -/
def Machine.Frees (id : Nat) (m m' : Machine Code) : Prop :=
  ∀ pending, .deallocator id pending ∈ m'.frames →
    .deallocator id pending ∈ m.frames ∨ m'.inst.Spent id

namespace Machine

/-- A drop lets no deallocator run while the closure has its pointer. -/
theorem Dropped.frees (h : m.Dropped id m') : Frees id m m' := by
  intro pending' hmem
  cases h with
  | queued _ hf _ => exact .inl (hf ▸ hmem)
  | again _ _ hf _ => exact .inl (hf ▸ hmem)
  | empty _ _ hf _ => exact .inl (hf ▸ hmem)
  | freed pending _ hp _ _ hi =>
    right
    have hlt := Instance.lt_size_of_pointer hp
    rw [hi]
    exact ⟨by simpa [emptied] using hlt,
      congrArg Closure.pointer (m.inst.closure_updateClosure_self _ hlt)⟩

/-- Nor does the end of a call. -/
theorem Ended.frees (h : m.Ended id m') : Frees id m m' := by
  cases h with
  | quiet _ hm => exact hm ▸ fun pending hmem => .inl hmem
  | dropped kind _ hd => exact fun pending hmem => hd.frees pending hmem

/-- Nor does a call, which runs no deallocator at all. -/
theorem Calls.frees (h : m.Calls id m') : Frees id m m' := by
  intro pending hmem
  cases h with
  | refused i₁ es hc hw hf => exact .inl (hf ▸ hmem)
  | counted i₁ i₂ es index words m₃ hc hp hq hw hi hf hm =>
    rcases hm with rfl | ⟨fault, rfl⟩
    · exact .inl ((List.mem_cons.1 hmem).resolve_left (by simp))
    · exact ((m₃.endCall_ended id _).frees pending hmem).imp_left fun h => hf ▸ h

/-- No action gives a closure its pointer back while its deallocator is running. -/
theorem Freeing.act (h : Freeing id m) (a : Action Code) : Freeing id (m.act a) := by
  intro pending hmem
  have hold : .deallocator id pending ∈ m.frames → (m.act a).inst.Spent id := fun hm =>
    (h pending hm).evolves (.act id m a)
  have hstep := Step.act id m a
  generalize m.act a = m' at *
  cases hstep with
  | aside _ _ hf => exact hold (hf _ hmem (beq_self_eq_true id))
  | called arguments =>
    exact ((m.callClosure_calls id arguments).frees pending hmem).elim hold fun hs => hs
  | dropped => exact ((m.drop_dropped id none).frees pending hmem).elim hold fun hs => hs
  | left frames completion _ hm =>
    refine ((endCall_ended { m with frames } id _).frees pending hmem).elim (fun hin => ?_)
      fun hs => hs
    exact hold (hm ▸ .tail _ hin)

/-- No run does. -/
theorem Freeing.runs (h : Freeing id m) (as : List (Action Code)) : Freeing id (m.runs as) := by
  induction as generalizing m with
  | nil => exact h
  | cons a as ih => exact ih (h.act a)

/-! ## Where a fault of a call comes from -/

/-- The call is answered at once with the fault `x`. -/
def Raises (m : Machine Code) (id : Nat) (arguments : List Value) (x : Fault) : Prop :=
  (m.callClosure id arguments).1 = .answered (.error x)

/-- A drop that comes after a call that faulted answers the fault of the call. -/
theorem drop_of_faulted {x : Fault} {r : Except Fault Value}
    (h : (m.drop id (some (.error x))).1 = .answered r) : r = .error x := by
  have hanswer (dropped : Except Fault Unit) : dropAnswer (some (.error x)) dropped = .error x :=
    rfl
  unfold drop at h
  dsimp only at h
  simp only [hanswer] at h
  split at h
  · cases h; rfl
  split at h
  · cases h; rfl
  split at h
  · cases h; rfl
  split at h <;> cases h
  rfl

/-- The end of a call that faulted answers its fault, at once or when a drop has been carried
out. -/
theorem endCall_of_faulted {x : Fault} {r : Except Fault Value}
    (h : (m.endCall id (.error x)).1 = .answered r) : r = .error x := by
  rw [endCall_eq] at h
  split at h
  · exact drop_of_faulted h
  · cases h
    rfl

/-- A call faults as a closure that is used against its contract exactly when its checks do. -/
theorem callClosure_fault_iff {arguments : List Value} {x : Fault} (hx : x.isClosureFault) :
    m.Raises id arguments x ↔ (exec (authorize id) m.inst).1 = .error x := by
  unfold Raises
  rcases hauthorize : exec (authorize id) m.inst with ⟨y | pointer, i⟩
  · rw [callClosure_of_refused hauthorize]
    simp
  refine iff_of_false (fun h => ?_) (by simp)
  rcases hmarshal : exec (marshal arguments) i with ⟨y | slot, i'⟩
  · rw [callClosure_of_unstaged hauthorize hmarshal] at h
    cases h
    have hstaging := stages_marshal arguments i x (by rw [hmarshal])
    rw [Fault.isClosureFault_of_isStaging hstaging] at hx
    cases hx
  · rw [callClosure_of_staged hauthorize hmarshal] at h
    split at h
    · cases h
    · next y hy =>
      cases endCall_of_faulted h
      rw [raises_target _ _ _ _ _ _ hy] at hx
      cases hx

end Machine

/-! ## The record and the history -/

/-- The fault of a call of a closure that can no longer be called. -/
def ClosureKind.overFault : ClosureKind → Fault
  | .once => .alreadyConsumed
  | kind => .alreadyDropped kind

/-- Whatever its kind, a call of a closure that is over raises a closure fault. -/
theorem ClosureKind.isClosureFault_overFault (k : ClosureKind) :
    k.overFault.isClosureFault = true := by
  cases k <;> rfl

/-- A closure without a pointer, or with a drop queued, is not live. -/
theorem Closure.checkLive_of_over {k : Closure} (h : k.pointer = 0 ∨ k.dropQueued = true) :
    k.checkLive = .error k.kind.overFault := by
  unfold checkLive
  rw [if_pos (by simpa using h)]
  cases k.kind <;> rfl

/-- Any other closure is. -/
theorem Closure.checkLive_of_not_over {k : Closure}
    (h : ¬ (k.pointer = 0 ∨ k.dropQueued = true)) : k.checkLive = .ok () := by
  unfold checkLive
  rw [if_neg (by simpa using h)]

/-- After these uses, the closure that was wrapped as `c` can no longer be called. -/
def Closure.Over (c : Closure) (history : List Use) : Prop :=
  c.pointer = 0 ∨ .dropped ∈ history ∨ c.kind = .once ∧ .called ∈ history

section
variable (guest : Guest Code) (config : Config) {as : List (Action Code)}

namespace Machine

/-- The record of a closure tells whether it can still be called. -/
theorem over_iff (hw : .wrapped id c ∈ ((boot guest config).runs as).inst.events) :
    ((((boot guest config).runs as).inst.closure id).pointer = 0 ∨
        (((boot guest config).runs as).inst.closure id).dropQueued = true) ↔
      c.Over ((boot guest config).history id as) := by
  have hd := descends_runs guest config hw
  by_cases hp : c.pointer = 0
  · exact iff_of_true (.inl (hd.pointer_eq_zero hp)) (.inl hp)
  by_cases hk : c.kind = .once
  · rcases once_cases (.boot id guest config) hw hk hp with ⟨hnil, hm⟩ | ⟨_, _, _, u, hused⟩
    · obtain ⟨-, hclosure, ⟨-, hqueued⟩, -⟩ := hm.born c hw
      rw [hclosure, hnil]
      simp [Closure.Over, hp, hqueued]
    · have hmem := List.mem_of_mem_head? hused.head
      refine iff_of_true (.inl hused.spent.pointer) (.inr ?_)
      cases u with
      | called => exact .inr ⟨hk, hmem⟩
      | dropped => exact .inl hmem
  · have hs := (Settled.boot id guest config).runs as
    have hiff := requested_iff id (boot guest config) as
    rw [Bool.false_or] at hs
    cases hs.tracked.stage c ⟨hw, hk, hp⟩ with
    | held hp' _ hq _ => simp [Closure.Over, hp', hp, hk, hq, hiff]
    | freed hr _ hp' _ _ => exact iff_of_true (.inl hp') (.inr (.inl (hiff.1 hr)))

/-- The bodies of a closure that can still be called are running exactly when its record counts a
call. -/
theorem running_iff (hw : .wrapped id c ∈ ((boot guest config).runs as).inst.events)
    (hover : ¬ c.Over ((boot guest config).history id as)) :
    (∃ f ∈ ((boot guest config).runs as).frames, f.isRunning id) ↔
      (((boot guest config).runs as).inst.closure id).inFlight ≠ 0 := by
  have hs := (Settled.boot id guest config).runs as
  have hfreeing : Freeing id ((boot guest config).runs as) :=
    Freeing.runs (fun _ hmem => by cases hmem) as
  rw [hs.inFlight, ← Nat.pos_iff_ne_zero, List.countP_pos_iff]
  constructor
  · rintro ⟨f, hmem, hf⟩
    cases f with
    | adapter id' => exact ⟨_, hmem, hf⟩
    | deallocator id' pending =>
      cases pending with
      | none => cases hf
      | some answer =>
        obtain rfl : id' = id := beq_iff_eq.1 hf
        exact absurd ((over_iff guest config hw).1 (.inl (hfreeing _ hmem).pointer)) hover
    | _ => cases hf
  · rintro ⟨f, hmem, hf⟩
    cases f with
    | adapter id' => exact ⟨_, hmem, hf⟩
    | _ => cases hf

/-- The checks of a call are done with the record of a single-use closure that can still be
called. -/
theorem inFlight_of_once (hw : .wrapped id c ∈ ((boot guest config).runs as).inst.events)
    (hk : c.kind = .once) (hover : ¬ c.Over ((boot guest config).history id as)) :
    (((boot guest config).runs as).inst.closure id).inFlight = 0 := by
  have hp : c.pointer ≠ 0 := fun hp => hover (.inl hp)
  rcases once_cases (.boot id guest config) hw hk hp with ⟨-, hm⟩ | ⟨_, _, _, _, hused⟩
  · obtain ⟨-, hclosure, ⟨hflight, -⟩, -⟩ := hm.born c hw
    rw [hclosure, hflight]
  · exact absurd ((over_iff guest config hw).1 (.inl hused.spent.pointer)) hover

/-- What the checks of a call of the closure `id` come to in `m`, when it was wrapped as `c` and
used as `history` tells. -/
inductive Verdict (id : Nat) (c : Closure) (history : List Use) (m : Machine Code) : Prop
  | exhausted (h : c.Over history)
      (he : exec (authorize id) m.inst = (.error c.kind.overFault, m.inst))
  | busy (h : ¬ c.Over history) (hk : c.kind = .exclusive)
      (hr : ∃ f ∈ m.frames, f.isRunning id)
      (he : exec (authorize id) m.inst = (.error (.calledConcurrently .exclusive), m.inst))
  | admitted (h : ¬ c.Over history)
      (hr : c.kind = .exclusive → ¬ ∃ f ∈ m.frames, f.isRunning id)
      (pointer : UInt32) (i : Instance Code) (he : exec (authorize id) m.inst = (.ok pointer, i))

/-- While the guest is alive, the history of a closure decides what the checks of a call come to. -/
theorem verdict (hw : .wrapped id c ∈ ((boot guest config).runs as).inst.events)
    (hdead : ((boot guest config).runs as).inst.dead = false) :
    Verdict id c ((boot guest config).history id as) ((boot guest config).runs as) := by
  have hiff := over_iff guest config hw
  have hkind := (descends_runs guest config hw).kind
  have hflight := inFlight_of_once guest config hw
  have hrunning := running_iff guest config hw
  generalize (boot guest config).history id as = history at *
  generalize (boot guest config).runs as = m at *
  by_cases hover : c.Over history
  · refine .exhausted hover ?_
    rw [exec_authorize_of_error hdead (Closure.checkLive_of_over (hiff.2 hover)), hkind]
  have hexec := exec_authorize hdead (Closure.checkLive_of_not_over (mt hiff.1 hover))
  rw [hkind] at hexec
  cases hk : c.kind with
  | shared =>
    rw [hk] at hexec
    exact .admitted hover (by simp [hk]) _ _ hexec
  | exclusive =>
    rw [hk] at hexec
    dsimp only at hexec
    by_cases hn : (m.inst.closure id).inFlight = 0
    · rw [Closure.checkExclusive, if_pos hn] at hexec
      exact .admitted hover (fun _ hr => (hrunning hover).1 hr hn) _ _ hexec
    · rw [Closure.checkExclusive, if_neg hn, hkind, hk] at hexec
      exact .busy hover hk ((hrunning hover).2 hn) hexec
  | once =>
    rw [hk] at hexec
    dsimp only at hexec
    rw [Closure.checkExclusive, if_pos (hflight hk hover)] at hexec
    exact .admitted hover (by simp [hk]) _ _ hexec

end Machine

end

/-! ## Refused calls -/

namespace Machine

namespace Verdict

variable {history : List Use}

/-- A call is refused for good exactly when the history says so. -/
theorem raises_over_iff (h : Verdict id c history m) (arguments : List Value) :
    m.Raises id arguments c.kind.overFault ↔ c.Over history := by
  rw [callClosure_fault_iff c.kind.isClosureFault_overFault]
  cases h with
  | exhausted h he => exact iff_of_true (by rw [he]) h
  | busy h hk _ he => exact iff_of_false (by rw [he, hk]; nofun) h
  | admitted h _ pointer i he => exact iff_of_false (by rw [he]; nofun) h

/-- A call of an exclusive closure that can still be called is refused exactly when one is
running. -/
theorem raises_busy_iff (h : Verdict id c history m) (hk : c.kind = .exclusive)
    (hover : ¬ c.Over history) (arguments : List Value) :
    m.Raises id arguments (.calledConcurrently .exclusive) ↔
      ∃ f ∈ m.frames, f.isRunning id := by
  rw [callClosure_fault_iff rfl]
  cases h with
  | exhausted h => exact absurd h hover
  | busy _ _ hr he => exact iff_of_true (by rw [he]) hr
  | admitted _ hr pointer i he => exact iff_of_false (by rw [he]; nofun) (hr hk)

/-- Calls of other closures are never refused because one is running. -/
theorem not_raises_busy (h : Verdict id c history m) (hk : c.kind ≠ .exclusive)
    (arguments : List Value) (kind : ClosureKind) :
    ¬ m.Raises id arguments (.calledConcurrently kind) := by
  rw [callClosure_fault_iff rfl]
  cases h with
  | exhausted h he =>
    rw [he]
    cases c.kind <;> nofun
  | busy _ hk' => exact absurd hk' hk
  | admitted _ _ pointer i he => rw [he]; nofun

/-- A call that is refused changes nothing. -/
theorem unchanged (h : Verdict id c history m) {x : Fault} (hx : x.isClosureFault)
    {arguments : List Value} (hr : m.Raises id arguments x) :
    (m.callClosure id arguments).2 = m := by
  rw [callClosure_fault_iff hx] at hr
  cases h with
  | exhausted _ he => rw [callClosure_of_refused he]
  | busy _ _ _ he => rw [callClosure_of_refused he]
  | admitted _ _ pointer i he => rw [he] at hr; cases hr

end Verdict

/-- The closure faults that a call of the closure `id` raises in `m` are those that its history
calls for, and a call that raises one changes nothing. -/
structure Judged (id : Nat) (c : Closure) (history : List Use) (m : Machine Code)
    (arguments : List Value) : Prop where
  dropped : c.kind ≠ .once →
    (m.Raises id arguments (.alreadyDropped c.kind) ↔ c.pointer = 0 ∨ .dropped ∈ history)
  consumed : c.kind = .once → (m.Raises id arguments .alreadyConsumed ↔
    c.pointer = 0 ∨ .dropped ∈ history ∨ .called ∈ history)
  concurrent : c.kind = .exclusive → ¬ m.Raises id arguments (.alreadyDropped .exclusive) →
    (m.Raises id arguments (.calledConcurrently .exclusive) ↔ ∃ f ∈ m.frames, f.isRunning id)
  never : c.kind ≠ .exclusive → ∀ kind, ¬ m.Raises id arguments (.calledConcurrently kind)
  unchanged : ∀ x, x.isClosureFault → m.Raises id arguments x →
    (m.callClosure id arguments).2 = m

/-- In every run and for every closure, while the guest is alive, a call raises the closure faults
that the history of the closure calls for: that it was dropped or used up, or that a call of it is
running. -/
theorem faults_of_history (guest : Guest Code) (config : Config) (as : List (Action Code))
    (id : Nat) (c : Closure) (hw : .wrapped id c ∈ ((boot guest config).runs as).inst.events)
    (hdead : ((boot guest config).runs as).inst.dead = false) (arguments : List Value) :
    Judged id c ((boot guest config).history id as) ((boot guest config).runs as) arguments := by
  have hverdict := verdict guest config hw hdead
  have hover := hverdict.raises_over_iff arguments
  refine ⟨fun hk => ?_, fun hk => ?_, fun hk hlive => ?_, fun hk => ?_, fun x => ?_⟩
  · have hfault : c.kind.overFault = .alreadyDropped c.kind := by
      cases hc : c.kind <;> first | rfl | exact absurd hc hk
    rw [← hfault, hover]
    simp [Closure.Over, hk]
  · rw [hk] at hover
    rw [show Fault.alreadyConsumed = ClosureKind.once.overFault from rfl, hover]
    simp [Closure.Over, hk]
  · rw [hk] at hover
    exact hverdict.raises_busy_iff hk (mt hover.2 hlive) arguments
  · exact hverdict.not_raises_busy hk arguments
  · exact fun hx => hverdict.unchanged hx

/-- A shared closure that was dropped can be called no more. -/
theorem faults_of_history_dropped :
    ((boot (.ofPages Unit 0 0) .standard).runs
      [.perform (.wrap .shared 1 8 2), .call (.drop 0)]).Raises 0 [] (.alreadyDropped .shared) :=
  ((faults_of_history (.ofPages Unit 0 0) .standard
    [.perform (.wrap .shared 1 8 2), .call (.drop 0)] 0
    { kind := .shared, adapter := 1, pointer := 8, deallocator := 2 } (.head _) rfl []).dropped
      (by decide)).2 (.inr (by decide))

end Machine

end

end Crossing
