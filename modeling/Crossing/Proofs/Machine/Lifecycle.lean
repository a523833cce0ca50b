import Crossing.Proofs.Instance.Chronicle

/-!
# The life of an instance

An instance is started and may be aborted, and neither is ever undone: every action keeps `Lives`,
whatever bodies it is taken in. So the guest's entry point is entered at most once in a run
(`Machine.length_mains_le`): the first start on a live instance enters it, and every later start is
refused, whatever came of the first.

An aborted instance refuses to start, to call a closure and to run a capability before it looks at
anything, so that nothing of the machine changes (`Machine.refuses_of_dead`).
-/

namespace Crossing

open Effect

section
variable {Code α : Type}

/-! ## Starting and dying -/

/-- The journal tells of an abort. -/
def Instance.Aborted (i : Instance Code) : Prop := ∃ report, .aborted report ∈ i.events

/-- What was started or dead in `i` is so in `i'`, and where the journal told of the death of `i` it
tells of that of `i'`. -/
structure Lives (i i' : Instance Code) : Prop where
  started : i.started = true → i'.started = true
  dead : i.dead = true → i'.dead = true
  told : (i.dead = true ↔ i.Aborted) → (i'.dead = true ↔ i'.Aborted)

namespace Lives

/-- Marks that stay over each step stay over any number of them. -/
theorem steady : Steady fun i i' : Instance Code => Lives i i' where
  refl _ := ⟨id, id, id⟩
  trans h h' := ⟨h'.started ∘ h.started, h'.dead ∘ h.dead, h'.told ∘ h.told⟩

/-- A change of neither the two marks nor the journal. -/
theorem modify {f : Instance Code → Instance Code}
    (hf : ∀ i, (f i).started = i.started ∧ (f i).dead = i.dead ∧ (f i).journal = i.journal) :
    Keeps Lives (modify f) := fun i => by
  obtain ⟨hstarted, hdead, hjournal⟩ := hf i
  rw [exec_modify]
  refine ⟨fun h => hstarted.trans h, fun h => hdead.trans h, fun h => ?_⟩
  rw [hdead, h, Instance.Aborted, Instance.Aborted, Instance.events, Instance.events, hjournal]

/-- An event that tells of no abort. -/
theorem record {e : Event} (he : ∀ report, e ≠ .aborted report) :
    Keeps Lives (record e : Effect Code Unit) := fun i => by
  rw [exec_record]
  refine ⟨id, id, fun h => h.trans ?_⟩
  simp only [Instance.Aborted, Instance.events_log, List.mem_append, List.mem_singleton]
  exact exists_congr fun report => (or_iff_left (he report).symm).symm

/-- Allocations and writes leave the marks as they are. -/
theorem allocating : Allocating fun i i' : Instance Code => Lives i i' where
  toSteady := steady
  modify _ hf := modify fun i => ⟨(hf i).1.started, (hf i).1.dead, (hf i).2⟩
  record e he := record (by rintro report rfl; cases he)

/-- An abort is told of and leaves the instance dead. -/
theorem abort (report : AbortReport) : Keeps Lives (abort report : Effect Code Unit) := fun i =>
  ⟨id, fun _ => rfl, fun _ => iff_of_true rfl
    ⟨report, (i.events_log (.aborted report)).symm ▸ List.mem_append_right _ (.head _)⟩⟩

/-- Every action keeps an instance started and dead. -/
theorem acting : Acting fun i i' : Instance Code => Lives i i' :=
  Overlooking.acting
    { toWriting := allocating.writing
      acquire := steady.acquire (fun _ => modify fun _ => ⟨rfl, rfl, rfl⟩)
        (fun _ _ => record nofun) fun _ _ => record nofun
      registerRaw := steady.registerRaw fun _ => modify fun _ => ⟨rfl, rfl, rfl⟩
      started := fun _ => ⟨fun _ => rfl, id, id⟩
      modify := fun _ hf => modify fun i => ⟨(hf i).started, (hf i).dead, (hf i).journal⟩
      record := fun _ he => record (by rintro report rfl; cases he)
      grow := allocating.grow
      increment := steady.increment fun _ => modify fun _ => ⟨rfl, rfl, rfl⟩
      decrement := steady.decrement (fun _ => modify fun _ => ⟨rfl, rfl, rfl⟩) fun _ =>
        record nofun
      unregisterRaw := steady.unregisterRaw fun _ => modify fun _ => ⟨rfl, rfl, rfl⟩
      abort }

end Lives

/-- An instance that a run reaches is dead exactly when its journal tells of an abort. -/
theorem Machine.dead_iff_aborted (guest : Guest Code) (config : Config)
    (as : List (Action Code)) :
    ((boot guest config).runs as).inst.dead = true ↔ ((boot guest config).runs as).inst.Aborted :=
  (Lives.acting.runs (boot guest config) as).told (iff_of_false nofun nofun)

/-! ## Aborts -/

/-- Whether the action is an abort. -/
def Action.isAbort : Action Code → Bool
  | .perform (.abort _) | .perform (.abortFromGuest _ _ _ _ _) => true
  | _ => false

/-- A text that cannot be read is left out. -/
theorem Effect.exec_readOptionalText (pointer length : UInt32) (i : Instance Code) :
    ∃ text i', exec (readOptionalText pointer length) i = (.ok text, i') := by
  unfold readOptionalText
  split
  · exact ⟨none, i, rfl⟩
  · rw [exec_tryCatch, exec_map]
    rcases exec (loadText pointer length) i with ⟨x | text, i'⟩
    · exact ⟨none, i', rfl⟩
    · exact ⟨some text, i', rfl⟩

/-- Whatever it finds in guest memory, an abort ends with the one effect that aborts. -/
theorem Action.exists_abort {a : Action Code} (ha : a.isAbort = true) (m : Machine Code) :
    ∃ (report : AbortReport) (i : Instance Code),
      (m.act a).inst = (exec (abort report : Effect Code Unit) i).2 := by
  cases a with
  | call => cases ha
  | leave => cases ha
  | perform op =>
    cases op with
    | abort report => exact ⟨report, m.inst, rfl⟩
    | abortFromGuest file fileLength line message messageLength =>
      obtain ⟨text, i₁, h₁⟩ := exec_readOptionalText file fileLength m.inst
      obtain ⟨text', i₂, h₂⟩ := exec_readOptionalText message messageLength i₁
      refine ⟨⟨text.map fun name => (name, line), text'⟩, i₂, ?_⟩
      rw [Machine.inst_act_perform]
      show (exec (abortFromGuest _ _ _ _ _) m.inst).2 = _
      unfold abortFromGuest
      rw [exec_bind_of_ok h₁, exec_bind_of_ok h₂]
    | _ => cases ha

/-- An abort leaves the instance dead. -/
theorem Action.dead_act {a : Action Code} (ha : a.isAbort = true) (m : Machine Code) :
    (m.act a).inst.dead = true := by
  obtain ⟨report, i, hi⟩ := exists_abort ha m
  rw [hi]
  rfl

/-- After an abort the instance is dead for good. -/
theorem Machine.dead_of_abort {m : Machine Code} {as : List (Action Code)} {a : Action Code}
    (ha : a ∈ as) (habort : a.isAbort = true) : (m.runs as).inst.dead = true := by
  obtain ⟨before, after, rfl⟩ := List.append_of_mem ha
  rw [runs_append]
  exact (Lives.acting.runs ((m.runs before).act a) after).dead (Action.dead_act habort _)

/-! ## Starts -/

/-- A start on a live instance that was not started marks it as started and goes to the entry
point. -/
theorem Effect.exec_begin {i : Instance Code} (hdead : i.dead = false)
    (hstarted : i.started = false) :
    ∃ i', exec begin i = (.ok i.guest.entryPoint, i') ∧ i'.started = true := by
  unfold begin
  rw [exec_bind_of_ok (exec_ensureAlive hdead), exec_bind_of_ok (exec_get i), hstarted]
  exact ⟨_, rfl, rfl⟩

/-- A start on a live instance that was started is refused. -/
theorem Effect.exec_begin_of_started {i : Instance Code} (hdead : i.dead = false)
    (hstarted : i.started = true) : exec begin i = (.error .alreadyStarted, i) := by
  unfold begin
  rw [exec_bind_of_ok (exec_ensureAlive hdead), exec_bind_of_ok (exec_get i), hstarted]
  rfl

namespace Machine

variable {m : Machine Code}

/-- The call is answered with the fault `x`, and nothing changes. -/
def Refuses (m : Machine Code) (c : Call) (x : Fault) : Prop :=
  m.call c = (.answered (.error x), m)

/-- A start is refused when its check is. -/
theorem refuses_start {x : Fault} (h : exec begin m.inst = (.error x, m.inst)) :
    m.Refuses .start x := by
  simp only [Refuses, call, run_eq, h]

/-- A dead instance does not start, calls no closure and runs no capability. -/
theorem refuses_of_dead (hdead : m.inst.dead = true) :
    m.Refuses .start .dead ∧ (∀ id arguments, m.Refuses (.closure id arguments) .dead) ∧
      ∀ name slot arguments, m.Refuses (.capability name slot arguments) .dead := by
  have hensure := exec_ensureAlive_of_dead hdead
  refine ⟨refuses_start (exec_bind_of_error hensure), fun id arguments => ?_,
    fun name slot arguments => ?_⟩
  · exact callClosure_of_refused (exec_authorize_of_dead hdead)
  · have hsummon : exec (summon name arguments) m.inst = (.error .dead, m.inst) :=
      exec_bind_of_error hensure
    simp only [Refuses, call, run_eq, hsummon]

/-- An instance that was started does not start again. -/
theorem refuses_of_started (hstarted : m.inst.started = true) :
    m.Refuses .start (if m.inst.dead then .dead else .alreadyStarted) := by
  cases hdead : m.inst.dead with
  | true => exact (refuses_of_dead hdead).1
  | false => exact refuses_start (exec_begin_of_started hdead hstarted)

/-! ## The entry point -/

/-- The code of the entry point, when a step has just entered it. -/
def main? : Reply Code × Machine Code → Option Code
  | (.entered code _ _, ⟨_, .entryPoint :: _⟩) => some code
  | _ => none

/-- The code of the entry point, when the action enters it. -/
def enters? (m : Machine Code) : Action Code → Option Code
  | .perform _ => none
  | .call c => main? (m.call c)
  | .leave completion => main? (m.leave completion)

/-- The entry points that a run enters, oldest first. -/
def mains (m : Machine Code) : List (Action Code) → List Code
  | [] => []
  | a :: as => (m.enters? a).toList ++ (m.act a).mains as

/-- The entry points of a run in two parts are those of both. -/
theorem mains_append (m : Machine Code) (as bs : List (Action Code)) :
    m.mains (as ++ bs) = m.mains as ++ (m.runs as).mains bs := by
  induction as generalizing m with
  | nil => rfl
  | cons a as ih => rw [List.cons_append, mains, mains, ih, List.append_assoc, runs_cons]

/-- A drop enters no entry point. -/
theorem main?_drop (m : Machine Code) (id : Nat) (pending : Option (Except Fault Value)) :
    main? (m.drop id pending) = none := by
  unfold drop
  dsimp only
  split
  · rfl
  split
  · rfl
  split
  · rfl
  split <;> rfl

/-- Nor does the end of a call. -/
theorem main?_endCall (m : Machine Code) (id : Nat) (result : Except Fault Unit) :
    main? (m.endCall id result) = none := by
  rw [endCall_eq]
  split
  · exact main?_drop _ _ _
  · rfl

/-- Nor does a call of a closure. -/
theorem main?_callClosure (m : Machine Code) (id : Nat) (arguments : List Value) :
    main? (m.callClosure id arguments) = none := by
  rcases hauthorize : exec (authorize id) m.inst with ⟨x | pointer, i⟩
  · rw [callClosure_of_refused hauthorize]
    rfl
  rcases hmarshal : exec (marshal arguments) i with ⟨x | slot, i'⟩
  · rw [callClosure_of_unstaged hauthorize hmarshal]
    rfl
  rw [callClosure_of_staged hauthorize hmarshal]
  split
  · rfl
  · exact main?_endCall _ _ _

/-- The end of a body is followed by a deallocator at most. -/
theorem main?_leave (m : Machine Code) (completion : Completion) :
    main? (m.leave completion) = none := by
  unfold leave
  split
  · rfl
  · split
    · rfl
    · rfl
    · exact main?_endCall _ _ _
    · rfl
    · split
      · rfl
      · split <;> rfl

/-- A start enters the entry point unless the instance is dead or was started. -/
theorem enters?_start (m : Machine Code) :
    m.enters? (.call .start) =
      if m.inst.dead || m.inst.started then none else m.inst.guest.entryPoint := by
  cases hdead : m.inst.dead with
  | true =>
    rw [enters?, (refuses_of_dead hdead).1]
    rfl
  | false =>
    cases hstarted : m.inst.started with
    | true =>
      rw [enters?, refuses_of_started hstarted]
      rfl
    | false =>
      obtain ⟨i', hexec, -⟩ := exec_begin hdead hstarted
      simp only [enters?, call, run_eq, hexec]
      cases m.inst.guest.entryPoint <;> rfl

/-- Nothing but a start enters the entry point. -/
theorem eq_start_of_enters? {a : Action Code} {code : Code} (h : m.enters? a = some code) :
    a = .call .start := by
  cases a with
  | perform => cases h
  | leave completion =>
    rw [enters?, main?_leave] at h
    cases h
  | call c =>
    cases c with
    | start => rfl
    | indirect index signature arguments =>
      simp only [enters?, call] at h
      split at h <;> cases h
    | closure id arguments =>
      rw [enters?, call, main?_callClosure] at h
      cases h
    | drop id =>
      rw [enters?, call, main?_drop] at h
      cases h
    | capability name slot arguments =>
      simp only [enters?, call] at h
      split at h <;> cases h

/-- A start on a live instance leaves it started. -/
theorem started_act_start (hdead : m.inst.dead = false) :
    (m.act (.call .start)).inst.started = true := by
  cases hstarted : m.inst.started with
  | true => exact (Lives.acting.act m (.call .start)).started hstarted
  | false =>
    obtain ⟨i', hexec, hi'⟩ := exec_begin hdead hstarted
    simp only [act, call, run_eq, hexec]
    cases m.inst.guest.entryPoint <;> exact hi'

/-- An action that enters the entry point begins on an instance that was not started, and leaves it
started. -/
theorem started_of_enters? {a : Action Code} {code : Code} (h : m.enters? a = some code) :
    m.inst.started = false ∧ (m.act a).inst.started = true := by
  obtain rfl := eq_start_of_enters? h
  rw [enters?_start] at h
  cases hdead : m.inst.dead with
  | true => simp [hdead] at h
  | false =>
    refine ⟨?_, started_act_start hdead⟩
    cases hstarted : m.inst.started with
    | true => simp [hstarted] at h
    | false => rfl

/-- A run from an instance that was started enters the entry point no more. -/
theorem mains_of_started (hstarted : m.inst.started = true) (as : List (Action Code)) :
    m.mains as = [] := by
  induction as generalizing m with
  | nil => rfl
  | cons a as ih =>
    have hnone : m.enters? a = none := Option.eq_none_iff_forall_ne_some.2 fun code h =>
      Bool.false_ne_true ((started_of_enters? h).1.symm.trans hstarted)
    rw [mains, hnone, ih ((Lives.acting.act m a).started hstarted)]
    rfl

/-- A run enters the entry point at most once. -/
theorem length_mains_le (m : Machine Code) (as : List (Action Code)) :
    (m.mains as).length ≤ 1 := by
  induction as generalizing m with
  | nil => exact Nat.zero_le 1
  | cons a as ih =>
    rw [mains]
    cases h : m.enters? a with
    | none => exact ih (m.act a)
    | some code =>
      rw [mains_of_started (started_of_enters? h).2]
      exact Nat.le_refl 1

/-- A run that leaves the instance not started has entered no entry point. -/
theorem mains_of_not_started {as : List (Action Code)} (h : (m.runs as).inst.started = false) :
    m.mains as = [] := by
  induction as generalizing m with
  | nil => rfl
  | cons a as ih =>
    have hnone : m.enters? a = none := Option.eq_none_iff_forall_ne_some.2 fun code ha =>
      Bool.false_ne_true (h.symm.trans
        ((Lives.acting.runs (m.act a) as).started (started_of_enters? ha).2))
    rw [mains, hnone, ih h]
    rfl

/-! ## Runs -/

/-- What holds of the life of the instance in the run `as` from `m`: neither mark is taken back, the
entry point is entered at most once, which is by the first start that is made while the instance is
alive, and later starts are refused. The instance is dead exactly after an abort, and then starts,
calls of closures and calls of capabilities are answered with the fault that says so and change
nothing. -/
structure Lifecycle (m : Machine Code) (as : List (Action Code)) : Prop where
  lasting : ∀ before after, as = before ++ after →
    ((m.runs before).inst.started = true → (m.runs as).inst.started = true) ∧
      ((m.runs before).inst.dead = true → (m.runs as).inst.dead = true)
  entered : (m.mains as).length ≤ 1
  first : ∀ before after, as = before ++ .call .start :: after →
    (m.runs before).inst.dead = false → (m.runs before).inst.started = false →
      m.mains as = (m.runs before).inst.guest.entryPoint.toList
  restarted : ∀ before after, as = before ++ .call .start :: after →
    (m.runs before).inst.dead = false →
      (m.runs as).Refuses .start (if (m.runs as).inst.dead then .dead else .alreadyStarted)
  aborted : ∀ a ∈ as, a.isAbort = true → (m.runs as).inst.dead = true
  told : (m.runs as).inst.dead = true ↔ (m.runs as).inst.Aborted
  refused : (m.runs as).inst.dead = true → (m.runs as).Refuses .start .dead ∧
    (∀ id arguments, (m.runs as).Refuses (.closure id arguments) .dead) ∧
      ∀ name slot arguments, (m.runs as).Refuses (.capability name slot arguments) .dead

/-- Every run of a fresh machine keeps to this, whatever is called in whichever body. -/
theorem lifecycle_runs (guest : Guest Code) (config : Config) (as : List (Action Code)) :
    Lifecycle (boot guest config) as where
  lasting before after has := by
    subst has
    rw [runs_append]
    have hlives := Lives.acting.runs ((boot guest config).runs before) after
    exact ⟨hlives.started, hlives.dead⟩
  entered := length_mains_le _ as
  first before after has hdead hstarted := by
    subst has
    rw [mains_append, mains_of_not_started hstarted, mains, enters?_start, hdead, hstarted,
      mains_of_started (started_act_start hdead)]
    exact List.append_nil _
  restarted before after has hdead := by
    subst has
    rw [runs_append, runs_cons]
    exact refuses_of_started ((Lives.acting.runs _ after).started (started_act_start hdead))
  aborted a ha := dead_of_abort ha
  told := dead_iff_aborted guest config as
  refused := refuses_of_dead

/-- The entry point starts the instance again while it runs and then aborts it; a host has wrapped a
single-use closure before. -/
def startedTwice : List (Action Unit) :=
  [.perform (.setEntryPoint ()), .perform (.wrap .once 1 8 2), .call .start, .call .start,
    .perform (.abort ⟨none, none⟩)]

/-- The entry point is entered once, the second start is refused, and on the dead instance a call
of the closure is refused and leaves the closure its pointer. -/
theorem lifecycle_runs_startedTwice :
    (boot (.ofPages Unit 0 0) .standard).mains startedTwice = [()] ∧
      ((boot (.ofPages Unit 0 0) .standard).runs (startedTwice.take 3)).Refuses .start
        .alreadyStarted ∧
      ((boot (.ofPages Unit 0 0) .standard).runs startedTwice).Refuses .start .dead ∧
      ((boot (.ofPages Unit 0 0) .standard).runs startedTwice).Refuses (.closure 0 []) .dead ∧
      (((boot (.ofPages Unit 0 0) .standard).runs startedTwice).inst.closure 0).pointer = 8 := by
  have hlife := lifecycle_runs (.ofPages Unit 0 0) .standard startedTwice
  have hdead := hlife.aborted (.perform (.abort ⟨none, none⟩)) (by simp [startedTwice]) rfl
  obtain ⟨hstart, hclosure, -⟩ := hlife.refused hdead
  refine ⟨hlife.first (startedTwice.take 2) (startedTwice.drop 3) rfl rfl rfl, ?_, hstart,
    hclosure 0 [], rfl⟩
  exact (lifecycle_runs (.ofPages Unit 0 0) .standard (startedTwice.take 3)).restarted
    (startedTwice.take 2) [] rfl rfl

end Machine

end

end Crossing
