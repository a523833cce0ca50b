import Crossing.Proofs.Instance.Keeps

/-!
# Runs of a machine

A run is any sequence of actions: operations, calls and ends of bodies, in any order. Which code
takes them is left open, so what holds after every run holds for all guests and hosts.

`Calling` says that a relation between instances is kept by the steps that calls and ends of bodies
are made of, and `Acting` that it is kept by those of operations as well. `Acting.act` concludes it
for one action, and `Acting.runs` for a run.
-/

namespace Crossing

open Effect

section
variable {Code α : Type}

/-! ## Pieces of the calls -/

/-- The function at an index of the table is found when a call passes as many words as it says. -/
theorem Effect.exec_target {callee : Callee} {index : UInt32} {signature : Signature}
    {words : List UInt32} {i : Instance Code} {code : Code}
    (hlength : words.length = signature.arity)
    (hcode : i.guest.functions[index.toNat]? = some (some code)) :
    exec (target callee index signature words) i =
      (.ok code, i.log (.called callee index words)) := by
  have hlog : (i.log (.called callee index words)).guest.functions[index.toNat]? =
      some (some code) := hcode
  unfold target
  rw [exec_bind_of_ok (exec_record _ i), if_neg (not_not_intro hlength),
    exec_bind_of_ok (exec_get _)]
  simp only [hlog, exec_pure]

/-- A call by index is told of, and changes nothing else. -/
theorem Effect.target_inst (callee : Callee) (index : UInt32) (signature : Signature)
    (arguments : List UInt32) (i : Instance Code) :
    (exec (target callee index signature arguments) i).2 =
      i.log (.called callee index arguments) := by
  unfold target
  rw [exec_bind_of_ok (exec_record _ _)]
  dsimp only
  split
  · rfl
  · rw [exec_bind_of_ok (exec_get _)]
    split <;> rfl

/-- A call by index finds a function, or is refused because there is none. -/
theorem Effect.target_cases {callee : Callee} {index : UInt32} {signature : Signature}
    {words : List UInt32} (hlength : words.length = signature.arity) (i : Instance Code) :
    (∃ code, i.guest.functions[index.toNat]? = some (some code) ∧
        (exec (target callee index signature words) i).1 = .ok code) ∨
      (∀ code, i.guest.functions[index.toNat]? ≠ some (some code)) ∧
        (exec (target callee index signature words) i).1 = .error (.unknownFunction index) := by
  have hfunctions : (i.log (.called callee index words)).guest.functions = i.guest.functions := rfl
  unfold target
  rw [exec_bind_of_ok (exec_record _ i), if_neg (not_not_intro hlength),
    exec_bind_of_ok (exec_get _), hfunctions]
  split
  · next code hcode => exact .inl ⟨code, hcode, rfl⟩
  · next hnone => exact .inr ⟨hnone, rfl⟩

/-- Of what a call by index finds only a function is entered. -/
theorem Effect.target_eq_ok_iff {callee : Callee} {index : UInt32} {signature : Signature}
    {words : List UInt32} (hlength : words.length = signature.arity) {i : Instance Code}
    {code : Code} :
    (exec (target callee index signature words) i).1 = .ok code ↔
      i.guest.functions[index.toNat]? = some (some code) := by
  rcases target_cases hlength i with ⟨code', hcode, h⟩ | ⟨hnone, h⟩
  · rw [h, hcode, Except.ok.injEq, Option.some.injEq, Option.some.injEq]
  · rw [h]
    exact iff_of_false nofun (hnone code)

/-- Where a call by index is refused, there is no function. -/
theorem Effect.target_eq_error_iff {callee : Callee} {index : UInt32} {signature : Signature}
    {words : List UInt32} (hlength : words.length = signature.arity) {i : Instance Code}
    {x : Fault} :
    (exec (target callee index signature words) i).1 = .error x ↔
      x = .unknownFunction index ∧ ∀ code, i.guest.functions[index.toNat]? ≠ some (some code) := by
  rcases target_cases hlength i with ⟨code, hcode, h⟩ | ⟨hnone, h⟩
  · rw [h]
    exact iff_of_false nofun fun hnone => hnone.2 code hcode
  · rw [h, Except.error.injEq, and_iff_left hnone, eq_comm]

/-- The check lets an instance through that is alive. -/
theorem Effect.exec_ensureAlive {i : Instance Code} (h : i.dead = false) :
    exec ensureAlive i = (.ok (), i) := by
  unfold ensureAlive
  rw [exec_bind_of_ok (exec_get i), h]
  rfl

/-- It refuses one that is dead. -/
theorem Effect.exec_ensureAlive_of_dead {i : Instance Code} (h : i.dead = true) :
    exec ensureAlive i = (.error .dead, i) := by
  unfold ensureAlive
  rw [exec_bind_of_ok (exec_get i), h]
  rfl

section
variable {id : Nat} {i : Instance Code}

/-- A call is refused when the guest has aborted. -/
theorem Effect.exec_authorize_of_dead (hdead : i.dead = true) :
    exec (authorize id) i = (.error .dead, i) :=
  exec_bind_of_error (exec_ensureAlive_of_dead hdead)

/-- A call is refused when its closure can no longer be called. -/
theorem Effect.exec_authorize_of_error (hdead : i.dead = false) {x : Fault}
    (hlive : (i.closure id).checkLive = .error x) : exec (authorize id) i = (.error x, i) := by
  unfold authorize
  rw [exec_bind_of_ok (exec_ensureAlive hdead), exec_bind_of_ok (exec_get i)]
  dsimp only
  rw [hlive]
  rfl

/-- A live closure is called with its pointer, according to its contract. -/
theorem Effect.exec_authorize (hdead : i.dead = false)
    (hlive : (i.closure id).checkLive = .ok ()) :
    exec (authorize id) i =
      match (i.closure id).kind with
      | .shared => (.ok (i.closure id).pointer, i)
      | .exclusive => ((i.closure id).checkExclusive.map fun _ => (i.closure id).pointer, i)
      | .once => ((i.closure id).checkExclusive.map fun _ => (i.closure id).pointer,
          i.updateClosure id fun c => { c with pointer := 0, dropped := true }) := by
  unfold authorize
  rw [exec_bind_of_ok (exec_ensureAlive hdead), exec_bind_of_ok (exec_get i)]
  dsimp only
  rw [hlive]
  cases (i.closure id).kind with
  | shared => rfl
  | exclusive => cases (i.closure id).checkExclusive <;> rfl
  | once => cases (i.closure id).checkExclusive <;> rfl

/-- A live shared closure is called with its pointer. -/
theorem Effect.exec_authorize_shared (hdead : i.dead = false)
    (hlive : (i.closure id).checkLive = .ok ()) (hkind : (i.closure id).kind = .shared) :
    exec (authorize id) i = (.ok (i.closure id).pointer, i) := by
  rw [exec_authorize hdead hlive, hkind]

end

/-- The instance with one more call of a closure. -/
def Instance.called (i : Instance Code) (id : Nat) : Instance Code :=
  i.updateClosure id fun c => { c with inFlight := c.inFlight + 1 }

/-! ## Runs -/

/-- What the innermost body does next. -/
inductive Action (Code : Type) : Type 1 where
  | perform {α : Type} (op : Operation Code α)
  | call (c : Call)
  | leave (completion : Completion)

namespace Machine

/-- A machine with nothing running on a fresh instance. -/
def boot (guest : Guest Code) (config : Config) : Machine Code := { inst := .ofGuest guest config }

/-- Takes one action. -/
def act (m : Machine Code) : Action Code → Machine Code
  | .perform op => (m.perform op).2
  | .call c => (m.call c).2
  | .leave completion => (m.leave completion).2

/-- Takes one action after the other. -/
def runs (m : Machine Code) (as : List (Action Code)) : Machine Code := as.foldl act m

@[simp] theorem runs_nil (m : Machine Code) : m.runs [] = m := rfl

@[simp] theorem runs_cons (m : Machine Code) (a : Action Code) (as : List (Action Code)) :
    m.runs (a :: as) = (m.act a).runs as := rfl

/-- A run in two parts is one run. -/
theorem runs_append (m : Machine Code) (as bs : List (Action Code)) :
    m.runs (as ++ bs) = (m.runs as).runs bs := List.foldl_append

/-- Running an effect changes the instance only. -/
theorem run_eq (m : Machine Code) (e : Effect Code α) :
    m.run e = ((exec e m.inst).1, { m with inst := (exec e m.inst).2 }) := rfl

/-- An operation is performed by running its effect. -/
theorem perform_of_exec {m : Machine Code} {op : Operation Code α} {r : Except Fault α}
    {i' : Instance Code} (h : exec op.run m.inst = (r, i')) :
    m.perform op = (r, { m with inst := i' }) := by
  rw [perform, run_eq, h]

/-- The action of an operation. -/
theorem act_of_perform {m m' : Machine Code} {op : Operation Code α} {r : Except Fault α}
    (h : m.perform op = (r, m')) : m.act (.perform op) = m' := by
  rw [act, h]

/-- What an operation leaves. -/
theorem inst_act_perform (m : Machine Code) (op : Operation Code α) :
    (m.act (.perform op)).inst = (exec op.run m.inst).2 := by
  rw [act, perform, run_eq]

/-- A machine with one event more in its journal. -/
def log (m : Machine Code) (e : Event) : Machine Code := { m with inst := m.inst.log e }

/-- A machine when a call of a closure has been counted off and the transfer slot is empty. -/
def concluded (m : Machine Code) (id : Nat) : Machine Code :=
  { m with inst :=
    (exec takeTransfer (m.inst.updateClosure id fun c => { c with inFlight := c.inFlight - 1 })).2 }

/-- The end of a call answers what the transfer slot holds, when a drop that waited for just this
call has been carried out. -/
theorem endCall_eq (m : Machine Code) (id : Nat) (result : Except Fault Unit) :
    m.endCall id result =
      if ((m.concluded id).inst.closure id).dropQueued &&
          ((m.concluded id).inst.closure id).inFlight = 0 then
        ((m.concluded id).log (.dropDeferred id ((m.concluded id).inst.closure id).kind)).drop id
          (some (result.map fun _ => m.inst.transfer.getD .undefined))
      else (.answered (result.map fun _ => m.inst.transfer.getD .undefined), m.concluded id) := by
  have htaken : ((exec takeTransfer
      (m.inst.updateClosure id fun c => { c with inFlight := c.inFlight - 1 })).1).toOption.join =
      m.inst.transfer := by
    rw [exec_takeTransfer]
    rfl
  rw [← htaken]
  rfl

section
variable {m : Machine Code} {id : Nat} {arguments : List Value} {i i' : Instance Code}
  {pointer slot : UInt32} {x : Fault}

/-- A call that the checks refuse. -/
theorem callClosure_of_refused (h : exec (authorize id) m.inst = (.error x, i)) :
    m.callClosure id arguments = (.answered (.error x), { m with inst := i }) := by
  have hexec : exec (do
      let pointer ← authorize id
      let slot ← marshal arguments
      return [pointer, slot] : Effect Code (List UInt32)) m.inst = (.error x, i) :=
    exec_bind_of_error h
  unfold callClosure
  dsimp only
  rw [run_eq, hexec]

/-- A call whose arguments cannot be encoded. -/
theorem callClosure_of_unstaged (h : exec (authorize id) m.inst = (.ok pointer, i))
    (h' : exec (marshal arguments) i = (.error x, i')) :
    m.callClosure id arguments = (.answered (.error x), { m with inst := i' }) := by
  have hexec : exec (do
      let pointer ← authorize id
      let slot ← marshal arguments
      return [pointer, slot] : Effect Code (List UInt32)) m.inst = (.error x, i') :=
    (exec_bind_of_ok h).trans (exec_bind_of_error h')
  unfold callClosure
  dsimp only
  rw [run_eq, hexec]

/-- A call that has been counted goes to the adapter, and ends at once when there is none. -/
theorem callClosure_of_staged (h : exec (authorize id) m.inst = (.ok pointer, i))
    (h' : exec (marshal arguments) i = (.ok slot, i')) :
    m.callClosure id arguments =
      match (exec (target (.adapter id) ((i'.called id).closure id).adapter .two [pointer, slot])
        (i'.called id)).1 with
      | .ok code => (.entered code [pointer, slot] [],
        { inst := (i'.called id).log
            (.called (.adapter id) ((i'.called id).closure id).adapter [pointer, slot])
          frames := .adapter id :: m.frames })
      | .error fault => ({ m with inst := (i'.called id).log (.called (.adapter id)
          ((i'.called id).closure id).adapter [pointer, slot]) } : Machine Code).endCall id
            (.error fault) := by
  have hexec : exec (do
      let pointer ← authorize id
      let slot ← marshal arguments
      return [pointer, slot] : Effect Code (List UInt32)) m.inst = (.ok [pointer, slot], i') :=
    (exec_bind_of_ok h).trans (exec_bind_of_ok h')
  have hinst : (Machine.updateClosure { m with inst := i' } id fun c =>
      { c with inFlight := c.inFlight + 1 }).inst = i'.called id := rfl
  have htarget := target_inst (.adapter id) ((i'.called id).closure id).adapter .two
    [pointer, slot] (i'.called id)
  unfold callClosure
  dsimp only
  rw [run_eq, hexec]
  dsimp only
  rw [run_eq, hinst, htarget]
  cases (exec (target _ _ _ _) (i'.called id)).1 <;> rfl

/-- A call that is let through enters the closure's adapter. -/
theorem callClosure_of_exec {code : Code}
    (hauthorize : exec (authorize id) m.inst = (.ok pointer, m.inst))
    (hmarshal : exec (marshal arguments) m.inst = (.ok slot, i))
    (hcode : (i.called id).guest.functions[((i.called id).closure id).adapter.toNat]? =
      some (some code)) :
    (m.callClosure id arguments).2 =
      { inst := (i.called id).log
          (.called (.adapter id) ((i.called id).closure id).adapter [pointer, slot])
        frames := .adapter id :: m.frames } := by
  rw [callClosure_of_staged hauthorize hmarshal, exec_target rfl hcode]

end

end Machine

/-- Whether an event tells that the entry point or a capability is about to run. -/
def Event.isEntry : Event → Bool
  | .starting _ | .invoked _ _ => true
  | _ => false

/-- Whether an event tells of a call by index or of a drop. -/
def Event.isStep : Event → Bool
  | .called _ _ _ | .dropDeferred _ _ | .dropping _ _ _ => true
  | _ => false

/-- The arguments of a call are marshalled with what encoding is made of. -/
theorem Encoding.marshal {R : Instance Code → Instance Code → Prop} (h : Encoding R)
    (arguments : List Value) : Keeps R (marshal arguments) :=
  h.bind (h.alloc _) fun _ => h.bind (h.encodeArray _ _) fun _ => h.pure _

/-- The relation `R` is kept by the steps with which the entry point and capabilities begin. -/
structure Entering (R : Instance Code → Instance Code → Prop) : Prop extends Serving R where
  entry : ∀ e : Event, e.isEntry → Keeps R (record e)
  started : Keeps R (modify fun i => { i with started := true })

namespace Entering

variable {R : Instance Code → Instance Code → Prop}

/-- The check keeps the relation. -/
theorem ensureAlive (h : Entering R) : Keeps R ensureAlive := by
  refine h.bind h.get fun i => ?_
  split
  · exact h.throw _
  · exact h.pure _

/-- The start of the instance keeps it. -/
theorem begin (h : Entering R) : Keeps R begin :=
  h.bind h.ensureAlive fun _ => h.bind h.get fun _ => h.guard <|
    h.bind h.started fun _ => h.bind h.publish fun _ => h.bind (h.buffer _) fun _ =>
      h.bind (h.entry _ rfl) fun _ => h.bind h.get fun _ => h.pure _

/-- So does the call of a capability by its name. -/
theorem summon (h : Entering R) (name : String) (arguments : List UInt32) :
    Keeps R (summon name arguments) := by
  refine h.bind h.ensureAlive fun _ => h.bind h.get fun i => ?_
  split
  · exact h.throw _
  · exact h.bind (h.mapM h.decode _) fun _ => h.bind (h.entry _ rfl) fun _ => h.pure _

end Entering

/-- The relation `R` is kept by the steps that calls and ends of bodies are made of. -/
structure Calling (R : Instance Code → Instance Code → Prop) : Prop extends Entering R where
  step : ∀ e : Event, e.isStep → Keeps R (record e)
  updateClosure : ∀ id f, Keeps R (updateClosure id f)

namespace Calling

variable {R : Instance Code → Instance Code → Prop}

/-- So does looking up the function of a call. -/
theorem target (h : Calling R) (callee : Callee) (index : UInt32) (signature : Signature)
    (arguments : List UInt32) : Keeps R (target callee index signature arguments) := by
  refine h.bind (h.step _ rfl) fun _ => h.guard <| h.bind h.get fun i => ?_
  split
  · exact h.pure _
  · exact h.throw _

/-- So do the checks of a call. -/
theorem authorize (h : Calling R) (id : Nat) : Keeps R (authorize id) := by
  refine h.bind h.ensureAlive fun _ => h.bind h.get fun i => h.bind (h.lift _) fun _ => ?_
  split
  · exact h.pure _
  · exact h.bind (h.lift _) fun _ => h.pure _
  · exact h.bind (h.updateClosure _ _) fun _ => h.bind (h.lift _) fun _ => h.pure _

/-! ## Calls and ends of bodies -/

/-- Running an effect that keeps the relation. -/
theorem run_inst {e : Effect Code α} (he : Keeps R e) (m : Machine Code) :
    R m.inst (m.run e).2.inst := he m.inst

/-- So does a drop. -/
theorem drop (h : Calling R) (m : Machine Code) (id : Nat) (pending : Option (Except Fault Value)) :
    R m.inst (m.drop id pending).2.inst := by
  have hfree (k : ClosureKind) (index pointer : UInt32) : Keeps R (do
      record (.dropping id k pointer)
      Effect.target (.deallocator id) index .one [pointer] : Effect Code Code) :=
    h.bind (h.step _ rfl) fun _ => h.target _ _ _ _
  unfold Machine.drop
  dsimp only
  split
  · exact h.updateClosure id _ m.inst
  split
  · exact h.refl _
  have hmark := h.updateClosure id (fun c => { c with dropped := true, pointer := 0 }) m.inst
  split
  · exact hmark
  refine h.trans hmark ?_
  have hrun := run_inst (hfree (m.inst.closure id).kind (m.inst.closure id).deallocator
    (m.inst.closure id).pointer)
    (m.updateClosure id fun c => { c with dropped := true, pointer := 0 })
  revert hrun
  generalize Machine.run _ _ = r
  rcases r with ⟨_ | _, m'⟩ <;> exact fun hrun => hrun

/-- So does the end of a call. -/
theorem endCall (h : Calling R) (m : Machine Code) (id : Nat) (result : Except Fault Unit) :
    R m.inst (m.endCall id result).2.inst := by
  have hcount := h.updateClosure id (fun c => { c with inFlight := c.inFlight - 1 }) m.inst
  have htake := h.trans hcount (run_inst h.takeTransfer
    (m.updateClosure id fun c => { c with inFlight := c.inFlight - 1 }))
  unfold Machine.endCall
  dsimp only
  revert htake
  generalize Machine.run _ takeTransfer = r
  obtain ⟨taken, m'⟩ := r
  intro htake
  dsimp only
  split
  · exact h.trans htake (h.trans (run_inst (h.step (.dropDeferred id _) rfl) m') (h.drop _ _ _))
  · exact htake

/-- So does a call of a closure. -/
theorem callClosure (h : Calling R) (m : Machine Code) (id : Nat) (arguments : List Value) :
    R m.inst (m.callClosure id arguments).2.inst := by
  have hmarshal := run_inst (h.bind (h.authorize id) fun pointer =>
    h.bind (h.marshal arguments) fun slot => h.pure [pointer, slot]) m
  unfold Machine.callClosure
  dsimp only
  revert hmarshal
  generalize Machine.run m _ = r
  rcases r with ⟨fault | words, m'⟩ <;> intro hmarshal
  · exact hmarshal
  have hcount :
      R m.inst (m'.updateClosure id fun c => { c with inFlight := c.inFlight + 1 }).inst :=
    h.trans hmarshal (h.updateClosure id _ m'.inst)
  dsimp only
  revert hcount
  generalize m'.updateClosure id _ = m₁
  intro hcount
  have htarget := h.trans hcount
    (run_inst (h.target (.adapter id) (m₁.inst.closure id).adapter .two words) m₁)
  revert htarget
  generalize m₁.run _ = r
  rcases r with ⟨fault | code, m₂⟩ <;> intro htarget
  · exact h.trans htarget (h.endCall m₂ id _)
  · exact htarget

/-- So does every call. -/
theorem call (h : Calling R) (m : Machine Code) (c : Call) : R m.inst (m.call c).2.inst := by
  cases c with
  | start =>
    have hbegin := run_inst h.begin m
    simp only [Machine.call]
    revert hbegin
    generalize m.run Effect.begin = r
    rcases r with ⟨_ | _ | _, m'⟩ <;> exact id
  | indirect index signature arguments =>
    have htarget := run_inst (h.target .direct index signature arguments) m
    simp only [Machine.call]
    revert htarget
    generalize m.run _ = r
    rcases r with ⟨_ | _, m'⟩ <;> exact id
  | closure id arguments => exact h.callClosure m id arguments
  | drop id => exact h.drop m id none
  | capability name slot arguments =>
    have hsummon := run_inst (h.summon name arguments) m
    simp only [Machine.call]
    revert hsummon
    generalize m.run _ = r
    rcases r with ⟨_ | _, m'⟩ <;> exact id

/-- So does the end of every body. -/
theorem leave (h : Calling R) (m : Machine Code) (completion : Completion) :
    R m.inst (m.leave completion).2.inst := by
  unfold Machine.leave
  cases m.frames with
  | nil => exact h.refl _
  | cons frame frames =>
    cases frame with
    | entryPoint => exact h.refl _
    | direct => exact h.refl _
    | adapter id => exact h.endCall { m with frames } id _
    | deallocator id pending => exact h.refl _
    | capability fallible slot =>
      dsimp only
      split
      · exact h.refl _
      · split
        · exact h.refl _
        · exact h.encode slot _ m.inst

end Calling

/-- The relation `R` is kept by the steps that actions are made of. -/
structure Acting (R : Instance Code → Instance Code → Prop) : Prop
    extends Operating R, Calling R

namespace Acting

variable {R : Instance Code → Instance Code → Prop}

/-- Every action keeps the relation. -/
theorem act (h : Acting R) (m : Machine Code) (a : Action Code) : R m.inst (m.act a).inst := by
  cases a with
  | perform op => exact h.run op m.inst
  | call c => exact h.call m c
  | leave completion => exact h.leave m completion

/-- Every run keeps the relation. -/
theorem runs (h : Acting R) (m : Machine Code) (as : List (Action Code)) :
    R m.inst (m.runs as).inst := by
  induction as generalizing m with
  | nil => exact h.refl _
  | cons a as ih => exact h.trans (h.act m a) (ih (m.act a))

end Acting

end

end Crossing
