import Crossing.Proofs.Closure.Pairing
import Crossing.Proofs.Codec.Rereading
import Crossing.Proofs.Machine.Lifecycle

/-!
# What goes through the transfer slot

The one transfer slot of an instance is filled by whoever stores into it and emptied by whoever
takes out of it or ends a call of a closure, in nested calls, failures and aborts alike.
`Machine.parkedIn` and `Machine.takenIn` are the values that a run has put in and taken out. No
action but a successful store fills the slot (`Drains`), so what is taken out is a sublist of what
was put in, in that order (`Machine.sublist_parkedIn`): nothing is handed out twice, and a value
that was lost, to an adapter that faulted or to an abort, is not handed out at all
(`Machine.handed_out_once`).
-/

namespace Crossing

open Effect

section
variable {Code α : Type} {i i' : Instance Code}

/-! ## Steps that fill no slot -/

/-- The slot is as it was, or empty. -/
def Drains (i i' : Instance Code) : Prop := i'.transfer = i.transfer ∨ i'.transfer = none

namespace Drains

/-- What is about neither a closure nor the transfer slot leaves the slot as it was. -/
theorem oblivious : Oblivious fun i i' : Instance Code => Drains i i' where
  refl _ := .inl rfl
  trans h h' := by
    rcases h' with h' | h'
    · exact h.imp h'.trans h'.trans
    · exact .inr h'
  modify _ hf i := .inl (hf i).2.1
  record _ _ _ := .inl rfl

/-- No call and no end of a body fills the slot, and of the operations at most one does. -/
theorem calling : Calling fun i i' : Instance Code => Drains i i' where
  toServing := oblivious.serving (fun _ _ _ _ _ => .inl rfl)
    (fun i => by
      rw [exec_takeTransfer]
      cases h : i.transfer with
      | none => exact .inl rfl
      | some v => exact .inr rfl)
    fun _ _ => .inr rfl
  entry _ _ _ := .inl rfl
  started _ := .inl rfl
  step _ _ _ := .inl rfl
  updateClosure _ _ _ := .inl rfl

/-- What is there afterwards was there before. -/
theorem sublist (h : Drains i i') : i'.transfer.toList.Sublist i.transfer.toList := by
  rcases h with h | h
  · rw [h]
  · rw [h]
    exact List.nil_sublist _

end Drains

/-! ## Values that are put in and taken out -/

namespace Machine

/-- The value that an action puts into the slot: the one that is there after a store that
succeeds. -/
def parkedBy (m : Machine Code) : Action Code → List Value
  | .perform (.storeTransfer address) =>
    match (m.perform (.storeTransfer address)).1 with
    | .ok () => (m.perform (.storeTransfer address)).2.inst.transfer.toList
    | .error _ => []
  | _ => []

/-- The value that an action takes out of the slot: the one that a take answers, and what a call or
the end of a body has found in the slot when it leaves none there. -/
def takenBy (m : Machine Code) : Action Code → List Value
  | .perform .takeTransfer => (m.perform .takeTransfer).1.toOption.join.toList
  | .perform _ => []
  | a =>
    match (m.act a).inst.transfer with
    | none => m.inst.transfer.toList
    | some _ => []

/-- The values that a run puts into the slot, oldest first. -/
def parkedIn (m : Machine Code) : List (Action Code) → List Value
  | [] => []
  | a :: as => m.parkedBy a ++ (m.act a).parkedIn as

/-- The values that a run takes out of the slot, oldest first. -/
def takenIn (m : Machine Code) : List (Action Code) → List Value
  | [] => []
  | a :: as => m.takenBy a ++ (m.act a).takenIn as

variable {m : Machine Code}

/-- A take answers what is in the slot and empties it. -/
theorem perform_takeTransfer (m : Machine Code) :
    (m.perform .takeTransfer).1 = .ok m.inst.transfer ∧
      (m.perform .takeTransfer).2.inst.transfer = none := by
  rw [perform, run_eq]
  show (exec takeTransfer m.inst).1 = _ ∧ (exec takeTransfer m.inst).2.transfer = _
  rw [exec_takeTransfer]
  refine ⟨rfl, ?_⟩
  cases h : m.inst.transfer with
  | none => exact h
  | some v => rfl

/-- A store parks what is decoded, and leaves the slot as it was when nothing is. -/
theorem perform_storeTransfer (m : Machine Code) (address : UInt32) :
    (∃ v, (m.perform (.decode address)).1 = .ok v ∧
      (m.perform (.storeTransfer address)).1 = .ok () ∧
      (m.perform (.storeTransfer address)).2.inst.transfer = some v) ∨
    ∃ x, (m.perform (.decode address)).1 = .error x ∧
      (m.perform (.storeTransfer address)).1 = .error x ∧
      (m.perform (.storeTransfer address)).2.inst.transfer = m.inst.transfer := by
  obtain ⟨cs, -, hread⟩ := Instance.Read.exec_decode m.inst address
  have hdecode : m.perform (.decode address) = ((exec (decode address) m.inst).1,
    { m with inst := (exec (decode address) m.inst).2 }) := rfl
  have hperform : m.perform (.storeTransfer address) = ((exec (storeTransfer address) m.inst).1,
    { m with inst := (exec (storeTransfer address) m.inst).2 }) := rfl
  rcases hexec : exec (decode address) m.inst with ⟨x | v, j⟩ <;> rw [hexec] at hread hdecode
  · have hstore : exec (storeTransfer address) m.inst = (.error x, j) := exec_bind_of_error hexec
    refine .inr ⟨x, by rw [hdecode], ?_⟩
    rw [hperform, hstore]
    obtain ⟨_, _, rfl⟩ := hread.eq
    exact ⟨rfl, rfl⟩
  · have hstore : exec (storeTransfer address) m.inst = exec (park v) j := exec_bind_of_ok hexec
    refine .inl ⟨v, by rw [hdecode], ?_⟩
    rw [hperform, hstore]
    exact ⟨rfl, rfl⟩

/-- One action: what it takes and what it leaves were there or are what it parks, in this order. -/
theorem sublist_parkedBy (m : Machine Code) (a : Action Code) :
    (m.takenBy a ++ (m.act a).inst.transfer.toList).Sublist
      (m.inst.transfer.toList ++ m.parkedBy a) := by
  have hpass {a : Action Code} (ha : Drains m.inst (m.act a).inst) :
      ((match (m.act a).inst.transfer with
        | none => m.inst.transfer.toList
        | some _ => []) ++ (m.act a).inst.transfer.toList).Sublist
        (m.inst.transfer.toList ++ []) := by
    have hsub := ha.sublist
    rw [List.append_nil]
    revert hsub
    cases (m.act a).inst.transfer with
    | none => exact fun _ => by rw [Option.toList_none, List.append_nil]
    | some v => exact id
  have hkeep {β : Type} {op : Operation Code β} (hop : op.isParking = false)
      (htaken : m.takenBy (.perform op) = []) (hparked : m.parkedBy (.perform op) = []) :
      (m.takenBy (.perform op) ++ (m.act (.perform op)).inst.transfer.toList).Sublist
        (m.inst.transfer.toList ++ m.parkedBy (.perform op)) := by
    rw [htaken, hparked, List.nil_append, List.append_nil, inst_act_perform]
    exact (Drains.calling.toServing.run op hop m.inst).sublist
  cases a with
  | call c => exact hpass (Drains.calling.call m c)
  | leave completion => exact hpass (Drains.calling.leave m completion)
  | perform op =>
    cases op with
    | storeTransfer address =>
      have hact : m.act (.perform (.storeTransfer address)) =
        (m.perform (.storeTransfer address)).2 := rfl
      rcases m.perform_storeTransfer address with ⟨v, -, hok, -⟩ | ⟨x, -, herror, hslot⟩
      · simp only [takenBy, parkedBy, hact, hok, List.nil_append]
        exact List.sublist_append_right _ _
      · simp only [takenBy, parkedBy, hact, herror, hslot, List.nil_append, List.append_nil]
        exact .refl _
    | takeTransfer =>
      obtain ⟨hanswer, hslot⟩ := m.perform_takeTransfer
      have hact : m.act (.perform .takeTransfer) = (m.perform .takeTransfer).2 := rfl
      simp only [takenBy, parkedBy, hact, hanswer, hslot, Option.toList_none, List.append_nil]
      exact .refl _
    | _ => exact hkeep rfl rfl rfl

/-- A run takes and leaves in the slot what was there and what it has parked, in this order. -/
theorem sublist_parkedIn (m : Machine Code) (as : List (Action Code)) :
    (m.takenIn as ++ (m.runs as).inst.transfer.toList).Sublist
      (m.inst.transfer.toList ++ m.parkedIn as) := by
  induction as generalizing m with
  | nil =>
    rw [takenIn, parkedIn, List.append_nil, List.nil_append]
    exact List.Sublist.refl _
  | cons a as ih =>
    have hstep := (m.sublist_parkedBy a).append_right ((m.act a).parkedIn as)
    have hrest := (ih (m.act a)).append_left (m.takenBy a)
    rw [takenIn, parkedIn, runs_cons, List.append_assoc, ← List.append_assoc _ (m.parkedBy a)]
    rw [List.append_assoc (m.takenBy a)] at hstep
    exact hrest.trans hstep

/-! ## Values that are lost -/

/-- The end of a call leaves the slot empty, whatever comes of the call. -/
theorem transfer_endCall (m : Machine Code) (id : Nat) (result : Except Fault Unit) :
    (m.endCall id result).2.inst.transfer = none := by
  have hempty : (m.concluded id).inst.transfer = none := by
    rw [concluded, exec_takeTransfer, Instance.transfer_updateClosure]
    cases h : m.inst.transfer with
    | none => exact h
    | some v => rfl
  rw [endCall_eq]
  split
  · exact (Drains.calling.drop ((m.concluded id).log _) id _).elim (·.trans hempty) fun h => h
  · exact hempty

/-- The actions with which a value that is in the slot is lost: an adapter ends with a fault, a call
that was let through finds no adapter, or the guest aborts. -/
inductive Discards (m : Machine Code) : Action Code → Prop
  | faulted {id : Nat} {frames : List Frame} (x : Fault) (hm : m.frames = .adapter id :: frames) :
      Discards m (.leave (.faulted x))
  | missing {id : Nat} {arguments : List Value} {pointer slot : UInt32} {i i' : Instance Code}
      {x : Fault} (hauthorize : exec (authorize id) m.inst = (.ok pointer, i))
      (hmarshal : exec (marshal arguments) i = (.ok slot, i'))
      (htarget : (exec (target (.adapter id) ((i'.called id).closure id).adapter .two
        [pointer, slot]) (i'.called id)).1 = .error x) :
      Discards m (.call (.closure id arguments))
  | aborted {a : Action Code} (ha : a.isAbort = true) : Discards m a

/-- An abort empties the slot. -/
theorem transfer_act_of_isAbort {a : Action Code} (ha : a.isAbort = true) :
    (m.act a).inst.transfer = none := by
  obtain ⟨report, i, hi⟩ := Action.exists_abort ha m
  rw [hi]
  rfl

/-- An action with which a value is lost leaves the slot empty. -/
theorem Discards.transfer_eq_none {a : Action Code} (h : m.Discards a) :
    (m.act a).inst.transfer = none := by
  cases h with
  | faulted x hm =>
    show (m.leave (.faulted x)).2.inst.transfer = none
    unfold leave
    rw [hm]
    exact transfer_endCall _ _ _
  | missing hauthorize hmarshal htarget =>
    show (m.callClosure _ _).2.inst.transfer = none
    rw [callClosure_of_staged hauthorize hmarshal, htarget]
    exact transfer_endCall _ _ _
  | aborted ha => exact transfer_act_of_isAbort ha

/-- The slot hands each value out once at most. What is stored into it is what was decoded, and a
store that fails leaves it as it was; a take answers what is in it, and so does a call whose adapter
ends; a call that fails answers no value, and what it or an abort found in the slot is not handed
out afterwards either. -/
structure HandsOut (m : Machine Code) : Prop where
  stored : ∀ address, (m.perform (.storeTransfer address)).1 = .ok () →
    ∃ v, (m.perform (.decode address)).1 = .ok v ∧
      (m.perform (.storeTransfer address)).2.inst.transfer = some v
  refused : ∀ address x, (m.perform (.storeTransfer address)).1 = .error x →
    (m.perform (.storeTransfer address)).2.inst.transfer = m.inst.transfer
  taken : (m.perform .takeTransfer).1 = .ok m.inst.transfer
  ended : ∀ id frames completion, m.frames = .adapter id :: frames →
    m.takenBy (.leave completion) = m.inst.transfer.toList ∧
      ∀ v, Returns frames v (m.leave completion) → v = m.inst.transfer.getD .undefined
  faulted : ∀ id frames x v, m.frames = .adapter id :: frames →
    ¬ Returns frames v (m.leave (.faulted x))
  unentered : ∀ id arguments v, ¬ Returns m.frames v (m.callClosure id arguments)
  lost : ∀ a, m.Discards a →
    ∀ as, ((m.act a).takenIn as).Sublist ((m.act a).parkedIn as)

/-- Every machine hands out what is stored at most once, in whatever state it is. -/
theorem handsOut (m : Machine Code) : m.HandsOut where
  stored address hok := by
    rcases m.perform_storeTransfer address with ⟨v, hv, -, hslot⟩ | ⟨x, -, herror, -⟩
    · exact ⟨v, hv, hslot⟩
    · rw [herror] at hok
      cases hok
  refused address x herror := by
    rcases m.perform_storeTransfer address with ⟨v, -, hok, -⟩ | ⟨x, -, -, hslot⟩
    · rw [hok] at herror
      cases herror
    · exact hslot
  taken := m.perform_takeTransfer.1
  ended id frames completion hm := by
    refine ⟨?_, fun v hv => hv.of_leave hm⟩
    have hempty : (m.act (.leave completion)).inst.transfer = none := by
      show (m.leave completion).2.inst.transfer = none
      unfold leave
      rw [hm]
      exact transfer_endCall _ _ _
    simp only [takenBy, hempty]
  faulted id frames x v hm hv := by
    unfold leave at hv
    rw [hm] at hv
    cases (hv.of_endCall rfl).1
  unentered := m.not_returns_callClosure
  lost a ha as := by
    have hsub := (m.act a).sublist_parkedIn as
    rw [ha.transfer_eq_none, Option.toList_none, List.nil_append] at hsub
    exact (List.sublist_append_left _ _).trans hsub

/-- Values go through the transfer slot in the order in which they were stored and are handed out
once at most; what an adapter that faults or an abort leaves behind in it is handed out no more. -/
theorem handed_out_once (guest : Guest Code) (config : Config) (as : List (Action Code)) :
    ((boot guest config).takenIn as).Sublist ((boot guest config).parkedIn as) ∧
      ((boot guest config).runs as).HandsOut := by
  have hsub := (boot guest config).sublist_parkedIn as
  have hempty : (boot guest config).inst.transfer = none := rfl
  rw [hempty, Option.toList_none, List.nil_append] at hsub
  exact ⟨(List.sublist_append_left _ _).trans hsub, handsOut _⟩

/-- A value from before a call is in the slot when the adapter faults, and a take finds nothing
there. -/
theorem handed_out_once_parkedFirst :
    (parkedFirst.callClosure 0 []).2.Discards (.leave (.faulted .dead)) ∧
      (parkedFirst.callClosure 0 []).2.takenBy (.leave (.faulted .dead)) = [.boolean true] ∧
      ((parkedFirst.callClosure 0 []).2.act (.leave (.faulted .dead))).takenIn
        [.perform .takeTransfer] = [] := by
  obtain ⟨-, hands⟩ := handed_out_once (Guest.ofPages Unit 1 16) .standard
    ([.perform (.register ()), .perform (.wrap .shared 1 1 0)] ++
      ([.perform (.store 0 .u8 28 6), .perform (.storeTransfer 16)] ++ [.call (.closure 0 [])]))
  have hmachine (as : List (Action Unit)) : ((boot (Guest.ofPages Unit 1 16) .standard).runs
      [.perform (.register ()), .perform (.wrap .shared 1 1 0)]).runs
        ([.perform (.store 0 .u8 28 6), .perform (.storeTransfer 16)] ++ as) =
      parkedFirst.runs as := by
    rw [runs_append, parkedFirst, wrappedFirst]
  rw [runs_append, hmachine, runs_cons, runs_nil, act, call] at hands
  obtain ⟨i, hm, htransfer, -⟩ := parkedFirst_called
  have hframes : (parkedFirst.callClosure 0 []).2.frames = .adapter 0 :: parkedFirst.frames := by
    rw [hm]
  have hdiscards : (parkedFirst.callClosure 0 []).2.Discards (.leave (.faulted .dead)) :=
    .faulted _ hframes
  refine ⟨hdiscards, ?_, List.sublist_nil.1 (hands.lost _ hdiscards _)⟩
  rw [(hands.ended _ _ _ hframes).1, hm, htransfer]
  rfl

end Machine

end

end Crossing
