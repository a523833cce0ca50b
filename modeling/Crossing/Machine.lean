import Crossing.Instance.Operation

/-!
# Machines

A machine is an instance together with the bodies of code that are running on it, innermost first.
Code does three things: it performs an operation, it makes a call, and it comes to its end. A call
either answers at once or enters another body; when that body ends, the machine goes on where the
call was made, and the answer of the call is the machine's reply. Each of the three is one total
step, so what holds after every run is what the steps keep.

`Machine.call` and `Machine.leave` hold the rules of closures: which calls are admitted, where the
result of a call comes from, and that a drop during a call waits for the outermost call to end.
-/

namespace Crossing

/-- A body of code that is running, by what is to be done when it ends. -/
inductive Frame where
  /-- The guest's entry point. -/
  | entryPoint
  /-- A function of the guest's table that was called by its index. -/
  | direct
  /-- The adapter of a closure, running a call of it. -/
  | adapter (closure : Nat)
  /-- The deallocator of a closure. `pending` is the answer of the call that the drop had waited
  for. -/
  | deallocator (closure : Nat) (pending : Option (Except Fault Value))
  /-- A capability, whose value goes into `slot` unless that is zero. -/
  | capability (fallible : Bool) (slot : UInt32)

/-- The signatures of indirect calls. -/
inductive Signature where
  /-- One word. -/
  | one
  /-- Two words. -/
  | two
  deriving DecidableEq

/-- The number of words that a call passes. -/
def Signature.arity : Signature → Nat
  | one => 1
  | two => 2

/-- What may enter another body of code. -/
inductive Call where
  /-- Publishes views and runs the guest's entry point. -/
  | start
  /-- Calls a function of the guest's table. -/
  | indirect (index : UInt32) (signature : Signature) (arguments : List UInt32)
  /-- Calls a closure. -/
  | closure (id : Nat) (arguments : List Value)
  /-- Drops a closure. -/
  | drop (id : Nat)
  /-- Runs a capability on the values of argument slots. -/
  | capability (name : String) (slot : UInt32) (arguments : List UInt32)

/-- What comes of a call or of the end of a body. -/
inductive Reply (Code : Type) where
  /-- The call that the innermost body made has this result; calls without one answer undefined. -/
  | answered (result : Except Fault Value)
  /-- This code is to be run, with words when it is the guest's and values when it is the host's. -/
  | entered (code : Code) (words : List UInt32) (values : List Value)

/-- Whether a guest function came to its end without a fault. What it returns is not looked at. -/
def Completion.result : Completion → Except Fault Unit
  | .returned _ | .failed _ => .ok ()
  | .faulted fault => .error fault

/-! ## Pieces of the calls -/

namespace Effect

variable {Code : Type}

/-- The function at an index of the guest's table. -/
def target (callee : Callee) (index : UInt32) (signature : Signature) (arguments : List UInt32) :
    Effect Code Code := do
  record (.called callee index arguments)
  if arguments.length ≠ signature.arity then throw (.trap "indirect call signature mismatch")
  match (← get).guest.functions[index.toNat]? with
  | some (some code) => return code
  | _ => throw (.unknownFunction index)

/-- Checks that a closure may be called and gives the pointer to call it with. A single-use closure
forgets its pointer here. -/
def authorize (id : Nat) : Effect Code UInt32 := do
  ensureAlive
  let c := (← get).closure id
  c.checkLive
  match c.kind with
  | .shared => return c.pointer
  | .exclusive =>
    c.checkExclusive
    return c.pointer
  | .once =>
    updateClosure id fun c => { c with pointer := 0, dropped := true }
    c.checkExclusive
    return c.pointer

/-- Encodes the arguments of a call into a slot of their own. -/
def marshal (arguments : List Value) : Effect Code UInt32 := do
  let slot ← alloc Slot.size
  encodeArray slot arguments
  return slot

/-- Everything that happens before the entry point runs. -/
def begin : Effect Code (Option Code) := do
  ensureAlive
  if (← get).started then throw .alreadyStarted
  modify fun i => { i with started := true }
  let v ← publish
  record (.starting (← buffer v.buffer).length)
  return (← get).guest.entryPoint

/-- Finds a capability and decodes its arguments. -/
def summon (name : String) (arguments : List UInt32) :
    Effect Code (Capability Code × List Value) := do
  ensureAlive
  match (← get).capabilities.get? name with
  | none => throw (.unknownCapability name)
  | some c =>
    let values ← arguments.mapM decode
    record (.invoked name values)
    return (c, values)

end Effect

/-- An instance and the bodies of code that are running on it, innermost first. -/
structure Machine (Code : Type) where
  inst : Instance Code
  frames : List Frame := []

namespace Machine

variable {Code : Type}

/-- Runs an effect on the instance. -/
def run {α : Type} (m : Machine Code) (e : Effect Code α) : Except Fault α × Machine Code :=
  let (result, inst) := Id.run ((ExceptT.run e).run m.inst)
  (result, { m with inst })

/-- Performs an operation. -/
def perform {α : Type} (m : Machine Code) (op : Operation Code α) :
    Except Fault α × Machine Code :=
  m.run op.run

/-- Changes the record of a closure. -/
def updateClosure (m : Machine Code) (id : Nat) (f : Closure → Closure) : Machine Code :=
  { m with inst := { m.inst with closures := m.inst.closures.modify id f } }

/-- Enters a body of code. -/
def enter (m : Machine Code) (frame : Frame) (code : Code) (words : List UInt32)
    (values : List Value) : Reply Code × Machine Code :=
  (.entered code words values, { m with frames := frame :: m.frames })

/-- The answer at the end of a drop: that of the call which the drop had waited for, if there was
one and it did not fault, and else that of the drop. -/
def dropAnswer (pending : Option (Except Fault Value)) (dropped : Except Fault Unit) :
    Except Fault Value :=
  match pending with
  | none => dropped.map fun _ => .undefined
  | some result => do
    let v ← result
    dropped
    return v

/-- Drops a closure: later, when a call of it is running; not again, when it is dropped; and else by
handing its pointer to its deallocator. -/
def drop (m : Machine Code) (id : Nat) (pending : Option (Except Fault Value)) :
    Reply Code × Machine Code :=
  let c := m.inst.closure id
  if c.inFlight ≠ 0 then
    (.answered (dropAnswer pending (.ok ())),
      m.updateClosure id fun c => { c with dropQueued := true })
  else if c.dropped then (.answered (dropAnswer pending (.ok ())), m)
  else
    let m := m.updateClosure id fun c => { c with dropped := true, pointer := 0 }
    if c.pointer = 0 then (.answered (dropAnswer pending (.ok ())), m)
    else
      let freeing := do
        Effect.record (.dropping id c.kind c.pointer)
        Effect.target (.deallocator id) c.deallocator .one [c.pointer]
      match m.run freeing with
      | (.ok code, m) => m.enter (.deallocator id pending) code [c.pointer] []
      | (.error fault, m) => (.answered (dropAnswer pending (.error fault)), m)

/-- Ends a call of a closure. Its value is the one in the transfer slot, which is emptied even when
the call faulted; a drop that waited for this call is carried out. -/
def endCall (m : Machine Code) (id : Nat) (result : Except Fault Unit) :
    Reply Code × Machine Code :=
  let m := m.updateClosure id fun c => { c with inFlight := c.inFlight - 1 }
  match m.run Effect.takeTransfer with
  | (taken, m) =>
    let parked := taken.toOption.join
    let answer := result.map fun _ => parked.getD .undefined
    let c := m.inst.closure id
    if c.dropQueued && c.inFlight = 0 then
      let (_, m) := m.run (Effect.record (.dropDeferred id c.kind))
      m.drop id (some answer)
    else (.answered answer, m)

/-- Calls a closure: checks, encodes the arguments, counts the call and enters the adapter. -/
def callClosure (m : Machine Code) (id : Nat) (arguments : List Value) :
    Reply Code × Machine Code :=
  let marshalled := do
    let pointer ← Effect.authorize id
    let slot ← Effect.marshal arguments
    return [pointer, slot]
  match m.run marshalled with
  | (.error fault, m) => (.answered (.error fault), m)
  | (.ok words, m) =>
    let m := m.updateClosure id fun c => { c with inFlight := c.inFlight + 1 }
    match m.run (Effect.target (.adapter id) (m.inst.closure id).adapter .two words) with
    | (.ok code, m) => m.enter (.adapter id) code words []
    | (.error fault, m) => m.endCall id (.error fault)

/-- Makes a call. -/
def call (m : Machine Code) : Call → Reply Code × Machine Code
  | .start =>
    match m.run Effect.begin with
    | (.ok (some code), m) => m.enter .entryPoint code [] []
    | (.ok none, m) => (.answered (.ok .undefined), m)
    | (.error fault, m) => (.answered (.error fault), m)
  | .indirect index signature arguments =>
    match m.run (Effect.target .direct index signature arguments) with
    | (.ok code, m) => m.enter .direct code arguments []
    | (.error fault, m) => (.answered (.error fault), m)
  | .closure id arguments => m.callClosure id arguments
  | .drop id => m.drop id none
  | .capability name slot arguments =>
    match m.run (Effect.summon name arguments) with
    | (.ok (c, values), m) => m.enter (.capability c.fallible slot) c.code [] values
    | (.error fault, m) => (.answered (.error fault), m)

/-- Ends the innermost body of code. Outside of all bodies there is nothing to go on with. -/
def leave (m : Machine Code) (completion : Completion) : Reply Code × Machine Code :=
  match m.frames with
  | [] => (.answered (completion.answer false), m)
  | frame :: frames =>
    let m := { m with frames }
    match frame with
    | .entryPoint | .direct => (.answered (completion.result.map fun _ => .undefined), m)
    | .adapter id => m.endCall id completion.result
    | .deallocator _ pending => (.answered (dropAnswer pending completion.result), m)
    | .capability fallible slot =>
      match completion.answer fallible with
      | .error fault => (.answered (.error fault), m)
      | .ok v =>
        if slot = 0 then (.answered (.ok .undefined), m)
        else
          match m.run (Effect.encode slot v) with
          | (result, m) => (.answered (result.map fun _ => .undefined), m)

end Machine

end Crossing
