import Crossing.Value.Basic

/-!
# Capabilities

A capability is a function of the host that the guest may call by name. One that can fail is
registered as fallible: its failure is handed to the guest as data, an object with an `error` and a
flag, just as its success is one with a `value` and a flag. `ofValue?_toValue` says that the object
tells which it was.
-/

namespace Crossing

/-- The result of a fallible capability. -/
inductive Outcome where
  | success (value : Value)
  | failure (error : Value)

namespace Outcome

def isSuccess : Outcome → Bool
  | success _ => true
  | failure _ => false

/-- The value or the error. -/
def payload : Outcome → Value
  | success value => value
  | failure error => error

/-- The object that is handed to the guest. -/
def toValue : Outcome → Value
  | success value => .object [("value", value), ("success", .boolean true)]
  | failure error => .object [("error", error), ("success", .boolean false)]

/-- The outcome that an object tells of. -/
def ofValue? : Value → Option Outcome
  | .object entries =>
    match Entries.get? "success" entries with
    | some (.boolean true) => (Entries.get? "value" entries).map success
    | some (.boolean false) => (Entries.get? "error" entries).map failure
    | _ => none
  | _ => none

/-- Equality of outcomes. -/
def same : Outcome → Outcome → Bool
  | success a, success b | failure a, failure b => a.same b
  | _, _ => false

/-- The object of an outcome tells of that outcome. -/
theorem ofValue?_toValue (o : Outcome) : ofValue? o.toValue = some o := by
  cases o <;> simp [toValue, ofValue?, Entries.get?]

end Outcome

/-- How a body of code came to its end. -/
inductive Completion where
  | returned (value : Value)
  /-- The body failed in a way that is no fault. -/
  | failed (error : Value)
  | faulted (fault : Fault)

/-- A function of the host. -/
structure Capability (Code : Type) where
  code : Code
  fallible : Bool

/-- What the guest is given when the body of a capability has come to its end. A plain capability
passes its value or its fault on, a fallible one makes an outcome of either. -/
def Completion.answer (fallible : Bool) : Completion → Except Fault Value
  | .returned value => .ok (if fallible then (Outcome.success value).toValue else value)
  | .failed error => .ok (if fallible then (Outcome.failure error).toValue else error)
  | .faulted fault =>
    if fallible then .ok (Outcome.failure (.string fault.message)).toValue else .error fault

/-- The capabilities of a host by name. -/
structure Capabilities (Code : Type) where
  entries : List (String × Capability Code) := []

namespace Capabilities

variable {Code : Type}

/-- Registers a capability, in the place of an earlier one of the same name. -/
def add (cs : Capabilities Code) (name : String) (c : Capability Code) : Capabilities Code :=
  ⟨Entries.insert name c cs.entries⟩

/-- The capability of a name. -/
def get? (cs : Capabilities Code) (name : String) : Option (Capability Code) :=
  Entries.get? name cs.entries

/-- The names in ascending order. -/
def names (cs : Capabilities Code) : List String := (Entries.keys cs.entries).mergeSort

/-- The number of capabilities. -/
def size (cs : Capabilities Code) : Nat := cs.entries.length

end Capabilities

end Crossing
