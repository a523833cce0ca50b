import Crossing.Entries
import Crossing.Memory.Window

/-!
# Host values

Plain data (numbers, texts, arrays, objects and the like) crosses by copy. Symbols, host objects,
closures and windows keep their identity: a symbol is the same when its key is, a host object or
closure when its identity is, a window when it shows the same elements of the same buffer.
`Value.same` is the equality of values, with numbers compared so that the NaNs are equal and the
zeros too.
-/

namespace Crossing

/-- A unique symbol. Two symbols are the same when their keys are, whatever their descriptions. -/
structure Symbol where
  key : String
  description : Option String

/-- An object of the host that the guest can only hold by handle. -/
inductive HostObject where
  /-- An object known by a name of its own. -/
  | named (name : String)
  /-- A copy of guest bytes; `serial` tells copies apart. -/
  | bytes (serial : Nat) (content : ByteArray)

/-- What makes a host object or a closure that very one. -/
inductive Identity where
  | named (name : String)
  | copy (serial : Nat)
  | closure (id : Nat)
  deriving DecidableEq, Hashable

/-- The identity of a host object. -/
def HostObject.identity : HostObject → Identity
  | named name => .named name
  | bytes serial _ => .copy serial

/-- A value of the host. -/
inductive Value where
  | undefined
  | null
  | boolean (b : Bool)
  | number (x : Double)
  | string (text : String)
  | array (items : List Value)
  | object (entries : List (String × Value))
  | symbol (s : Symbol)
  | reference (object : HostObject)
  /-- A guest closure, by its number in the table of closures. -/
  | closure (id : Nat)
  | window (w : Window)
  deriving Inhabited

namespace Value

def isNullish : Value → Bool
  | undefined | null => true
  | _ => false

/-- The identity of a value that has one. -/
def identity? : Value → Option Identity
  | reference o => some o.identity
  | closure id => some (.closure id)
  | _ => none

/-- The name of the type of a value. -/
def typeName : Value → String
  | undefined => "undefined"
  | null => "null"
  | boolean _ => "boolean"
  | number _ => "number"
  | string _ => "string"
  | array _ => "array"
  | object _ => "object"
  | symbol _ => "symbol"
  | reference _ => "reference"
  | closure _ => "function"
  | window _ => "typedarray"

/-! ## Equality -/

mutual

/-- Equality of values. -/
def same : Value → Value → Bool
  | undefined, undefined => true
  | null, null => true
  | boolean a, boolean b => a == b
  | number x, number y => x.sameValueZero y
  | string a, string b => a == b
  | array as, array bs => sameItems as bs
  | object as, object bs => sameEntries as bs
  | symbol a, symbol b => a.key == b.key
  | reference a, reference b => a.identity == b.identity
  | closure a, closure b => a == b
  | window a, window b => a == b
  | _, _ => false

/-- Equality of arrays, item by item. -/
def sameItems : List Value → List Value → Bool
  | [], [] => true
  | a :: as, b :: bs => same a b && sameItems as bs
  | _, _ => false

/-- Equality of objects: the same keys in the same order, with equal values. -/
def sameEntries : List (String × Value) → List (String × Value) → Bool
  | [], [] => true
  | (k, a) :: as, (l, b) :: bs => k == l && same a b && sameEntries as bs
  | _, _ => false

end

instance : BEq Value := ⟨same⟩

/-! ## Parts -/

/-- The item at an index, where the value is an array that long. -/
def item (v : Value) (i : Nat) : Value :=
  match v with
  | array items => items.getD i undefined
  | _ => undefined

/-- The value of a property, where the value is an object that has it. -/
def property (v : Value) (key : String) : Value :=
  match v with
  | object entries => (Entries.get? key entries).getD undefined
  | _ => undefined

end Value

end Crossing
