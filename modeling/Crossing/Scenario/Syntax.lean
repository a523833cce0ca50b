import Crossing.Machine

/-!
# The language of scenarios

A scenario is a list of steps, each one command to an instance. The bodies of guest functions and of
capabilities are lists of steps too. Numbers and values in a command are expressions over what
earlier steps have saved.
-/

namespace Crossing.Scenario

/-- A number in a command. -/
inductive WordExpr where
  | literal (n : UInt32)
  /-- A saved number, zero when it was never saved, plus an offset. -/
  | saved (name : String) (offset : UInt32)
  /-- An argument of the running guest function, zero when there is none, plus an offset. -/
  | argument (index : Nat) (offset : UInt32)

/-- A value in a command. -/
inductive ValueExpr where
  | undefined
  | null
  | boolean (b : Bool)
  | number (x : Double)
  | string (text : String)
  | array (items : List ValueExpr)
  /-- An array of `n` times the same value. -/
  | fill (item : ValueExpr) (n : Nat)
  | object (entries : List (String × ValueExpr))
  /-- A value wrapped `n` times in an array of one item. -/
  | nestArray (leaf : ValueExpr) (n : Nat)
  /-- A value wrapped `n` times in an object of one property. -/
  | nestObject (leaf : ValueExpr) (n : Nat)
  /-- The host object of this name. -/
  | reference (name : String)
  /-- The symbol of this key. The description counts where the key comes up first. -/
  | symbol (key : String) (description : Option String)
  /-- A closure wrapped anew. -/
  | closure (kind : ClosureKind) (adapter pointer deallocator : WordExpr)
  /-- A saved value. -/
  | saved (name : String)
  /-- An argument of the running capability. -/
  | argument (index : Nat)
  /-- An item of an array. -/
  | item (value : ValueExpr) (index : Nat)
  /-- A property of an object. -/
  | property (value : ValueExpr) (key : String)
  deriving Inhabited

/-- What a step does. Commands that look at memory take the views that were saved under a name, or
else the published ones. -/
inductive Command (Body : Type) where
  | start
  | publish
  | grow (pages : WordExpr)
  | alloc (size : WordExpr)
  | malloc (size : WordExpr)
  | free (size : WordExpr)
  | resolve (offset : WordExpr)
  | offset (address : WordExpr)
  /-- Saves the published views. -/
  | hold (name : String)
  | viewsInfo (held : Option String)
  | write (held : Option String) (address : WordExpr) (data : ByteArray)
  | read (held : Option String) (address size : WordExpr)
  /-- The guest memory below the heap top. -/
  | heap
  | load (held : Option String) (kind : ElementKind) (address : WordExpr)
  | get (held : Option String) (kind : ElementKind) (index : WordExpr)
  | store (held : Option String) (kind : ElementKind) (address : WordExpr) (x : kind.Carrier)
  | set (held : Option String) (kind : ElementKind) (index : WordExpr) (x : kind.Carrier)
  | putWord (held : Option String) (address value : WordExpr)
  | word (held : Option String) (address : WordExpr)
  | checkTable (held : Option String) (base count stride : WordExpr)
  | window (held : Option String) (kind : ElementKind) (start stop : WordExpr)
  | windowGet (name : String) (index : WordExpr)
  | windowBytes (name : String)
  | windowInfo (name : String)
  /-- Writes words and a tag byte at an address. -/
  | slot (address : WordExpr) (words : List WordExpr) (tag : WordExpr)
  | encode (address : WordExpr) (value : ValueExpr)
  | encodeArray (address : WordExpr) (items : List ValueExpr)
  | decode (address : WordExpr)
  | prepare (value : ValueExpr)
  | kindAt (address : WordExpr)
  | storeText (address : WordExpr) (text : String)
  | loadText (pointer length : WordExpr)
  | storeTransfer (address : WordExpr)
  | takeTransfer
  | value (value : ValueExpr)
  | same (a b : ValueExpr)
  | acquire (value : ValueExpr)
  | acquireBytes (start stop : WordExpr)
  | increment (id : WordExpr)
  | decrement (id : WordExpr)
  | getHandle (id : WordExpr)
  | owners (id : WordExpr)
  | registerRaw (value : ValueExpr)
  | unregisterRaw (id : WordExpr)
  | getRaw (id : WordExpr)
  | register (body : Body)
  | unregister (index : WordExpr)
  | setEntryPoint (body : Body)
  | indirect (index : WordExpr) (signature : Signature) (arguments : List WordExpr)
  | call (closure : String) (arguments : List ValueExpr)
  | drop (closure : String)
  | closureInfo (closure : String)
  /-- Adds one to a saved number. -/
  | increase (name : String)
  | trap (message : String)
  /-- Ends the body with a value. -/
  | ret (value : ValueExpr)
  /-- Ends the body with a failure. -/
  | fail (error : ValueExpr)
  | addCapability (name : String) (body : Body) (fallible : Bool)
  | invoke (name : String) (slot : WordExpr) (arguments : List WordExpr)
  | abort (report : AbortReport)
  | abortFromGuest (file fileLength line message messageLength : WordExpr)
  deriving Inhabited

/-- One step of a body. -/
structure Step (Body : Type) where
  /-- The name of the step in the trace. -/
  label : String
  command : Command Body
  /-- The name under which the result is saved. -/
  saveAs : Option String := none
  /-- The step is skipped unless this saved number is below the bound. -/
  onlyBelow : Option (String × Int) := none
  /-- A fault of the step does not end the body. -/
  attempt : Bool := false
  /-- A value is traced as text. -/
  asText : Bool := false
  deriving Inhabited

/-- The body of a guest function, an entry point or a capability. -/
inductive Body where
  | script (steps : List (Step Body))
  /-- A capability that answers with the array of its arguments. -/
  | echo
  deriving Inhabited

end Crossing.Scenario
