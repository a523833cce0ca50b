import Crossing.Scenario.Syntax
import Crossing.Scenario.Trace

/-!
# Sessions

A session is a scenario on its way: the machine, the bodies that are running with what is left of
them, what steps have saved, and the trace so far. `evaluate` gives expressions their values and
`execute` runs a command. Both touch the instance through the operations and calls of the machine
only.
-/

namespace Crossing.Scenario

/-- A body that is running. -/
structure Activation where
  /-- The steps that are left. -/
  rest : List (Step Body)
  /-- The step whose result is still to come. -/
  waiting : Option (Step Body) := none
  /-- The arguments of a guest function. -/
  words : List UInt32 := []
  /-- The arguments of a capability. -/
  values : List Value := []
  /-- What the body answers when it runs to its end. -/
  result : Value := .undefined

/-- A scenario on its way. -/
structure Session where
  machine : Machine Body
  /-- The running bodies, innermost first; the last one is the scenario itself. -/
  running : List Activation
  words : List (String × UInt32) := []
  values : List (String × Value) := []
  views : List (String × Views) := []
  symbols : List (String × Symbol) := []
  trace : Array Entry := #[]
  /-- How many events of the journal the trace has. -/
  reported : Nat := 0
  /-- Whether the host has panicked. Nothing runs after that. -/
  panicked : Bool := false

/-- A step of a session that may fault. -/
abbrev Perform := ExceptT Fault (StateM Session)

/-- What a step leaves behind for later ones. -/
inductive Saved where
  | word (n : UInt32)
  | value (v : Value)

/-- What comes of a command. -/
inductive Progress where
  | done (result : Result) (saved : Option Saved)
  /-- The command made a call. -/
  | replied (reply : Reply Body)
  /-- The command ends the body. -/
  | ended (completion : Completion)

namespace Perform

/-- Performs an operation of the machine. -/
def operate {α : Type} (op : Operation Body α) : Perform α := fun s =>
  let (result, machine) := s.machine.perform op
  (result, { s with machine })

/-- Makes a call of the machine. -/
def call (c : Call) : Perform Progress := fun s =>
  let (reply, machine) := s.machine.call c
  (.ok (.replied reply), { s with machine })

/-- The instance. -/
def inst : Perform (Instance Body) := return (← get).machine.inst

/-! ## Expressions -/

/-- The number of an expression. -/
def word : WordExpr → Perform UInt32
  | .literal n => return n
  | .saved name offset => return ((Entries.get? name (← get).words).getD 0) + offset
  | .argument index offset => do
    let words :=
      match (← get).running with
      | a :: _ => a.words
      | [] => []
    return words.getD index 0 + offset

/-- The symbol of a key. It is made where the key comes up first. -/
def symbol (key : String) (description : Option String) : Perform Symbol := do
  match Entries.get? key (← get).symbols with
  | some s => return s
  | none =>
    let s : Symbol := ⟨key, description⟩
    modify fun session => { session with symbols := Entries.insert key s session.symbols }
    return s

mutual

/-- The value of an expression. -/
def evaluate : ValueExpr → Perform Value
  | .undefined => return .undefined
  | .null => return .null
  | .boolean b => return .boolean b
  | .number x => return .number x
  | .string text => return .string text
  | .array items => return .array (← evaluateItems items)
  | .fill item n => return .array (List.replicate n (← evaluate item))
  | .object entries => return .object (Entries.ofPairs (← evaluateEntries entries))
  | .nestArray leaf n => return Nat.repeat (fun v => .array [v]) n (← evaluate leaf)
  | .nestObject leaf n => return Nat.repeat (fun v => .object [("k", v)]) n (← evaluate leaf)
  | .reference name => return .reference (.named name)
  | .symbol key description => return .symbol (← symbol key description)
  | .closure kind adapter pointer deallocator => do
    let adapter ← word adapter
    let pointer ← word pointer
    let deallocator ← word deallocator
    operate (.wrap kind adapter pointer deallocator)
  | .saved name => return (Entries.get? name (← get).values).getD .undefined
  | .argument index => do
    match (← get).running with
    | a :: _ => return a.values.getD index .undefined
    | [] => return .undefined
  | .item value index => return (← evaluate value).item index
  | .property value key => return (← evaluate value).property key

/-- The values of items, in order. -/
def evaluateItems : List ValueExpr → Perform (List Value)
  | [] => return []
  | e :: rest => do
    let v ← evaluate e
    return v :: (← evaluateItems rest)

/-- The values of properties, in order. -/
def evaluateEntries : List (String × ValueExpr) → Perform (List (String × Value))
  | [] => return []
  | (key, e) :: rest => do
    let v ← evaluate e
    return (key, v) :: (← evaluateEntries rest)

end

/-- The views saved under a name, or else the published ones. -/
def viewsOf (held : Option String) : Perform Views := do
  let saved := (← get).views
  match held.bind fun name => Entries.get? name saved with
  | some v => return v
  | none => operate .views

/-- The buffer of some views. -/
def bufferOf (v : Views) : Perform Buffer := return (← inst).guest.store.buffer v.buffer

/-- The closure saved under a name. -/
def closureOf (name : String) : Perform Nat := do
  match Entries.get? name (← get).values with
  | some (.closure id) => return id
  | _ => throw (.trap s!"no closure is saved as {name}")

/-- The window saved under a name, with the buffer it looks into. -/
def windowOf (name : String) : Perform (Window × Buffer) := do
  match Entries.get? name (← get).values with
  | some (.window w) => return (w, (← inst).guest.store.buffer w.buffer)
  | _ => throw (.trap s!"no window is saved as {name}")

/-! ## Results -/

/-- The picture of a value as it looks now. -/
def picture (i : Instance Body) (v : Value) : Picture :=
  v.picture i.closure fun id => (i.guest.store.buffer id).detached

def nothing : Progress := .done .nothing none

def wordResult (n : UInt32) : Progress := .done (.word n) (some (.word n))

/-- A value as the result of a step. -/
def valueResult (v : Value) : Perform Progress :=
  return .done (.picture (picture (← inst) v)) (some (.value v))

/-- A value as the result of a step, if there is one. -/
def optionalResult : Option Value → Perform Progress
  | some v => valueResult v
  | none => return nothing

/-- Writes a word at each of the addresses `address`, `address + 4`, …. -/
def putWords (buffer : Nat) (address : UInt32) : List WordExpr → Perform Unit
  | [] => return ()
  | e :: rest => do
    operate (.store buffer .u32 address (← word e))
    putWords buffer (address + 4) rest

/-! ## Commands -/

/-- Runs a command. -/
def execute : Command Body → Perform Progress
  | .start => call .start
  | .publish => do
    discard (operate .publish)
    return nothing
  | .grow pages => do
    operate (.grow (← word pages))
    return nothing
  | .alloc size => return wordResult (← operate (.alloc (← word size)))
  | .malloc size => return wordResult (← operate (.malloc (← word size)))
  | .free size => do
    operate (.free (← word size))
    return nothing
  | .resolve offset => return wordResult ((← inst).arena.resolve (← word offset))
  | .offset address => return wordResult (← (← inst).arena.offset (← word address))
  | .hold name => do
    let v ← operate .views
    modify fun s => { s with views := Entries.insert name v s.views }
    return nothing
  | .viewsInfo held => do
    let v ← viewsOf held
    let b ← bufferOf v
    return .done (.views v.generation b.length b.detached (v.buffer = (← inst).guest.memory)) none
  | .write held address data => do
    let v ← viewsOf held
    operate (.write v.buffer (← word address) data)
    return nothing
  | .read held address size => do
    let b ← bufferOf (← viewsOf held)
    return .done (.bytes (← b.read (← word address) (← word size).toNat)) none
  | .heap => do
    let g := (← inst).guest
    return .done (.bytes (← g.buffer.read 0 g.heapTop.toNat)) none
  | .load held kind address => do
    let b ← bufferOf (← viewsOf held)
    return .done (.element kind (← b.load kind (← word address))) none
  | .get held kind index => do
    let b ← bufferOf (← viewsOf held)
    return .done (.element kind (← b.get kind (← word index))) none
  | .store held kind address x => do
    let v ← viewsOf held
    operate (.store v.buffer kind (← word address) x)
    return nothing
  | .set held kind index x => do
    let v ← viewsOf held
    operate (.set v.buffer kind (← word index) x)
    return nothing
  | .putWord held address value => do
    let v ← viewsOf held
    operate (.store v.buffer .u32 (← word address) (← word value))
    return nothing
  | .word held address => do
    let b ← bufferOf (← viewsOf held)
    let n : UInt32 ← b.load .u32 (← word address)
    return wordResult n
  | .checkTable held base count stride => do
    let b ← bufferOf (← viewsOf held)
    b.checkTable (← word base) (← word count) (← word stride)
    return nothing
  | .window held kind start stop => do
    let v ← viewsOf held
    let w ← Window.ofRange (← bufferOf v) v.buffer kind (← word start) (← word stop)
    valueResult (.window w)
  | .windowGet name index => do
    let (w, b) ← windowOf name
    return .done (.number (← w.get b (← word index))) none
  | .windowBytes name => do
    let (w, b) ← windowOf name
    return .done (.bytes (← w.bytes b)) none
  | .windowInfo name => do
    let (w, b) ← windowOf name
    return .done (.window w b.detached) none
  | .slot address words tag => do
    let v ← operate .views
    let address ← word address
    putWords v.buffer address words
    operate (.set v.buffer .u8 (address + Slot.tagOffset) (← word tag).toUInt8)
    return nothing
  | .encode address value => do
    let v ← evaluate value
    operate (.encode (← word address) v)
    return nothing
  | .encodeArray address items => do
    let vs ← evaluateItems items
    operate (.encodeArray (← word address) vs)
    return nothing
  | .decode address => do valueResult (← operate (.decode (← word address)))
  | .prepare value => return wordResult (← operate (.prepare (← evaluate value)))
  | .kindAt address => return .done (.slotKind (← operate (.kindAt (← word address)))) none
  | .storeText address text => do
    operate (.storeText (← word address) text)
    return nothing
  | .loadText pointer length => do
    valueResult (.string (← operate (.loadText (← word pointer) (← word length))))
  | .storeTransfer address => do
    operate (.storeTransfer (← word address))
    return nothing
  | .takeTransfer => do optionalResult (← operate .takeTransfer)
  | .value value => do valueResult (← evaluate value)
  | .same a b => return .done (.truth ((← evaluate a).same (← evaluate b))) none
  | .acquire value => return wordResult (← operate (.acquire (← evaluate value)))
  | .acquireBytes start stop =>
    return wordResult (← operate (.acquireBytes (← word start) (← word stop)))
  | .increment id => do
    operate (.increment (← word id))
    return nothing
  | .decrement id => do
    operate (.decrement (← word id))
    return nothing
  | .getHandle id => do valueResult (← operate (.getHandle (← word id)))
  | .owners id => return .done (.owners ((← inst).handles.owners? (← word id))) none
  | .registerRaw value => return wordResult (← operate (.registerRaw (← evaluate value)))
  | .unregisterRaw id => do optionalResult (← operate (.unregisterRaw (← word id)))
  | .getRaw id => do valueResult (← operate (.getRaw (← word id)))
  | .register body => return wordResult (← operate (.register body))
  | .unregister index => do
    operate (.unregister (← word index))
    return nothing
  | .setEntryPoint body => do
    operate (.setEntryPoint body)
    return nothing
  | .indirect index signature arguments => do
    let index ← word index
    call (.indirect index signature (← arguments.mapM word))
  | .call closure arguments => do
    let id ← closureOf closure
    call (.closure id (← evaluateItems arguments))
  | .drop closure => do call (.drop (← closureOf closure))
  | .closureInfo closure => do
    let id ← closureOf closure
    return .done (.closure ((← inst).closure id)) none
  | .increase name => do
    let n := ((Entries.get? name (← get).words).getD 0) + 1
    modify fun s => { s with words := Entries.insert name n s.words }
    return wordResult n
  | .trap message => throw (.trap message)
  | .ret value => return .ended (.returned (← evaluate value))
  | .fail error => return .ended (.failed (← evaluate error))
  | .addCapability name body fallible => do
    operate (.addCapability name ⟨body, fallible⟩)
    return nothing
  | .invoke name slot arguments => do
    let slot ← word slot
    call (.capability name slot (← arguments.mapM word))
  | .abort report => do
    operate (.abort report)
    return nothing
  | .abortFromGuest file fileLength line message messageLength => do
    operate (.abortFromGuest (← word file) (← word fileLength) (← word line) (← word message)
      (← word messageLength))
    return nothing

end Perform

end Crossing.Scenario
