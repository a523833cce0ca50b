import Crossing.Closure.Basic
import Crossing.Slot
import Crossing.Value.Basic

/-!
# The journal

An instance keeps a journal of what happened to it. Most entries are also lines of its log, at one
of three levels; the quiet ones record what the guest was asked to run and what passed through the
transfer slot. An abort is the guest's last word: it is reported once and the guest is not entered
again.
-/

namespace Crossing

/-- What the guest says when it aborts. -/
structure AbortReport where
  /-- File and line, where the guest gives them. -/
  location : Option (String × UInt32)
  message : Option String
  deriving DecidableEq

/-- The report as text. -/
def AbortReport.text (a : AbortReport) : String :=
  let place :=
    match a.location with
    | some (file, line) => s!" at {file}:{line}"
    | none => ""
  let message :=
    match a.message with
    | some text => s!": {text}"
    | none => ""
  "abort" ++ place ++ message

/-- Why a function of the guest's table is called. -/
inductive Callee where
  /-- It was called by its index. -/
  | direct
  /-- It calls the closure of this number. -/
  | adapter (closure : Nat)
  /-- It frees the closure of this number. -/
  | deallocator (closure : Nat)
  deriving DecidableEq

/-- Something that happened to an instance. -/
inductive Event where
  /-- A block was allocated in the arena. -/
  | allocated (size address : UInt32)
  /-- A value is about to be encoded. -/
  | encoding (typeName : String) (address : UInt32)
  /-- A slot is about to be decoded. -/
  | decoding (kind : SlotKind) (address : UInt32)
  /-- A handle gained an owner. -/
  | lentAgain (id owners : UInt32)
  /-- A value was lent under a new handle. -/
  | lent (id : UInt32) (typeName : String)
  /-- A handle lost its last owner. -/
  | givenBack (id : UInt32)
  /-- A guest closure was wrapped under this number. -/
  | wrapped (id : Nat) (closure : Closure)
  /-- A function of the guest's table was called; the call may still fail for want of a function. -/
  | called (callee : Callee) (index : UInt32) (arguments : List UInt32)
  /-- A drop that waited for running calls is carried out. -/
  | dropDeferred (id : Nat) (kind : ClosureKind)
  /-- A closure is handed back to the guest. -/
  | dropping (id : Nat) (kind : ClosureKind) (pointer : UInt32)
  /-- A value was put into the transfer slot. -/
  | parked (value : Value)
  /-- A value was taken out of the transfer slot. -/
  | taken (value : Value)
  /-- Guest memory grew to this many pages. -/
  | grown (pages : UInt32)
  /-- Views were published on a buffer of this size. -/
  | published (generation : Nat) (size : UInt32)
  /-- The guest is about to be started. -/
  | starting (size : UInt32)
  /-- A capability is about to be run. -/
  | invoked (name : String) (arguments : List Value)
  /-- The guest aborted. -/
  | aborted (report : AbortReport)

/-- The level of a line of the log. -/
inductive Level where
  | error
  | debug
  | trace
  deriving DecidableEq

/-- The name of a level. -/
def Level.name : Level → String
  | error => "ERROR"
  | debug => "DEBUG"
  | trace => "TRACE"

/-- The line of the log that an event makes, unless it is a quiet one. -/
def Event.line : Event → Option (Level × String)
  | allocated size address =>
    some (.trace, s!"[Bridge Arena] alloc {size} bytes at {Word.hex address}")
  | encoding typeName address =>
    some (.trace, s!"[Bridge Codec] encode {typeName} at {Word.hex address}")
  | decoding kind address =>
    some (.trace, s!"[Bridge Codec] decode {kind.name} at {Word.hex address}")
  | lentAgain id owners => some (.debug, s!"[Bridge Handles] acquire {id} (refcount {owners})")
  | lent id typeName => some (.debug, s!"[Bridge Handles] new handle {id} for {typeName}")
  | givenBack id => some (.debug, s!"[Bridge Handles] released handle {id}")
  | wrapped _ c =>
    some (.debug,
      s!"[Bridge Closures] wrapping {c.kind.name} closure {Word.hex c.pointer} " ++
        s!"(adapter {c.adapter}, deallocator {c.deallocator})")
  | called _ _ _ => none
  | dropDeferred _ kind => some (.debug, s!"[Bridge Closures] running deferred {kind.name} drop")
  | dropping _ kind pointer =>
    some (.debug, s!"[Bridge Closures] dropping {kind.name} closure {Word.hex pointer}")
  | parked _ => none
  | taken _ => none
  | grown pages => some (.debug, s!"[Bridge Guest] memory grown to {pages} pages")
  | published generation size =>
    some (.debug,
      s!"[Bridge] publishing memory views (generation {generation}, {size} bytes)")
  | starting size => some (.debug, s!"[Bridge] starting guest ({size} bytes of memory)")
  | invoked name arguments =>
    some (.trace, s!"[Bridge] capability {name} with {arguments.length} args")
  | aborted report => some (.error, s!"[Bridge] guest {report.text}")

end Crossing
