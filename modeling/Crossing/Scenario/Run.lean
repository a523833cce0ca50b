import Crossing.Scenario.Session

/-!
# Running scenarios

`Session.turn` goes on by one small step: it runs the next command of the innermost body, takes note
of a result, deals with a reply of the machine, or ends a body. `Session.run` repeats that with
fuel, since bodies may call one another for ever; `none` means that the fuel ran out.
-/

namespace Crossing.Scenario

/-- What a session does next. -/
inductive Turn where
  /-- Run the next step of the innermost body. -/
  | proceed
  /-- Take note of the result of the step that the innermost body waits for. -/
  | conclude (outcome : Except Fault (Result × Option Saved))
  /-- Deal with the reply to the call of the step that the innermost body waits for. -/
  | receive (reply : Reply Body)
  /-- End the innermost body. -/
  | finish (completion : Completion)

/-- Whether a step is to be skipped. -/
def Step.isSkipped (step : Step Body) (words : List (String × UInt32)) : Bool :=
  match step.onlyBelow with
  | some (name, bound) => bound ≤ ((Entries.get? name words).getD 0).toNat
  | none => false

/-- Whether the call of a step has a value. -/
def Command.hasValue : Command Body → Bool
  | .call _ _ => true
  | _ => false

/-- A value as text, where the step asks for it. -/
def Result.shown (asText : Bool) : Result → Result
  | .picture p => if asText then .text p.text else .picture p
  | r => r

/-- The activation of a body with its arguments. -/
def Body.activation (body : Body) (words : List UInt32) (values : List Value) : Activation :=
  match body with
  | .script steps => { rest := steps, words, values }
  | .echo => { rest := [], words, values, result := .array values }

namespace Session

/-- The nesting depth of the innermost body. -/
def depth (s : Session) : Nat := s.running.length - 1

/-- Adds the events since the last entry to the trace, and then an entry for a step. -/
def note (s : Session) (step : Step Body) (outcome : Option (Except Fault Result)) : Session :=
  let journal := s.machine.inst.journal
  let events := (journal.extract s.reported journal.size).map Entry.event
  let entry := Entry.step step.label s.depth outcome (.ofInstance s.machine.inst)
  { s with trace := (s.trace ++ events).push entry, reported := journal.size }

/-- Saves what a step leaves behind. -/
def save (s : Session) (step : Step Body) (saved : Option Saved) : Session :=
  match step.saveAs, saved with
  | some name, some (.word n) => { s with words := Entries.insert name n s.words }
  | some name, some (.value v) => { s with values := Entries.insert name v s.values }
  | _, _ => s

/-- Runs a step of the body `a`, the rest of whose steps is `rest`. -/
def begin (s : Session) (a : Activation) (step : Step Body) (rest : List (Step Body))
    (below : List Activation) : Turn × Session :=
  let s := { s with running := { a with rest, waiting := some step } :: below }
  if step.isSkipped s.words then (.proceed, s)
  else
    match Id.run ((ExceptT.run (Perform.execute step.command)).run s) with
    | (.error fault, s) => (.conclude (.error fault), s)
    | (.ok (.done result saved), s) => (.conclude (.ok (result, saved)), s)
    | (.ok (.replied reply), s) => (.receive reply, s)
    | (.ok (.ended completion), s) => (.finish completion, s.note step none)

/-- Takes note of the result of a step. A fault ends the body, except at top level or when the step
is an attempt. A panic ends everything, whatever is running. -/
def conclude (s : Session) (step : Step Body) (outcome : Except Fault (Result × Option Saved)) :
    Turn × Session :=
  match outcome with
  | .ok (result, saved) =>
    (.proceed, (s.note step (some (.ok (result.shown step.asText)))).save step saved)
  | .error .overflow => (.proceed, { s with running := [], panicked := true })
  | .error fault =>
    let s := s.note step (some (.error fault))
    if step.attempt || s.depth = 0 then (.proceed, s) else (.finish (.faulted fault), s)

/-- Goes on by one small step. `none` means that the scenario has come to its end. -/
def turn (s : Session) : Turn → Option (Turn × Session)
  | .proceed =>
    match s.running with
    | [] => none
    | a :: below =>
      match a.rest, below with
      | step :: rest, below => some (s.begin a step rest below)
      | [], [] => none
      | [], _ :: _ => some (.finish (.returned a.result), s)
  | .conclude outcome =>
    match s.running.head?.bind (·.waiting) with
    | some step => some (s.conclude step outcome)
    | none => none
  | .receive (.entered body words values) =>
    some (.proceed, { s with running := body.activation words values :: s.running })
  | .receive (.answered (.error fault)) => some (.conclude (.error fault), s)
  | .receive (.answered (.ok v)) =>
    match s.running.head?.bind (·.waiting) with
    | some step =>
      if step.command.hasValue then
        let p := Perform.picture s.machine.inst v
        some (.conclude (.ok (.picture p, some (.value v))), s)
      else some (.conclude (.ok (.nothing, none)), s)
    | none => none
  | .finish completion =>
    match s.running with
    | _ :: below@(_ :: _) =>
      let (reply, machine) := s.machine.leave completion
      some (.receive reply, { s with machine, running := below })
    | _ => none

/-- Goes on until the scenario has come to its end, for at most `fuel` small steps. -/
def run (fuel : Nat) (t : Turn) (s : Session) : Option Session :=
  match fuel with
  | 0 => none
  | fuel + 1 =>
    match s.turn t with
    | none => some s
    | some (t, s) => run fuel t s

/-- A session at its beginning. -/
def ofSteps (inst : Instance Body) (steps : List (Step Body)) : Session :=
  { machine := { inst }, running := [{ rest := steps }] }

/-- Evaluates an expression; one that faults reads as undefined. -/
def evaluate (s : Session) (e : ValueExpr) : Value × Session :=
  match Id.run ((ExceptT.run (Perform.evaluate e)).run s) with
  | (.ok v, s) => (v, s)
  | (.error _, s) => (.undefined, s)

/-- The picture of a value as it looks now. -/
def picture (s : Session) (v : Value) : Picture := Perform.picture s.machine.inst v

end Session

/-- A guest, how the host treats it, and what is done with them. -/
structure Setup where
  pages : UInt32 := 1
  maxPages : UInt32 := 16
  config : Config := .standard
  /-- The number of requests that the guest's allocator serves. -/
  allowance : Option Nat := none
  /-- The names of capabilities that answer with their arguments. -/
  echoes : List String := []

/-- The instance of a setup. -/
def Setup.inst (setup : Setup) : Instance Body :=
  let guest := { Guest.ofPages Body setup.pages setup.maxPages with allowance := setup.allowance }
  let capabilities := setup.echoes.foldl (fun cs name => cs.add name ⟨.echo, false⟩) {}
  { Instance.ofGuest guest setup.config with capabilities }

/-- What a scenario comes to. -/
inductive Ending where
  | finished (trace : Array Entry)
  /-- The host has panicked, and there is no trace. -/
  | panicked

/-- Runs a scenario to its end, or `none` when the fuel ran out. -/
def run (setup : Setup) (fuel : Nat) (steps : List (Step Body)) : Option Ending :=
  ((Session.ofSteps setup.inst steps).run fuel .proceed).map fun s =>
    if s.panicked then .panicked else .finished s.trace

end Crossing.Scenario
