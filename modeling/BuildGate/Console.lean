import BuildGate.Action
import BuildGate.IoError

set_option autoImplicit false

namespace BuildGate

inductive ConsoleStep
  | write (text : String)
  | flush
deriving DecidableEq, Repr

structure ConsoleEvent where
  step : ConsoleStep
  refusal : Option IoError
deriving DecidableEq, Repr

structure Console where
  refuses : List ConsoleEvent → ConsoleStep → Option IoError
  events : List ConsoleEvent

namespace ConsoleEvent

def text (event : ConsoleEvent) : String :=
  match event.step, event.refusal with
  | .write text, none => text
  | _, _ => ""

end ConsoleEvent

namespace Console

def accepting : Console := ⟨fun _ _ => none, []⟩

def text (console : Console) : String := String.join (console.events.map ConsoleEvent.text)

def take (step : ConsoleStep) : Action Console IoError Unit := fun console =>
  let refusal := console.refuses console.events step
  let console := { console with events := console.events ++ [⟨step, refusal⟩] }
  match refusal with
  | none => (.ok (), console)
  | some cause => (.error cause, console)

def print (text : String) : Action Console IoError Unit := do
  take (.write text)
  take .flush

end Console

end BuildGate
