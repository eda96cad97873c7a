import BuildGate.Finding.Diagnostic
import BuildGate.Json.Form
import BuildGate.Text.Blank

set_option autoImplicit false

namespace BuildGate.Lint

open Json (Form)

def single? (key : String) (members : List (Option String × Form)) : Option (Option Form) :=
  match members.filter (·.1 == some key) with
  | [] => some none
  | [(_, form)] => some (some form)
  | _ => none

def required? (key : String) (members : List (Option String × Form)) : Option Form :=
  (single? key members).bind id

def keysAreText (members : List (Option String × Form)) : Bool := members.all (·.1.isSome)

def text? : Form → Option String
  | .text content => content
  | _ => none

def word? : Form → Option Nat
  | .number form => form.word?
  | _ => none

def position? : Form → Option (Nat × Nat)
  | .object members => do
    guard (keysAreText members)
    return (← word? (← required? "line" members), ← word? (← required? "character" members))
  | .array [line, character] => do return (← word? line, ← word? character)
  | _ => none

def severityOf (text : String) : Severity := (Severity.parse text).getD .error

def failureOf? (file : String) (message rule severity position : Form) : Option Failure := do
  let message ← text? message
  let rule ← text? rule
  let severity ← text? severity
  let (line, character) ← position? position
  return { file, line, character, rule, severity := severityOf severity, message }

def failure? (file : String) : Form → Option Failure
  | .object members => do
    guard (keysAreText members)
    let message ← required? "failure" members
    let rule ← required? "ruleName" members
    let severity ← single? "ruleSeverity" members
    let position ← required? "startPosition" members
    failureOf? file message rule (severity.getD (.text (some ""))) position
  | .array [message, rule, severity, position] => failureOf? file message rule severity position
  | _ => none

def parseFailures (file output : String) : Option (List Failure) :=
  if (Text.trim output.toList).isEmpty then some []
  else
    match Form.read output.toList with
    | some (.array items) => items.mapM (failure? file)
    | _ => none

end BuildGate.Lint
