
set_option autoImplicit false

namespace BuildGate

def asciiLower (text : String) : String := String.ofList (text.toList.map Char.toLower)

inductive Level
  | warning
  | error
  | suggestion
  | message
deriving DecidableEq, Repr

namespace Level

def all : List Level := [error, warning, message, suggestion]

def name : Level → String
  | warning => "Warning"
  | error => "Error"
  | suggestion => "Suggestion"
  | message => "Message"

def word : Level → String
  | warning => "warning"
  | error => "error"
  | suggestion => "suggestion"
  | message => "message"

def parse (text : String) : Option Level := all.find? fun level => level.word == asciiLower text

end Level

inductive Severity
  | warning
  | error
deriving DecidableEq, Repr

namespace Severity

def name : Severity → String
  | warning => "Warning"
  | error => "Error"

def parse (text : String) : Option Severity :=
  let lowered := asciiLower text
  if lowered == "warning" || lowered == "warn" then some warning
  else if lowered == "error" then some error
  else none

end Severity

end BuildGate
