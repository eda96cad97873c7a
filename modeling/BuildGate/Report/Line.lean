import BuildGate.Finding.Diagnostic

set_option autoImplicit false

namespace BuildGate

inductive LineClass
  | warning
  | error
deriving DecidableEq, Repr

structure ReportLine where
  kind : Kind
  location : Option String
  shown : LineClass
  tag : String
  message : String
deriving DecidableEq, Repr

namespace ReportLine

def shownAs (yellow : Flags) (kind : Kind) : LineClass :=
  if yellow.get kind then .warning else .error

def place (file : String) (line character : Nat) : String :=
  file ++ " (" ++ toString (Word.add line 1) ++ "," ++ toString (Word.add character 1) ++ ")"

def ofDiagnostic (yellow : Flags) (diagnostic : Diagnostic) : ReportLine :=
  let kind := Kind.ofCategory diagnostic.category
  { kind
    location := diagnostic.location.map fun l => place l.file l.line l.character
    shown := shownAs yellow kind
    tag := diagnostic.level.name ++ ":TS" ++ toString diagnostic.code
    message := diagnostic.message.flatten "\n" }

def ofFailure (yellow : Flags) (failure : Failure) : ReportLine :=
  { kind := .lint
    location := some (place failure.file failure.line failure.character)
    shown := shownAs yellow .lint
    tag := failure.severity.name ++ ":" ++ failure.rule
    message := failure.message }

def ofResults (yellow : Flags) (results : List FileFailures) : List ReportLine :=
  results.flatMap fun result => result.failures.map (ofFailure yellow)

def all (yellow : Flags) (diagnostics : List Diagnostic) (results : List FileFailures) :
    List ReportLine :=
  diagnostics.map (ofDiagnostic yellow) ++ ofResults yellow results

end ReportLine

end BuildGate
