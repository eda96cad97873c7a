import BuildGate.Glob.Pattern
import BuildGate.IoError
import BuildGate.Path

set_option autoImplicit false

namespace BuildGate

inductive ProjectFault
  | notObject
  | notArray (key : String)
  | notStrings (key : String)
  | emptyCompiler
  | emptyLinter
  | other (text : String)
deriving DecidableEq, Repr

def ProjectFault.message : ProjectFault → String
  | notObject => "project configuration must be an object"
  | notArray key => "'" ++ key ++ "' must be an array"
  | notStrings key => "'" ++ key ++ "' entries must be strings"
  | emptyCompiler => "empty engine command"
  | emptyLinter => "empty lint command"
  | other text => text

inductive LintConfigFault
  | notMapping
  | unreadable
deriving DecidableEq, Repr

inductive ConfigFault
  | io (cause : IoError)
  | unreadable
deriving DecidableEq, Repr

inductive EngineError
  | spawn (command : String) (cause : IoError)
  | failed (command : String) (status : Int) (stderr : String)
  | project (fault : ProjectFault)
  | glob (pattern : String) (fault : Glob.Fault)
  | read (path : Path) (cause : IoError)
  | lintConfigMissing (path : Path)
  | lintConfigMalformed (path : Path) (fault : LintConfigFault)
  | lintOutput (file : String)
deriving DecidableEq, Repr

inductive GateError
  | config (path : Path) (fault : ConfigFault)
  | engine (error : EngineError)
  | missingSource (file : String)
  | fatalPolicy (total : Nat)
  | output (cause : IoError)
deriving DecidableEq, Repr

def EngineError.message (complaint : String) : EngineError → String
  | spawn command cause => "failed to spawn `" ++ command ++ "`: " ++ cause.message
  | failed command status stderr =>
    "`" ++ command ++ "` failed with status " ++ toString status ++ ": " ++ stderr
  | project fault => "invalid project configuration: " ++ fault.message
  | glob pattern fault => "invalid glob pattern '" ++ pattern ++ "': " ++ fault.message
  | read path cause => "failed to read " ++ path.text ++ ": " ++ cause.message
  | lintConfigMissing path => "lint configuration not found: " ++ path.text
  | lintConfigMalformed path .notMapping =>
    "malformed lint configuration " ++ path.text ++ ": top level must be a mapping"
  | lintConfigMalformed path .unreadable =>
    "malformed lint configuration " ++ path.text ++ ": " ++ complaint
  | lintOutput file => "unreadable linter output for " ++ file ++ ": " ++ complaint

namespace GateError

def message (complaint : String) : GateError → String
  | config path (.io cause) => "failed to load " ++ path.text ++ ": " ++ cause.message
  | config path .unreadable => "failed to load " ++ path.text ++ ": " ++ complaint
  | engine error => error.message complaint
  | missingSource file => "lint target '" ++ file ++ "' has no source text in the program"
  | fatalPolicy total =>
    "Typechecker throwing error due to throw options set (" ++ toString total ++ " finding(s))"
  | output cause => "failed to write report: " ++ cause.message

def exitStatus : GateError → Nat
  | fatalPolicy _ => 1
  | _ => 2

end GateError

end BuildGate
