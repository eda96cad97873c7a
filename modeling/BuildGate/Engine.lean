import BuildGate.Action
import BuildGate.Error
import BuildGate.Finding.Diagnostic
import BuildGate.Project
import BuildGate.Settings.Basic

/-!
What a run needs of a type checker, a linter, a clock and a parent process. Each works on a world
of its own kind, so what it answers may depend on all that happened before.
-/

set_option autoImplicit false

namespace BuildGate

/-- A type checker whose programs are values of `π`. -/
structure Checker (ω π : Type) where
  resolve : Json → Path → Action ω EngineError Project
  build : Project → Option π → Action ω EngineError π
  diagnostics : π → Category → ω → List Notice × ω
  files : π → List String
  text? : π → String → Option String

/-- A linter whose rule configurations are values of `κ`. -/
structure Linter (ω π κ : Type) where
  configuration : Path → Path → Action ω EngineError κ
  files : π → List String
  lint : String → String → κ → LintOptions → Action ω EngineError (List Failure)

structure Clock (ω : Type) where
  nanoseconds : ω → Nat × ω
  localTime : ω → String × ω

inductive Indicator
  | done
  | error
deriving DecidableEq, Repr

def Indicator.word : Indicator → String
  | done => "done"
  | error => "error"

abbrev Parent (ω : Type) := Indicator → Action ω IoError Unit

def Parent.channel {ω : Type} (disk : ω → Disk) (setDisk : Disk → ω → ω) (path : Path) :
    Parent ω := fun indicator world =>
  match (disk world).append path (Text.encode (indicator.word ++ "\n")) with
  | .ok written => (.ok (), setDisk written world)
  | .error cause => (.error cause, world)

end BuildGate
