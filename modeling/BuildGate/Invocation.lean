import BuildGate.CommandLine
import BuildGate.Compiler.Program
import BuildGate.Gate
import BuildGate.Lint.Tool
import BuildGate.Settings.Load

/-!
A whole run of the program: the command line is read, the settings are resolved, and a gate over
the compiler and the linter serves the triggers.
-/

set_option autoImplicit false

namespace BuildGate

structure Machine where
  host : Host
  nanoseconds : Nat
  localTime : String

namespace Machine

def setHost (host : Host) (machine : Machine) : Machine := { machine with host }

def onHost {ε α : Type} (action : Action Host ε α) : Action Machine ε α :=
  action.within Machine.host setHost

def clock : Clock Machine where
  nanoseconds machine := (machine.nanoseconds, machine)
  localTime machine := (machine.localTime, machine)

def checker (command : List String) : Checker Machine Compiler.Program where
  resolve project base := onHost ((Compiler.checker command).resolve project base)
  build project previous := onHost ((Compiler.checker command).build project previous)
  diagnostics program category machine := (program.ofCategory category, machine)
  files := Compiler.Program.files
  text? := Compiler.Program.text?

def linter (command : List String) : Linter Machine Compiler.Program Lint.Configuration :=
  let tool : Linter Host Compiler.Program Lint.Configuration :=
    Lint.tool command Compiler.Program.files
  { configuration := fun path basePath => onHost (tool.configuration path basePath)
    files := tool.files
    lint := fun file text configuration options =>
      onHost (tool.lint file text configuration options) }

def channel (path : Path) : Parent Machine :=
  Parent.channel (·.host.disk)
    (fun disk machine => { machine with host := { machine.host with disk } }) path

def gate (settings : Settings) (parent : Option (Parent Machine)) (color : Bool) :
    Gate Machine Compiler.Program Lint.Configuration where
  checker := checker settings.compiler
  linter := linter settings.linter
  clock := clock
  parent := parent
  color := color

end Machine

namespace Invocation

structure Input where
  arguments : List String
  noColor : Option String
  triggers : Text.Bytes

inductive Ending
  | refused (refusal : Refusal)
  | failed (error : GateError)
  | served (verdict : Verdict)
deriving DecidableEq, Repr

def Ending.exitStatus : Ending → Nat
  | refused refusal => refusal.exitStatus
  | failed error => error.exitStatus
  | served _ => 0

def gateFor (line : CommandLine) (noColor : Option String) (settings : Settings) :
    Gate Machine Compiler.Program Lint.Configuration :=
  Machine.gate settings (line.parentChannel.map fun path => Machine.channel ⟨path⟩)
    (useColors line.noColor noColor)

def serve (line : CommandLine) (input : Input) :
    Action (Scene Machine Compiler.Program) GateError Verdict := do
  let settings ← fun scene =>
    (Settings.resolve scene.world.host.disk line.root line.overrides, scene)
  (gateFor line input.noColor settings).serve settings line.listen input.triggers

def announce (refusal : Refusal) : Action (Scene Machine Compiler.Program) GateError Unit :=
  match refusal.announcement? with
  | some text => Scene.print text
  | none => pure ()

def run (input : Input) (scene : Scene Machine Compiler.Program) :
    Ending × Scene Machine Compiler.Program :=
  match CommandLine.parse input.arguments with
  | .error refusal => (.refused refusal, (announce refusal scene).2)
  | .ok line =>
    match serve line input scene with
    | (.ok verdict, scene) => (.served verdict, scene)
    | (.error error, scene) => (.failed error, scene)

end Invocation

end BuildGate
