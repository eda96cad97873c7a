import BuildGate.Invocation
import BuildGate.Proofs.Compiler.Build
import BuildGate.Proofs.Frame
import BuildGate.Proofs.Lint.Process

set_option autoImplicit false

namespace BuildGate

variable {α ε : Type}

theorem Host.start_leads (program : String) (arguments : List String) (directory : Path) :
    (start program arguments directory).Leads (Same disk) :=
  fun host => (start_starts (fun _ _ _ => trivial) host : host.Started (fun _ _ => True) _).disk_eq

theorem Compiler.build_leads (command : List String) (project : Project)
    (previous : Option Program) : (build command project previous).Leads (Same Host.disk) := by
  refine .bind (.same fun _ => rfl) fun disk => .bind (.ofExcept _) fun sources => ?_
  split
  next => exact .pure _
  next =>
    refine .bind ?_ fun output => .pure _
    cases command with
    | nil => exact .fail _
    | cons program own =>
      exact .bind (.mapError _ (Host.start_leads _ _ _)) fun response => .ofExcept _

theorem Lint.lintFile_leads (command : List String) (file : String) (configuration : Configuration)
    (options : LintOptions) :
    (lintFile command file configuration options).Leads (Same Host.disk) :=
  fun host => (lintFile_starts command file configuration options host).disk_eq

namespace Machine

theorem onHost_leads {action : Action Host ε α} (leads : action.Leads (Same Host.disk))
    {β : Type} (view : Disk → β) :
    (onHost action).Leads (Same fun machine => view machine.host.disk) := by
  intro machine
  exact congrArg view (leads machine.host)

theorem gate_spares (settings : Settings) (parent : Option (Parent Machine)) (color : Bool)
    {β : Type} (view : Disk → β) :
    (gate settings parent color).Spares fun machine => view machine.host.disk where
  checker := {
    resolve := fun _ _ _ => rfl
    build := fun project previous => onHost_leads (Compiler.build_leads _ project previous) view
    diagnostics := fun _ _ _ => rfl }
  linter := {
    configuration := fun _ _ _ => rfl
    lint := fun file _ configuration options =>
      onHost_leads (Lint.lintFile_leads _ file configuration options) view }
  clock := fun _ => rfl

end Machine

end BuildGate
