import BuildGate.Engine
import BuildGate.LineMap
import BuildGate.Report.Text

set_option autoImplicit false

namespace BuildGate

structure Session (π : Type) where
  program : π
  diagnostics : List Diagnostic
  lintResults : List FileFailures
  elapsed : Elapsed

namespace Session

variable {ω π κ : Type}

def locate? (text? : String → Option String) (notice : Notice) : Option Location :=
  match notice.file, notice.start with
  | some file, some start =>
    (text? file).map fun text =>
      let (line, character) := (LineMap.ofString text).lineAndCharacter start
      ⟨file, line, character⟩
  | _, _ => none

def diagnosticOf (text? : String → Option String) (category : Category) (notice : Notice) :
    Diagnostic :=
  ⟨category, locate? text? notice, notice.code, notice.level, notice.message⟩

def collect (checker : Checker ω π) (program : π) : List Category → ω → List Diagnostic × ω
  | [], world => ([], world)
  | category :: categories, world =>
    let (notices, world) := checker.diagnostics program category world
    let (rest, world) := collect checker program categories world
    (notices.map (diagnosticOf (checker.text? program) category) ++ rest, world)

def lintFiles (linter : Linter ω π κ) (text? : String → Option String) (configuration : κ)
    (options : LintOptions) : List String → Action ω GateError (List FileFailures)
  | [] => .done []
  | file :: files =>
    match text? file with
    | none => .fail (.missingSource file)
    | some text => do
      let failures ← (linter.lint file text configuration options).mapError .engine
      let rest ← lintFiles linter text? configuration options files
      return if failures.isEmpty then rest else ⟨file, failures⟩ :: rest

def lint (checker : Checker ω π) (linter : Linter ω π κ) (settings : Settings) (program : π) :
    Action ω GateError (List FileFailures) :=
  match settings.lintFile with
  | none => .done []
  | some file => do
    let path := settings.basePath.join file
    let configuration ←
      (linter.configuration path settings.basePath).mapError .engine
    lintFiles linter (checker.text? program) configuration settings.lintOptions
      (linter.files program)

def configure (checker : Checker ω π) (linter : Linter ω π κ) (clock : Clock ω)
    (settings : Settings) (previous : Option π) : Action ω GateError (Session π) := do
  let started ← .step clock.nanoseconds
  let project ← (checker.resolve settings.project settings.basePath).mapError .engine
  let program ← (checker.build project previous).mapError .engine
  let diagnostics ← .step (collect checker program Category.all)
  let lintResults ← lint checker linter settings program
  let ended ← .step clock.nanoseconds
  return { program, diagnostics, lintResults, elapsed := .ofNanoseconds (ended - started) }

def lintCount (unit : LintUnit) (results : List FileFailures) : Nat :=
  match unit with
  | .files => results.length
  | .failures => (results.flatMap (·.failures)).length

def totals (checker : Checker ω π) (session : Session π) (unit : LintUnit) (world : ω) :
    Totals × ω :=
  let (options, world) := checker.diagnostics session.program .options world
  let (global, world) := checker.diagnostics session.program .global world
  let (syntactic, world) := checker.diagnostics session.program .syntactic world
  let (semantic, world) := checker.diagnostics session.program .semantic world
  (⟨options.length, global.length, syntactic.length, semantic.length,
    lintCount unit session.lintResults⟩, world)

end Session

end BuildGate
