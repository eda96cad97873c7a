import BuildGate.Console
import BuildGate.Outcome
import BuildGate.Session
import BuildGate.Text.Lines

/-!
A gate runs invocation after invocation: it builds a session, writes the report, decides the
outcome, writes the footer and tells the parent. It keeps the last program to seed the next one.
-/

set_option autoImplicit false

namespace BuildGate

structure Gate (ω π κ : Type) where
  checker : Checker ω π
  linter : Linter ω π κ
  clock : Clock ω
  parent : Option (Parent ω)
  color : Bool

structure Signal where
  indicator : Indicator
  failure : Option IoError
deriving DecidableEq, Repr

structure Scene (ω π : Type) where
  world : ω
  console : Console
  signals : List Signal
  previous : Option π

namespace Scene

variable {ω π ε α : Type}

def start (world : ω) (console : Console) : Scene ω π := ⟨world, console, [], none⟩

def onWorld (action : Action ω ε α) : Action (Scene ω π) ε α :=
  action.within Scene.world fun world scene => { scene with world }

def print (text : String) : Action (Scene ω π) GateError Unit :=
  ((Console.print text).within Scene.console fun console scene => { scene with console }).mapError
    .output

def notify (parent : Parent ω) (indicator : Indicator) : Action (Scene ω π) GateError Unit :=
  fun scene =>
    match parent indicator scene.world with
    | (.ok (), world) =>
      (.ok (), { scene with world, signals := scene.signals ++ [⟨indicator, none⟩] })
    | (.error cause, world) =>
      (.error (.output cause),
        { scene with world, signals := scene.signals ++ [⟨indicator, some cause⟩] })

-- Hands out the program that seeds the next one. It seeds one program only.
def takePrevious : Action (Scene ω π) ε (Option π) := fun scene =>
  (.ok scene.previous, { scene with previous := none })

def keep (program : π) : Action (Scene ω π) ε Unit :=
  .change fun scene => { scene with previous := some program }

end Scene

def footerText (color : Bool) (text : String) : String := paint color .muted (text ++ "\n\n")

def conclude {ω π : Type} (color : Bool) (parent : Option (Parent ω)) (outcome : Outcome)
    (totals : Totals) : Action (Scene ω π) GateError Nat := do
  match outcome.footer? with
  | some text => Scene.print (footerText color text)
  | none => pure ()
  match outcome, parent with
  | .fatal _, some parent => Scene.notify parent .error
  | .fatal _, none => .fail (.fatalPolicy totals.total)
  | .quit, some parent => Scene.notify parent .done
  | _, _ => pure ()
  return totals.total

namespace Gate

variable {ω π κ : Type}

def configure (gate : Gate ω π κ) (settings : Settings) :
    Action (Scene ω π) GateError (Session π) := do
  let previous ← Scene.takePrevious
  Scene.onWorld (Session.configure gate.checker gate.linter gate.clock settings previous)

def report (gate : Gate ω π κ) (settings : Settings) (session : Session π) (time : String)
    (totals : Totals) : String :=
  let lines := ReportLine.all settings.yellow session.diagnostics session.lintResults
  Report.compose gate.color ⟨settings.runType, settings.name, time⟩ lines totals settings.yellow
    session.elapsed

def typecheck (gate : Gate ω π κ) (settings : Settings) (session : Session π) (time : String) :
    Action (Scene ω π) GateError Verdict := do
  let totals ← Scene.onWorld (.step (session.totals gate.checker settings.lintUnit))
  Scene.print (gate.report settings session time totals)
  Scene.keep session.program
  let outcome := Outcome.decide settings.throws settings.quit settings.finished totals
  let total ← conclude gate.color gate.parent outcome totals
  return ⟨outcome, total⟩

def run (gate : Gate ω π κ) (settings : Settings) : Action (Scene ω π) GateError Verdict := do
  let session ← gate.configure settings
  let time ← Scene.onWorld (.step gate.clock.localTime)
  gate.typecheck settings session time

def runLines (gate : Gate ω π κ) (settings : Settings) :
    List (Option String) → Action (Scene ω π) GateError Verdict
  | [] => gate.run settings
  | line :: lines => do
    let verdict ← gate.run settings
    if verdict.outcome ≠ .keepAlive then return verdict
    if line.isNone then .fail (.output .notText)
    else runLines gate settings lines

/-- Runs once, or, when listening, for each line of the triggers too. -/
def serve (gate : Gate ω π κ) (settings : Settings) (listen : Bool) (triggers : Text.Bytes) :
    Action (Scene ω π) GateError Verdict :=
  if listen then gate.runLines settings (Text.byteLines triggers) else gate.run settings

end Gate

end BuildGate
