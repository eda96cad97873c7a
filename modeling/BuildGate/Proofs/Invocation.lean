import BuildGate.Proofs.Compiler.Sources
import BuildGate.Proofs.Gate.Fault
import BuildGate.Proofs.Machine
import BuildGate.Proofs.Settings.Precedence

set_option autoImplicit false

namespace BuildGate

open Compiler (Program)

theorem Machine.gate_sourced (settings : Settings) (parent : Option (Parent Machine))
    (color : Bool) : (gate settings parent color).Sourced := by
  intro project seed program before after built file inside
  have ended : (Compiler.build settings.compiler project seed before.host).1 = .ok program :=
    congrArg Prod.fst built
  exact (Compiler.text?_isSome_of_build (Prod.ext ended rfl) file).2 inside

namespace Invocation

/-- The gate of a run that reaches its parent through any kind of channel. -/
def gateOver (channel : String → Parent Machine) (line : CommandLine) (noColor : Option String)
    (settings : Settings) : Gate Machine Program Lint.Configuration :=
  Machine.gate settings (line.parentChannel.map channel) (useColors line.noColor noColor)

def serveOver (channel : String → Parent Machine) (line : CommandLine) (input : Input) :
    Action (Scene Machine Program) GateError Verdict := do
  let settings ← fun scene =>
    (Settings.resolve scene.world.host.disk line.root line.overrides, scene)
  (gateOver channel line input.noColor settings).serve settings line.listen input.triggers

def runOver (channel : String → Parent Machine) (input : Input) (scene : Scene Machine Program) :
    Ending × Scene Machine Program :=
  match CommandLine.parse input.arguments with
  | .error refusal => (.refused refusal, (announce refusal scene).2)
  | .ok line =>
    match serveOver channel line input scene with
    | (.ok verdict, scene) => (.served verdict, scene)
    | (.error error, scene) => (.failed error, scene)

theorem run_eq_runOver (input : Input) :
    run input = runOver (fun path => Machine.channel ⟨path⟩) input := by
  have same (line : CommandLine) :
      serve line input = serveOver (fun path => Machine.channel ⟨path⟩) line input := rfl
  funext scene
  unfold run runOver
  cases CommandLine.parse input.arguments with
  | error refusal => rfl
  | ok line =>
    rcases ended : serveOver (fun path => Machine.channel ⟨path⟩) line input scene with
      ⟨_ | _, _⟩ <;> simp only [same, ended]

def Ending.of : Except GateError Verdict → Ending
  | .ok verdict => .served verdict
  | .error error => .failed error

theorem exitStatus_of (result : Except GateError Verdict) :
    ((Ending.of result).exitStatus = 1 ↔ ∃ total, result = .error (.fatalPolicy total)) ∧
      ((Ending.of result).exitStatus = 2 ↔ broke result = true) ∧
      (Ending.of result).exitStatus ≤ 2 := by
  cases result with
  | ok verdict => simp [Ending.of, Ending.exitStatus, broke, failure?]
  | error error =>
    cases error <;> simp [Ending.of, Ending.exitStatus, broke, failure?, GateError.exitStatus]

section Accepted

variable {channel : String → Parent Machine} {input : Input} {line : CommandLine}
  {scene : Scene Machine Program}

theorem runOver_of_accepted (accepted : CommandLine.parse input.arguments = .ok line) :
    runOver channel input scene =
      (Ending.of (serveOver channel line input scene).1,
        (serveOver channel line input scene).2) := by
  simp only [runOver, accepted]
  rcases serveOver channel line input scene with ⟨_ | _, _⟩ <;> rfl

theorem serveOver_of_unresolved {error : GateError}
    (unresolved : Settings.resolve scene.world.host.disk line.root line.overrides = .error error) :
    serveOver channel line input scene = (.error error, scene) :=
  Action.bind_of_error (Prod.ext unresolved rfl)

theorem serveOver_of_resolved {settings : Settings}
    (resolved : Settings.resolve scene.world.host.disk line.root line.overrides = .ok settings) :
    serveOver channel line input scene =
      (gateOver channel line input.noColor settings).serve settings line.listen input.triggers
        scene :=
  Action.bind_of_ok (Prod.ext resolved rfl)

theorem runOver_of_resolved {settings : Settings}
    (accepted : CommandLine.parse input.arguments = .ok line)
    (resolved : Settings.resolve scene.world.host.disk line.root line.overrides = .ok settings) :
    let served := (gateOver channel line input.noColor settings).serve settings line.listen
      input.triggers scene
    runOver channel input scene = (Ending.of served.1, served.2) := by
  rw [runOver_of_accepted accepted, serveOver_of_resolved resolved]

end Accepted

section Served

variable {ω π κ : Type} (gate : Gate ω π κ) (settings : Settings) (listen : Bool)
  (triggers : Text.Bytes) (start : Scene ω π)

theorem exitStatus_eq_one_iff (steady : ∀ program, gate.checker.Steady program) :
    (Ending.of (gate.serve settings listen triggers start).1).exitStatus = 1 ↔
      ∃ last, (gate.served settings listen triggers start).getLast? = some last ∧
        gate.Condemns settings last := by
  rw [(exitStatus_of _).1, gate.serve_eq]
  exact gate.runLines_fatal_iff settings steady _ start

theorem exitStatus_eq_two_iff (sourced : gate.Sourced) (fresh : start.recording.faults = 0) :
    let ended := gate.serve settings listen triggers start
    let recorded := gate.recorded.serve settings listen triggers start.recording
    (Ending.of ended.1).exitStatus = 2 ↔
      (∃ request ∈ recorded.2.world.2, request.failure?.isSome) ∨
        (∃ event ∈ ended.2.console.events, event.refusal.isSome) ∨
        (∃ signal ∈ ended.2.signals, signal.failure.isSome) ∨
        gate.Stalls settings (Gate.triggerLines listen triggers) start := by
  intro ended recorded
  have same : ended = (recorded.1, recorded.2.unrecorded) :=
    gate.serve_unrecorded settings listen triggers start.recording
  have counted := gate.runLines_broke_iff settings sourced (Gate.triggerLines listen triggers)
    start.recording
  rw [← gate.recorded.serve_eq, fresh, ← gate.stalls_unrecorded, Scene.faults_pos_iff, or_assoc,
    or_assoc] at counted
  rw [(exitStatus_of _).2.1, same]
  exact counted

end Served

/-- The status is 1 exactly if the last report was taken with findings that a policy makes fatal,
while there is no parent to tell. It is 2 exactly if something failed: loading the settings, a tool,
the output, the parent, or a line that is no text. -/
theorem exitStatus_tells (channel : String → Parent Machine) (input : Input) {line : CommandLine}
    (accepted : CommandLine.parse input.arguments = .ok line) (machine : Machine)
    (refuses : List ConsoleEvent → ConsoleStep → Option IoError) :
    let start := Scene.start machine ⟨refuses, []⟩
    let ended := runOver channel input start
    let resolved := Settings.resolve machine.host.disk line.root line.overrides
    let gate := gateOver channel line input.noColor
    let recorded settings :=
      (gate settings).recorded.serve settings line.listen input.triggers start.recording
    let condemned := ∃ settings last session configured kind, resolved = .ok settings ∧
      ((gate settings).served settings line.listen input.triggers start).getLast? = some last ∧
      last.passage.reported = true ∧ line.parentChannel = none ∧
      (gate settings).configure settings last.before = (.ok session, configured) ∧
      settings.throws.get kind = true ∧ session.Finds kind
    let broken := (∃ error, resolved = .error error) ∨ ∃ settings, resolved = .ok settings ∧
      ((∃ request ∈ (recorded settings).2.world.2, request.failure?.isSome) ∨
        (∃ event ∈ ended.2.console.events, event.refusal.isSome) ∨
        (∃ signal ∈ ended.2.signals, signal.failure.isSome) ∨
        (gate settings).Stalls settings (Gate.triggerLines line.listen input.triggers) start)
    run input start = runOver (fun path => Machine.channel ⟨path⟩) input start ∧
      (∀ settings, resolved = .ok settings → (recorded settings).2.unrecorded = ended.2) ∧
      (ended.1.exitStatus = 1 ↔ condemned) ∧ (ended.1.exitStatus = 2 ↔ broken) ∧
      (¬ condemned → ¬ broken → ended.1.exitStatus = 0) := by
  intro start ended resolved gate recorded condemned broken
  have loading : Settings.resolve start.world.host.disk line.root line.overrides = resolved := rfl
  have finished : ended = (Ending.of (serveOver channel line input start).1,
      (serveOver channel line input start).2) := runOver_of_accepted accepted
  clear_value ended resolved
  have bounded : ended.1.exitStatus ≤ 2 := by
    rw [finished]
    exact (exitStatus_of _).2.2
  suffices (∀ settings, resolved = .ok settings → (recorded settings).2.unrecorded = ended.2) ∧
      (ended.1.exitStatus = 1 ↔ condemned) ∧ (ended.1.exitStatus = 2 ↔ broken) by
    obtain ⟨beside, found, failed⟩ := this
    refine ⟨congrFun (run_eq_runOver input) start, beside, found, failed, fun spared whole => ?_⟩
    have notOne := mt found.1 spared
    have notTwo := mt failed.1 whole
    omega
  cases resolved with
  | error error =>
    obtain ⟨path, fault, rfl⟩ := Settings.resolve_error loading
    rw [serveOver_of_unresolved loading] at finished
    have status : ended.1.exitStatus = 2 := congrArg (fun ended => ended.1.exitStatus) finished
    refine ⟨?_, iff_of_false (by omega) ?_, iff_of_true status (.inl ⟨_, rfl⟩)⟩
    · intro settings loaded
      cases loaded
    · rintro ⟨settings, last, session, configured, kind, loaded, -⟩
      cases loaded
  | ok settings =>
    rw [serveOver_of_resolved loading] at finished
    subst finished
    refine ⟨?_, ?_, ?_⟩
    · rintro _ ⟨⟩
      exact congrArg Prod.snd ((gate settings).serve_unrecorded settings line.listen
        input.triggers start.recording).symm
    · refine (exitStatus_eq_one_iff (gate settings) settings line.listen input.triggers start
        fun _ _ _ _ => rfl).trans ?_
      constructor
      · rintro ⟨last, ran, reported, alone, session, configured, kind, built, thrown, finds⟩
        exact ⟨settings, last, session, configured, kind, rfl, ran, reported,
          Option.map_eq_none_iff.1 alone, built, thrown, finds⟩
      · rintro ⟨_, last, session, configured, kind, ⟨⟩, ran, reported, alone, built, thrown, finds⟩
        exact ⟨last, ran, reported, Option.map_eq_none_iff.2 alone, session, configured, kind,
          built, thrown, finds⟩
    · refine (exitStatus_eq_two_iff (gate settings) settings line.listen input.triggers start
        (Machine.gate_sourced _ _ _) rfl).trans ?_
      constructor
      · exact fun happened => .inr ⟨settings, rfl, happened⟩
      · rintro (⟨error, ⟨⟩⟩ | ⟨_, ⟨⟩, happened⟩)
        exact happened

def quittingInput : Input := ⟨["--quit"], none, []⟩

def quittingLine : CommandLine :=
  ⟨none, { Overrides.empty with quit := some true }, none, false, false, false, false⟩

def foundMachine (flag : String) : Machine where
  host :=
    { disk :=
        { entries := [(["a.ts"], .file (Text.encode "x") 0), (["tycheck.toml"],
            .file (Text.encode (flag ++ " = true\n[tsConfigObj]\nfiles = [\"a.ts\"]\n")) 1)]
          current := []
          clock := 2 }
      obstacle := fun _ => none
      respond := fun _ _ => ⟨Text.encode "a.ts(1,1): error TS2322: m\n", [], some 2⟩
      calls := [] }
  nanoseconds := 0
  localTime := "now"

def foundSettings (throws : Flags) : Settings :=
  { Settings.default with
    project := .object [("files", .array [.text "a.ts"])]
    throws := throws
    quit := true }

theorem sample_runs_exit :
    let found := Scene.start (foundMachine "throwOnSemantic") .accepting
    let unmatched := Scene.start (foundMachine "throwOnTsLint") .accepting
    let refused := Scene.start (foundMachine "throwOnSemantic") ⟨fun _ _ => some .denied, []⟩
    CommandLine.parse quittingInput.arguments = .ok quittingLine ∧
      (run quittingInput found).1.exitStatus = 1 ∧
        (run quittingInput unmatched).1 = .served ⟨.quit, 1⟩ ∧
          (run quittingInput refused).1.exitStatus = 2 := by
  intro found unmatched refused
  let channel : String → Parent Machine := fun path => Machine.channel ⟨path⟩
  let settings := foundSettings ⟨false, false, false, true, false⟩
  let gate := gateOver channel quittingLine none settings
  have accepted : CommandLine.parse quittingInput.arguments = .ok quittingLine := by decide
  have resolved : Settings.resolve found.world.host.disk quittingLine.root quittingLine.overrides =
      .ok settings := by decide +kernel
  refine ⟨accepted, ?_, ?_, ?_⟩
  · have tells := exitStatus_tells channel quittingInput accepted (foundMachine "throwOnSemantic")
      fun _ _ => none
    have collected : (gate.configure settings found).1.map (·.diagnostics.map (·.category)) =
        .ok [.semantic] := by decide +kernel
    have reported : (gate.ran settings found).passage.reported = true := by decide +kernel
    obtain ⟨session, built, listed⟩ := Except.map_eq_ok.1 collected
    obtain ⟨diagnostic, one, category⟩ := List.map_eq_singleton_iff.1 listed
    have finds : session.Finds (.ofCategory diagnostic.category) := .diagnostic (by simp [one])
    rw [category] at finds
    have configured : gate.configure settings found =
        (.ok session, (gate.configure settings found).2) := Prod.ext built rfl
    refine (congrArg (fun ended => ended.1.exitStatus) tells.1).trans (tells.2.2.1.2 ?_)
    exact ⟨settings, gate.ran settings found, session, _, .semantic, resolved, rfl, reported, rfl,
      configured, rfl, finds⟩
  · have resolved' : Settings.resolve unmatched.world.host.disk quittingLine.root
        quittingLine.overrides = .ok (foundSettings ⟨false, false, false, false, true⟩) := by
      decide +kernel
    rw [run_eq_runOver, runOver_of_resolved accepted resolved']
    decide +kernel
  · have tells := exitStatus_tells channel quittingInput accepted (foundMachine "throwOnSemantic")
      fun _ _ => some .denied
    have again : Settings.resolve refused.world.host.disk quittingLine.root quittingLine.overrides =
        .ok settings := resolved
    have refusal : ∃ event ∈ (runOver channel quittingInput refused).2.console.events,
        event.refusal.isSome = true := by
      rw [runOver_of_resolved accepted again]
      decide +kernel
    refine (congrArg (fun ended => ended.1.exitStatus) tells.1).trans (tells.2.2.2.1.2 ?_)
    exact .inr ⟨settings, resolved, .inr (.inl refusal)⟩

end Invocation

end BuildGate
