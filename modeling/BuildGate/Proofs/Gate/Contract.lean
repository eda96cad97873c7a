import BuildGate.Proofs.Action.Raises
import BuildGate.Proofs.Invocation
import BuildGate.Proofs.Project

set_option autoImplicit false

namespace BuildGate

variable {ω π κ : Type}

namespace EngineError

def Breach : EngineError → Prop
  | project fault => fault.message = "empty engine command" ∨ fault.message = "empty lint command"
  | _ => False

theorem not_breach_quoted {fault : ProjectFault} {rest : String}
    (quoted : fault.message = "'" ++ rest) : ¬ (project fault).Breach := by
  rintro (missing | missing)
  all_goals
    rw [quoted] at missing
    simpa using congrArg (fun text => text.toList.head?) missing

end EngineError

/-- The error of a gate whose parts broke their contract. -/
def GateError.Breach : GateError → Prop
  | missingSource _ => True
  | engine error => error.Breach
  | _ => False

namespace Project

theorem resolve_keeps {disk : Disk} {project : Json} {base : Path} {error : EngineError}
    (failed : resolve disk project base = .error error) : ¬ error.Breach := by
  rcases resolve_error failed with rfl | ⟨key, rfl | rfl⟩ | ⟨text, fault, rfl⟩
  · simp [EngineError.Breach, ProjectFault.message]
  · exact EngineError.not_breach_quoted (by rw [ProjectFault.message, String.append_assoc])
  · exact EngineError.not_breach_quoted (by rw [ProjectFault.message, String.append_assoc])
  · exact id

end Project

namespace Compiler

theorem loadSources_error {disk : Disk} {base : Path} {old loaded : Sources} {files : List String}
    {error : EngineError} (failed : loadSources disk base old loaded files = .error error) :
    ∃ file ∈ files, ∃ cause, error = .read (base.join file) cause ∧
      disk.readText (base.join file) = .error cause := by
  induction files generalizing old loaded with
  | nil => cases failed
  | cons file files ih =>
    rw [loadSources] at failed
    split at failed
    next other unread =>
      cases failed
      unfold loadSource at unread
      dsimp only at unread
      split at unread
      · split at unread
        · cases unread
        · split at unread <;> cases unread
          exact ⟨file, List.mem_cons_self, _, rfl, ‹_›⟩
      · split at unread <;> cases unread
        exact ⟨file, List.mem_cons_self, _, rfl, ‹_›⟩
    next source _ =>
      obtain ⟨later, listed, cause⟩ := ih failed
      exact ⟨later, List.mem_cons_of_mem file listed, cause⟩

theorem build_keeps {command : List String} (named : command ≠ []) (project : Project)
    (seed : Option Program) :
    (build command project seed).Raises (¬ ·.Breach) := by
  refine .bind (by rintro host error ⟨⟩) fun disk _ _ _ => .bind (.ofExcept ?_) fun _ _ _ _ => ?_
  · intro error failed
    obtain ⟨file, -, cause, rfl, -⟩ := loadSources_error failed
    exact id
  split
  next => exact .pure _
  next =>
    refine .bind ?_ fun output _ _ _ => .pure _
    cases command with
    | nil => exact absurd rfl named
    | cons program own =>
      refine .bind (.mapError fun _ _ _ => id) fun response _ _ _ => .ofExcept ?_
      intro error failed
      unfold checkResponse at failed
      split at failed <;> cases failed
      exact id

end Compiler

namespace Lint

theorem findConfiguration_keeps {disk : Disk} {path base : Path} {error : EngineError}
    (failed : findConfiguration disk path base = .error error) : ¬ error.Breach := by
  unfold findConfiguration at failed
  split at failed
  · split at failed
    · cases failed
      exact id
    · split at failed <;> cases failed <;> exact id
  · cases failed
    exact id

theorem lintFile_keeps {command : List String} (named : command ≠ []) (file : String)
    (configuration : Configuration) (options : LintOptions) :
    (lintFile command file configuration options).Raises (¬ ·.Breach) := by
  cases command with
  | nil => exact absurd rfl named
  | cons program own =>
    refine .bind (.mapError fun _ _ _ => id) fun response _ _ _ => .ofExcept ?_
    intro error failed
    unfold readResponse at failed
    split at failed
    · cases failed
      exact id
    · split at failed <;> cases failed
      exact id

end Lint

structure Gate.Equipped (gate : Gate ω π κ) : Prop where
  resolve : ∀ project base, (gate.checker.resolve project base).Raises (¬ ·.Breach)
  build : ∀ project seed, (gate.checker.build project seed).Raises (¬ ·.Breach)
  configuration : ∀ path base, (gate.linter.configuration path base).Raises (¬ ·.Breach)
  lint : ∀ file text configuration options,
    (gate.linter.lint file text configuration options).Raises (¬ ·.Breach)

namespace Gate

variable {gate : Gate ω π κ}

theorem lintFiles_keeps (equipped : gate.Equipped) {text? : String → Option String}
    (configuration : κ) (options : LintOptions) {files : List String}
    (present : ∀ file ∈ files, (text? file).isSome = true) :
    (Session.lintFiles gate.linter text? configuration options files).Raises
      (¬ ·.Breach) := by
  induction files with
  | nil => exact .pure _
  | cons file files ih =>
    rw [List.forall_mem_cons] at present
    obtain ⟨text, found⟩ := Option.isSome_iff_exists.1 present.1
    simp only [Session.lintFiles, found]
    refine .bind (.mapError (equipped.lint file text configuration options)) fun _ _ _ _ => ?_
    exact .bind (ih present.2) fun _ _ _ _ => .pure _

theorem session_keeps (equipped : gate.Equipped) (sourced : gate.Sourced) (settings : Settings)
    (seed : Option π) :
    (Session.configure gate.checker gate.linter gate.clock settings seed).Raises
      (¬ ·.Breach) := by
  refine .bind (.step _) fun started _ _ _ => ?_
  refine .bind (.mapError (equipped.resolve _ _)) fun project _ _ _ => ?_
  refine .bind (.mapError (equipped.build project seed)) fun program early late built => ?_
  have present := sourced project seed program early late (Action.mapError_eq_ok.1 built)
  refine .bind (.step _) fun diagnostics _ _ _ => .bind ?_ fun _ _ _ _ =>
    .bind (.step _) fun _ _ _ _ => .pure _
  unfold Session.lint
  split
  next => exact .pure _
  next =>
    exact .bind (.mapError (equipped.configuration _ _)) fun configuration _ _ _ =>
      lintFiles_keeps equipped configuration _ present

theorem print_keeps (text : String) :
    (Scene.print text : Action (Scene ω π) GateError Unit).Raises (¬ ·.Breach) :=
  .mapError fun _ _ _ => id

theorem notify_keeps (parent : Parent ω) (indicator : Indicator) :
    (Scene.notify parent indicator : Action (Scene ω π) GateError Unit).Raises
      (¬ ·.Breach) := by
  intro scene error failed
  unfold Scene.notify at failed
  split at failed <;> cases failed
  exact id

theorem conclude_keeps (color : Bool) (parent : Option (Parent ω)) (outcome : Outcome)
    (totals : Totals) :
    (conclude color parent outcome totals : Action (Scene ω π) GateError Nat).Raises
      (¬ ·.Breach) := by
  have footer : (printFooter color outcome : Action (Scene ω π) _ _).Raises
      (¬ ·.Breach) := by
    unfold printFooter
    split
    · exact print_keeps _
    · exact .pure _
  have told : (signal parent outcome totals : Action (Scene ω π) _ _).Raises
      (¬ ·.Breach) := by
    unfold signal
    split
    · exact notify_keeps _ _
    · exact .fail id
    · exact notify_keeps _ _
    · exact .pure _
  rw [conclude_eq]
  exact .bind footer fun _ _ _ _ => .bind told fun _ _ _ _ => .pure _

theorem invoke_keeps (equipped : gate.Equipped) (sourced : gate.Sourced) (turn : Turn ω) :
    (gate.invoke turn).Raises (¬ ·.Breach) := by
  refine .bind (.bind (by rintro scene error ⟨⟩) fun seed _ _ _ =>
    .within (session_keeps equipped sourced turn.settings seed)) fun session _ _ _ => ?_
  refine .bind (.within (.step _)) fun time _ _ _ => ?_
  refine .bind (.within (.step _)) fun totals _ _ _ => .bind (print_keeps _) fun _ _ _ _ => ?_
  refine .bind (by rintro scene error ⟨⟩) fun _ _ _ _ => ?_
  exact .bind (conclude_keeps _ _ _ _) fun _ _ _ _ => .pure _

theorem invocations_keep (equipped : gate.Equipped) (sourced : gate.Sourced)
    (turns : List (Turn ω)) (scene : Scene ω π) :
    ∀ step ∈ (gate.invocations turns scene).1, ∀ error, step.result = .error error →
      ¬ error.Breach := by
  induction turns generalizing scene with
  | nil => simp [invocations]
  | cons turn turns ih =>
    simp only [invocations, List.forall_mem_cons]
    exact ⟨invoke_keeps equipped sourced turn (turn.enter scene), ih _⟩

end Gate

namespace Settings

theorem commandOr_ne_nil (section? : Option (Option (List String))) {default : List String}
    (named : default ≠ []) : commandOr section? default ≠ [] := by
  unfold commandOr
  split
  · exact List.cons_ne_nil _ _
  · exact named

theorem commands_of_resolve {disk : Disk} {start : Option String} {overrides : Overrides}
    {settings : Settings} (resolved : resolve disk start overrides = .ok settings) :
    settings.compiler ≠ [] ∧ settings.linter ≠ [] := by
  unfold resolve at resolved
  dsimp only at resolved
  split at resolved
  · cases resolved
  · split at resolved <;> cases resolved
    exact ⟨commandOr_ne_nil _ (by decide), commandOr_ne_nil _ (by decide)⟩

end Settings

namespace Machine

theorem gate_equipped {settings : Settings} (compiler : settings.compiler ≠ [])
    (linter : settings.linter ≠ []) (parent : Option (Parent Machine)) (color : Bool) :
    (gate settings parent color).Equipped where
  resolve _ _ := .within fun _ _ => Project.resolve_keeps
  build project seed := .within (Compiler.build_keeps compiler project seed)
  configuration _ _ := .within fun _ _ => Lint.findConfiguration_keeps
  lint file _ configuration options :=
    .within (Lint.lintFile_keeps linter file configuration options)

/-- With settings that were resolved, no invocation lacks a text to lint or a command to start,
whatever happens to the machine and its tree in between; for every program that is built has texts
for exactly the files that it lists. -/
theorem invocations_keep_contract {disk : Disk} {start : Option String} {overrides : Overrides}
    {settings : Settings} (resolved : Settings.resolve disk start overrides = .ok settings)
    (parent : Option (Parent Machine)) (color : Bool) (turns : List (Turn Machine))
    (scene : Scene Machine Compiler.Program) :
    (∀ step ∈ ((gate settings parent color).invocations turns scene).1,
      ∀ error, step.result = .error error → ¬ error.Breach) ∧
    ∀ project seed before program after,
      Compiler.build settings.compiler project seed before = (.ok program, after) →
        ∀ file, (program.text? file).isSome ↔ file ∈ program.files := by
  obtain ⟨compiler, linter⟩ := Settings.commands_of_resolve resolved
  constructor
  · exact Gate.invocations_keep (gate_equipped compiler linter parent color)
      (gate_sourced settings parent color) turns scene
  · intro project seed before program after built
    exact Compiler.text?_isSome_of_build built

def emptyCommands : String :=
  "tsLint = \"l.json\"\n[tsConfigObj]\nfiles = [\"a.ts\"]\n[engine]\ncommand = []\n[lint]\n" ++
    "command = []\n"

def lintedMachine : Machine where
  host :=
    { disk :=
        { entries := [(["tycheck.toml"], .file (Text.encode emptyCommands) 0),
            (["l.json"], .file (Text.encode "\x7b\x7d") 1), (["a.ts"], .file (Text.encode "x") 2)]
          current := []
          clock := 3 }
      obstacle := fun _ => none
      respond := fun _ _ => .silent
      calls := [] }
  nanoseconds := 0
  localTime := "now"

def lintSettings : Settings :=
  { Settings.default with
    project := .object [("files", .array [.text "a.ts"])]
    lintFile := some "l.json" }

def garble (host : Host) : Host :=
  { host with respond := fun _ call =>
      if call.program = "tslint" then ⟨Text.encode "!", [], some 0⟩ else .silent }

def obstruct (host : Host) : Host :=
  { host with obstacle := fun program => if program = "tslint" then some .missing else none }

def lintTurn (change : Host → Host) : Turn Machine :=
  ⟨fun machine => setHost (change machine.host) machine, id, lintSettings, clock.localTime⟩

theorem empty_commands_keep_contract :
    let ran := (gate lintSettings none false).invocations
      [lintTurn id, lintTurn garble, lintTurn obstruct] (.start lintedMachine .accepting)
    Settings.resolve lintedMachine.host.disk none .empty = .ok lintSettings ∧
      ran.1.map (·.result) = [.ok ⟨.keepAlive, 0⟩, .error (.engine (.lintOutput "a.ts")),
        .error (.engine (.spawn "tslint" .missing))] ∧
      ran.2.world.host.calls.map (·.program) = ["tsc", "tslint", "tsc", "tslint", "tsc"] ∧
      ∀ step ∈ ran.1, ∀ error, step.result = .error error → ¬ error.Breach := by
  intro ran
  have resolved : Settings.resolve lintedMachine.host.disk none .empty = .ok lintSettings := by
    decide +kernel
  exact ⟨resolved, by decide +kernel, by decide +kernel,
    (invocations_keep_contract resolved none false _ _).1⟩

end Machine

end BuildGate
