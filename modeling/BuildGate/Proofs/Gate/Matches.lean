import BuildGate.Proofs.Action.InStep
import BuildGate.Proofs.Gate

set_option autoImplicit false

namespace BuildGate

variable {σ τ π κ : Type} {worlds : σ → τ → Prop} {consoles : Console → Console → Prop}

/-- Checkers that give the same answers on related worlds. -/
structure Checker.Matches (worlds : σ → τ → Prop) (one : Checker σ π) (other : Checker τ π) :
    Prop where
  resolve : ∀ project base, InStep worlds (one.resolve project base) (other.resolve project base)
  build : ∀ project seed, InStep worlds (one.build project seed) (other.build project seed)
  diagnostics : ∀ program category,
    InStep worlds (one.diagnostics program category) (other.diagnostics program category)
  text? : one.text? = other.text?

structure Linter.Matches (worlds : σ → τ → Prop) (one : Linter σ π κ) (other : Linter τ π κ) :
    Prop where
  configuration : ∀ path base,
    InStep worlds (one.configuration path base) (other.configuration path base)
  files : one.files = other.files
  lint : ∀ file text configuration options,
    InStep worlds (one.lint file text configuration options)
      (other.lint file text configuration options)

structure Clock.Matches (worlds : σ → τ → Prop) (one : Clock σ) (other : Clock τ) : Prop where
  nanoseconds : InStep worlds one.nanoseconds other.nanoseconds
  localTime : InStep worlds one.localTime other.localTime

structure Gate.Matches (worlds : σ → τ → Prop) (one : Gate σ π κ) (other : Gate τ π κ) : Prop where
  checker : one.checker.Matches worlds other.checker
  linter : one.linter.Matches worlds other.linter
  clock : one.clock.Matches worlds other.clock
  parent : Option.Rel
    (fun told heard => ∀ indicator, InStep worlds (told indicator) (heard indicator))
    one.parent other.parent

namespace Session

variable {one : Checker σ π} {other : Checker τ π} {near : Linter σ π κ} {far : Linter τ π κ}

theorem collect_inStep (checkers : one.Matches worlds other) (program : π)
    (categories : List Category) :
    InStep worlds (collect one program categories) (collect other program categories) := by
  induction categories with
  | nil => exact fun _ _ alike => ⟨rfl, alike⟩
  | cons category categories ih =>
    intro world mate alike
    obtain ⟨asked, between⟩ := checkers.diagnostics program category world mate alike
    obtain ⟨others, after⟩ := ih _ _ between
    simp only [collect]
    exact ⟨by rw [asked, others, checkers.text?], after⟩

theorem totals_inStep (checkers : one.Matches worlds other) (session : Session π)
    (unit : LintUnit) :
    InStep worlds (session.totals one unit) (session.totals other unit) := by
  intro world mate alike
  have asked := checkers.diagnostics session.program
  obtain ⟨options, first⟩ := asked .options world mate alike
  obtain ⟨global, second⟩ := asked .global _ _ first
  obtain ⟨syntactic, third⟩ := asked .syntactic _ _ second
  obtain ⟨semantic, fourth⟩ := asked .semantic _ _ third
  simp only [totals]
  exact ⟨by rw [options, global, syntactic, semantic], fourth⟩

theorem lintFiles_inStep (linters : near.Matches worlds far) (text? : String → Option String)
    (configuration : κ) (options : LintOptions) (files : List String) :
    InStep worlds (lintFiles near text? configuration options files)
      (lintFiles far text? configuration options files) := by
  induction files with
  | nil => exact .pure _
  | cons file files ih =>
    unfold lintFiles
    cases text? file with
    | none => exact .fail _
    | some text =>
      refine .bind (.mapError _ (linters.lint file text configuration options)) fun failures => ?_
      exact .bind ih fun rest => .pure _

theorem lint_inStep (checkers : one.Matches worlds other) (linters : near.Matches worlds far)
    (settings : Settings) (program : π) :
    InStep worlds (lint one near settings program) (lint other far settings program) := by
  unfold lint
  rw [checkers.text?, linters.files]
  cases settings.lintFile with
  | none => exact .pure _
  | some file =>
    refine .bind (.mapError _ (linters.configuration _ _)) fun configuration => ?_
    exact lintFiles_inStep linters _ configuration _ _

theorem configure_inStep (checkers : one.Matches worlds other) (linters : near.Matches worlds far)
    {clock : Clock σ} {watch : Clock τ} (clocks : clock.Matches worlds watch) (settings : Settings)
    (previous : Option π) :
    InStep worlds (configure one near clock settings previous)
      (configure other far watch settings previous) := by
  refine .bind (.step clocks.nanoseconds) fun started => ?_
  refine .bind (.mapError _ (checkers.resolve _ _)) fun project => ?_
  refine .bind (.mapError _ (checkers.build project previous)) fun program => ?_
  refine .bind (.step (collect_inStep checkers program Category.all)) fun diagnostics => ?_
  refine .bind (lint_inStep checkers linters settings program) fun results => ?_
  exact .bind (.step clocks.nanoseconds) fun ended => .pure _

end Session

namespace Scene

structure Alike (worlds : σ → τ → Prop) (consoles : Console → Console → Prop) (one : Scene σ π)
    (other : Scene τ π) : Prop where
  world : worlds one.world other.world
  console : consoles one.console other.console
  signals : one.signals = other.signals
  previous : one.previous = other.previous

theorem onWorld_inStep {α ε : Type} {one : Action σ ε α} {other : Action τ ε α}
    (steps : InStep worlds one other) :
    InStep (Alike worlds consoles) (onWorld one : Action (Scene σ π) ε α) (onWorld other) :=
  .within (fun _ _ alike => alike.world)
    (fun _ _ _ _ alike world => { alike with world }) steps

theorem print_inStep {text image : String}
    (printed : InStep consoles (Console.print text) (Console.print image)) :
    InStep (Alike worlds consoles) (print text : Action (Scene σ π) GateError Unit) (print image) :=
  .mapError _ (.within (fun _ _ alike => alike.console)
    (fun _ _ _ _ alike console => { alike with console }) printed)

theorem takePrevious_inStep {ε : Type} :
    InStep (Alike worlds consoles) (takePrevious : Action (Scene σ π) ε (Option π))
      takePrevious :=
  fun _ _ alike => ⟨congrArg Except.ok alike.previous, { alike with previous := rfl }⟩

theorem keep_inStep {ε : Type} (program : π) :
    InStep (Alike worlds consoles) (keep program : Action (Scene σ π) ε Unit) (keep program) :=
  fun _ _ alike => ⟨rfl, { alike with previous := rfl }⟩

theorem notify_inStep {told : Parent σ} {heard : Parent τ} {indicator : Indicator}
    (parents : InStep worlds (told indicator) (heard indicator)) :
    InStep (Alike worlds consoles) (notify told indicator : Action (Scene σ π) GateError Unit)
      (notify heard indicator) := by
  intro scene mate alike
  obtain ⟨ends, after⟩ := parents _ _ alike.world
  revert ends after
  unfold notify
  rcases told indicator scene.world with ⟨result, world⟩
  rcases heard indicator mate.world with ⟨_, beyond⟩
  rintro rfl after
  cases result <;>
    exact ⟨rfl, { alike with world := after, signals := congrArg (· ++ _) alike.signals }⟩

end Scene

variable {one : Gate σ π κ} {other : Gate τ π κ}

theorem conclude_inStep (gates : one.Matches worlds other) (outcome : Outcome)
    (footers : ∀ text, outcome.footer? = some text →
      InStep consoles (Console.print (footerText one.color text))
        (Console.print (footerText other.color text))) (totals : Totals) :
    InStep (Scene.Alike worlds consoles)
      (conclude one.color one.parent outcome totals : Action (Scene σ π) GateError Nat)
      (conclude other.color other.parent outcome totals) := by
  have footer : InStep (Scene.Alike worlds consoles)
      (printFooter one.color outcome : Action (Scene σ π) GateError Unit)
      (printFooter other.color outcome) := by
    unfold printFooter
    cases named : outcome.footer? with
    | none => exact .pure _
    | some text => exact Scene.print_inStep (footers text named)
  have told : InStep (Scene.Alike worlds consoles)
      (signal one.parent outcome totals : Action (Scene σ π) GateError Unit)
      (signal other.parent outcome totals) := by
    unfold signal
    have parents := gates.parent
    revert parents
    cases one.parent <;> cases other.parent <;> intro parents <;> cases parents
    case none.none =>
      cases outcome
      case fatal => exact .fail _
      all_goals exact .pure _
    case some.some heard =>
      cases outcome
      case fatal => exact Scene.notify_inStep (heard _)
      case quit => exact Scene.notify_inStep (heard _)
      all_goals exact .pure _
  rw [conclude_eq, conclude_eq]
  exact .bind footer fun _ => .bind told fun _ => .pure _

namespace Gate

theorem configure_inStep (gates : one.Matches worlds other) (settings : Settings) :
    InStep (Scene.Alike worlds consoles) (one.configure settings) (other.configure settings) :=
  .bind Scene.takePrevious_inStep fun previous => Scene.onWorld_inStep
    (Session.configure_inStep gates.checker gates.linter gates.clock settings previous)

theorem typecheck_inStep (gates : one.Matches worlds other) (settings : Settings) (yellow : Flags)
    (session : Session π) (time : String)
    (reports : ∀ totals, InStep consoles (Console.print (one.report settings session time totals))
      (Console.print (other.report { settings with yellow } session time totals)))
    (footers : ∀ (outcome : Outcome) text, outcome.footer? = some text →
      InStep consoles (Console.print (footerText one.color text))
        (Console.print (footerText other.color text))) :
    InStep (Scene.Alike worlds consoles) (one.typecheck settings session time)
      (other.typecheck { settings with yellow } session time) := by
  refine .bind (Scene.onWorld_inStep (.step (Session.totals_inStep gates.checker session _)))
    fun totals => ?_
  refine .bind (Scene.print_inStep (reports totals)) fun _ => ?_
  refine .bind (Scene.keep_inStep session.program) fun _ => ?_
  exact .bind (conclude_inStep gates _ (footers _) totals) fun total => .pure _

section Whole

variable (gates : one.Matches worlds other) (colors : one.color = other.color)

include gates colors

theorem typecheck_inStep_of_color (settings : Settings) (session : Session π) (time : String) :
    InStep (Scene.Alike worlds Eq) (one.typecheck settings session time)
      (other.typecheck settings session time) := by
  refine typecheck_inStep gates settings settings.yellow session time (fun totals => ?_)
    fun outcome text _ => ?_
  · rw [report, report, colors]
    exact .refl _
  · rw [colors]
    exact .refl _

theorem run_inStep (settings : Settings) :
    InStep (Scene.Alike worlds Eq) (one.run settings) (other.run settings) := by
  refine .bind (configure_inStep gates settings) fun session => ?_
  refine .bind (Scene.onWorld_inStep (.step gates.clock.localTime)) fun time => ?_
  exact typecheck_inStep_of_color gates colors settings session time

theorem runLines_inStep (settings : Settings) (lines : List (Option String)) :
    InStep (Scene.Alike worlds Eq) (one.runLines settings lines)
      (other.runLines settings lines) := by
  induction lines with
  | nil => exact run_inStep gates colors settings
  | cons line lines ih =>
    refine .bind (run_inStep gates colors settings) fun verdict => ?_
    split
    · exact .pure _
    · split
      · exact .fail _
      · exact ih

theorem serve_inStep (settings : Settings) (listen : Bool) (triggers : Text.Bytes) :
    InStep (Scene.Alike worlds Eq) (one.serve settings listen triggers)
      (other.serve settings listen triggers) := by
  unfold serve
  split
  · exact runLines_inStep gates colors settings _
  · exact run_inStep gates colors settings

end Whole

end Gate

end BuildGate
