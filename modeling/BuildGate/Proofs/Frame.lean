import BuildGate.Gate
import BuildGate.Proofs.Action

set_option autoImplicit false

namespace BuildGate

variable {ω π κ β : Type}

/-- No answer changes what is seen of the world. -/
structure Checker.Spares (checker : Checker ω π) (view : ω → β) : Prop where
  resolve : ∀ project base, (checker.resolve project base).Leads (Same view)
  build : ∀ project previous, (checker.build project previous).Leads (Same view)
  diagnostics : ∀ program category world,
    Same view world (checker.diagnostics program category world).2

structure Linter.Spares (linter : Linter ω π κ) (view : ω → β) : Prop where
  configuration : ∀ path base, (linter.configuration path base).Leads (Same view)
  lint : ∀ file text configuration options,
    (linter.lint file text configuration options).Leads (Same view)

structure Gate.Spares (gate : Gate ω π κ) (view : ω → β) : Prop where
  checker : gate.checker.Spares view
  linter : gate.linter.Spares view
  clock : ∀ world, Same view world (gate.clock.nanoseconds world).2

namespace Session

variable {checker : Checker ω π} {linter : Linter ω π κ} {view : ω → β}

theorem collect_same (spares : checker.Spares view) (program : π) (categories : List Category)
    (world : ω) : Same view world (collect checker program categories world).2 := by
  induction categories generalizing world with
  | nil => rfl
  | cons category categories ih =>
    exact trans_of _ (spares.diagnostics program category world) (ih _)

theorem totals_same (spares : checker.Spares view) (session : Session π) (unit : LintUnit)
    (world : ω) : Same view world (session.totals checker unit world).2 := by
  have asked := spares.diagnostics session.program
  exact trans_of _ (asked .options world) <| trans_of _ (asked .global _) <|
    trans_of _ (asked .syntactic _) (asked .semantic _)

theorem lintFiles_leads (spares : linter.Spares view) (text? : String → Option String)
    (configuration : κ) (options : LintOptions) (files : List String) :
    (lintFiles linter text? configuration options files).Leads (Same view) := by
  induction files with
  | nil => exact .pure _
  | cons file files ih =>
    unfold lintFiles
    split
    next => exact .fail _
    next text _ =>
      refine .bind (.mapError _ (spares.lint file text configuration options)) fun failures => ?_
      exact .bind ih fun rest => .pure _

theorem lint_leads (spares : linter.Spares view) (settings : Settings) (program : π) :
    (lint checker linter settings program).Leads (Same view) := by
  unfold lint
  split
  next => exact .pure _
  next file _ =>
    refine .bind (.mapError _ (spares.configuration _ _)) fun configuration => ?_
    exact lintFiles_leads spares _ configuration _ _

theorem configure_leads {clock : Clock ω} (asked : checker.Spares view)
    (linted : linter.Spares view) (timed : ∀ world, Same view world (clock.nanoseconds world).2)
    (settings : Settings) (previous : Option π) :
    (configure checker linter clock settings previous).Leads (Same view) := by
  refine .bind (.step timed) fun started => ?_
  refine .bind (.mapError _ (asked.resolve _ _)) fun project => ?_
  refine .bind (.mapError _ (asked.build project previous)) fun program => ?_
  refine .bind (.step (collect_same asked program Category.all)) fun diagnostics => ?_
  refine .bind (lint_leads linted settings program) fun results => ?_
  exact .bind (.step timed) fun ended => .pure _

end Session

end BuildGate
