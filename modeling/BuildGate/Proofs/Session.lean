import BuildGate.Proofs.Action
import BuildGate.Session
import Mathlib.Data.List.Basic

set_option autoImplicit false

namespace BuildGate

variable {ω π κ : Type}

def Checker.Steady (checker : Checker ω π) (program : π) : Prop :=
  ∀ category early late, (checker.diagnostics program category early).1 =
    (checker.diagnostics program category late).1

namespace Session

theorem configure_iff {checker : Checker ω π} {linter : Linter ω π κ} {clock : Clock ω}
    {settings : Settings} {previous : Option π} {before after : ω} {session : Session π} :
    configure checker linter clock settings previous before = (.ok session, after) ↔
      ∃ project resolved built linted,
        checker.resolve settings.project settings.basePath (clock.nanoseconds before).2 =
            (.ok project, resolved) ∧
          checker.build project previous resolved = (.ok session.program, built) ∧
          session.diagnostics = (collect checker session.program Category.all built).1 ∧
          lint checker linter settings session.program
              (collect checker session.program Category.all built).2 =
            (.ok session.lintResults, linted) ∧
          session.elapsed = .ofNanoseconds
            ((clock.nanoseconds linted).1 - (clock.nanoseconds before).1) ∧
          after = (clock.nanoseconds linted).2 := by
  simp only [configure, Action.bind_eq_ok, Action.mapError_eq_ok, Action.step_apply]
  constructor
  · rintro ⟨started, early, tick, project, resolved, resolving, program, built, building,
      diagnostics, collected, collecting, results, linted, linting, ended, late, tock, made⟩
    cases tick
    cases collecting
    cases tock
    cases made
    exact ⟨project, resolved, built, linted, resolving, building, rfl, linting, rfl, rfl⟩
  · obtain ⟨program, diagnostics, results, elapsed⟩ := session
    dsimp only
    rintro ⟨project, resolved, built, linted, resolving, building, rfl, linting, rfl, rfl⟩
    exact ⟨_, _, rfl, project, resolved, resolving, program, built, building, _, _, rfl, results,
      linted, linting, _, _, rfl, rfl⟩

theorem configure_eq_ok {checker : Checker ω π} {linter : Linter ω π κ} {clock : Clock ω}
    {settings : Settings} {previous : Option π} {before after : ω} {session : Session π}
    (configured : configure checker linter clock settings previous before =
      (.ok session, after)) :
    ∃ project resolved built linted,
      checker.resolve settings.project settings.basePath (clock.nanoseconds before).2 =
          (.ok project, resolved) ∧
        checker.build project previous resolved = (.ok session.program, built) ∧
        session.diagnostics = (collect checker session.program Category.all built).1 ∧
        lint checker linter settings session.program
            (collect checker session.program Category.all built).2 =
          (.ok session.lintResults, linted) := by
  obtain ⟨project, resolved, built, linted, resolving, building, collected, linting, -, -⟩ :=
    configure_iff.1 configured
  exact ⟨project, resolved, built, linted, resolving, building, collected, linting⟩

theorem lintFiles_error {linter : Linter ω π κ} {text? : String → Option String}
    {configuration : κ} {options : LintOptions} {files : List String} {before after : ω}
    {error : GateError}
    (failed : lintFiles linter text? configuration options files before = (.error error, after)) :
    (∃ cause, error = .engine cause) ∨
      ∃ file ∈ files, text? file = none ∧ error = .missingSource file := by
  induction files generalizing before after with
  | nil => cases failed
  | cons file files ih =>
    cases present : text? file with
    | none =>
      simp only [lintFiles, present] at failed
      cases failed
      exact .inr ⟨file, List.mem_cons_self, present, rfl⟩
    | some text =>
      simp only [lintFiles, present] at failed
      rcases Action.bind_eq_error.1 failed with linted | ⟨_, _, -, failed⟩
      · obtain ⟨cause, -, rfl⟩ := Action.mapError_eq_error.1 linted
        exact .inl ⟨cause, rfl⟩
      · rcases Action.bind_eq_error.1 failed with others | ⟨_, _, -, done⟩
        · rcases ih others with engine | ⟨missing, inside, absent⟩
          · exact .inl engine
          · exact .inr ⟨missing, List.mem_cons_of_mem file inside, absent⟩
        · cases done

theorem lint_error {checker : Checker ω π} {linter : Linter ω π κ} {settings : Settings}
    {program : π} {before after : ω} {error : GateError}
    (failed : lint checker linter settings program before = (.error error, after)) :
    (∃ cause, error = .engine cause) ∨
      ∃ file ∈ linter.files program, checker.text? program file = none ∧
        error = .missingSource file := by
  cases named : settings.lintFile with
  | none =>
    simp only [lint, named] at failed
    cases failed
  | some file =>
    simp only [lint, named] at failed
    rcases Action.bind_eq_error.1 failed with configured | ⟨_, _, -, linted⟩
    · obtain ⟨cause, -, rfl⟩ := Action.mapError_eq_error.1 configured
      exact .inl ⟨cause, rfl⟩
    · exact lintFiles_error linted

theorem configure_error {checker : Checker ω π} {linter : Linter ω π κ} {clock : Clock ω}
    {settings : Settings} {previous : Option π} {before after : ω} {error : GateError}
    (failed : configure checker linter clock settings previous before = (.error error, after)) :
    (∃ cause, error = .engine cause) ∨ ∃ project program early late file,
      checker.build project previous early = (.ok program, late) ∧
        file ∈ linter.files program ∧ checker.text? program file = none ∧
        error = .missingSource file := by
  simp only [configure, Action.bind_eq_error, Action.mapError_eq_error, Action.mapError_eq_ok]
    at failed
  rcases failed with tick | ⟨_, _, -, ⟨cause, -, rfl⟩ | ⟨project, early, -, ⟨cause, -, rfl⟩ |
    ⟨program, late, built, collected | ⟨_, _, -, linted | ⟨_, _, -, tock | ⟨_, _, -, done⟩⟩⟩⟩⟩⟩
  · cases tick
  · exact .inl ⟨cause, rfl⟩
  · exact .inl ⟨cause, rfl⟩
  · cases collected
  · rcases lint_error linted with engine | ⟨file, inside, absent, missing⟩
    · exact .inl engine
    · exact .inr ⟨project, program, early, late, file, built, inside, absent, missing⟩
  · cases tock
  · cases done

theorem lintFiles_failures_ne_nil {linter : Linter ω π κ} {text? : String → Option String}
    {configuration : κ} {options : LintOptions} {files : List String} {before after : ω}
    {results : List FileFailures}
    (linted : lintFiles linter text? configuration options files before = (.ok results, after)) :
    ∀ result ∈ results, result.failures ≠ [] := by
  induction files generalizing before after results with
  | nil =>
    cases linted
    simp
  | cons file files ih =>
    cases present : text? file with
    | none =>
      simp only [lintFiles, present] at linted
      cases linted
    | some text =>
      simp only [lintFiles, present, Action.bind_eq_ok] at linted
      obtain ⟨failures, between, -, rest, later, others, done⟩ := linted
      have clean := ih others
      obtain ⟨same, -⟩ := Prod.mk.inj done
      obtain rfl := Except.ok.inj same
      cases failures with
      | nil => exact clean
      | cons failure failures => simpa using clean

theorem lint_failures_ne_nil {checker : Checker ω π} {linter : Linter ω π κ} {settings : Settings}
    {program : π} {before after : ω} {results : List FileFailures}
    (linted : lint checker linter settings program before = (.ok results, after)) :
    ∀ result ∈ results, result.failures ≠ [] := by
  cases named : settings.lintFile with
  | none =>
    simp only [lint, named] at linted
    cases linted
    simp
  | some file =>
    simp only [lint, named, Action.bind_eq_ok] at linted
    obtain ⟨configuration, between, -, each⟩ := linted
    exact lintFiles_failures_ne_nil each

theorem lintFiles_between {linter : Linter ω π κ} {text? : String → Option String}
    {configuration : κ} {options : LintOptions} {front back : List String} {file : String}
    {start between finish : ω} {early results : List FileFailures}
    (begun : lintFiles linter text? configuration options front start = (.ok early, between))
    (linted : lintFiles linter text? configuration options (front ++ file :: back) start =
      (.ok results, finish)) :
    ∃ text failures after, text? file = some text ∧
      linter.lint file text configuration options between = (.ok failures, after) ∧
      (failures ≠ [] → ⟨file, failures⟩ ∈ results) := by
  induction front generalizing start early results with
  | nil =>
    cases begun
    cases present : text? file with
    | none =>
      simp only [List.nil_append, lintFiles, present] at linted
      cases linted
    | some text =>
      simp only [List.nil_append, lintFiles, present, Action.bind_eq_ok, Action.mapError_eq_ok]
        at linted
      obtain ⟨failures, after, answered, rest, later, -, done⟩ := linted
      refine ⟨text, failures, after, rfl, answered, fun found => ?_⟩
      obtain ⟨kept, -⟩ := Prod.mk.inj done
      rw [← Except.ok.inj kept, if_neg (by simpa using found)]
      exact List.mem_cons_self
  | cons first front ih =>
    cases present : text? first with
    | none =>
      simp only [lintFiles, present] at begun
      cases begun
    | some text =>
      simp only [List.cons_append, lintFiles, present, Action.bind_eq_ok, Action.mapError_eq_ok]
        at begun linted
      obtain ⟨found, middle, answered, some_, later, others, done⟩ := begun
      obtain ⟨failures, after, again, rest, end_, more, kept⟩ := linted
      obtain ⟨-, rfl⟩ := Prod.mk.inj (answered.symm.trans again)
      obtain ⟨-, rfl⟩ := Prod.mk.inj done
      obtain ⟨same, rfl⟩ := Prod.mk.inj kept
      obtain ⟨text, failures, after, present, answered, listed⟩ := ih others more
      refine ⟨text, failures, after, present, answered, fun found => ?_⟩
      rw [← Except.ok.inj same]
      split
      · exact listed found
      · exact List.mem_cons_of_mem _ (listed found)

theorem collect_of_steady {checker : Checker ω π} {program : π} (steady : checker.Steady program)
    (categories : List Category) (world other : ω) :
    (collect checker program categories world).1 = categories.flatMap fun category =>
      (checker.diagnostics program category other).1.map
        (diagnosticOf (checker.text? program) category) := by
  induction categories generalizing world with
  | nil => rfl
  | cons category categories ih =>
    simp only [collect, List.flatMap_cons, ih, steady category world other]

theorem totals_of_steady {checker : Checker ω π} {session : Session π}
    (steady : checker.Steady session.program) (unit : LintUnit) (world other : ω) :
    let count (category : Category) := (checker.diagnostics session.program category other).1.length
    (session.totals checker unit world).1 =
      ⟨count .options, count .global, count .syntactic, count .semantic,
        lintCount unit session.lintResults⟩ := by
  simp only [totals, steady _ _ other]

end Session

end BuildGate
