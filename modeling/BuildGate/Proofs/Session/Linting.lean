import BuildGate.Proofs.Gate.Record

set_option autoImplicit false

namespace BuildGate

variable {ω π κ ε δ α β : Type}

inductive Query (π κ : Type)
  | project (answer : Except EngineError Project)
  | program (answer : Except EngineError π)
  | rules (answer : Except EngineError κ)
  | lint (file text : String) (answer : Except EngineError (List Failure))

abbrev Traced (ω π κ : Type) : Type := ω × List (Query π κ)

def Action.traced (query : Except ε α → Query π κ) (action : Action ω ε α) :
    Action (Traced ω π κ) ε α := fun (world, trace) =>
  let (answer, world) := action world
  (answer, (world, trace ++ [query answer]))

def Checker.traced (κ : Type) (checker : Checker ω π) : Checker (Traced ω π κ) π where
  resolve project base := (checker.resolve project base).traced .project
  build project seed := (checker.build project seed).traced .program
  diagnostics program category := beside (checker.diagnostics program category)
  files := checker.files
  text? := checker.text?

def Linter.traced (linter : Linter ω π κ) : Linter (Traced ω π κ) π κ where
  configuration path base := (linter.configuration path base).traced .rules
  files := linter.files
  lint file text configuration options :=
    (linter.lint file text configuration options).traced (.lint file text)

@[simp] theorem Linter.traced_lint (linter : Linter ω π κ) (file text : String) (configuration : κ)
    (options : LintOptions) :
    linter.traced.lint file text configuration options =
      (linter.lint file text configuration options).traced (.lint file text) := rfl

def Clock.traced (π κ : Type) (clock : Clock ω) : Clock (Traced ω π κ) where
  nanoseconds := beside clock.nanoseconds
  localTime := beside clock.localTime

-- A trace tells worlds apart that the tools do not.
def Untraced (traced : Traced ω π κ) (world : ω) : Prop := traced.1 = world

theorem Action.traced_inStep (query : Except ε α → Query π κ) (action : Action ω ε α) :
    InStep Untraced (action.traced query) action := by
  rintro ⟨world, trace⟩ _ rfl
  exact ⟨rfl, rfl⟩

theorem beside_untraced (step : ω → α × ω) :
    InStep (Untraced (π := π) (κ := κ)) (beside step) step := by
  rintro ⟨world, trace⟩ _ rfl
  exact ⟨rfl, rfl⟩

theorem Checker.traced_matches (checker : Checker ω π) :
    (checker.traced κ).Matches Untraced checker where
  resolve _ _ := Action.traced_inStep _ _
  build _ _ := Action.traced_inStep _ _
  diagnostics _ _ := beside_untraced _
  text? := rfl

theorem Linter.traced_matches (linter : Linter ω π κ) : linter.traced.Matches Untraced linter where
  configuration _ _ := Action.traced_inStep _ _
  files := rfl
  lint _ _ _ _ := Action.traced_inStep _ _

theorem Clock.traced_matches (clock : Clock ω) : (clock.traced π κ).Matches Untraced clock where
  nanoseconds := beside_untraced _
  localTime := beside_untraced _

theorem Action.traced_bind (query : Except ε α → Query π κ) (wrap : ε → δ) (action : Action ω ε α)
    (next : α → Action (Traced ω π κ) δ β) (world : ω) (trace : List (Query π κ)) :
    ((action.traced query).mapError wrap >>= next) (world, trace) =
      match action world with
      | (.ok value, between) => next value (between, trace ++ [query (.ok value)])
      | (.error error, between) => (.error (wrap error), (between, trace ++ [query (.error error)])) := by
  rw [Action.bind_apply, Action.mapError, Action.traced]
  rcases action world with ⟨_ | _, _⟩ <;> rfl

structure Linting where
  file : String
  text : String
  failures : List Failure

namespace Linting

def query (linting : Linting) : Query π κ := .lint linting.file linting.text (.ok linting.failures)

def Cover (text? : String → Option String) (files : List String) (lintings : List Linting) : Prop :=
  lintings.map (fun linting => (linting.file, some linting.text)) =
    files.map fun file => (file, text? file)

theorem cover_nil (text? : String → Option String) : Cover text? [] [] := rfl

theorem Cover.cons {text? : String → Option String} {files : List String}
    {lintings : List Linting} (cover : Cover text? files lintings) {linting : Linting}
    (present : text? linting.file = some linting.text) :
    Cover text? (linting.file :: files) (linting :: lintings) := by
  rw [Cover, List.map_cons, List.map_cons, cover, present]

def results (lintings : List Linting) : List FileFailures :=
  (lintings.map fun linting => ⟨linting.file, linting.failures⟩).filter (!·.failures.isEmpty)

theorem results_cons (linting : Linting) (lintings : List Linting) :
    results (linting :: lintings) =
      if linting.failures.isEmpty then results lintings
      else ⟨linting.file, linting.failures⟩ :: results lintings := by
  simp only [results, List.map_cons, List.filter_cons]
  cases linting.failures.isEmpty <;> rfl

end Linting

namespace Session

/-- Linting some files, and how it ends: all are linted, or those before the first file that has no
text or that the linter fails on. -/
inductive Sweep (text? : String → Option String) (files : List String) :
    List (Query π κ) → Except GateError (List FileFailures) → Prop
  | whole {lintings : List Linting} (all : Linting.Cover text? files lintings) :
    Sweep text? files (lintings.map Linting.query) (.ok (Linting.results lintings))
  | noText {front back : List String} {file : String} {lintings : List Linting}
    (split : files = front ++ file :: back) (before : Linting.Cover text? front lintings)
    (absent : text? file = none) :
    Sweep text? files (lintings.map Linting.query) (.error (.missingSource file))
  | broken {front back : List String} {file text : String} {lintings : List Linting}
    {cause : EngineError} (split : files = front ++ file :: back)
    (before : Linting.Cover text? front lintings) (present : text? file = some text) :
    Sweep text? files (lintings.map Linting.query ++ [.lint file text (.error cause)])
      (.error (.engine cause))

theorem Sweep.cons {text? : String → Option String} {files : List String}
    {trace : List (Query π κ)} {result : Except GateError (List FileFailures)}
    (sweep : Sweep text? files trace result) (linting : Linting)
    (present : text? linting.file = some linting.text) :
    Sweep text? (linting.file :: files) (linting.query :: trace)
      (result.map fun rest => if linting.failures.isEmpty then rest
        else ⟨linting.file, linting.failures⟩ :: rest) := by
  cases sweep with
  | whole all =>
    rw [Except.map, ← Linting.results_cons]
    exact .whole (all.cons present)
  | noText split before absent =>
    exact .noText (congrArg (linting.file :: ·) split) (before.cons present) absent
  | broken split before some_ =>
    exact .broken (congrArg (linting.file :: ·) split) (before.cons present) some_

variable (checker : Checker ω π) (linter : Linter ω π κ)

theorem lintFiles_sweeps (text? : String → Option String) (configuration : κ)
    (options : LintOptions) (files : List String) (world : ω) (trace : List (Query π κ)) :
    let ended := lintFiles linter.traced text? configuration options files (world, trace)
    ∃ asked, ended.2.2 = trace ++ asked ∧ Sweep text? files asked ended.1 := by
  induction files generalizing world trace with
  | nil => exact ⟨[], (List.append_nil trace).symm, .whole (Linting.cover_nil text?)⟩
  | cons file files ih =>
    intro ended
    cases present : text? file with
    | none =>
      have stopped : ended = (.error (.missingSource file), (world, trace)) := by
        simp only [ended, lintFiles, present]
        rfl
      rw [stopped]
      exact ⟨[], (List.append_nil trace).symm,
        .noText (List.nil_append _).symm (Linting.cover_nil text?) present⟩
    | some text =>
      have run : ended = (((linter.lint file text configuration options).traced
          (.lint file text)).mapError .engine >>= fun failures =>
            lintFiles linter.traced text? configuration options files >>= fun rest =>
              pure (if failures.isEmpty then rest else ⟨file, failures⟩ :: rest)) (world, trace) := by
        simp only [ended, lintFiles, present, Linter.traced_lint]
      rw [run, Action.traced_bind]
      rcases linter.lint file text configuration options world with ⟨cause | failures, between⟩
      · exact ⟨_, rfl, .broken (List.nil_append _).symm (Linting.cover_nil text?) present⟩
      · obtain ⟨asked, added, sweep⟩ := ih between (trace ++ [.lint file text (.ok failures)])
        simp only [Action.bind_pure_apply]
        exact ⟨_, added.trans (List.append_assoc ..),
          sweep.cons ⟨file, text, failures⟩ present⟩

/-- The course of a session: the stages come in order, and the first one that fails ends it. Without a
rule configuration nothing is linted. -/
inductive Course (settings : Settings) :
    List (Query π κ) → Except GateError (π × List FileFailures) → Prop
  | noProject (cause : EngineError) :
    Course settings [.project (.error cause)] (.error (.engine cause))
  | noProgram (project : Project) (cause : EngineError) :
    Course settings [.project (.ok project), .program (.error cause)] (.error (.engine cause))
  | unlinted (project : Project) (program : π) (unnamed : settings.lintFile = none) :
    Course settings [.project (.ok project), .program (.ok program)] (.ok (program, []))
  | noRules (project : Project) (program : π) (cause : EngineError)
    (named : settings.lintFile.isSome = true) :
    Course settings [.project (.ok project), .program (.ok program), .rules (.error cause)]
      (.error (.engine cause))
  | swept (project : Project) {program : π} (configuration : κ)
    (named : settings.lintFile.isSome = true) {asked : List (Query π κ)}
    {result : Except GateError (List FileFailures)}
    (sweep : Sweep (checker.text? program) (linter.files program) asked result) :
    Course settings
      (.project (.ok project) :: .program (.ok program) :: .rules (.ok configuration) :: asked)
      (result.map fun results => (program, results))

theorem collect_traced (program : π) (categories : List Category) :
    collect (checker.traced κ) program categories = beside (collect checker program categories) := by
  induction categories with
  | nil => rfl
  | cons category categories ih =>
    funext traced
    simp only [collect, ih]
    rfl

theorem lint_course (settings : Settings) (program : π) (world : ω) (trace : List (Query π κ)) :
    let ended := lint (checker.traced κ) linter.traced settings program (world, trace)
    ∃ asked, ended.2.2 = trace ++ asked ∧ ∀ project, Course checker linter settings
      (.project (.ok project) :: .program (.ok program) :: asked)
      (ended.1.map fun results => (program, results)) := by
  intro ended
  cases named : settings.lintFile with
  | none =>
    have idle : ended = (.ok [], (world, trace)) := by
      simp only [ended, lint, named]
      rfl
    rw [idle]
    exact ⟨[], (List.append_nil trace).symm, fun project => .unlinted project program named⟩
  | some file =>
    have isNamed : settings.lintFile.isSome = true := by rw [named, Option.isSome_some]
    have run : ended = (((linter.configuration (settings.basePath.join file)
        settings.basePath).traced .rules).mapError .engine >>= fun configuration =>
          lintFiles linter.traced (checker.text? program) configuration settings.lintOptions
            (linter.files program)) (world, trace) := by
      simp only [ended, lint, named]
      rfl
    rw [run, Action.traced_bind]
    rcases linter.configuration (settings.basePath.join file) settings.basePath world with
      ⟨cause | configuration, between⟩
    · exact ⟨_, rfl, fun project => .noRules project program cause isNamed⟩
    · obtain ⟨asked, added, sweep⟩ := lintFiles_sweeps linter (checker.text? program) configuration
        settings.lintOptions (linter.files program) between (trace ++ [.rules (.ok configuration)])
      exact ⟨_, added.trans (List.append_assoc ..),
        fun project => .swept project configuration isNamed sweep⟩

theorem configure_course (clock : Clock ω) (settings : Settings) (previous : Option π) (world : ω) :
    let ended := configure (checker.traced κ) linter.traced (clock.traced π κ) settings previous
      (world, [])
    Course checker linter settings ended.2.2
      (ended.1.map fun session => (session.program, session.lintResults)) := by
  intro ended
  have run : ended = (((checker.resolve settings.project settings.basePath).traced
      .project).mapError .engine >>= fun project =>
        ((checker.build project previous).traced .program).mapError .engine >>= fun program =>
          .step (collect (checker.traced κ) program Category.all) >>= fun diagnostics =>
            lint (checker.traced κ) linter.traced settings program >>= fun lintResults =>
              .step (clock.traced π κ).nanoseconds >>= fun finished =>
                pure { program, diagnostics, lintResults,
                       elapsed := .ofNanoseconds (finished - (clock.nanoseconds world).1) })
      ((clock.nanoseconds world).2, []) := rfl
  rw [run, Action.traced_bind]
  rcases checker.resolve settings.project settings.basePath (clock.nanoseconds world).2 with
    ⟨cause | project, resolved⟩
  · exact .noProject cause
  dsimp only
  rw [Action.traced_bind]
  rcases checker.build project previous resolved with ⟨cause | program, built⟩
  · exact .noProgram project cause
  obtain ⟨asked, added, course⟩ := lint_course checker linter settings program
    (collect checker program Category.all built).2 [.project (.ok project), .program (.ok program)]
  simp only [Action.bind_apply, Action.step_apply, collect_traced, beside, List.nil_append,
    List.cons_append]
  revert added course
  rcases lint (checker.traced κ) linter.traced settings program
    ((collect checker program Category.all built).2, [.project (.ok project), .program (.ok program)])
    with ⟨error | results, between, trace⟩
  · rintro rfl course
    exact course project
  · rintro rfl course
    exact course project

/-- Linting goes through all files in order and stops at the first failure. What a session asks of its
tools, and with what it ends, is one of the courses; and a session that is watched in this way is the
session. -/
theorem linted_in_order (clock : Clock ω) (settings : Settings) (previous : Option π) (world : ω) :
    let watched := configure (checker.traced κ) linter.traced (clock.traced π κ) settings previous
      (world, [])
    configure checker linter clock settings previous world = (watched.1, watched.2.1) ∧
      Course checker linter settings watched.2.2
        (watched.1.map fun session => (session.program, session.lintResults)) := by
  intro watched
  have steps := configure_inStep (checker.traced_matches (κ := κ)) linter.traced_matches
    (clock.traced_matches (π := π) (κ := κ)) settings previous
  obtain ⟨ends, after⟩ := steps (world, []) world rfl
  exact ⟨Prod.ext ends.symm after.symm, configure_course checker linter clock settings previous world⟩

end Session

end BuildGate
