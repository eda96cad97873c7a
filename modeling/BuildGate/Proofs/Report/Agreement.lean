import BuildGate.Proofs.Gate
import BuildGate.Proofs.Session
import BuildGate.Proofs.Totals

set_option autoImplicit false

namespace BuildGate

variable {ω π κ : Type}

namespace Report

def block (color : Bool) (lines : List ReportLine) : String :=
  paint color .heading "\nFile errors" ++ paint color .neutral ":" ++
    String.join (lines.map fun l => "\n" ++ line color l)

theorem findings_eq (color : Bool) (lines : List ReportLine) :
    findings color lines = if lines = [] then "" else block color lines := by
  cases lines <;> rfl

end Report

namespace ReportLine

def count (lines : List ReportLine) (kind : Kind) : Nat := lines.countP (·.kind = kind)

theorem count_append (some more : List ReportLine) (kind : Kind) :
    count (some ++ more) kind = count some kind + count more kind :=
  List.countP_append

theorem count_diagnostics (yellow : Flags) (diagnostics : List Diagnostic) (category : Category) :
    count (diagnostics.map (ofDiagnostic yellow)) (.ofCategory category) =
      diagnostics.countP (·.category = category) := by
  simp [count, List.countP_map, Function.comp_def, ofDiagnostic, Kind.ofCategory_inj]

theorem count_diagnostics_lint (yellow : Flags) (diagnostics : List Diagnostic) :
    count (diagnostics.map (ofDiagnostic yellow)) .lint = 0 := by
  simp [count, List.countP_map, Function.comp_def, ofDiagnostic, Kind.ofCategory_ne_lint]

theorem count_results (yellow : Flags) (results : List FileFailures) (kind : Kind) :
    count (ofResults yellow results) kind =
      if kind = .lint then Session.lintCount .failures results else 0 := by
  induction results with
  | nil => simp [count, ofResults, Session.lintCount]
  | cons result results ih =>
    simp only [ofResults, List.flatMap_cons, count_append] at ih ⊢
    rw [ih]
    by_cases lint : kind = .lint
    · simp [lint, count, List.countP_map, Function.comp_def, ofFailure, Session.lintCount]
    · simp [lint, Ne.symm lint, count, List.countP_map, Function.comp_def, ofFailure]

theorem length_eq_counts (lines : List ReportLine) :
    lines.length = count lines .options + count lines .global + count lines .syntactic +
      count lines .semantic + count lines .lint := by
  induction lines with
  | nil => rfl
  | cons line lines ih =>
    simp only [count, List.countP_cons, List.length_cons] at ih ⊢
    cases line.kind <;> simp <;> omega

end ReportLine

namespace Session

theorem lintCount_eq_zero_iff {results : List FileFailures}
    (found : ∀ result ∈ results, result.failures ≠ []) (unit : LintUnit) :
    lintCount unit results = 0 ↔ results = [] := by
  cases unit with
  | files => simp [lintCount]
  | failures =>
    simp only [lintCount, List.length_eq_zero_iff, List.flatMap_eq_nil_iff]
    constructor
    · intro clean
      cases results with
      | nil => rfl
      | cons result results =>
        exact absurd (clean result List.mem_cons_self) (found result List.mem_cons_self)
    · rintro rfl
      simp

/-- What a session found, by kind. -/
inductive Finds (session : Session π) : Kind → Prop
  | diagnostic {diagnostic : Diagnostic} (listed : diagnostic ∈ session.diagnostics) :
      Finds session (.ofCategory diagnostic.category)
  | lint {result : FileFailures} {failure : Failure} (listed : result ∈ session.lintResults)
      (found : failure ∈ result.failures) : Finds session .lint

theorem finds_category {session : Session π} {category : Category} :
    session.Finds (.ofCategory category) ↔
      0 < session.diagnostics.countP (·.category = category) := by
  simp only [List.countP_pos_iff, decide_eq_true_eq]
  constructor
  · intro finds
    generalize named : Kind.ofCategory category = kind at finds
    cases finds with
    | @diagnostic diagnostic listed =>
      exact ⟨diagnostic, listed, (Kind.ofCategory_inj.1 named).symm⟩
    | lint => exact absurd named (Kind.ofCategory_ne_lint category)
  · rintro ⟨diagnostic, listed, rfl⟩
    exact .diagnostic listed

theorem finds_lint {session : Session π}
    (found : ∀ result ∈ session.lintResults, result.failures ≠ []) :
    session.Finds .lint ↔ session.lintResults ≠ [] := by
  constructor
  · intro finds
    generalize named : Kind.lint = kind at finds
    cases finds with
    | diagnostic => exact absurd named.symm (Kind.ofCategory_ne_lint _)
    | lint listed => exact List.ne_nil_of_mem listed
  · intro some_
    obtain ⟨result, listed⟩ := List.exists_mem_of_ne_nil _ some_
    obtain ⟨failure, failed⟩ := List.exists_mem_of_ne_nil _ (found result listed)
    exact .lint listed failed

theorem countP_collected (text? : String → Option String) (notices : Category → List Notice)
    (category : Category) :
    (Category.all.flatMap fun each => (notices each).map (diagnosticOf text? each)).countP
      (·.category = category) = (notices category).length := by
  cases category <;>
    simp [Category.all, diagnosticOf, List.countP_append, List.countP_map, Function.comp_def]

end Session

theorem count_lint (checker : Checker ω π) (session : Session π) (yellow : Flags) (world : ω) :
    ReportLine.count (ReportLine.all yellow session.diagnostics session.lintResults) .lint =
      (session.totals checker .failures world).1.lint := by
  rw [ReportLine.all, ReportLine.count_append, ReportLine.count_diagnostics_lint,
    ReportLine.count_results, if_pos rfl, Nat.zero_add]
  rfl

section Configured

variable {checker : Checker ω π} {linter : Linter ω π κ} {clock : Clock ω} {settings : Settings}
  {previous : Option π} {before after : ω} {session : Session π}
  (configured : Session.configure checker linter clock settings previous before =
    (.ok session, after))
  (steady : checker.Steady session.program)

include configured steady

theorem countP_category (unit : LintUnit) (world : ω) (category : Category) :
    session.diagnostics.countP (·.category = category) =
      (session.totals checker unit world).1.get (.ofCategory category) := by
  obtain ⟨project, resolved, built, linted, -, -, collected, -⟩ :=
    Session.configure_eq_ok configured
  rw [collected, Session.collect_of_steady steady _ built world, Session.countP_collected,
    Session.totals_of_steady steady unit world world]
  cases category <;> rfl

theorem finds_iff (unit : LintUnit) (world : ω) (kind : Kind) :
    session.Finds kind ↔ 0 < (session.totals checker unit world).1.get kind := by
  have diagnostics (category : Category) : session.Finds (.ofCategory category) ↔
      0 < (session.totals checker unit world).1.get (.ofCategory category) := by
    rw [Session.finds_category, countP_category configured steady unit world]
  cases kind with
  | options => exact diagnostics .options
  | global => exact diagnostics .global
  | syntactic => exact diagnostics .syntactic
  | semantic => exact diagnostics .semantic
  | lint =>
    obtain ⟨project, resolved, built, linted, -, -, -, lints⟩ := Session.configure_eq_ok configured
    have found := Session.lint_failures_ne_nil lints
    have counted : (session.totals checker unit world).1.get .lint =
        Session.lintCount unit session.lintResults := rfl
    rw [Session.finds_lint found, counted, Nat.pos_iff_ne_zero, Ne, Ne,
      Session.lintCount_eq_zero_iff found]

theorem count_category (yellow : Flags) (unit : LintUnit) (world : ω) (category : Category) :
    ReportLine.count (ReportLine.all yellow session.diagnostics session.lintResults)
        (.ofCategory category) =
      (session.totals checker unit world).1.get (.ofCategory category) := by
  rw [ReportLine.all, ReportLine.count_append, ReportLine.count_diagnostics,
    ReportLine.count_results, if_neg (Kind.ofCategory_ne_lint category), Nat.add_zero,
    countP_category configured steady unit world]

theorem length_lines (yellow : Flags) (world : ω) :
    (ReportLine.all yellow session.diagnostics session.lintResults).length =
      (session.totals checker .failures world).1.sum := by
  have options := count_category configured steady yellow .failures world .options
  have global := count_category configured steady yellow .failures world .global
  have syntactic := count_category configured steady yellow .failures world .syntactic
  have semantic := count_category configured steady yellow .failures world .semantic
  simp only [Kind.ofCategory] at options global syntactic semantic
  rw [ReportLine.length_eq_counts, options, global, syntactic, semantic, count_lint checker]
  rfl

theorem sum_eq_zero_iff (yellow : Flags) (unit : LintUnit) (world : ω) :
    (session.totals checker unit world).1.sum = 0 ↔
      ReportLine.all yellow session.diagnostics session.lintResults = [] := by
  obtain ⟨project, resolved, built, linted, -, -, -, lints⟩ := Session.configure_eq_ok configured
  have zero := Session.lintCount_eq_zero_iff (Session.lint_failures_ne_nil lints)
  have lint : Session.lintCount unit session.lintResults = 0 ↔
      Session.lintCount .failures session.lintResults = 0 := by rw [zero, zero]
  rw [← List.length_eq_zero_iff, length_lines configured steady yellow world,
    Session.totals_of_steady steady unit world world,
    Session.totals_of_steady steady .failures world world]
  simp only [Totals.sum]
  omega

end Configured

/-- A report whose summary shows a number. The block of findings and the counts are there exactly if
the number is positive. -/
def Report.layout (color : Bool) (head : ReportHeader) (lines : List ReportLine) (totals : Totals)
    (yellow : Flags) (elapsed : Elapsed) (number : Nat) : String :=
  header color head ++ (if 0 < number then block color lines else "") ++
    paint color .heading "\n\nErrors" ++ paint color .neutral (":" ++ toString number ++ "\n") ++
    (if 0 < number then String.join (Kind.all.map (countLine color yellow totals)) else "") ++
    footer color elapsed

theorem Report.compose_eq_layout (color : Bool) (head : ReportHeader) {lines : List ReportLine}
    {totals : Totals} (yellow : Flags) (elapsed : Elapsed) {number : Nat}
    (total : totals.total = number) (found : number = 0 ↔ lines = []) :
    compose color head lines totals yellow elapsed =
      layout color head lines totals yellow elapsed number := by
  have shown : findings color lines = if 0 < number then block color lines else "" := by
    rw [findings_eq]
    by_cases clean : lines = []
    · simp [clean, found.2 clean]
    · simp [clean, Nat.pos_of_ne_zero (mt found.1 clean)]
  have counted : summary color yellow totals = paint color .heading "\n\nErrors" ++
      paint color .neutral (":" ++ toString number ++ "\n") ++
      (if 0 < number then String.join (Kind.all.map (countLine color yellow totals)) else "") := by
    by_cases clean : number = 0 <;> simp [summary, total, clean, Nat.pos_iff_ne_zero]
  simp only [compose, layout, shown, counted, String.append_assoc]

/-- The lines of a report, the counts of its summary and the verdict agree, for every session that
was configured over a program which answers the same each time, wherever it is reported. -/
theorem findings_summary_verdict_agree {gate : Gate ω π κ} {settings : Settings}
    {previous : Option π} {before after : ω} {session : Session π}
    (configured : Session.configure gate.checker gate.linter gate.clock settings previous before =
      (.ok session, after))
    (steady : gate.checker.Steady session.program) (shown : Settings) (time : String)
    (scene : Scene ω π) :
    let lines := ReportLine.all shown.yellow session.diagnostics session.lintResults
    let totals (unit : LintUnit) := (session.totals gate.checker unit scene.world).1
    let number := (totals shown.lintUnit).sum
    let ended := gate.typecheck shown session time scene
    (∀ unit category, ReportLine.count lines (.ofCategory category) =
        (totals unit).get (.ofCategory category)) ∧
      ReportLine.count lines .lint = (totals .failures).lint ∧
      session.lintResults.length = (totals .files).lint ∧
      (number < Word.size →
        (∃ refusal rest, ended.2.console.events = scene.console.events ++
          ⟨.write (Report.layout gate.color ⟨shown.runType, shown.name, time⟩ lines
            (totals shown.lintUnit) shown.yellow session.elapsed number), refusal⟩ :: rest) ∧
        (∀ verdict, ended.1 = .ok verdict → verdict.total = number) ∧
        ∀ total, ended.1 = .error (.fatalPolicy total) → total = number) := by
  intro lines totals number ended
  refine ⟨fun unit => count_category configured steady shown.yellow unit scene.world,
    count_lint gate.checker session shown.yellow scene.world, rfl, fun bounded => ?_⟩
  have total : (totals shown.lintUnit).total = number := Totals.total_of_lt bounded
  have found : number = 0 ↔ lines = [] :=
    sum_eq_zero_iff configured steady shown.yellow shown.lintUnit scene.world
  refine ⟨?_, ?_, ?_⟩
  · obtain ⟨refusal, rest, written⟩ := gate.typecheck_writes shown session time scene
    refine ⟨refusal, rest, ?_⟩
    rw [← Report.compose_eq_layout _ _ _ _ total found]
    exact written
  · intro verdict accepted
    rw [← total]
    exact gate.typecheck_total shown session time (Prod.ext accepted rfl)
  · intro fatal refused
    rw [← total]
    exact gate.typecheck_fatal shown session time (Prod.ext refused rfl)

def sampleGate : Gate Unit Unit Unit where
  checker :=
    { resolve := fun _ base => .done ⟨["a.ts", "b.ts"], .emptyObject, base⟩
      build := fun _ _ => .done ()
      diagnostics := fun _ category world =>
        (if category = .semantic then [⟨some "a.ts", some 0, 2322, .error, .plain "m"⟩] else [],
          world)
      files := fun _ => ["a.ts", "b.ts"]
      text? := fun _ _ => some "x" }
  linter :=
    { configuration := fun _ _ => .done ()
      files := fun _ => ["a.ts", "b.ts"]
      lint := fun file _ _ _ => .done (if file = "a.ts" then
        [⟨file, 0, 0, "semicolon", .error, "m"⟩, ⟨file, 0, 1, "quotemark", .warning, "n"⟩]
        else []) }
  clock := { nanoseconds := fun world => (0, world), localTime := fun world => ("now", world) }
  parent := none
  color := false

def sampleSettings : Settings := { Settings.default with lintFile := some "tslint.json" }

def sampleSession : Session Unit where
  program := ()
  diagnostics := [⟨.semantic, some ⟨"a.ts", 0, 0⟩, 2322, .error, .plain "m"⟩]
  lintResults := [⟨"a.ts",
    [⟨"a.ts", 0, 0, "semicolon", .error, "m"⟩, ⟨"a.ts", 0, 1, "quotemark", .warning, "n"⟩]⟩]
  elapsed := ⟨0, 0⟩

theorem sample_configured :
    Session.configure sampleGate.checker sampleGate.linter sampleGate.clock sampleSettings none () =
      (.ok sampleSession, ()) := rfl

theorem sample_steady : sampleGate.checker.Steady sampleSession.program := fun _ _ _ => rfl

theorem sample_findings_agree :
    let lines := ReportLine.all sampleSettings.yellow sampleSession.diagnostics
      sampleSession.lintResults
    let ended := sampleGate.typecheck sampleSettings sampleSession "now" (.start () .accepting)
    sampleGate.checker.Steady sampleSession.program ∧
      ReportLine.count lines .semantic = 1 ∧ ReportLine.count lines .lint = 2 ∧
      ∀ verdict, ended.1 = .ok verdict → verdict.total = 2 := by
  obtain ⟨category, lint, -, fits⟩ := findings_summary_verdict_agree sample_configured sample_steady
    sampleSettings "now" (.start () .accepting)
  have bounded : 2 < Word.size := by decide
  exact ⟨sample_steady, category .files .semantic, lint, (fits bounded).2.1⟩

end BuildGate
