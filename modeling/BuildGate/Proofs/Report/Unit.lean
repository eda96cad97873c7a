import BuildGate.Proofs.Report.Agreement

set_option autoImplicit false

namespace BuildGate

variable {ω π κ : Type}

-- A count matters to an outcome only by being positive or not.
theorem Outcome.decide_congr {a b : Totals} (alike : ∀ kind, 0 < a.get kind ↔ 0 < b.get kind)
    (throws : Flags) (quit finished : Bool) :
    decide throws quit finished a = decide throws quit finished b := by
  simp only [decide, alike]

theorem Session.lintCount_files_le {results : List FileFailures}
    (found : ∀ result ∈ results, result.failures ≠ []) :
    lintCount .files results ≤ lintCount .failures results := by
  simp only [lintCount]
  induction results with
  | nil => simp
  | cons result results ih =>
    rw [List.forall_mem_cons] at found
    have first := List.length_pos_iff.2 found.1
    have rest := ih found.2
    simp only [List.length_cons, List.flatMap_cons, List.length_append]
    omega

namespace Report

def checkerLines (color : Bool) (yellow : Flags) (totals : Totals) : String :=
  String.join ((Category.all.map Kind.ofCategory).map (countLine color yellow totals))

def around (color : Bool) (head : ReportHeader) (lines : List ReportLine) (elapsed : Elapsed)
    (counts number lint : String) : String :=
  header color head ++ findings color lines ++ paint color .heading "\n\nErrors" ++
    paint color .neutral (":" ++ number ++ "\n") ++ counts ++ lint ++ footer color elapsed

theorem checkerLines_congr (color : Bool) (yellow : Flags) {a b : Totals}
    (alike : ∀ category, a.get (.ofCategory category) = b.get (.ofCategory category)) :
    checkerLines color yellow a = checkerLines color yellow b := by
  simp only [checkerLines, List.map_map]
  congr 1
  refine List.map_congr_left fun category _ => ?_
  simp only [Function.comp_apply, countLine, alike]

theorem compose_eq_around (color : Bool) (head : ReportHeader) (lines : List ReportLine)
    {totals : Totals} (yellow : Flags) (elapsed : Elapsed) {number : Nat}
    (total : totals.total = number) :
    compose color head lines totals yellow elapsed =
      around color head lines elapsed
        (if number = 0 then "" else checkerLines color yellow totals) (toString number)
        (if number = 0 then "" else countLine color yellow totals .lint) := by
  have kinds : String.join (Kind.all.map (countLine color yellow totals)) =
      checkerLines color yellow totals ++ countLine color yellow totals .lint := by
    simp [checkerLines, Kind.all, Category.all, Kind.ofCategory, String.join, String.append_assoc]
  by_cases clean : number = 0 <;>
    simp [compose, around, summary, total, clean, kinds, String.append_assoc]

end Report

section Configured

variable {checker : Checker ω π} {linter : Linter ω π κ} {clock : Clock ω} {settings : Settings}
  {previous : Option π} {before after : ω} {session : Session π}
  (configured : Session.configure checker linter clock settings previous before =
    (.ok session, after))

include configured

theorem lint_failures_found : ∀ result ∈ session.lintResults, result.failures ≠ [] := by
  obtain ⟨project, resolved, built, linted, -, -, -, lints⟩ := Session.configure_eq_ok configured
  exact Session.lint_failures_ne_nil lints

theorem lint_eq_zero_iff (unit other : LintUnit) (early late : ω) :
    (session.totals checker unit early).1.lint = 0 ↔
      (session.totals checker other late).1.lint = 0 := by
  have found := lint_failures_found configured
  exact (Session.lintCount_eq_zero_iff found unit).trans
    (Session.lintCount_eq_zero_iff found other).symm

end Configured

/-- The unit in which lint findings are counted changes numbers and decides nothing: neither the
outcome nor, as long as the counts fit into a word, anything else in a report. -/
theorem lint_unit_changes_numbers_only {gate : Gate ω π κ} {settings : Settings}
    {previous : Option π} {before after : ω} {session : Session π}
    (configured : Session.configure gate.checker gate.linter gate.clock settings previous before =
      (.ok session, after)) (early late : ω) :
    let files := (session.totals gate.checker .files early).1
    let failures := (session.totals gate.checker .failures late).1
    files.lint ≤ failures.lint ∧ (files.lint = 0 ↔ failures.lint = 0) ∧
      (gate.checker.Steady session.program →
        (∀ category, files.get (.ofCategory category) = failures.get (.ofCategory category)) ∧
        (∀ throws quit finished, Outcome.decide throws quit finished files =
          Outcome.decide throws quit finished failures) ∧
        (failures.sum < Word.size → ∀ (shown : Settings) (time : String),
          let report (totals : Totals) := Report.around gate.color
            ⟨shown.runType, shown.name, time⟩
            (ReportLine.all shown.yellow session.diagnostics session.lintResults) session.elapsed
            (if files.sum = 0 then "" else Report.checkerLines gate.color shown.yellow files)
            (toString totals.sum)
            (if files.sum = 0 then "" else Report.countLine gate.color shown.yellow totals .lint)
          gate.report shown session time files = report files ∧
            gate.report shown session time failures = report failures)) := by
  intro files failures
  have le : files.lint ≤ failures.lint :=
    Session.lintCount_files_le (lint_failures_found configured)
  have zero : files.lint = 0 ↔ failures.lint = 0 :=
    lint_eq_zero_iff configured .files .failures early late
  refine ⟨le, zero, fun steady => ?_⟩
  have asked : files = { failures with lint := files.lint } := by
    have first := Session.totals_of_steady steady .files early early
    have second := Session.totals_of_steady steady .failures late early
    simp only [files, failures, first, second]
  have same (category : Category) :
      files.get (.ofCategory category) = failures.get (.ofCategory category) := by
    rw [asked]
    cases category <;> rfl
  refine ⟨same, fun throws quit finished => ?_, fun bounded shown time => ?_⟩
  · refine Outcome.decide_congr (fun kind => ?_) throws quit finished
    rw [asked]
    cases kind <;> simp only [ByKind.get]
    omega
  · have sums : files.sum + failures.lint = failures.sum + files.lint := by
      rw [asked]
      simp only [Totals.sum]
      omega
    have clean : files.sum = 0 ↔ failures.sum = 0 := by
      have least : files.lint ≤ files.sum := Nat.le_add_left _ _
      have most : failures.lint ≤ failures.sum := Nat.le_add_left _ _
      omega
    have few : files.total = files.sum := Totals.total_of_lt (by omega)
    have many : failures.total = failures.sum := Totals.total_of_lt bounded
    constructor
    · exact Report.compose_eq_around _ _ _ _ _ few
    · rw [Report.checkerLines_congr _ _ same]
      simp only [clean]
      exact Report.compose_eq_around _ _ _ _ _ many

theorem sample_unit_changes_numbers_only :
    let files := (sampleSession.totals sampleGate.checker .files ()).1
    let failures := (sampleSession.totals sampleGate.checker .failures ()).1
    let report (totals : Totals) := Report.around false ⟨"sync", "tycheck", "now"⟩
      (ReportLine.all .none sampleSession.diagnostics sampleSession.lintResults) ⟨0, 0⟩
      (Report.checkerLines false .none files) (toString totals.sum)
      (Report.countLine false .none totals .lint)
    sampleGate.checker.Steady sampleSession.program ∧ failures.sum < Word.size ∧
      files.lint = 1 ∧ failures.lint = 2 ∧
      (∀ throws quit finished, Outcome.decide throws quit finished files =
        Outcome.decide throws quit finished failures) ∧
      sampleGate.report sampleSettings sampleSession "now" files = report files ∧
      sampleGate.report sampleSettings sampleSession "now" failures = report failures := by
  intro files failures report
  have bounded : failures.sum < Word.size := by decide
  obtain ⟨-, -, alike⟩ := lint_unit_changes_numbers_only sample_configured () ()
  obtain ⟨-, decided, reported⟩ := alike sample_steady
  exact ⟨sample_steady, bounded, rfl, rfl, decided, reported bounded sampleSettings "now"⟩

end BuildGate
