import BuildGate.Proofs.Compiler.Build
import BuildGate.Proofs.Session
import BuildGate.Report.Line

set_option autoImplicit false

namespace BuildGate

-- The classes are split off one after another, each from what the classes before it have left.
theorem filter_classes_perm {α β : Type} [DecidableEq β] (classOf : α → β) (items : List α)
    {classes : List β} (distinct : classes.Nodup) :
    (classes.flatMap fun c => items.filter (classOf · = c)).Perm
      (items.filter (classOf · ∈ classes)) := by
  induction classes with
  | nil => simp
  | cons c classes ih =>
    rw [List.nodup_cons] at distinct
    have own : (items.filter (classOf · ∈ c :: classes)).filter (classOf · = c) =
        items.filter (classOf · = c) := by
      rw [List.filter_filter]
      apply List.filter_congr
      intro item _
      by_cases same : classOf item = c <;> simp [same]
    have others : (items.filter (classOf · ∈ c :: classes)).filter
        (fun item => !decide (classOf item = c)) = items.filter (classOf · ∈ classes) := by
      rw [List.filter_filter]
      apply List.filter_congr
      intro item _
      by_cases same : classOf item = c
      · simp [same, distinct.1]
      · simp [same]
    have split := List.filter_append_perm (classOf · = c) (items.filter (classOf · ∈ c :: classes))
    rw [own, others] at split
    rw [List.flatMap_cons]
    exact ((ih distinct.2).append_left _).trans split

namespace Compiler

-- Only whether there is a position counts, not whether the file has it.
def Printed.Lands (printed : Printed) : Category → Prop
  | .options => printed.position = none ∧ 5000 ≤ printed.code ∧ printed.code ≤ 6999
  | .global => printed.position = none ∧ ¬ (5000 ≤ printed.code ∧ printed.code ≤ 6999)
  | .syntactic => printed.position ≠ none ∧ 1000 ≤ printed.code ∧ printed.code ≤ 1999
  | .semantic => printed.position ≠ none ∧ ¬ (1000 ≤ printed.code ∧ printed.code ≤ 1999)

instance (printed : Printed) : (category : Category) → Decidable (printed.Lands category)
  | .options => inferInstanceAs (Decidable (_ ∧ _ ∧ _))
  | .global => inferInstanceAs (Decidable (_ ∧ ¬ _))
  | .syntactic => inferInstanceAs (Decidable (_ ∧ _ ∧ _))
  | .semantic => inferInstanceAs (Decidable (_ ∧ ¬ _))

def Printed.category (printed : Printed) : Category :=
  categoryOf (printed.position.map (·.file)) printed.code

theorem Printed.lands_iff (printed : Printed) (category : Category) :
    printed.Lands category ↔ printed.category = category := by
  obtain ⟨position, level, code, message⟩ := printed
  cases position with
  | none =>
    by_cases options : 5000 ≤ code ∧ code ≤ 6999 <;>
      cases category <;> simp [Lands, Printed.category, categoryOf, options]
  | some position =>
    by_cases syntactic : 1000 ≤ code ∧ code ≤ 1999 <;>
      cases category <;> simp [Lands, Printed.category, categoryOf, syntactic]

theorem ofCategory_programOf (files : List String) (sources : Sources) (output : String)
    (category : Category) :
    (programOf files sources output).ofCategory category =
      ((parseOutput output).filter (·.Lands category)).map (noticeOf sources) := by
  simp only [Program.ofCategory, programOf, List.filter_map, List.map_map, Printed.lands_iff]
  rfl

theorem checker_steady (command : List String) (program : Program) :
    (checker command).Steady program := fun _ _ _ => rfl

def lineOf (yellow : Flags) (program : Program) (printed : Printed) : ReportLine :=
  .ofDiagnostic yellow
    (Session.diagnosticOf program.text? printed.category (noticeOf program.sources printed))

theorem collect_programOf (command files : List String) (sources : Sources) (output : String)
    (host : Host) :
    let program := programOf files sources output
    (Session.collect (checker command) program Category.all host).1 =
      Category.all.flatMap fun category =>
        ((parseOutput output).filter (·.Lands category)).map fun printed =>
          Session.diagnosticOf program.text? printed.category (noticeOf sources printed) := by
  intro program
  rw [Session.collect_of_steady (checker_steady command program) _ host host]
  congr 1
  funext category
  change (program.ofCategory category).map _ = _
  rw [ofCategory_programOf, List.map_map]
  apply List.map_congr_left
  intro printed inside
  have lands : printed.Lands category := by simpa using (List.mem_filter.1 inside).2
  rw [(printed.lands_iff category).1 lands]
  rfl

theorem lines_collected (yellow : Flags) (command files : List String) (sources : Sources)
    (output : String) (host : Host) :
    let program := programOf files sources output
    (Session.collect (checker command) program Category.all host).1.map
        (ReportLine.ofDiagnostic yellow) =
      Category.all.flatMap fun category =>
        ((parseOutput output).filter (·.Lands category)).map (lineOf yellow program) := by
  intro program
  rw [collect_programOf, List.map_flatMap]
  simp only [List.map_map]
  rfl

theorem lines_perm (line : Printed → ReportLine) (output : List Printed) :
    (Category.all.flatMap fun category => (output.filter (·.Lands category)).map line).Perm
      (output.map line) := by
  have distinct : Category.all.Nodup := by decide
  have complete : output.filter (·.category ∈ Category.all) = output := by
    apply List.filter_eq_self.2
    intro printed _
    cases printed.category <;> decide
  have perm := filter_classes_perm Printed.category output distinct
  rw [complete] at perm
  simp only [Printed.lands_iff]
  rw [← List.map_flatMap]
  exact perm.map line

/-- A session over a compiler's output reports each diagnostic of it on one line, sorted by category
and for the rest in the compiler's order, and the failures of the linter after all of them. -/
theorem report_rearranges_output {κ : Type} {command : List String} {linter : Linter Host Program κ}
    {clock : Clock Host} {settings : Settings} {previous : Option Program} {before after : Host}
    {session : Session Program}
    (configured : Session.configure (checker command) linter clock settings previous before =
      (.ok session, after))
    (present : session.program.files ≠ []) (yellow : Flags) :
    ∃ project host built call response, ∃ line : Printed → ReportLine, ∃ checked : List ReportLine,
      build command project previous host = (.ok session.program, built) ∧
        host.Ran built call response ∧
        ReportLine.all yellow session.diagnostics session.lintResults =
          checked ++ ReportLine.ofResults yellow session.lintResults ∧
        checked = ([.options, .global, .syntactic, .semantic].flatMap fun category =>
          ((parseOutput response.output).filter (·.Lands category)).map line) ∧
        checked.Perm ((parseOutput response.output).map line) ∧
        (∀ printed category, printed.Lands category →
          (line printed).kind = .ofCategory category ∧
            (line printed).tag = printed.level.name ++ ":TS" ++ toString printed.code ∧
            (line printed).message = printed.message.flatten "\n") ∧
        (∀ l ∈ checked, l.kind ≠ .lint) ∧
        ∀ l ∈ ReportLine.ofResults yellow session.lintResults, l.kind = .lint := by
  obtain ⟨project, resolved, built, linted, -, building, collected, -⟩ :=
    Session.configure_eq_ok configured
  obtain ⟨sources, -, ⟨empty, -⟩ | ⟨-, call, response, ran, made⟩⟩ := build_eq_ok building
  · rw [files_of_build building] at present
    exact absurd empty present
  refine ⟨project, resolved, built, call, response, lineOf yellow session.program,
    session.diagnostics.map (.ofDiagnostic yellow), building, ran, rfl, ?_, ?_, ?_, ?_, ?_⟩
  · rw [collected, made]
    exact lines_collected yellow command project.files sources response.output built
  · rw [collected, made, lines_collected]
    exact lines_perm _ _
  · intro printed category lands
    rw [Printed.lands_iff] at lands
    subst lands
    exact ⟨rfl, rfl, rfl⟩
  · intro l inside
    obtain ⟨diagnostic, -, rfl⟩ := List.mem_map.1 inside
    exact Kind.ofCategory_ne_lint diagnostic.category
  · intro l inside
    obtain ⟨result, -, failed⟩ := List.mem_flatMap.1 inside
    obtain ⟨failure, -, rfl⟩ := List.mem_map.1 failed
    rfl

def faultyHost : Host where
  disk := ⟨[(["a.ts"], .file [] 1)], [], 2⟩
  obstacle := fun _ => none
  respond := fun _ _ => ⟨Text.encode "a.ts(9,1): error TS2322: m\nerror TS5023: n\n", [], some 0⟩
  calls := []

def faultyLinter : Linter Host Program Unit where
  configuration := fun _ _ => .done ()
  files := fun _ => ["a.ts"]
  lint := fun file _ _ _ => .done [⟨file, 0, 0, "semicolon", .error, "m"⟩]

def stoppedClock : Clock Host := ⟨fun host => (0, host), fun host => ("now", host)⟩

def faultySettings : Settings :=
  { Settings.default with
    project := .object [("files", .array [.text "a.ts"])], lintFile := some "tslint.json" }

def faultyProgram : Program :=
  programOf ["a.ts"] [("a.ts", ⟨"", some 1⟩)] (faultyHost.respond [] ⟨[], "tsc", []⟩).output

theorem faulty_built :
    ∃ after, build ["tsc"] ⟨["a.ts"], .emptyObject, ⟨"."⟩⟩ none faultyHost =
      (.ok faultyProgram, after) := by
  have read : faultyHost.disk.readText (Path.join ⟨"."⟩ "a.ts") = .ok "" := by
    have found : faultyHost.disk.find (Path.join ⟨"."⟩ "a.ts") = .ok (.file [] 1) := rfl
    simp only [Disk.readText, found, Text.decode?, Text.decode]
    rfl
  rw [build_apply, loadSources_singleton read]
  exact ⟨_, rfl⟩

theorem faulty_configured :
    ∃ session after, Session.configure (checker ["tsc"]) faultyLinter stoppedClock faultySettings
        none faultyHost = (.ok session, after) ∧ session.program.files = ["a.ts"] ∧
      (ReportLine.ofResults .none session.lintResults).length = 1 := by
  obtain ⟨after, built⟩ := faulty_built
  simp only [Session.configure, Action.bind_eq_ok, Action.mapError_eq_ok, Action.step_apply]
  exact ⟨_, _, ⟨_, _, rfl, _, _, rfl, _, _, built, _, _, rfl, _, _, rfl, _, _, rfl, rfl⟩, rfl, rfl⟩

theorem faulty_report_rearranged :
    ∃ session after, Session.configure (checker ["tsc"]) faultyLinter stoppedClock faultySettings
        none faultyHost = (.ok session, after) ∧ session.program.files ≠ [] ∧
      ∃ (host built : Host) (call : Call) (response : Response), host.Ran built call response ∧
        (ReportLine.all .none session.diagnostics session.lintResults).length =
          (parseOutput response.output).length + 1 := by
  obtain ⟨session, after, configured, files, failures⟩ := faulty_configured
  have present : session.program.files ≠ [] := by simp [files]
  obtain ⟨project, host, built, call, response, line, checked, -, ran, whole, -, perm, -⟩ :=
    report_rearranges_output configured present .none
  refine ⟨session, after, configured, present, host, built, call, response, ran, ?_⟩
  rw [whole, List.length_append, perm.length_eq, List.length_map, failures]

end Compiler

end BuildGate
