import BuildGate.Proofs.Compiler.Opening
import BuildGate.Proofs.Compiler.Build
import BuildGate.Proofs.Gate
import BuildGate.Proofs.Session
import BuildGate.Proofs.Text.Utf8
import BuildGate.Proofs.Totals

set_option autoImplicit false

namespace BuildGate.Compiler

variable {ω κ : Type}

def Silent (response : Response) : Prop :=
  ∀ c ∈ response.output.toList, Text.isBlank c = true

def NamesDiagnostic (response : Response) : Prop :=
  ∃ cs ∈ Text.lines response.output.toList, Opens cs

theorem checkResponse_of_failed (command : List String) {response : Response}
    (failed : response.succeeded = false) :
    (Silent response ∧ checkResponse command response =
        .error (.failed (shown command) response.statusNumber response.complaint)) ∨
      (¬ Silent response ∧ checkResponse command response = .ok response.output) := by
  have blank : (Text.trim response.output.toList).isEmpty = true ↔ Silent response := by
    rw [List.isEmpty_iff, Text.trim_eq_nil_iff, Silent]
  by_cases silent : Silent response
  · exact .inl ⟨silent, by simp only [checkResponse, failed, blank.2 silent]; rfl⟩
  · have spoken : (Text.trim response.output.toList).isEmpty = false := by
      rw [← Bool.not_eq_true, blank]
      exact silent
    exact .inr ⟨silent, by simp only [checkResponse, failed, spoken]; rfl⟩

theorem diagnostics_programOf_eq_nil_iff (files : List String) (sources : Sources)
    (response : Response) :
    (programOf files sources response.output).diagnostics = [] ↔ ¬ NamesDiagnostic response := by
  rw [programOf, List.map_eq_nil_iff, parseOutput_eq_nil_iff, NamesDiagnostic]
  simp

theorem length_ofCategory (program : Program) :
    (program.ofCategory .options).length + (program.ofCategory .global).length +
        (program.ofCategory .syntactic).length + (program.ofCategory .semantic).length =
      program.diagnostics.length := by
  simp only [Program.ofCategory, List.length_map]
  induction program.diagnostics with
  | nil => rfl
  | cons diagnostic diagnostics ih =>
    obtain ⟨category, notice⟩ := diagnostic
    cases category <;> simp only [List.filter_cons, List.length_cons] <;> simp <;> omega

def Reads (checker : Checker ω Program) : Prop :=
  ∀ program category world, checker.diagnostics program category world =
    (program.ofCategory category, world)

theorem checker_reads (command : List String) : Reads (checker command) := fun _ _ _ => rfl

theorem verdict_total {gate : Gate ω Program κ} (reads : Reads gate.checker) {settings : Settings}
    {session : Session Program} {time : String} {scene after : Scene ω Program} {verdict : Verdict}
    (bounded : (session.totals gate.checker settings.lintUnit scene.world).1.sum < Word.size)
    (ended : gate.typecheck settings session time scene = (.ok verdict, after)) :
    verdict.total = session.program.diagnostics.length +
      Session.lintCount settings.lintUnit session.lintResults := by
  have steady : gate.checker.Steady session.program := by
    intro category early late
    rw [reads, reads]
  rw [gate.typecheck_total settings session time ended, Totals.total_of_lt bounded,
    Session.totals_of_steady steady settings.lintUnit scene.world scene.world,
    ← length_ofCategory session.program]
  simp only [Totals.sum, reads _ _ scene.world]

/-- A compiler run without success is noticed exactly if it says nothing or names a diagnostic. A
run that was noticed ends in an error, or wherever its program is reported the total is positive. -/
theorem failed_run_noticed_iff {command : List String} {project : Project} {seed : Option Program}
    {before : Host} {call : Call} {response : Response}
    (ran : before.Ran (build command project seed before).2 call response)
    (failed : response.succeeded = false) (gate : Gate ω Program κ) (reads : Reads gate.checker) :
    let result := (build command project seed before).1
    (((∃ error, result = .error error) ∨
        ∃ program, result = .ok program ∧ program.diagnostics ≠ []) ↔
      Silent response ∨ NamesDiagnostic response) ∧
    ∀ settings session time scene verdict after, result = .ok session.program →
      Silent response ∨ NamesDiagnostic response →
      (session.totals gate.checker settings.lintUnit scene.world).1.sum < Word.size →
      gate.typecheck settings session time scene = (.ok verdict, after) → 0 < verdict.total := by
  intro result
  obtain ⟨sources, same⟩ := build_of_ran ran
  have named := diagnostics_programOf_eq_nil_iff project.files sources response
  have noticed : ((∃ error, result = .error error) ∨
      ∃ program, result = .ok program ∧ program.diagnostics ≠ []) ↔
        Silent response ∨ NamesDiagnostic response := by
    change result = _ at same
    rw [same]
    rcases checkResponse_of_failed command failed with ⟨silent, refused⟩ | ⟨spoken, passed⟩
    · simp [refused, silent, Except.map]
    · simp [passed, spoken, Except.map, named]
  refine ⟨noticed, ?_⟩
  intro settings session time scene verdict after built heard bounded ended
  have found : session.program.diagnostics ≠ [] := by
    rcases noticed.2 heard with ⟨error, broken⟩ | ⟨program, made, found⟩
    · rw [built] at broken
      cases broken
    · rw [built] at made
      cases made
      exact found
  have some_ := List.length_pos_iff.2 found
  have counted := verdict_total reads bounded ended
  omega

def answeringHost (response : Response) : Host where
  disk := ⟨[(["a.ts"], .file [] 1)], [], 2⟩
  obstacle := fun _ => none
  respond := fun _ _ => response
  calls := []

def answeredCall : Call := ⟨[], "tsc", fixedArguments ++ ["a.ts"]⟩

theorem answering_built {response : Response} {output : String}
    (passed : checkResponse ["tsc"] response = .ok output) :
    build ["tsc"] ⟨["a.ts"], .emptyObject, ⟨"."⟩⟩ none (answeringHost response) =
      (.ok (programOf ["a.ts"] [("a.ts", ⟨"", some 1⟩)] output),
        { answeringHost response with calls := [answeredCall] }) := by
  have read : (answeringHost response).disk.readText (Path.join ⟨"."⟩ "a.ts") = .ok "" := by
    have found : (answeringHost response).disk.find (Path.join ⟨"."⟩ "a.ts") =
        .ok (.file [] 1) := rfl
    simp only [Disk.readText, found, Text.decode?, Text.decode]
    rfl
  have ran : runCompiler ["tsc"] ⟨["a.ts"], .emptyObject, ⟨"."⟩⟩ (answeringHost response) =
      (.ok output, { answeringHost response with calls := [answeredCall] }) := by
    rw [← passed]
    rfl
  exact build_of_runCompiler (loadSources_singleton read) (by decide) ran

def plainGate : Gate Host Program Unit where
  checker := checker ["tsc"]
  linter := ⟨fun _ _ => .done (), fun _ => [], fun _ _ _ _ => .done []⟩
  clock := ⟨fun host => (0, host), fun host => ("now", host)⟩
  parent := none
  color := false

def optionResponse : Response := ⟨Text.encode "error TS5023: n\n", [], some 1⟩

theorem option_output : optionResponse.output = "error TS5023: n\n" :=
  Text.decodeLossy_encode _

theorem option_run_noticed :
    let built := (build ["tsc"] ⟨["a.ts"], .emptyObject, ⟨"."⟩⟩ none
      (answeringHost optionResponse)).1
    optionResponse.succeeded = false ∧ ∃ program, built = .ok program ∧
      program.diagnostics ≠ [] := by
  intro built
  have passed : checkResponse ["tsc"] optionResponse = .ok optionResponse.output := by
    rw [checkResponse, option_output]
    rfl
  have made := answering_built passed
  have ran : (answeringHost optionResponse).Ran
      (build ["tsc"] ⟨["a.ts"], .emptyObject, ⟨"."⟩⟩ none (answeringHost optionResponse)).2
      answeredCall optionResponse := by
    rw [made]
    exact ⟨rfl, rfl⟩
  have names : NamesDiagnostic optionResponse := by
    refine ⟨"error TS5023: n".toList, ?_, opens_iff.2 ⟨⟨none, .error, 5023, "n"⟩, by decide⟩⟩
    rw [option_output]
    decide
  have noticed := (failed_run_noticed_iff ran rfl plainGate (checker_reads ["tsc"])).1
  refine ⟨rfl, ?_⟩
  rcases noticed.2 (.inr names) with ⟨error, broken⟩ | found
  · rw [made] at broken
    cases broken
  · exact found

def bannerResponse : Response :=
  ⟨Text.encode "Version 5.4.5\n", Text.encode "FATAL ERROR: heap out of memory\n", some 134⟩

def bannerSettings : Settings :=
  { Settings.default with project := .object [("files", .array [.text "a.ts"])] }

theorem banner_built :
    build ["tsc"] ⟨["a.ts"], .emptyObject, ⟨"."⟩⟩ none (answeringHost bannerResponse) =
      (.ok ⟨["a.ts"], [("a.ts", ⟨"", some 1⟩)], []⟩,
        { answeringHost bannerResponse with calls := [answeredCall] }) := by
  have output : bannerResponse.output = "Version 5.4.5\n" := Text.decodeLossy_encode _
  have passed : checkResponse ["tsc"] bannerResponse = .ok "Version 5.4.5\n" := by
    rw [checkResponse, output]
    rfl
  have noise : parseOutput "Version 5.4.5\n" = [] := by decide
  rw [answering_built passed, programOf, noise]
  rfl

theorem banner_configured :
    ∃ session after, Session.configure plainGate.checker plainGate.linter plainGate.clock
        bannerSettings none (answeringHost bannerResponse) = (.ok session, after) ∧
      session.program.diagnostics = [] ∧ session.lintResults = [] := by
  simp only [Session.configure, Action.bind_eq_ok, Action.mapError_eq_ok, Action.step_apply]
  exact ⟨_, _, ⟨_, _, rfl, _, _, rfl, _, _, banner_built, _, _, rfl, _, _, rfl, _, _, rfl, rfl⟩,
    rfl, rfl⟩

theorem banner_run_passes_unnoticed :
    let host := answeringHost bannerResponse
    (∃ program after, build ["tsc"] ⟨["a.ts"], .emptyObject, ⟨"."⟩⟩ none host =
        (.ok program, after) ∧ host.Ran after answeredCall bannerResponse ∧
        program.diagnostics = []) ∧
      bannerResponse.succeeded = false ∧
      ∃ after, plainGate.run bannerSettings (Scene.start host .accepting) =
        (.ok ⟨.keepAlive, 0⟩, after) := by
  intro host
  refine ⟨⟨_, _, banner_built, ⟨rfl, rfl⟩, rfl⟩, rfl, ?_⟩
  obtain ⟨session, after, configured, silent, clean⟩ := banner_configured
  have counted : session.totals plainGate.checker bannerSettings.lintUnit =
      fun world => (⟨0, 0, 0, 0, 0⟩, world) := by
    funext world
    simp only [Session.totals, plainGate, checker, Program.ofCategory, silent, clean]
    rfl
  have stamped : plainGate.run bannerSettings (Scene.start host .accepting) =
      plainGate.typecheck bannerSettings session "now" ⟨after, .accepting, [], none⟩ := by
    simp only [Gate.run, Gate.configure, Action.bind_apply, Scene.takePrevious, Scene.onWorld,
      Action.within, Scene.start, host, configured]
    rfl
  rw [stamped, Gate.typecheck_apply, counted]
  exact ⟨_, rfl⟩

end BuildGate.Compiler
