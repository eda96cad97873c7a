import BuildGate.Proofs.Project.Spelling
import BuildGate.Proofs.Session.Fresh

set_option autoImplicit false

namespace BuildGate

open Compiler (Program)

namespace Session

/-- A compiler and a linter whose answers depend neither on what was started before nor on how files
are spelled. -/
structure Answers (compiler linter : List String) (settings : Settings) (options : Json)
    (host : Host) : Prop where
  compiler : ∀ files others, Path.Alike files others → ∀ log,
    host.respond log (Compiler.callOf host compiler ⟨others, options, settings.basePath⟩) =
      host.respond [] (Compiler.callOf host compiler ⟨files, options, settings.basePath⟩)
  linter : ∀ file other, Path.Respelled file other → ∀ log,
    host.respond log
        (Lint.callOf host linter (Lint.rules settings) settings.lintOptions other) =
      host.respond []
        (Lint.callOf host linter (Lint.rules settings) settings.lintOptions file)

variable {compiler linter : List String} {settings : Settings} {options : Json}
  {host after : Host} {clock : Clock Host} {files others : List String} {output : String}
  {session : Session Program} {object : Json}

theorem Answers.forgetful (answers : Answers compiler linter settings options host) :
    Forgetful compiler linter settings options host where
  compiler files := answers.compiler files files (.refl files)
  linter file := answers.linter file file rfl

-- Each name of the other list spells a file of the first, so what holds of all files of the first
-- holds of it.
theorem Ready.respelled (ready : Ready compiler linter settings options host files output)
    (answers : Answers compiler linter settings options host)
    (alike : Path.Alike files others) :
    Ready compiler linter settings options host others output := by
  refine ⟨?_, ?_, ?_⟩
  · intro name listed
    obtain ⟨file, member, respelled⟩ := alike.symm.exists_respelled listed
    rw [Disk.readText_respelled respelled]
    exact ready.readable file member
  · rcases ready.said with ⟨empty, silent⟩ | ⟨present, consults⟩
    · exact .inl ⟨alike.eq_nil_iff.1 empty, silent⟩
    · refine .inr ⟨mt alike.eq_nil_iff.2 present, consults.transport ?_ ?_⟩
      · simp only [Compiler.checkArguments, List.any_append, alike.any_holdsNul_eq]
      · have asked := answers.compiler files others alike []
        rw [Compiler.callOf] at asked
        rw [asked]
        exact consults.checked
  · intro rules
    obtain ⟨configured, reported⟩ := ready.lintable rules
    refine ⟨configured, fun name listed => ?_⟩
    obtain ⟨file, member, respelled⟩ := alike.symm.exists_respelled listed
    obtain ⟨failures, reports⟩ := reported file member
    exact ⟨_, reports.respelled respelled.symm (answers.linter file name respelled.symm [])⟩

structure LintedEach (compiler : List String) (settings : Settings) (options : Json) (host : Host)
    (failures : String → List Failure) (started : String → Call) (session : Session Program)
    (after : Host) : Prop where
  results : session.lintResults =
    Lint.resultsOf (Lint.linted settings session.program.files) failures
  calls : after = host.logged
    (Compiler.calls host compiler ⟨session.program.files, options, settings.basePath⟩ ++
      (Lint.linted settings session.program.files).map started)

/-- Sessions over project objects that spell files in different ways succeed together and have the
same diagnostics, each located exactly where the name that was printed is listed. Each name that is
listed is linted once, and each spelling of a file fails in the same ways. So the counts of failures
agree where no file is listed in two spellings. -/
theorem respelled_sessions_agree (idle : ∀ world, (clock.nanoseconds world).2 = world)
    {members others : List (String × Json)} (respelled : Project.Respelled members others)
    (answers : Answers compiler linter settings (Project.optionsOf members) host)
    (configured : configure (Compiler.checker compiler) (Lint.tool linter Program.files) clock
      { settings with project := .object members } none host = (.ok session, after)) :
    ∃ other later,
      configure (Compiler.checker compiler) (Lint.tool linter Program.files) clock
        { settings with project := .object others } none host = (.ok other, later) ∧
      Path.Alike session.program.files other.program.files ∧
      (∃ output,
        session.diagnostics = (Compiler.findings host.disk settings.basePath output).map
          (·.keeping session.program.files) ∧
        other.diagnostics = (Compiler.findings host.disk settings.basePath output).map
          (·.keeping other.program.files)) ∧
      (∃ failures started,
        (∀ file name, Path.Respelled file name →
          failures name = (failures file).map (·.renamed name)) ∧
        (∀ file, (started file).arguments.getLast? = some file) ∧
        LintedEach compiler settings (Project.optionsOf members) host failures started session
          after ∧
        LintedEach compiler settings (Project.optionsOf members) host failures started other
          later) ∧
      (Path.Once session.program.files → Path.Once other.program.files → ∀ unit,
        lintCount unit session.lintResults = lintCount unit other.lintResults) := by
  obtain ⟨project, between, -, -, resolving, -⟩ := configure_iff.1 configured
  rw [idle] at resolving
  have resolved := (Prod.mk.inj resolving).1
  obtain ⟨files, rfl⟩ : ∃ files, project = ⟨files, Project.optionsOf members, settings.basePath⟩ :=
    ⟨project.files, Project.resolve_form resolved⟩
  obtain ⟨named, reresolved, alike⟩ := respelled.resolve_eq resolved
  obtain ⟨output, ready, holds⟩ := ready_of_configure idle answers.forgetful resolved configured
  obtain ⟨other, later, reconfigured, again⟩ :=
    configure_of_ready idle answers.forgetful reresolved (ready.respelled answers alike)
  let failures := Lint.found host linter (Lint.rules settings) settings.lintOptions
  let started := Lint.callOf host linter (Lint.rules settings) settings.lintOptions
  have renamed (file name : String) (same : Path.Respelled file name) :
      failures name = (failures file).map (·.renamed name) :=
    Lint.found_respelled (answers.linter file name same [])
  refine ⟨other, later, reconfigured, ?_, ⟨output, ?_, ?_⟩, ⟨failures, started, renamed,
    Lint.callOf_getLast?, ⟨?_, ?_⟩, ⟨?_, ?_⟩⟩, ?_⟩
  · rw [holds.listed, again.listed]
    exact alike
  · rw [holds.listed, holds.diagnostics]
  · rw [again.listed, again.diagnostics]
  · rw [holds.listed, holds.results]
  · rw [holds.listed, holds.started]
  · rw [again.listed, again.results]
  · rw [again.listed, again.started]
  · rw [holds.listed, again.listed, holds.results, again.results]
    intro once reonce unit
    rw [Lint.lintCount_resultsOf, Lint.lintCount_resultsOf]
    cases rules : settings.lintFile.isSome with
    | false => simp [Lint.linted, rules]
    | true =>
      simp only [Lint.linted, rules, if_true]
      refine alike.sum_eq (fun file name same => ?_) once reonce
      exact ((Lint.weight_renamed unit _ name).symm.trans
        (congrArg (Lint.weight unit) (renamed file name same).symm))

def spelledText : String := "a.ts(1,1): error TS2322: m\n"

def spelledRules : String :=
  "[\x7b\"ruleName\":\"r\",\"failure\":\"m\",\"ruleSeverity\":\"error\"," ++
    "\"startPosition\":\x7b\"line\":0,\"character\":0\x7d\x7d]"

def spelledHost : Host where
  disk := {
    entries := [(["a.ts"], .file (Text.encode "x") 1),
      (["tslint.json"], .file (Text.encode "\x7b\x7d") 1)]
    current := []
    clock := 2 }
  obstacle := fun _ => none
  respond := fun _ call =>
    ⟨Text.encode (if call.program = "tsc" then spelledText else spelledRules), [], some 2⟩
  calls := []

def spelledMembers (names : List String) : List (String × Json) := [("files", .ofTexts names)]

def spelledSettings : Settings := { Settings.default with lintFile := some "tslint.json" }

def spelledFailure (file : String) : Failure := ⟨file, 0, 0, "r", .error, "m"⟩

theorem spelled_answers :
    Answers ["tsc"] ["tslint"] spelledSettings .emptyObject spelledHost :=
  ⟨fun _ _ _ _ => rfl, fun _ _ _ _ => rfl⟩

theorem spelled_read : spelledHost.disk.readText (spelledSettings.basePath.join "a.ts") = .ok "x" := by
  have found : spelledHost.disk.find (spelledSettings.basePath.join "a.ts") =
      .ok (.file (Text.encode "x") 1) := rfl
  have decoded : Text.decode? (Text.encode "x") = some "x" := Text.decode?_encode _
  simp only [Disk.readText, found, decoded]

theorem spelled_reports : Lint.Reports spelledHost ["tslint"] (Lint.rules spelledSettings)
    spelledSettings.lintOptions "a.ts" [spelledFailure "a.ts"] := by
  refine ⟨by decide, rfl, ?_⟩
  have output : (Response.output ⟨Text.encode spelledRules, [], some 2⟩) = spelledRules :=
    Text.decodeLossy_encode _
  have parsed : Lint.parseFailures "a.ts" spelledRules = some [spelledFailure "a.ts"] := by
    decide +kernel
  change Lint.readResponse ["tslint"] "a.ts" ⟨Text.encode spelledRules, [], some 2⟩ = _
  simp only [Lint.readResponse, output, parsed]
  rfl

theorem spelled_ready :
    Ready ["tsc"] ["tslint"] spelledSettings .emptyObject spelledHost ["a.ts"] spelledText := by
  refine ⟨?_, .inr ⟨by decide, by decide, rfl, ?_⟩, fun _ => ⟨?_, ?_⟩⟩
  · intro file listed
    rw [List.mem_singleton.1 listed]
    exact ⟨"x", spelled_read⟩
  · have output : (Response.output ⟨Text.encode spelledText, [], some 2⟩) = spelledText :=
      Text.decodeLossy_encode _
    change Compiler.checkResponse ["tsc"] ⟨Text.encode spelledText, [], some 2⟩ = _
    rw [Compiler.checkResponse, output]
    rfl
  · have found : spelledHost.disk.find (Lint.rules spelledSettings).path =
        .ok (.file (Text.encode "\x7b\x7d") 1) := rfl
    have decoded : Text.decode? (Text.encode "\x7b\x7d") = some "\x7b\x7d" :=
      Text.decode?_encode _
    have json : Lint.isYaml (Lint.rules spelledSettings).path = false := by decide
    have parsed : Json.parse "\x7b\x7d" = some (.object []) := rfl
    refine ⟨Lint.rules spelledSettings, ?_⟩
    simp only [Lint.findConfiguration, Disk.isFile, Disk.readText, found, decoded, json,
      Lint.isMapping?, parsed]
    rfl
  · intro file listed
    rw [List.mem_singleton.1 listed]
    exact ⟨_, spelled_reports⟩

theorem spelled_findings :
    Compiler.findings spelledHost.disk spelledSettings.basePath spelledText =
      [⟨.semantic, some ⟨"a.ts", 0, 0⟩, 2322, .error, .plain "m"⟩] := by
  have grouped : Compiler.group ((Text.lines spelledText.toList).map Compiler.Line.read) =
      [(⟨some ⟨"a.ts", 1, 1⟩, .error, 2322, "m"⟩, [])] := by decide +kernel
  have parsed : Compiler.parseOutput spelledText =
      [⟨some ⟨"a.ts", 1, 1⟩, .error, 2322, .plain "m"⟩] := by
    simp [Compiler.parseOutput, grouped, Compiler.Printed.make, Compiler.nest, Compiler.nestAll]
  have located : Compiler.located spelledHost.disk spelledSettings.basePath
      ⟨some ⟨"a.ts", 1, 1⟩, .error, 2322, .plain "m"⟩ = some ⟨"a.ts", 0, 0⟩ := by
    simp only [Compiler.located, Option.bind_some, spelled_read]
    decide
  rw [Compiler.findings, parsed]
  simp [Category.all, Compiler.Printed.Lands, Compiler.diagnosed, located,
    Compiler.Printed.category, Compiler.categoryOf]

def spelledRun (names : List String) : Except GateError (Session Program) × Host :=
  configure (Compiler.checker ["tsc"]) (Lint.tool ["tslint"] Program.files) Compiler.stoppedClock
    { spelledSettings with project := .object (spelledMembers names) } none spelledHost

theorem spelled_session {names : List String} (alike : Path.Alike ["a.ts"] names)
    (resolved : Project.resolve spelledHost.disk (.object (spelledMembers names))
      spelledSettings.basePath = .ok ⟨names, .emptyObject, spelledSettings.basePath⟩) :
    ∃ session after, spelledRun names = (.ok session, after) ∧ session.program.files = names ∧
      session.diagnostics.map (·.location) =
        [if "a.ts" ∈ names then some ⟨"a.ts", 0, 0⟩ else none] ∧
      lintCount .files session.lintResults = names.length := by
  have idle (world : Host) : (Compiler.stoppedClock.nanoseconds world).2 = world := rfl
  obtain ⟨session, after, configured, holds⟩ := configure_of_ready idle
    spelled_answers.forgetful resolved (spelled_ready.respelled spelled_answers alike)
  refine ⟨session, after, configured, holds.listed, ?_, ?_⟩
  · rw [holds.diagnostics, spelled_findings]
    simp [Diagnostic.keeping, Option.filter_some]
  · have failing (name : String) (listed : name ∈ names) :
        Lint.weight .files (Lint.found spelledHost ["tslint"] (Lint.rules spelledSettings)
          spelledSettings.lintOptions name) = 1 := by
      obtain ⟨file, member, same⟩ := alike.symm.exists_respelled listed
      rw [List.mem_singleton.1 member] at same
      rw [Lint.found_respelled (spelled_answers.linter "a.ts" name same.symm []),
        spelled_reports.found_eq]
      rfl
    rw [holds.results, Lint.lintCount_resultsOf]
    change (names.map _).sum = _
    rw [List.map_congr_left failing]
    simp

theorem dotted_respelled : Path.Respelled "./a.ts" "a.ts" := by
  change Path.Respelled ("./" ++ "a.ts") "a.ts"
  exact Path.respelled_lead (by decide) (by decide)

theorem alike_dotted : Path.Alike ["a.ts"] ["./a.ts"] := by
  have same : Path.spelling "./a.ts" = Path.spelling "a.ts" := dotted_respelled
  simp [Path.Alike, same]

theorem dotted_file_agrees :
    ∃ session other after later, spelledRun ["a.ts"] = (.ok session, after) ∧
      spelledRun ["./a.ts"] = (.ok other, later) ∧
      lintCount .files session.lintResults = lintCount .files other.lintResults := by
  obtain ⟨session, after, configured, listed, -, -⟩ := spelled_session (.refl ["a.ts"]) rfl
  obtain ⟨again, last, reconfigured, relisted, -, -⟩ := spelled_session alike_dotted rfl
  have respelled : Project.Respelled (spelledMembers ["a.ts"]) (spelledMembers ["./a.ts"]) := by
    refine ⟨⟨["a.ts"], ["./a.ts"], rfl, rfl, alike_dotted⟩, fun key other => ?_⟩
    simp [spelledMembers, List.lookup_cons, beq_false_of_ne other]
  obtain ⟨other, later, built, -, -, -, counts⟩ :=
    respelled_sessions_agree (fun _ => rfl) respelled spelled_answers configured
  obtain ⟨same, -⟩ := Prod.mk.inj (reconfigured.symm.trans built)
  obtain rfl := Except.ok.inj same
  refine ⟨session, again, after, later, configured, built, counts ?_ ?_ .files⟩
  · rw [listed]
    simp [Path.Once]
  · rw [relisted]
    simp [Path.Once]

theorem dotted_file_loses_location :
    ∃ plain dotted both after later last, spelledRun ["a.ts"] = (.ok plain, after) ∧
      spelledRun ["./a.ts"] = (.ok dotted, later) ∧
      spelledRun ["./a.ts", "a.ts"] = (.ok both, last) ∧
      plain.diagnostics.map (·.location) = [some ⟨"a.ts", 0, 0⟩] ∧
      dotted.diagnostics.map (·.location) = [none] ∧
      lintCount .files plain.lintResults = 1 ∧ lintCount .files both.lintResults = 2 := by
  have twice : Path.Alike ["a.ts"] ["./a.ts", "a.ts"] := by
    have same : Path.spelling "./a.ts" = Path.spelling "a.ts" := dotted_respelled
    simp [Path.Alike, same]
  obtain ⟨plain, after, configured, -, located, one⟩ := spelled_session (.refl ["a.ts"]) rfl
  obtain ⟨dotted, later, dotted_, -, lost, -⟩ := spelled_session alike_dotted rfl
  obtain ⟨both, last, both_, -, -, two⟩ := spelled_session twice rfl
  exact ⟨plain, dotted, both, after, later, last, configured, dotted_, both_, by simpa using located,
    by simpa using lost, one, two⟩

end Session

end BuildGate
