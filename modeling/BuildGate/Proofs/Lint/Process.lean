import BuildGate.Compiler.Program
import BuildGate.Lint.Tool
import BuildGate.Proofs.Disk
import BuildGate.Proofs.Host
import BuildGate.Proofs.Text.Utf8
import BuildGate.Session

set_option autoImplicit false

namespace BuildGate.Lint

variable {π : Type}

theorem findConfiguration_eq_ok {disk : Disk} {path base : Path} {configuration : Configuration}
    (found : findConfiguration disk path base = .ok configuration) :
    configuration = ⟨path, base⟩ ∧ disk.isFile path = true := by
  unfold findConfiguration at found
  split at found
  next file =>
    split at found
    next => cases found
    next =>
      split at found
      next =>
        cases found
        exact ⟨rfl, file⟩
      next => cases found
      next => cases found
  next => cases found

structure Lints (command : List String) (configuration : Configuration) (options : LintOptions)
    (disk : Disk) (call : Call) : Prop where
  directory : disk.directoryAt configuration.basePath = .ok call.directory
  told : ∃ own file, command = call.program :: own ∧
    call.arguments = own ++ arguments configuration options file

theorem lintFile_starts (command : List String) (file : String) (configuration : Configuration)
    (options : LintOptions) :
    (lintFile command file configuration options).Leads
      (Host.Started (Lints command configuration options)) := by
  cases command with
  | nil => exact .fail _
  | cons program own =>
    refine .bind (.mapError _ ?_) fun response => .ofExcept _
    exact Host.start_starts fun disk place there => ⟨there, own, file, rfl, rfl⟩

theorem lintFiles_starts (command : List String) (files : π → List String)
    (text? : String → Option String) (configuration : Configuration) (options : LintOptions)
    (names : List String) :
    (Session.lintFiles (tool command files) text? configuration options names).Leads
      (Host.Started (Lints command configuration options)) := by
  induction names with
  | nil => exact .pure _
  | cons name names ih =>
    unfold Session.lintFiles
    split
    next => exact .fail _
    next =>
      refine .bind (.mapError _ (lintFile_starts command name configuration options)) ?_
      exact fun failures => .bind ih fun rest => .pure _

/-- How a process that starts in the base path reads the path at which a rule configuration was
checked. -/
structure Reading (disk : Disk) (base : Path) (lintFile : String) (directory checked : Place) :
    Prop where
  checks : disk.resolve (base.join lintFile) = .ok checked
  named : (disk.standingAt directory).resolve ⟨lintFile⟩ = .ok checked
  doubled : (disk.standingAt directory).resolve (base.join lintFile) =
    disk.resolve (base.join (base.join lintFile).text)
  alike : (base.join lintFile).isAbsolute = true ∨ directory = disk.current →
    (disk.standingAt directory).resolve (base.join lintFile) = .ok checked
  unlike : ".." ∉ (base.join lintFile).pieces → (base.join lintFile).isAbsolute = false →
    directory ≠ disk.current →
    (disk.standingAt directory).resolve (base.join lintFile) ≠ .ok checked

theorem exists_reading {disk : Disk} {base : Path} {lintFile : String} {directory : Place}
    (there : disk.directoryAt base = .ok directory)
    (file : disk.isFile (base.join lintFile) = true) :
    ∃ checked, Reading disk base lintFile directory checked := by
  obtain ⟨checked, -, -, resolved, -⟩ := Disk.isFile_iff.1 file
  have below := Disk.resolve_join there (Disk.name_ne_empty there file)
  have some_ := (Disk.resolve_eq_ok.1 resolved).1
  refine ⟨checked, resolved, below.symm.trans resolved, (Disk.resolve_join there some_).symm, ?_, ?_⟩
  · intro alike
    rw [Disk.resolve_standingAt alike, resolved]
  · intro level relative elsewhere again
    exact elsewhere (Disk.eq_current_of_resolve level relative resolved again)

/-- Every process that lints starts in the base path and is told of the checked rule configuration
by its path from elsewhere. From the base path that leads to the checked file if it is absolute or
the check was made there, and otherwise, unless it steps up, it does not. -/
theorem lint_reads_configuration {checker : Checker Host π} {command : List String}
    {files : π → List String} {settings : Settings} {program : π} {before after : Host}
    {result : Except GateError (List FileFailures)}
    (linted : Session.lint checker (tool command files) settings program before = (result, after)) :
    before.Started (fun disk call => ∃ lintFile checked, settings.lintFile = some lintFile ∧
      disk.isFile (settings.basePath.join lintFile) = true ∧
      Lints command ⟨settings.basePath.join lintFile, settings.basePath⟩ settings.lintOptions disk
        call ∧
      Reading disk settings.basePath lintFile call.directory checked) after := by
  have ended : (Session.lint checker (tool command files) settings program before).2 = after := by
    rw [linted]
  rw [← ended]
  unfold Session.lint
  cases named : settings.lintFile with
  | none => exact refl_of _ before
  | some lintFile =>
    let path := settings.basePath.join lintFile
    cases found : findConfiguration before.disk path settings.basePath with
    | error error =>
      simp only [Action.bind_apply, Action.mapError, tool, path] at found ⊢
      rw [found]
      exact refl_of _ before
    | ok configuration =>
      obtain ⟨rfl, file⟩ := findConfiguration_eq_ok found
      obtain ⟨calls, started, each⟩ := lintFiles_starts command files (checker.text? program)
        ⟨path, settings.basePath⟩ settings.lintOptions (files program) before
      simp only [Action.bind_apply, Action.mapError, tool, path] at found ⊢
      rw [found]
      refine ⟨calls, started, ?_⟩
      intro call one
      have lints := each call one
      obtain ⟨checked, reading⟩ := exists_reading lints.directory file
      exact ⟨lintFile, checked, rfl, file, lints, reading⟩

def lintedHost : Host where
  disk := {
    entries := [(["proj"], .directory 0), (["proj", "a.ts"], .file (Text.encode "x") 1),
      (["proj", "tslint.json"], .file (Text.encode "\x7b\x7d") 1)]
    current := []
    clock := 2 }
  obstacle := fun _ => none
  respond := fun _ _ => .silent
  calls := []

def lintedProgram : Compiler.Program := ⟨["a.ts"], [("a.ts", ⟨"x", none⟩)], []⟩

def lintedSettings (base : String) : Settings :=
  { Settings.default with basePath := ⟨base⟩, lintFile := some "tslint.json" }

def lintCall (configuration : String) : Call :=
  ⟨["proj"], "tslint", ["-c", configuration, "-t", "json", "a.ts"]⟩

theorem lintedHost_lints {base path : String}
    (joined : (⟨base⟩ : Path).join "tslint.json" = ⟨path⟩) (json : isYaml ⟨path⟩ = false)
    (found : lintedHost.disk.find ⟨path⟩ = .ok (.file (Text.encode "\x7b\x7d") 1))
    (placed : lintedHost.place "tslint" ["-c", path, "-t", "json", "a.ts"] ⟨base⟩ =
      .ok ["proj"]) :
    Session.lint (Compiler.checker ["tsc"]) (tool ["tslint"] Compiler.Program.files)
        (lintedSettings base) lintedProgram lintedHost =
      (.ok [], { lintedHost with calls := [lintCall path] }) := by
  have decoded : Text.decode? (Text.encode "\x7b\x7d") = some "\x7b\x7d" :=
    Text.decode?_encode _
  have parsed : Json.parse "\x7b\x7d" = some (.object []) := rfl
  have clean : parseFailures "a.ts" Response.silent.output = some [] := by
    have output : Response.silent.output = "" := Text.decodeLossy_encode ""
    rw [output]
    rfl
  have checked : findConfiguration lintedHost.disk ⟨path⟩ ⟨base⟩ = .ok ⟨⟨path⟩, ⟨base⟩⟩ := by
    simp only [findConfiguration, Disk.isFile, Disk.readText, found, decoded, json, isMapping?,
      parsed]
    rfl
  have linted : lintFile ["tslint"] "a.ts" ⟨⟨path⟩, ⟨base⟩⟩ Settings.default.lintOptions
      lintedHost = (.ok [], { lintedHost with calls := [lintCall path] }) := by
    have process : Host.start "tslint" ["-c", path, "-t", "json", "a.ts"] ⟨base⟩ lintedHost =
        (.ok .silent, { lintedHost with calls := [lintCall path] }) := by
      simp only [Host.start, placed]
      rfl
    have arguments : ([] : List String) ++ arguments ⟨⟨path⟩, ⟨base⟩⟩ Settings.default.lintOptions
        "a.ts" = ["-c", path, "-t", "json", "a.ts"] := rfl
    simp only [lintFile, arguments, Action.bind_apply, Action.mapError, process, readResponse,
      clean]
    rfl
  simp only [Session.lint, lintedSettings, joined, tool, Action.bind_apply, Action.mapError, checked]
  have text : (Compiler.checker ["tsc"]).text? lintedProgram "a.ts" = some "x" := rfl
  simp only [lintedProgram, Session.lintFiles] at text ⊢
  simp only [text, Action.bind_apply, Action.mapError, linted]
  rfl

theorem absolute_base_linted :
    let disk := lintedHost.disk
    Session.lint (Compiler.checker ["tsc"]) (tool ["tslint"] Compiler.Program.files)
        (lintedSettings "/proj") lintedProgram lintedHost =
      (.ok [], { lintedHost with calls := [lintCall "/proj/tslint.json"] }) ∧
      ∃ checked, disk.resolve ⟨"/proj/tslint.json"⟩ = .ok checked ∧
        (disk.standingAt ["proj"]).resolve ⟨"/proj/tslint.json"⟩ = .ok checked := by
  intro disk
  have joined : (⟨"/proj"⟩ : Path).join "tslint.json" = ⟨"/proj/tslint.json"⟩ := by decide
  have linted := lintedHost_lints joined (by decide) rfl rfl
  obtain ⟨calls, started, each⟩ := lint_reads_configuration linted
  obtain rfl : calls = [lintCall "/proj/tslint.json"] := by
    simpa [lintedHost] using congrArg Host.calls started
  obtain ⟨lintFile, checked, named, -, -, reading⟩ := each _ List.mem_cons_self
  cases named
  exact ⟨linted, checked, reading.checks, reading.alike (.inl (by decide))⟩

theorem relative_base_missed :
    let disk := lintedHost.disk
    Session.lint (Compiler.checker ["tsc"]) (tool ["tslint"] Compiler.Program.files)
        (lintedSettings "proj") lintedProgram lintedHost =
      (.ok [], { lintedHost with calls := [lintCall "proj/tslint.json"] }) ∧
      disk.resolve ⟨"proj/tslint.json"⟩ = .ok ["proj", "tslint.json"] ∧
      (disk.standingAt ["proj"]).resolve ⟨"proj/tslint.json"⟩ = .error .missing :=
  ⟨lintedHost_lints (by decide) (by decide) rfl rfl, rfl, rfl⟩

end BuildGate.Lint
