import BuildGate.Proofs.Compiler.Sources
import BuildGate.Proofs.Except
import BuildGate.Proofs.Host.Consult
import BuildGate.Proofs.Report.Order

set_option autoImplicit false

namespace BuildGate

def Diagnostic.keeping (files : List String) (diagnostic : Diagnostic) : Diagnostic :=
  { diagnostic with location := diagnostic.location.filter (·.file ∈ files) }

namespace Compiler

variable {disk : Disk} {base : Path} {files : List String}

theorem exists_loadSources {loaded : Sources} :
    (∃ sources, loadSources disk base [] loaded files = .ok sources) ↔
      ∀ file ∈ files, ∃ text, disk.readText (base.join file) = .ok text := by
  induction files generalizing loaded with
  | nil => simp [loadSources]
  | cons file files ih =>
    rw [List.forall_mem_cons]
    simp only [loadSources, List.lookup_nil, List.filter_nil, loadSource]
    cases disk.readText (base.join file) with
    | error cause => simp
    | ok text => simp [ih]

theorem loadSources_fresh_lookup {loaded sources : Sources}
    (ended : loadSources disk base [] loaded files = .ok sources) (file : String) :
    sources.lookup file =
      if file ∈ files then
        (disk.readText (base.join file)).toOption.map (⟨·, disk.modified? (base.join file)⟩)
      else loaded.lookup file := by
  induction files generalizing loaded with
  | nil =>
    cases ended
    simp
  | cons first files ih =>
    simp only [loadSources, List.lookup_nil, List.filter_nil] at ended
    split at ended
    next => cases ended
    next source read =>
      obtain ⟨text, modified⟩ := loadSource_fresh_eq_ok read
      rw [ih ended, lookup_put]
      by_cases same : file = first
      · subst same
        simp [text, ← modified, Except.toOption]
      · simp [same]

def checkArguments (project : Project) : List String :=
  fixedArguments ++ arguments project.options ++ project.files

def callOf (host : Host) (command : List String) (project : Project) : Call :=
  host.callOf command (checkArguments project) project.basePath

theorem runCompiler_iff {command : List String} {project : Project} {before after : Host}
    {output : String} (forgets : before.Forgets (callOf before command project)) :
    runCompiler command project before = (.ok output, after) ↔
      before.Consults command (checkArguments project) project.basePath (checkResponse command)
          output ∧
        after = before.logged [callOf before command project] := by
  cases command with
  | nil =>
    constructor
    · rintro ⟨⟩
    · rintro ⟨consults, -⟩
      exact absurd rfl consults.named
  | cons program own =>
    rw [callOf, ← Host.consult_eq_ok forgets, checkArguments, ← List.append_assoc,
      ← List.append_assoc]
    rfl

def Says (host : Host) (command : List String) (project : Project) (output : String) : Prop :=
  (project.files = [] ∧ output = "") ∨
    (project.files ≠ [] ∧ host.Consults command (checkArguments project) project.basePath
      (checkResponse command) output)

def calls (host : Host) (command : List String) (project : Project) : List Call :=
  if project.files = [] then [] else [callOf host command project]

theorem build_fresh_iff {command : List String} {project : Project} {before after : Host}
    {program : Program} (forgets : before.Forgets (callOf before command project)) :
    build command project none before = (.ok program, after) ↔
      ∃ sources output,
        loadSources before.disk project.basePath [] [] project.files = .ok sources ∧
          Says before command project output ∧
          program = programOf project.files sources output ∧
          after = before.logged (calls before command project) := by
  rw [build_apply, show sourcesOf none = [] from rfl]
  cases loaded : loadSources before.disk project.basePath [] [] project.files with
  | error error => simp
  | ok sources =>
    simp only [Except.ok.injEq, exists_and_left, exists_eq_left']
    by_cases empty : project.files = []
    · simp only [Says, calls, empty, if_true, Host.logged_nil]
      constructor
      · rintro ⟨⟩
        exact ⟨"", .inl ⟨trivial, rfl⟩, rfl, rfl⟩
      · rintro ⟨output, ⟨-, rfl⟩ | ⟨absurd_, -⟩, rfl, rfl⟩
        · rfl
        · exact absurd rfl absurd_
    · simp only [Says, calls, empty, if_false, false_and, false_or, ne_eq, not_false_eq_true,
        true_and]
      constructor
      · intro built
        obtain ⟨output, between, ran, done⟩ := Action.bind_eq_ok.1 built
        obtain ⟨consults, rfl⟩ := (runCompiler_iff forgets).1 ran
        obtain ⟨made, rfl⟩ := Prod.mk.inj done
        exact ⟨output, consults, (Except.ok.inj made).symm, rfl⟩
      · rintro ⟨output, consults, rfl, rfl⟩
        exact Action.bind_eq_ok.2
          ⟨output, _, (runCompiler_iff forgets).2 ⟨consults, rfl⟩, rfl⟩

def located (disk : Disk) (base : Path) (printed : Printed) : Option Location :=
  printed.position.bind fun position =>
    (disk.readText (base.join position.file)).toOption.bind fun text =>
      let map := LineMap.ofString text
      (map.offset? (position.line - 1) (position.column - 1)).map fun offset =>
        ⟨position.file, (map.lineAndCharacter offset).1, (map.lineAndCharacter offset).2⟩

def diagnosed (disk : Disk) (base : Path) (printed : Printed) : Diagnostic :=
  ⟨printed.category, located disk base printed, printed.code, printed.level, printed.message⟩

theorem diagnosticOf_fresh {sources : Sources}
    (loaded : loadSources disk base [] [] files = .ok sources) (output : String)
    (printed : Printed) :
    Session.diagnosticOf (programOf files sources output).text? printed.category
        (noticeOf sources printed) =
      (diagnosed disk base printed).keeping files := by
  obtain ⟨position, level, code, message⟩ := printed
  cases position with
  | none => rfl
  | some position =>
    have held := loadSources_fresh_lookup loaded position.file
    by_cases listed : position.file ∈ files
    · simp only [Session.diagnosticOf, Session.locate?, noticeOf, programOf, Program.text?,
        offsetOf?, diagnosed, located, Diagnostic.keeping, Option.map_some, Option.bind_some, held,
        listed, if_true]
      cases read : disk.readText (base.join position.file) with
      | error cause => simp [Except.toOption]
      | ok text =>
        simp only [Except.toOption, Option.map_some, Option.bind_some]
        cases (LineMap.ofString text).offset? (position.line - 1) (position.column - 1) with
        | none => simp
        | some offset => simp [held, listed, read, Except.toOption, Option.filter_some]
    · simp only [Session.diagnosticOf, Session.locate?, noticeOf, offsetOf?, diagnosed,
        located, Diagnostic.keeping, Option.map_some, Option.bind_some, held, listed, if_false,
        List.lookup_nil, Option.bind_none]
      cases disk.readText (base.join position.file) with
      | error cause => simp [Except.toOption]
      | ok text =>
        simp only [Except.toOption, Option.bind_some]
        cases (LineMap.ofString text).offset? (position.line - 1) (position.column - 1) with
        | none => simp
        | some offset => simp [Option.filter_some, listed]

def findings (disk : Disk) (base : Path) (output : String) : List Diagnostic :=
  Category.all.flatMap fun category =>
    ((parseOutput output).filter (·.Lands category)).map (diagnosed disk base)

theorem collect_fresh {sources : Sources}
    (loaded : loadSources disk base [] [] files = .ok sources) (command : List String)
    (output : String) (host : Host) :
    (Session.collect (checker command) (programOf files sources output) Category.all host).1 =
      (findings disk base output).map (·.keeping files) := by
  simp only [collect_programOf, diagnosticOf_fresh loaded, findings, List.map_flatMap, List.map_map]
  rfl

end Compiler

end BuildGate
