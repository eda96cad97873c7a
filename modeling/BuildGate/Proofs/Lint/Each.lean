import BuildGate.Lint.Tool
import BuildGate.Proofs.Disk.Spelling
import BuildGate.Proofs.Host.Consult
import BuildGate.Proofs.Lint.Process

set_option autoImplicit false

namespace BuildGate

def Failure.renamed (file : String) (failure : Failure) : Failure := { failure with file }

namespace Lint

variable {π : Type}

theorem failureOf?_renamed (file other : String) (message rule severity position : Json.Form) :
    failureOf? other message rule severity position =
      (failureOf? file message rule severity position).map (·.renamed other) := by
  simp only [failureOf?]
  cases text? message <;> cases text? rule <;> cases text? severity <;> cases position? position <;>
    rfl

theorem failure?_renamed (file other : String) (form : Json.Form) :
    failure? other form = (failure? file form).map (·.renamed other) := by
  unfold failure?
  split
  next members =>
    cases keysAreText members with
    | false => rfl
    | true =>
      cases required? "failure" members <;> cases required? "ruleName" members <;>
        cases single? "ruleSeverity" members <;> cases required? "startPosition" members <;>
        first
          | rfl
          | exact failureOf?_renamed file other _ _ _ _
  next => exact failureOf?_renamed file other _ _ _ _
  next => rfl

theorem parseFailures_renamed (file other output : String) :
    parseFailures other output =
      (parseFailures file output).map (·.map (·.renamed other)) := by
  have each (items : List Json.Form) : items.mapM (failure? other) =
      (items.mapM (failure? file)).map (·.map (·.renamed other)) := by
    induction items with
    | nil => rfl
    | cons item items ih =>
      rw [List.mapM_cons, List.mapM_cons, ih, failure?_renamed file other]
      cases failure? file item <;> cases items.mapM (failure? file) <;> rfl
  unfold parseFailures
  split
  · rfl
  · split
    · exact each _
    · rfl

theorem readResponse_renamed {command : List String} {file : String} {response : Response}
    {failures : List Failure} (read : readResponse command file response = .ok failures)
    (other : String) :
    readResponse command other response = .ok (failures.map (·.renamed other)) := by
  unfold readResponse at read ⊢
  split
  next refused =>
    rw [if_pos refused] at read
    cases read
  next passed =>
    rw [if_neg passed] at read
    rw [parseFailures_renamed file other]
    cases parsed : parseFailures file response.output with
    | none =>
      rw [parsed] at read
      cases read
    | some found =>
      rw [parsed] at read
      cases read
      rfl

def callOf (host : Host) (command : List String) (configuration : Configuration)
    (options : LintOptions) (file : String) : Call :=
  host.callOf command (arguments configuration options file) configuration.basePath

def Reports (host : Host) (command : List String) (configuration : Configuration)
    (options : LintOptions) (file : String) (failures : List Failure) : Prop :=
  host.Consults command (arguments configuration options file) configuration.basePath
    (readResponse command file) failures

def found (host : Host) (command : List String) (configuration : Configuration)
    (options : LintOptions) (file : String) : List Failure :=
  (readResponse command file
    (host.respond [] (callOf host command configuration options file))).toOption.getD []

def resultsOf (names : List String) (failures : String → List Failure) : List FileFailures :=
  (names.map fun file => ⟨file, failures file⟩).filter (!·.failures.isEmpty)

theorem resultsOf_cons (file : String) (names : List String) (failures : String → List Failure) :
    resultsOf (file :: names) failures =
      if (failures file).isEmpty then resultsOf names failures
      else ⟨file, failures file⟩ :: resultsOf names failures := by
  simp only [resultsOf, List.map_cons, List.filter_cons]
  cases (failures file).isEmpty <;> rfl

variable {command : List String} {configuration : Configuration} {options : LintOptions}
  {host before after : Host}

theorem callOf_getLast? (file : String) :
    (callOf host command configuration options file).arguments.getLast? = some file := by
  simp only [callOf, Host.callOf, arguments, ← List.append_assoc, List.getLast?_concat]

theorem lintFile_iff {file : String} {failures : List Failure}
    (forgets : before.Forgets (callOf before command configuration options file)) :
    lintFile command file configuration options before = (.ok failures, after) ↔
      Reports before command configuration options file failures ∧
        after = before.logged [callOf before command configuration options file] := by
  cases command with
  | nil =>
    constructor
    · rintro ⟨⟩
    · rintro ⟨reports, -⟩
      exact absurd rfl reports.named
  | cons program own => exact Host.consult_eq_ok forgets

theorem Reports.found_eq {file : String} {failures : List Failure}
    (reports : Reports host command configuration options file failures) :
    found host command configuration options file = failures := by
  rw [found, callOf, reports.checked]
  rfl

theorem reports_logged {calls : List Call} {file : String} {failures : List Failure} :
    Reports (host.logged calls) command configuration options file failures ↔
      Reports host command configuration options file failures :=
  Host.consults_logged

theorem Reports.respelled {file other : String} {failures : List Failure}
    (reports : Reports host command configuration options file failures)
    (respelled : Path.Respelled file other)
    (same : host.respond [] (callOf host command configuration options other) =
      host.respond [] (callOf host command configuration options file)) :
    Reports host command configuration options other (failures.map (·.renamed other)) := by
  refine Host.Consults.transport reports ?_ ?_
  · simp [arguments, respelled.holdsNul_eq]
  · rw [← callOf, same]
    exact readResponse_renamed reports.checked other

theorem found_respelled {file other : String}
    (same : host.respond [] (callOf host command configuration options other) =
      host.respond [] (callOf host command configuration options file)) :
    found host command configuration options other =
      (found host command configuration options file).map (·.renamed other) := by
  unfold found
  rw [same]
  cases read : readResponse command file
      (host.respond [] (callOf host command configuration options file)) with
  | ok failures =>
    rw [readResponse_renamed read other]
    rfl
  | error error =>
    cases again : readResponse command other
        (host.respond [] (callOf host command configuration options file)) with
    | error other => rfl
    | ok failures =>
      rw [readResponse_renamed again file] at read
      cases read

theorem lintFiles_iff {files : π → List String} {text? : String → Option String}
    {names : List String} {results : List FileFailures}
    (texts : ∀ file ∈ names, (text? file).isSome = true)
    (forgets : ∀ file, before.Forgets (callOf before command configuration options file)) :
    Session.lintFiles (tool command files) text? configuration options names before =
        (.ok results, after) ↔
      (∀ file ∈ names, ∃ failures, Reports before command configuration options file failures) ∧
        results = resultsOf names (found before command configuration options) ∧
        after = before.logged (names.map (callOf before command configuration options)) := by
  induction names generalizing before after results with
  | nil =>
    simp [Session.lintFiles, resultsOf, eq_comm]
  | cons file names ih =>
    rw [List.forall_mem_cons] at texts
    obtain ⟨text, present⟩ := Option.isSome_iff_exists.1 texts.1
    have onward (other : String) :
        (before.logged [callOf before command configuration options file]).Forgets
          (callOf (before.logged [callOf before command configuration options file]) command
            configuration options other) := forgets other
    simp only [Session.lintFiles, present, Action.bind_eq_ok, Action.mapError_eq_ok]
    constructor
    · rintro ⟨failures, between, linted, rest, later, others, done⟩
      obtain ⟨reports, rfl⟩ := (lintFile_iff (forgets file)).1 linted
      obtain ⟨each, rfl, rfl⟩ := (ih texts.2 onward).1 others
      obtain ⟨same, rfl⟩ := Prod.mk.inj done
      simp only [reports_logged] at each
      refine ⟨List.forall_mem_cons.2 ⟨⟨failures, reports⟩, each⟩, ?_, Host.logged_logged ..⟩
      rw [← Except.ok.inj same, resultsOf_cons, reports.found_eq]
      rfl
    · rintro ⟨each, rfl, rfl⟩
      obtain ⟨⟨failures, reports⟩, others⟩ := List.forall_mem_cons.1 each
      refine ⟨failures, _, (lintFile_iff (forgets file)).2 ⟨reports, rfl⟩, _, _,
        (ih texts.2 onward).2 ⟨by simpa only [reports_logged] using others, rfl, rfl⟩, ?_⟩
      rw [resultsOf_cons, reports.found_eq, Host.logged_logged]
      rfl

def rules (settings : Settings) : Configuration :=
  ⟨settings.basePath.join (settings.lintFile.getD ""), settings.basePath⟩

def linted (settings : Settings) (files : List String) : List String :=
  if settings.lintFile.isSome then files else []

structure Lintable (host : Host) (command : List String) (settings : Settings)
    (files : List String) : Prop where
  configured : ∃ configuration, findConfiguration host.disk (rules settings).path
    settings.basePath = .ok configuration
  reported : ∀ file ∈ files, ∃ failures,
    Reports host command (rules settings) settings.lintOptions file failures

theorem lintable_logged {settings : Settings} {calls : List Call} {files : List String} :
    Lintable (host.logged calls) command settings files ↔
      Lintable host command settings files := by
  constructor
  · rintro ⟨configured, reported⟩
    simp only [reports_logged] at reported
    exact ⟨configured, reported⟩
  · rintro ⟨configured, reported⟩
    refine ⟨configured, ?_⟩
    simpa only [reports_logged] using reported

theorem lint_iff {checker : Checker Host π} {files : π → List String} {program : π}
    {settings : Settings} {results : List FileFailures}
    (texts : ∀ file ∈ files program, (checker.text? program file).isSome = true)
    (forgets : ∀ file,
      before.Forgets (callOf before command (rules settings) settings.lintOptions file)) :
    Session.lint checker (tool command files) settings program before = (.ok results, after) ↔
      (settings.lintFile.isSome → Lintable before command settings (files program)) ∧
        results = resultsOf (linted settings (files program))
          (found before command (rules settings) settings.lintOptions) ∧
        after = before.logged ((linted settings (files program)).map
          (callOf before command (rules settings) settings.lintOptions)) := by
  unfold Session.lint
  cases named : settings.lintFile with
  | none => simp [linted, named, resultsOf, eq_comm]
  | some lintFile =>
    have ruled : rules settings = ⟨settings.basePath.join lintFile, settings.basePath⟩ := by
      rw [rules, named]
      rfl
    have whole : linted settings (files program) = files program := by
      rw [linted, named]
      rfl
    simp only [Action.bind_eq_ok, Action.mapError_eq_ok, whole, Option.isSome_some, true_imp_iff]
    constructor
    · rintro ⟨configuration, between, read, each⟩
      obtain ⟨checked, rfl⟩ := Prod.mk.inj read
      obtain ⟨same, -⟩ := findConfiguration_eq_ok checked
      obtain rfl := same.trans ruled.symm
      obtain ⟨reported, made, later⟩ := (lintFiles_iff texts forgets).1 each
      exact ⟨⟨⟨_, by rw [ruled]; exact checked⟩, reported⟩, made, later⟩
    · rintro ⟨⟨⟨configuration, checked⟩, reported⟩, made, later⟩
      obtain ⟨rfl, -⟩ := findConfiguration_eq_ok checked
      rw [ruled] at checked
      refine ⟨rules settings, before, ?_, (lintFiles_iff texts forgets).2 ⟨reported, made, later⟩⟩
      rw [ruled]
      exact Prod.ext checked rfl

def weight : LintUnit → List Failure → Nat
  | .files, failures => if failures.isEmpty then 0 else 1
  | .failures, failures => failures.length

theorem lintCount_resultsOf (unit : LintUnit) (names : List String)
    (failures : String → List Failure) :
    Session.lintCount unit (resultsOf names failures) =
      (names.map fun file => weight unit (failures file)).sum := by
  induction names with
  | nil => cases unit <;> rfl
  | cons file names ih =>
    rw [resultsOf_cons, List.map_cons, List.sum_cons, ← ih]
    cases held : failures file with
    | nil => cases unit <;> simp [weight]
    | cons failure rest =>
      cases unit
      · simp [Session.lintCount, weight, Nat.add_comm]
      · simp [Session.lintCount, weight, Nat.add_right_comm]

theorem weight_renamed (unit : LintUnit) (failures : List Failure) (file : String) :
    weight unit (failures.map (·.renamed file)) = weight unit failures := by
  cases unit <;> simp [weight]

end Lint

end BuildGate
