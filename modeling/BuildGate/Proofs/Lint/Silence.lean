import BuildGate.Proofs.Lint.Process
import BuildGate.Proofs.Session
import BuildGate.Proofs.Text.Lines

set_option autoImplicit false

namespace BuildGate.Lint

variable {π : Type}

def NamesNothing (output : String) : Prop :=
  (∀ c ∈ output.toList, Text.isBlank c = true) ∨ Json.Form.read output.toList = some (.array [])

theorem parseFailures_eq_nil_iff (file : String) {output : String} :
    parseFailures file output = some [] ↔ NamesNothing output := by
  have blank : (Text.trim output.toList).isEmpty = true ↔ ∀ c ∈ output.toList, Text.isBlank c = true := by
    rw [List.isEmpty_iff, Text.trim_eq_nil_iff]
  unfold parseFailures NamesNothing
  rw [← blank]
  split
  next silent => simp [silent]
  next spoken =>
    simp only [spoken]
    split
    next items read =>
      rw [read]
      cases items with
      | nil => simp
      | cons item items =>
        cases first : failure? file item <;> cases rest : items.mapM (failure? file) <;>
          simp [List.mapM_cons, first, rest]
    next unlike =>
      constructor
      · rintro ⟨⟩
      · rintro (⟨⟨⟩⟩ | read)
        exact absurd read (unlike [])

theorem readResponse_of_failed (command : List String) (file : String) {response : Response}
    (failed : response.succeeded = false) :
    readResponse command file response = .ok [] ↔
      response.status = some failuresFound ∧ NamesNothing response.output := by
  have found : response.statusNumber = failuresFound ↔ response.status = some failuresFound := by
    unfold Response.statusNumber
    cases response.status <;> simp [failuresFound]
  unfold readResponse
  rw [← found, ← parseFailures_eq_nil_iff file]
  by_cases status : response.statusNumber = failuresFound
  · simp only [failed, status]
    cases parseFailures file response.output <;> simp
  · simp [failed, status]

/-- A result by which a file does not pass for clean. -/
def Noticed (result : Except EngineError (List Failure)) : Prop :=
  (∃ error, result = .error error) ∨ ∃ failures, result = .ok failures ∧ failures ≠ []

theorem noticed_iff {result : Except EngineError (List Failure)} :
    Noticed result ↔ result ≠ .ok [] := by
  cases result <;> simp [Noticed]

variable {command : List String} {configuration : Configuration} {options : LintOptions}
  {before : Host} {file : String}

theorem lintFile_of_ran {call : Call} {response : Response}
    (ran : before.Ran (lintFile command file configuration options before).2 call response) :
    (lintFile command file configuration options before).1 = readResponse command file response := by
  cases command with
  | nil => exact absurd ran Host.not_ran_self
  | cons program own => exact Host.read_of_ran ran

/-- A linter run without success is noticed unless it has the status of found failures and names none.
The failures of a file that was noticed are among the lint results of the session. -/
theorem unsuccessful_lint_noticed_iff {call : Call} {response : Response}
    (ran : before.Ran (lintFile command file configuration options before).2 call response)
    (failed : response.succeeded = false) :
    let result := (lintFile command file configuration options before).1
    (Noticed result ↔ ¬ (response.status = some failuresFound ∧ NamesNothing response.output)) ∧
      ∀ (files : π → List String) text? front back start early results finish, Noticed result →
        Session.lintFiles (tool command files) text? configuration options front start =
          (.ok early, before) →
        Session.lintFiles (tool command files) text? configuration options (front ++ file :: back)
          start = (.ok results, finish) →
        ∃ failures ≠ [], ⟨file, failures⟩ ∈ results := by
  intro result
  have read : result = readResponse command file response := lintFile_of_ran ran
  have silent := readResponse_of_failed command file failed
  constructor
  · rw [noticed_iff, read, ne_eq, silent]
  · intro files text? front back start early results finish heard begun linted
    obtain ⟨text, failures, after, -, answered, kept⟩ := Session.lintFiles_between begun linted
    have same : result = .ok failures := congrArg Prod.fst answered
    have found : failures ≠ [] := by
      rcases heard with ⟨error, broken⟩ | ⟨others, read, found⟩
      · cases same.symm.trans broken
      · cases same.symm.trans read
        exact found
    exact ⟨failures, found, kept found⟩

def findingResponse (output : String) : Response := ⟨Text.encode output, [], some failuresFound⟩

def findingHost (output : String) : Host where
  disk := ⟨[(["a.ts"], .file [] 1)], [], 2⟩
  obstacle := fun _ => none
  respond := fun _ _ => findingResponse output
  calls := []

def findingRules : Configuration := ⟨⟨"tslint.json"⟩, ⟨"."⟩⟩

def findingCall : Call := ⟨[], "tslint", ["-c", "tslint.json", "-t", "json", "a.ts"]⟩

def findingAfter (output : String) : Host := { findingHost output with calls := [findingCall] }

theorem finding_linted (output : String) :
    lintFile ["tslint"] "a.ts" findingRules Settings.default.lintOptions (findingHost output) =
      (readResponse ["tslint"] "a.ts" (findingResponse output), findingAfter output) := rfl

theorem finding_read {output : String} {failures : List Failure}
    (parsed : parseFailures "a.ts" output = some failures) :
    readResponse ["tslint"] "a.ts" (findingResponse output) = .ok failures := by
  have read : (findingResponse output).output = output := Text.decodeLossy_encode output
  simp only [readResponse, read, parsed]
  rfl

theorem finding_swept {output : String} {failures : List Failure}
    (parsed : parseFailures "a.ts" output = some failures) :
    Session.lintFiles (tool (π := Unit) ["tslint"] fun _ => ["a.ts"]) (fun _ => some "") findingRules
        Settings.default.lintOptions ["a.ts"] (findingHost output) =
      (.ok (if failures.isEmpty then [] else [⟨"a.ts", failures⟩]), findingAfter output) := by
  simp only [Session.lintFiles, tool, Action.bind_apply, Action.mapError, finding_linted,
    finding_read parsed]
  rfl

def listedFailure : Failure := ⟨"a.ts", 2, 11, "semicolon", .error, "Missing semicolon"⟩

def listedOutput : String := "[[\"Missing semicolon\", \"semicolon\", \"ERROR\", [2, 11]]]"

theorem listed_failure_noticed :
    let result := (lintFile ["tslint"] "a.ts" findingRules Settings.default.lintOptions
      (findingHost listedOutput)).1
    (findingResponse listedOutput).succeeded = false ∧ Noticed result ∧
      ∃ failures ≠ [], ⟨"a.ts", failures⟩ ∈ [(⟨"a.ts", [listedFailure]⟩ : FileFailures)] := by
  intro result
  have parsed : parseFailures "a.ts" listedOutput = some [listedFailure] := by decide +kernel
  have ran : (findingHost listedOutput).Ran (lintFile ["tslint"] "a.ts" findingRules
      Settings.default.lintOptions (findingHost listedOutput)).2 findingCall
      (findingResponse listedOutput) := ⟨rfl, rfl⟩
  have named : ¬ NamesNothing (findingResponse listedOutput).output := by
    have read : (findingResponse listedOutput).output = listedOutput :=
      Text.decodeLossy_encode listedOutput
    rw [read, ← parseFailures_eq_nil_iff "a.ts", parsed]
    simp
  obtain ⟨noticed, kept⟩ := unsuccessful_lint_noticed_iff (π := Unit) ran rfl
  have heard : Noticed result := noticed.2 fun ⟨_, nothing⟩ => named nothing
  exact ⟨rfl, heard, kept (fun _ => ["a.ts"]) (fun _ => some "") [] [] (findingHost listedOutput) []
    _ _ heard rfl (finding_swept parsed)⟩

theorem unnamed_failures_pass :
    let host := findingHost ""
    lintFile ["tslint"] "a.ts" findingRules Settings.default.lintOptions host =
        (.ok [], findingAfter "") ∧
      host.Ran (findingAfter "") findingCall (findingResponse "") ∧
      (findingResponse "").succeeded = false ∧ (findingResponse "").status = some failuresFound ∧
      Session.lintFiles (tool (π := Unit) ["tslint"] fun _ => ["a.ts"]) (fun _ => some "")
        findingRules Settings.default.lintOptions ["a.ts"] host = (.ok [], findingAfter "") := by
  intro host
  have parsed : parseFailures "a.ts" "" = some [] := rfl
  refine ⟨?_, ⟨rfl, rfl⟩, rfl, rfl, finding_swept parsed⟩
  rw [finding_linted, finding_read parsed]

end BuildGate.Lint
