import BuildGate.Lint.Tool
import BuildGate.Proofs.Except
import BuildGate.Proofs.Json.Form
import BuildGate.Proofs.Text.Lines

set_option autoImplicit false

namespace BuildGate.Lint

open Json (Form)

section Keys

variable {key : String} {form : Form} {members : List (Option String × Form)}

def Absent (key : String) (members : List (Option String × Form)) : Prop :=
  ∀ member ∈ members, member.1 ≠ some key

def Once (key : String) (form : Form) (members : List (Option String × Form)) : Prop :=
  ∃ front back, members = front ++ (some key, form) :: back ∧ Absent key front ∧ Absent key back

def Legible (members : List (Option String × Form)) : Prop := ∀ member ∈ members, member.1 ≠ none

theorem filter_absent (absent : Absent key members) : members.filter (·.1 == some key) = [] :=
  List.filter_eq_nil_iff.2 fun member inside => by simpa using absent member inside

theorem single?_absent (absent : Absent key members) : single? key members = some none := by
  rw [single?, filter_absent absent]

theorem single?_once (once : Once key form members) : single? key members = some (some form) := by
  obtain ⟨front, back, rfl, before, after⟩ := once
  rw [single?, List.filter_append, filter_absent before, List.filter_cons_of_pos (by simp),
    filter_absent after]
  rfl

theorem required?_absent (absent : Absent key members) : required? key members = none := by
  rw [required?, single?_absent absent]
  rfl

theorem required?_once (once : Once key form members) : required? key members = some form := by
  rw [required?, single?_once once]
  rfl

theorem guard_legible (legible : Legible members) :
    guard (keysAreText members = true) = some () := by
  have all : keysAreText members = true := by
    simpa [keysAreText, Legible, Option.isSome_iff_ne_none] using legible
  rw [all]
  rfl

end Keys

structure Places (line character : Nat) (members : List (Option String × Form)) : Prop where
  legible : Legible members
  line : Once "line" (.number (.decimal line)) members
  character : Once "character" (.number (.decimal character)) members

def words : Severity → List String
  | .warning => ["warning", "warn"]
  | .error => ["error"]

def Names (severity : Severity) (name : String) : Prop :=
  ∃ word ∈ words severity, name.toList.map Char.toLower = word.toList

inductive Rates : Severity → List (Option String × Form) → Prop
  | named {severity : Severity} {name : String} {members : List (Option String × Form)}
      (known : Names severity name) (once : Once "ruleSeverity" (.text (some name)) members) :
      Rates severity members
  | unknown {name : String} {members : List (Option String × Form)}
      (strange : ∀ severity, ¬ Names severity name)
      (once : Once "ruleSeverity" (.text (some name)) members) : Rates .error members
  | absent {members : List (Option String × Form)} (absent : Absent "ruleSeverity" members) :
      Rates .error members

/-- A record of a failure. What stands under other keys, such as the name of a file, does not matter. -/
structure Records (failure : Failure) (members : List (Option String × Form)) : Prop where
  legible : Legible members
  message : Once "failure" (.text (some failure.message)) members
  rule : Once "ruleName" (.text (some failure.rule)) members
  severity : Rates failure.severity members
  position : ∃ place, Once "startPosition" (.object place) members ∧
    Places failure.line failure.character place

def Lists (failures : List Failure) (output : String) : Prop :=
  ∃ records : List (List (Option String × Form)),
    Form.Element (.array (records.map .object)) output.toList ∧
      List.Forall₂ Records failures records

structure Fits (file : String) (failure : Failure) : Prop where
  file : failure.file = file
  line : failure.line < Word.size
  character : failure.character < Word.size

def Lacks (members : List (Option String × Form)) : Prop :=
  ∃ key ∈ ["failure", "ruleName", "startPosition"], Absent key members

inductive Garbled (output : String) : Prop
  | lacking {forms : List Form} {members : List (Option String × Form)}
      (written : Form.Element (.array forms) output.toList) (inside : .object members ∈ forms)
      (lacks : Lacks members) : Garbled output
  | unlisted (spoken : ∃ c ∈ output.toList, Text.isBlank c = false)
      (other : ∀ forms, ¬ Form.Element (.array forms) output.toList) : Garbled output

def ReadAs (file output : String) (result : Except EngineError (List Failure)) : Prop :=
  ∀ (command : List String) (response : Response), response.output = output →
    (response.succeeded = true ∨ response.status = some failuresFound) →
    readResponse command file response = result

theorem severity_of_names {severity : Severity} {name : String} (known : Names severity name) :
    Severity.parse name = some severity := by
  obtain ⟨word, listed, same⟩ := known
  have lowered : asciiLower name = word := by
    rw [asciiLower, same, String.ofList_toList]
  rw [Severity.parse, lowered]
  cases severity with
  | warning =>
    have either : word = "warning" ∨ word = "warn" := by simpa [words] using listed
    rcases either with rfl | rfl <;> rfl
  | error =>
    obtain rfl : word = "error" := by simpa [words] using listed
    rfl

theorem names_of_severity {severity : Severity} {name : String}
    (parsed : Severity.parse name = some severity) : Names severity name := by
  have lowered : name.toList.map Char.toLower = (asciiLower name).toList := by
    rw [asciiLower, String.toList_ofList]
  refine ⟨asciiLower name, ?_, lowered⟩
  unfold Severity.parse at parsed
  simp only [Bool.or_eq_true, beq_iff_eq] at parsed
  split at parsed
  next warning =>
    cases parsed
    simpa [words] using warning
  next =>
    split at parsed
    next error =>
      cases parsed
      simpa [words] using error
    next => cases parsed

theorem severityOf_rates {severity : Severity} {members : List (Option String × Form)}
    (rates : Rates severity members) :
    ∃ form, (single? "ruleSeverity" members) = some form ∧
      ∃ name, form.getD (.text (some "")) = .text (some name) ∧ severityOf name = severity := by
  cases rates with
  | named known once =>
    refine ⟨_, single?_once once, _, rfl, ?_⟩
    rw [severityOf, severity_of_names known]
    rfl
  | @unknown name _ strange once =>
    refine ⟨_, single?_once once, _, rfl, ?_⟩
    have none_ : Severity.parse name = none :=
      Option.eq_none_iff_forall_ne_some.2 fun severity parsed =>
        strange severity (names_of_severity parsed)
    rw [severityOf, none_]
    rfl
  | absent absent => exact ⟨_, single?_absent absent, "", rfl, rfl⟩

theorem word?_decimal {n : Nat} (bounded : n < Word.size) :
    word? (.number (.decimal n)) = some n :=
  Text.readBelow_toString bounded

theorem position?_places {line character : Nat} {members : List (Option String × Form)}
    (places : Places line character members) (lines : line < Word.size)
    (characters : character < Word.size) :
    position? (.object members) = some (line, character) := by
  simp only [position?, guard_legible places.legible, required?_once places.line,
    required?_once places.character, Option.bind_eq_bind, Option.bind_some, word?_decimal lines,
    word?_decimal characters]
  rfl

theorem failure?_records {file : String} {failure : Failure} {members : List (Option String × Form)}
    (records : Records failure members) (fits : Fits file failure) :
    failure? file (.object members) = some failure := by
  obtain ⟨place, position, places⟩ := records.position
  obtain ⟨form, rated, name, named, severity⟩ := severityOf_rates records.severity
  simp only [failure?, guard_legible records.legible, required?_once records.message,
    required?_once records.rule, rated, required?_once position, Option.bind_eq_bind, Option.bind_some, failureOf?, named, text?,
    position?_places places fits.line fits.character, severity]
  rw [← fits.file]
  rfl

theorem failure?_lacks {file : String} {members : List (Option String × Form)}
    (lacks : Lacks members) : failure? file (.object members) = none := by
  obtain ⟨key, needed, absent⟩ := lacks
  have missing := required?_absent absent
  simp only [List.mem_cons, List.not_mem_nil, or_false] at needed
  rcases needed with rfl | rfl | rfl <;>
    simp only [failure?, missing, Option.bind_eq_bind, Option.bind_none, Option.bind_fun_none]

theorem mem_of_element {forms : List Form} {cs : List Char}
    (written : Form.Element (.array forms) cs) : '[' ∈ cs := by
  obtain ⟨-, value, -⟩ := written
  cases value <;> simp

theorem trim_isEmpty_of_mem {c : Char} {cs : List Char} (inside : c ∈ cs)
    (mark : Text.isBlank c = false) : (Text.trim cs).isEmpty = false := by
  rw [Bool.eq_false_iff, ne_eq, List.isEmpty_iff, Text.trim_eq_nil_iff]
  intro blank
  rw [blank c inside] at mark
  cases mark

theorem parseFailures_array (file : String) {forms : List Form} {output : String}
    (written : Form.Element (.array forms) output.toList) :
    parseFailures file output = forms.mapM (failure? file) := by
  have spoken := trim_isEmpty_of_mem (mem_of_element written) (by decide)
  rw [parseFailures, spoken, Form.read_eq_some_iff.2 written]
  rfl

theorem parseFailures_lists {file : String} {failures : List Failure} {output : String}
    (fits : ∀ failure ∈ failures, Fits file failure) (lists : Lists failures output) :
    parseFailures file output = some failures := by
  obtain ⟨records, written, each⟩ := lists
  rw [parseFailures_array file written, Option.mapM_eq_some, List.forall₂_map_left_iff]
  have all := (List.forall₂_and_left _ _).2 ⟨fits, each⟩
  exact all.flip.imp fun members failure ⟨fits, records⟩ => failure?_records records fits

theorem parseFailures_garbled (file : String) {output : String} (garbled : Garbled output) :
    parseFailures file output = none := by
  cases garbled with
  | lacking written inside lacks =>
    rw [parseFailures_array file written]
    exact Option.mapM_eq_none inside (failure?_lacks lacks)
  | unlisted spoken other =>
    obtain ⟨c, inside, mark⟩ := spoken
    rw [parseFailures, trim_isEmpty_of_mem inside mark]
    simp only [Bool.false_eq_true, if_false]
    split
    next forms read => exact absurd (Form.read_eq_some_iff.1 read) (other forms)
    next => rfl

theorem readResponse_of_accepted (command : List String) (file : String) {response : Response}
    (accepted : response.succeeded = true ∨ response.status = some failuresFound) :
    readResponse command file response =
      (parseFailures file response.output).elim (.error (.lintOutput file)) .ok := by
  have passed : ¬ (!response.succeeded && response.statusNumber != failuresFound) = true := by
    rcases accepted with succeeded | status
    · simp [succeeded]
    · simp [Response.statusNumber, status]
  rw [readResponse, if_neg passed]
  cases parseFailures file response.output <;> rfl

theorem readAs_ok {file output : String} {failures : List Failure}
    (parsed : parseFailures file output = some failures) : ReadAs file output (.ok failures) := by
  rintro command response rfl accepted
  rw [readResponse_of_accepted command file accepted, parsed]
  rfl

theorem readAs_error {file output : String} (parsed : parseFailures file output = none) :
    ReadAs file output (.error (.lintOutput file)) := by
  rintro command response rfl accepted
  rw [readResponse_of_accepted command file accepted, parsed]
  rfl

def word : Severity → String
  | .warning => "warning"
  | .error => "error"

def placeOf (failure : Failure) : List (String × Form) :=
  [("line", .number (.decimal failure.line)), ("character", .number (.decimal failure.character))]

def recordOf (failure : Failure) : List (String × Form) :=
  [("failure", .text (some failure.message)), ("ruleName", .text (some failure.rule)),
    ("ruleSeverity", .text (some (word failure.severity))),
    ("startPosition", .object (Form.named (placeOf failure)))]

theorem legible_named (members : List (String × Form)) : Legible (Form.named members) :=
  List.forall_mem_map.2 fun member _ => Option.some_ne_none member.1

theorem names_word (severity : Severity) : Names severity (word severity) := by
  cases severity with
  | warning => exact ⟨"warning", List.mem_cons_self, by decide⟩
  | error => exact ⟨"error", List.mem_cons_self, by decide⟩

theorem records_recordOf (failure : Failure) :
    Records failure (Form.named (recordOf failure)) where
  legible := legible_named _
  message := ⟨[], _, rfl, by simp [Absent], by simp [Absent]⟩
  rule := ⟨[_], _, rfl, by simp [Absent], by simp [Absent]⟩
  severity := .named (names_word failure.severity)
    ⟨[_, _], _, rfl, by simp [Absent], by simp [Absent]⟩
  position := by
    refine ⟨_, ⟨[_, _, _], _, rfl, by simp [Absent], by simp [Absent]⟩, ?_, ?_, ?_⟩
    · exact legible_named _
    · exact ⟨[], _, rfl, by simp [Absent], by simp [Absent]⟩
    · exact ⟨[_], _, rfl, by simp [Absent], by simp [Absent]⟩

theorem writable_recordOf (failure : Failure) :
    (Form.object (Form.named (recordOf failure))).Writable := by
  have place : (Form.object (Form.named (placeOf failure))).Writable := by
    apply Form.writable_object
    simp [placeOf, Form.writable_decimal]
  apply Form.writable_object
  simp [recordOf, Form.writable_text, place]

theorem exists_lists (failures : List Failure) : ∃ output, Lists failures output := by
  let records := failures.map fun failure => Form.named (recordOf failure)
  have writable : (Form.array (records.map .object)).Writable := by
    apply Form.writable_array
    simp only [records, List.map_map, List.forall_mem_map]
    exact fun failure _ => writable_recordOf failure
  obtain ⟨cs, written⟩ := writable.element
  refine ⟨String.ofList cs, records, by rwa [String.toList_ofList], ?_⟩
  exact List.forall₂_map_right_iff.2 (List.forall₂_same.2 fun failure _ => records_recordOf failure)

/-- Reading undoes writing. Failures of a file can be listed, and every text that lists them is read as
just these failures; one record without a part that it needs, or a text that says something but is no
list, and nothing is read. -/
theorem reading_undoes_writing (file : String) :
    (∀ failures, (∀ failure ∈ failures, Fits file failure) →
      (∃ output, Lists failures output) ∧
        ∀ output, Lists failures output →
          parseFailures file output = some failures ∧ ReadAs file output (.ok failures)) ∧
      ∀ output, Garbled output →
        parseFailures file output = none ∧ ReadAs file output (.error (.lintOutput file)) := by
  constructor
  · intro failures fits
    refine ⟨exists_lists failures, fun output lists => ?_⟩
    have parsed := parseFailures_lists fits lists
    exact ⟨parsed, readAs_ok parsed⟩
  · intro output garbled
    have parsed := parseFailures_garbled file garbled
    exact ⟨parsed, readAs_error parsed⟩

def escapedOutput : String :=
  "[ \x7b\"name\":\"b.ts\", \"ruleSeverity\":\"WaRn\",\n\"rule\\u004eame\":\"quotes\", " ++
    "\"failure\":\"Use \\\"\\uD83D\\uDE00\", " ++
    "\"startPosition\":\x7b\"position\":39,\"character\":11,\"line\":2\x7d \x7d ]"

def escapedPlace : List (Option String × Form) :=
  [(some "position", .number ⟨false, ['3', '9'], none, none⟩),
    (some "character", .number ⟨false, ['1', '1'], none, none⟩),
    (some "line", .number ⟨false, ['2'], none, none⟩)]

def escapedRecord : List (Option String × Form) :=
  [(some "name", .text (some "b.ts")), (some "ruleSeverity", .text (some "WaRn")),
    (some "ruleName", .text (some "quotes")), (some "failure", .text (some "Use \"😀")),
    (some "startPosition", .object escapedPlace)]

def escapedFailure : Failure := ⟨"a.ts", 2, 11, "quotes", .warning, "Use \"😀"⟩

-- Unfolded by delta, since the equation of the output takes too long to derive.
set_option maxRecDepth 8000 in
theorem read_escaped :
    Form.read escapedOutput.toList = some (.array [.object escapedRecord]) := by
  delta escapedOutput
  simp only [String.toList_append, String.reduceToList, List.cons_append, List.nil_append]
  rfl

theorem escaped_listing_read :
    (∀ failure ∈ [escapedFailure], Fits "a.ts" failure) ∧ Lists [escapedFailure] escapedOutput ∧
      parseFailures "a.ts" escapedOutput = some [escapedFailure] ∧
      Garbled "[\x7b\x7d]" ∧ parseFailures "a.ts" "[\x7b\x7d]" = none := by
  have fits : ∀ failure ∈ [escapedFailure], Fits "a.ts" failure := by
    simp only [List.forall_mem_singleton]
    exact ⟨rfl, by decide, by decide⟩
  have rated : Rates .warning escapedRecord := by
    have known : Names .warning "WaRn" := ⟨"warn", by decide, by decide⟩
    exact .named known ⟨[_], _, rfl, by simp [Absent], by simp [Absent]⟩
  have records : Records escapedFailure escapedRecord := by
    refine ⟨by simp [Legible, escapedRecord], ?_, ?_, rated, escapedPlace, ?_, ?_, ?_, ?_⟩
    · exact ⟨[_, _, _], _, rfl, by simp [Absent], by simp [Absent]⟩
    · exact ⟨[_, _], _, rfl, by simp [Absent], by simp [Absent]⟩
    · exact ⟨[_, _, _, _], _, rfl, by simp [Absent], by simp [Absent]⟩
    · simp [Legible, escapedPlace]
    · exact ⟨[_, _], _, rfl, by simp [Absent], by simp [Absent]⟩
    · exact ⟨[_], _, rfl, by simp [Absent], by simp [Absent]⟩
  have lists : Lists [escapedFailure] escapedOutput :=
    ⟨[escapedRecord], Form.read_eq_some_iff.1 read_escaped, .cons records .nil⟩
  have empty : Form.read "[\x7b\x7d]".toList = some (.array [.object []]) := rfl
  have lacks : Lacks [] := ⟨"failure", List.mem_cons_self, nofun⟩
  have garbled : Garbled "[\x7b\x7d]" :=
    .lacking (Form.read_eq_some_iff.1 empty) List.mem_cons_self lacks
  obtain ⟨whole, broken⟩ := reading_undoes_writing "a.ts"
  exact ⟨fits, lists, ((whole _ fits).2 _ lists).1, garbled, (broken _ garbled).1⟩

end BuildGate.Lint
