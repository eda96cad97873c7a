import BuildGate.Proofs.Except
import BuildGate.Proofs.Lookup
import BuildGate.Settings.Format

set_option autoImplicit false

namespace BuildGate

namespace ConfigFile

def keys : List String :=
  ["tsConfigObj", "tsConfig", "basePath", "tsLint", "lintoptions", "type", "name",
    "yellowOnOptions", "yellowOnGlobal", "yellowOnSyntactic", "yellowOnSemantic", "yellowOnLint",
    "throwOnOptions", "throwOnGlobal", "throwOnSyntactic", "throwOnSemantic", "throwOnTsLint",
    "quit", "finished", "lintCount", "engine", "lint"]

def yellowKey : Kind → String
  | .options => "yellowOnOptions"
  | .global => "yellowOnGlobal"
  | .syntactic => "yellowOnSyntactic"
  | .semantic => "yellowOnSemantic"
  | .lint => "yellowOnLint"

def throwKey : Kind → String
  | .options => "throwOnOptions"
  | .global => "throwOnGlobal"
  | .syntactic => "throwOnSyntactic"
  | .semantic => "throwOnSemantic"
  | .lint => "throwOnTsLint"

end ConfigFile

abbrev Said (ν : Type) := String → Option ν

-- An array stands for a record if it has a value for every name.
inductive Toml.Holds (names : List String) : Toml → Said Toml → Prop
  | table (origin : Origin) (members : List (String × Toml)) :
      Holds names (.table origin members) fun name => List.lookup name members
  | array (grows : Bool) {items : List Toml} (enough : names.length ≤ items.length) :
      Holds names (.array grows items) fun name => List.lookup name (names.zip items)

namespace Yaml.Node

def under (fields : List (Node × Node)) (name : String) : Option Node :=
  (fields.find? fun field => text? field.1 = some name).map (·.2)

inductive Holds (names : List String) (node : Node) : Said Node → Prop
  | mapping {tag : Option String} {fields : List (Node × Node)}
      (here : node.target? = some (.mapping tag fields))
      (keyed : ∀ field ∈ fields, (text? field.1).isSome = true)
      (once : ∀ name ∈ names, fields.countP (text? ·.1 = some name) ≤ 1) :
      Holds names node (under fields)
  | bare {tag : Option String} (here : node.target? = some (.scalar tag .plain "")) :
      Holds names node fun _ => none

end Yaml.Node

namespace Format

variable {ν α : Type} (format : Format ν) (Holds : List String → ν → Said ν → Prop)

/-- What is read under a key. A key that is left out says nothing, nor does one with an empty value. -/
inductive Under (said : Option ν) (Reads : ν → α → Prop) : Option α → Prop
  | missing (absent : said = none) : Under said Reads none
  | blank {value : ν} (given : said = some value) (empty : format.optional? value = some none) :
      Under said Reads none
  | full {value inner : ν} {result : α} (given : said = some value)
      (there : format.optional? value = some (some inner)) (reads : Reads inner result) :
      Under said Reads (some result)

def Text (said : Option ν) : Option String → Prop :=
  format.Under said fun value text => format.text? value = some text

def Flag (said : Option ν) : Option Bool → Prop :=
  format.Under said fun value flag => format.bool? value = some flag

def Words (value : ν) (words : List String) : Prop :=
  ∃ items, format.items? value = some items ∧
    List.Forall₂ (fun item word => format.text? item = some word) items words

def Command (value : ν) (command : Option (List String)) : Prop :=
  ∃ said, Holds ["command"] value said ∧ format.Under (said "command") format.Words command

def Counts (value : ν) (unit : LintUnit) : Prop :=
  (format.word? value = some "files" ∧ unit = .files) ∨
    (format.word? value = some "failures" ∧ unit = .failures)

-- Unlike other flags this one may not be empty.
def Fix (said : Option ν) (fix : Bool) : Prop :=
  (said = none ∧ fix = false) ∨ ∃ value, said = some value ∧ format.bool? value = some fix

def Linting (said : Option ν) (options : LintOptions) : Prop :=
  (said = none ∧ options = ⟨false, none⟩) ∨ ∃ value inner, said = some value ∧
    Holds ["fix", "rulesDirectory"] value inner ∧ format.Fix (inner "fix") options.fix ∧
      format.Text (inner "rulesDirectory") options.rulesDirectory

/-- The key of each field of a configuration file, and what it is read as. -/
structure Spells (said : Said ν) (file : ConfigFile) : Prop where
  project : format.Under (said "tsConfigObj") (format.json? · = some ·) file.project
  projectFile : format.Text (said "tsConfig") file.projectFile
  basePath : format.Text (said "basePath") file.basePath
  lintFile : format.Text (said "tsLint") file.lintFile
  lintOptions : format.Linting Holds (said "lintoptions") file.lintOptions
  runType : format.Text (said "type") file.runType
  name : format.Text (said "name") file.name
  yellow : ∀ kind, format.Flag (said (ConfigFile.yellowKey kind)) (file.yellow.get kind)
  throws : ∀ kind, format.Flag (said (ConfigFile.throwKey kind)) (file.throws.get kind)
  quit : format.Flag (said "quit") file.quit
  finished : format.Flag (said "finished") file.finished
  lintUnit : format.Under (said "lintCount") format.Counts file.lintUnit
  compiler : format.Under (said "engine") (format.Command Holds) file.compiler
  linter : format.Under (said "lint") (format.Command Holds) file.linter

structure Records : Prop where
  sound : ∀ {names value fields}, format.record? names value = some fields →
    ∃ said, Holds names value said ∧ ∀ name ∈ names, said name = fields.lookup name
  complete : ∀ {names value said}, Holds names value said →
    ∃ fields, format.record? names value = some fields ∧
      ∀ name ∈ names, said name = fields.lookup name

variable {format Holds}

theorem field?_eq_some {fields : List (String × ν)} {name : String} {read : ν → Option α}
    {Reads : ν → α → Prop} (reads : ∀ value result, read value = some result ↔ Reads value result)
    {result : Option α} :
    format.field? fields name read = some result ↔
      format.Under (fields.lookup name) Reads result := by
  unfold field?
  constructor
  · intro found
    split at found
    next absent =>
      cases found
      exact .missing absent
    next value given =>
      split at found
      next => cases found
      next empty =>
        cases found
        exact .blank given empty
      next inner there =>
        obtain ⟨result, made, rfl⟩ := Option.map_eq_some_iff.1 found
        exact .full given there ((reads inner result).1 made)
  · rintro (absent | ⟨given, empty⟩ | ⟨given, there, made⟩)
    · rw [absent]
    · simp only [given, empty]
    · simp only [given, there, (reads _ _).2 made, Option.map_some]

theorem text_eq_some {fields : List (String × ν)} {name : String} {value : Option String} :
    format.field? fields name format.text? = some value ↔ format.Text (fields.lookup name) value :=
  field?_eq_some fun _ _ => Iff.rfl

theorem flag_eq_some {fields : List (String × ν)} {name : String} {value : Option Bool} :
    format.field? fields name format.bool? = some value ↔ format.Flag (fields.lookup name) value :=
  field?_eq_some fun _ _ => Iff.rfl

theorem words_eq_some {value : ν} {words : List String} :
    ((format.items? value).bind fun items => items.mapM format.text?) = some words ↔
      format.Words value words := by
  simp only [Option.bind_eq_some_iff, Option.mapM_eq_some, Words]

theorem ofWord?_eq_some {word : String} {unit : LintUnit} :
    LintUnit.ofWord? word = some unit ↔
      (word = "files" ∧ unit = .files) ∨ (word = "failures" ∧ unit = .failures) := by
  unfold LintUnit.ofWord? LintUnit.all
  by_cases files : word = "files"
  · subst files
    cases unit <;> simp [LintUnit.word]
  · by_cases failures : word = "failures"
    · subst failures
      cases unit <;> simp [LintUnit.word]
    · simp [LintUnit.word, files, failures, Ne.symm files, Ne.symm failures]

theorem counts_eq_some {value : ν} {unit : LintUnit} :
    (format.word? value).bind LintUnit.ofWord? = some unit ↔ format.Counts value unit := by
  simp only [Option.bind_eq_some_iff, ofWord?_eq_some, Counts]
  constructor
  · rintro ⟨word, found, ⟨rfl, rfl⟩ | ⟨rfl, rfl⟩⟩
    · exact .inl ⟨found, rfl⟩
    · exact .inr ⟨found, rfl⟩
  · rintro (⟨found, rfl⟩ | ⟨found, rfl⟩)
    · exact ⟨_, found, .inl ⟨rfl, rfl⟩⟩
    · exact ⟨_, found, .inr ⟨rfl, rfl⟩⟩

theorem fix_eq_some {said : Option ν} {fix : Bool} :
    (match said with
      | some value => format.bool? value
      | none => some false) = some fix ↔ format.Fix said fix := by
  cases said <;> simp [Fix, eq_comm]

theorem lintOptions?_fields {value : ν} {options : LintOptions} :
    format.lintOptions? value = some options ↔ ∃ fields,
      format.record? ["fix", "rulesDirectory"] value = some fields ∧
        format.Fix (fields.lookup "fix") options.fix ∧
          format.Text (fields.lookup "rulesDirectory") options.rulesDirectory := by
  simp only [lintOptions?, Option.bind_eq_bind, Option.bind_eq_some_iff]
  refine exists_congr fun fields => and_congr_right fun _ => ?_
  simp only [← fix_eq_some, ← text_eq_some]
  obtain ⟨fix, rules⟩ := options
  cases fields.lookup "fix"
  all_goals
    simp only [Option.bind_eq_some_iff, Option.pure_def, Option.some.injEq, LintOptions.mk.injEq]
    constructor
    · rintro ⟨_, read, _, found, rfl, rfl⟩
      exact ⟨read, found⟩
    · rintro ⟨read, found⟩
      exact ⟨_, read, _, found, rfl, rfl⟩

theorem flags?_eq_some {fields : List (String × ν)} {names : ByKind String}
    {flags : ByKind (Option Bool)} :
    format.flags? fields names = some flags ↔
      ∀ kind, format.Flag (fields.lookup (names.get kind)) (flags.get kind) := by
  obtain ⟨options, global, syntactic, semantic, lint⟩ := flags
  simp only [flags?, Option.bind_eq_bind, Option.bind_eq_some_iff, Option.pure_def, flag_eq_some]
  constructor
  · rintro ⟨_, first, _, second, _, third, _, fourth, _, fifth, ⟨⟩⟩ kind
    cases kind
    exacts [first, second, third, fourth, fifth]
  · intro all
    exact ⟨_, all .options, _, all .global, _, all .syntactic, _, all .semantic, _, all .lint, rfl⟩

section Records

variable (records : Records format Holds)

include records

theorem command?_eq_some {value : ν} {command : Option (List String)} :
    format.command? value = some command ↔ format.Command Holds value command := by
  simp only [command?, Option.bind_eq_bind, Option.bind_eq_some_iff,
    field?_eq_some fun _ _ => words_eq_some]
  constructor
  · rintro ⟨fields, found, under⟩
    obtain ⟨said, holds, same⟩ := records.sound found
    exact ⟨said, holds, same "command" (by simp) ▸ under⟩
  · rintro ⟨said, holds, under⟩
    obtain ⟨fields, found, same⟩ := records.complete holds
    exact ⟨fields, found, same "command" (by simp) ▸ under⟩

theorem lintOptions?_eq_some {value : ν} {options : LintOptions} :
    format.lintOptions? value = some options ↔ ∃ inner, Holds ["fix", "rulesDirectory"] value inner ∧
      format.Fix (inner "fix") options.fix ∧
        format.Text (inner "rulesDirectory") options.rulesDirectory := by
  rw [lintOptions?_fields]
  constructor
  · rintro ⟨fields, found, fix, rules⟩
    obtain ⟨inner, holds, same⟩ := records.sound found
    exact ⟨inner, holds, same "fix" (by simp) ▸ fix, same "rulesDirectory" (by simp) ▸ rules⟩
  · rintro ⟨inner, holds, fix, rules⟩
    obtain ⟨fields, found, same⟩ := records.complete holds
    exact ⟨fields, found, same "fix" (by simp) ▸ fix, same "rulesDirectory" (by simp) ▸ rules⟩

theorem configFile?_fields {value : ν} {file : ConfigFile} :
    format.configFile? value = some file ↔ ∃ fields,
      format.record? ConfigFile.keys value = some fields ∧
        format.Spells Holds (fun name => fields.lookup name) file := by
  have keys : fieldNames = ConfigFile.keys := rfl
  rw [configFile?, keys, Option.bind_eq_bind, Option.bind_eq_some_iff]
  refine exists_congr fun fields => and_congr_right fun _ => ?_
  have linting (options : LintOptions) :
      (match fields.lookup "lintoptions" with
        | some value => format.lintOptions? value
        | none => some .default) = some options ↔
          format.Linting Holds (fields.lookup "lintoptions") options := by
    cases fields.lookup "lintoptions" with
    | none => simp [Linting, LintOptions.default, eq_comm]
    | some value => simp [Linting, lintOptions?_eq_some records]
  have project (value : Option Json) :
      format.field? fields "tsConfigObj" format.json? = some value ↔
        format.Under (fields.lookup "tsConfigObj") (format.json? · = some ·) value :=
    field?_eq_some fun _ _ => Iff.rfl
  have counts (unit : Option LintUnit) :
      (format.field? fields "lintCount" fun value =>
        (format.word? value).bind LintUnit.ofWord?) = some unit ↔
          format.Under (fields.lookup "lintCount") format.Counts unit :=
    field?_eq_some fun _ _ => counts_eq_some
  have command (name : String) (command : Option (Option (List String))) :
      format.field? fields name format.command? = some command ↔
        format.Under (fields.lookup name) (format.Command Holds) command :=
    field?_eq_some fun _ _ => command?_eq_some records
  have yellow : yellowNames.get = ConfigFile.yellowKey := by
    funext kind
    cases kind <;> rfl
  have throws : throwNames.get = ConfigFile.throwKey := by
    funext kind
    cases kind <;> rfl
  -- A section that is left out and one that is read are followed by the same steps.
  cases given : fields.lookup "lintoptions"
  all_goals
    simp only [given] at linting ⊢
    constructor
    · intro found
      obtain ⟨_, lintOptions, found⟩ := Option.bind_eq_some_iff.1 found
      obtain ⟨_, projectObject, found⟩ := Option.bind_eq_some_iff.1 found
      obtain ⟨_, projectFile, found⟩ := Option.bind_eq_some_iff.1 found
      obtain ⟨_, basePath, found⟩ := Option.bind_eq_some_iff.1 found
      obtain ⟨_, lintFile, found⟩ := Option.bind_eq_some_iff.1 found
      obtain ⟨_, runType, found⟩ := Option.bind_eq_some_iff.1 found
      obtain ⟨_, name, found⟩ := Option.bind_eq_some_iff.1 found
      obtain ⟨_, yellows, found⟩ := Option.bind_eq_some_iff.1 found
      obtain ⟨_, throwing, found⟩ := Option.bind_eq_some_iff.1 found
      obtain ⟨_, quit, found⟩ := Option.bind_eq_some_iff.1 found
      obtain ⟨_, finished, found⟩ := Option.bind_eq_some_iff.1 found
      obtain ⟨_, lintUnit, found⟩ := Option.bind_eq_some_iff.1 found
      obtain ⟨_, compiler, found⟩ := Option.bind_eq_some_iff.1 found
      obtain ⟨_, linter, ⟨⟩⟩ := Option.bind_eq_some_iff.1 found
      exact {
        project := (project _).1 projectObject
        projectFile := text_eq_some.1 projectFile
        basePath := text_eq_some.1 basePath
        lintFile := text_eq_some.1 lintFile
        lintOptions := given ▸ (linting _).1 lintOptions
        runType := text_eq_some.1 runType
        name := text_eq_some.1 name
        yellow := yellow ▸ flags?_eq_some.1 yellows
        throws := throws ▸ flags?_eq_some.1 throwing
        quit := flag_eq_some.1 quit
        finished := flag_eq_some.1 finished
        lintUnit := (counts _).1 lintUnit
        compiler := (command _ _).1 compiler
        linter := (command _ _).1 linter }
    · intro spells
      have yellows := flags?_eq_some.2 (yellow ▸ spells.yellow)
      have throwing := flags?_eq_some.2 (throws ▸ spells.throws)
      rw [(linting _).2 (given ▸ spells.lintOptions)]
      simp only [(project _).2 spells.project, text_eq_some.2 spells.projectFile,
        text_eq_some.2 spells.basePath, text_eq_some.2 spells.lintFile, text_eq_some.2 spells.runType,
        text_eq_some.2 spells.name, yellows, throwing, flag_eq_some.2 spells.quit,
        flag_eq_some.2 spells.finished, (counts _).2 spells.lintUnit,
        (command _ _).2 spells.compiler, (command _ _).2 spells.linter]
      rfl

end Records

theorem Spells.congr {said other : Said ν} {file : ConfigFile}
    (spells : format.Spells Holds said file) (same : ∀ name ∈ ConfigFile.keys, said name = other name) :
    format.Spells Holds other file where
  project := same "tsConfigObj" (by decide) ▸ spells.project
  projectFile := same "tsConfig" (by decide) ▸ spells.projectFile
  basePath := same "basePath" (by decide) ▸ spells.basePath
  lintFile := same "tsLint" (by decide) ▸ spells.lintFile
  lintOptions := same "lintoptions" (by decide) ▸ spells.lintOptions
  runType := same "type" (by decide) ▸ spells.runType
  name := same "name" (by decide) ▸ spells.name
  yellow kind := same (ConfigFile.yellowKey kind) (by cases kind <;> decide) ▸ spells.yellow kind
  throws kind := same (ConfigFile.throwKey kind) (by cases kind <;> decide) ▸ spells.throws kind
  quit := same "quit" (by decide) ▸ spells.quit
  finished := same "finished" (by decide) ▸ spells.finished
  lintUnit := same "lintCount" (by decide) ▸ spells.lintUnit
  compiler := same "engine" (by decide) ▸ spells.compiler
  linter := same "lint" (by decide) ▸ spells.linter

theorem configFile?_eq_some (records : Records format Holds) {value : ν} {file : ConfigFile} :
    format.configFile? value = some file ↔ ∃ said,
      Holds ConfigFile.keys value said ∧ format.Spells Holds said file := by
  rw [configFile?_fields records]
  constructor
  · rintro ⟨fields, found, spells⟩
    obtain ⟨said, holds, same⟩ := records.sound found
    exact ⟨said, holds, spells.congr fun name listed => (same name listed).symm⟩
  · rintro ⟨said, holds, spells⟩
    obtain ⟨fields, found, same⟩ := records.complete holds
    exact ⟨fields, found, spells.congr same⟩

end Format

theorem Toml.parse_eq_some {text : String} {value : Toml} (parsed : Toml.parse text = some value) :
    ∃ origin members, value = .table origin members := by
  obtain ⟨members, -, rfl⟩ := Option.map_eq_some_iff.1 parsed
  exact ⟨_, members, rfl⟩

theorem Toml.records : Toml.format.Records Toml.Holds where
  sound := by
    intro names value fields found
    cases value with
    | table origin members =>
      obtain rfl := Option.some.inj found
      refine ⟨_, .table origin members, ?_⟩
      intro name listed
      rw [lookup_filter names.contains, if_pos (List.contains_iff_mem.2 listed)]
    | array grows items =>
      obtain ⟨enough, found⟩ := Option.ite_none_right_eq_some.1 found
      obtain rfl := Option.some.inj found
      exact ⟨_, .array grows enough, fun _ _ => rfl⟩
    | _ => cases found
  complete := by
    rintro names value said (⟨origin, members⟩ | ⟨grows, enough⟩)
    · refine ⟨_, rfl, ?_⟩
      intro name listed
      rw [lookup_filter names.contains, if_pos (List.contains_iff_mem.2 listed)]
    · exact ⟨_, if_pos enough, fun _ _ => rfl⟩

namespace Yaml.Node

variable {names : List String} {fields : List (Node × Node)} {known : List (String × Node)}

theorem under_cons (key value : Node) (fields : List (Node × Node)) (name : String) :
    under ((key, value) :: fields) name =
      if text? key = some name then some value else under fields name := by
  by_cases named : text? key = some name <;> simp [under, named]

theorem under_eq_none {name : String} :
    under fields name = none ↔ fields.countP (text? ·.1 = some name) = 0 := by
  simp [under, List.countP_eq_zero]

theorem lookup_knownFields (found : knownFields? names fields = some known) :
    ∀ name ∈ names, known.lookup name = under fields name := by
  induction fields generalizing known with
  | nil =>
    obtain rfl := Option.some.inj found
    exact fun _ _ => rfl
  | cons field fields ih =>
    obtain ⟨key, value⟩ := field
    intro name listed
    unfold knownFields? at found
    split at found
    next word rest keyed later =>
      have others := ih later name listed
      rw [under_cons, keyed]
      split at found
      next unlisted =>
        obtain rfl := Option.some.inj found
        have other : word ≠ name := by
          rintro rfl
          simp [listed] at unlisted
        simpa [other] using others
      next =>
        obtain ⟨fresh, found⟩ := Option.ite_none_left_eq_some.1 found
        obtain rfl := Option.some.inj found
        simp only [lookup_pair, others, Option.some.injEq, eq_comm]
    next => cases found

theorem once_cons {key value : Node} {word : String} (keyed : text? key = some word) :
    (∀ name ∈ names, ((key, value) :: fields).countP (text? ·.1 = some name) ≤ 1) ↔
      (∀ name ∈ names, fields.countP (text? ·.1 = some name) ≤ 1) ∧
        (word ∈ names → under fields word = none) := by
  simp only [List.countP_cons, keyed, Option.some.injEq, decide_eq_true_eq, under_eq_none]
  constructor
  · intro once
    refine ⟨fun name listed => Nat.le_trans (Nat.le_add_right _ _) (once name listed), ?_⟩
    intro listed
    have twice := once word listed
    rw [if_pos rfl] at twice
    exact Nat.le_zero.1 (Nat.le_of_succ_le_succ twice)
  · rintro ⟨once, fresh⟩ name listed
    split
    next same =>
      subst same
      exact Nat.succ_le_succ (Nat.le_of_eq (fresh listed))
    next => exact once name listed

theorem knownFields?_isSome :
    (knownFields? names fields).isSome = true ↔
      (∀ field ∈ fields, (text? field.1).isSome = true) ∧
        ∀ name ∈ names, fields.countP (text? ·.1 = some name) ≤ 1 := by
  induction fields with
  | nil => simp [knownFields?]
  | cons field fields ih =>
    obtain ⟨key, value⟩ := field
    cases keyed : text? key with
    | none => simp [knownFields?, keyed]
    | some word =>
      simp only [once_cons keyed, List.forall_mem_cons, keyed, Option.isSome_some, true_and,
        ← and_assoc, ← ih]
      cases later : knownFields? names fields with
      | none => simp [knownFields?, keyed, later]
      | some known =>
        by_cases listed : word ∈ names
        · rw [← lookup_knownFields later word listed]
          cases found : known.lookup word <;> simp [knownFields?, keyed, later, listed, found]
        · simp [knownFields?, keyed, later, listed]

theorem records : Yaml.Node.format.Records Yaml.Node.Holds where
  sound := by
    intro names node known found
    change record? names node = some known at found
    unfold record? at found
    split at found
    next tag fields here =>
      have known_ := knownFields?_isSome.1 (Option.isSome_of_eq_some found)
      exact ⟨_, .mapping here known_.1 known_.2, fun name listed =>
        (lookup_knownFields found name listed).symm⟩
    next tag style word here =>
      obtain ⟨bare, found⟩ := Option.ite_none_right_eq_some.1 found
      obtain rfl := Option.some.inj found
      simp only [isBare, Bool.and_eq_true, beq_iff_eq] at bare
      obtain ⟨rfl, rfl⟩ := bare
      exact ⟨_, .bare here, fun _ _ => rfl⟩
    next => cases found
  complete := by
    rintro names node said (⟨here, keyed, once⟩ | here)
    · obtain ⟨known, found⟩ := Option.isSome_iff_exists.1 (knownFields?_isSome.2 ⟨keyed, once⟩)
      refine ⟨known, ?_, fun name listed => (lookup_knownFields found name listed).symm⟩
      change record? names node = some known
      simpa only [record?, here] using found
    · refine ⟨[], ?_, fun _ _ => rfl⟩
      change record? names node = some []
      rw [record?, here]
      rfl

end Yaml.Node

namespace ConfigFile

variable {text : String} {file : ConfigFile}

def OfToml (text : String) (file : ConfigFile) : Prop :=
  ∃ origin members, Toml.parse text = some (.table origin members) ∧
    Toml.format.Spells Toml.Holds (fun name => List.lookup name members) file

def OfYaml (text : String) (file : ConfigFile) : Prop :=
  ∃ node said, Yaml.Node.parse text = some node ∧
    Yaml.Node.Holds keys (node.getD .missing) said ∧
      Yaml.Node.format.Spells Yaml.Node.Holds said file

theorem ofToml?_eq_some : ofToml? text = some file ↔ OfToml text file := by
  simp only [ofToml?, Option.bind_eq_some_iff, Format.configFile?_eq_some Toml.records, OfToml]
  constructor
  · rintro ⟨value, parsed, said, holds, spells⟩
    obtain ⟨origin, members, rfl⟩ := Toml.parse_eq_some parsed
    cases holds
    exact ⟨origin, members, parsed, spells⟩
  · rintro ⟨origin, members, parsed, spells⟩
    exact ⟨_, parsed, _, .table origin members, spells⟩

theorem ofYaml?_eq_some : ofYaml? text = some file ↔ OfYaml text file := by
  simp only [ofYaml?, Option.bind_eq_some_iff, Format.configFile?_eq_some Yaml.Node.records, OfYaml]
  constructor
  · rintro ⟨node, parsed, said, holds, spells⟩
    exact ⟨node, said, parsed, holds, spells⟩
  · rintro ⟨node, said, parsed, holds, spells⟩
    exact ⟨node, parsed, said, holds, spells⟩

end ConfigFile

end BuildGate
