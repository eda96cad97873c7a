import BuildGate.Settings.Basic
import BuildGate.Toml.Document
import BuildGate.Yaml.Value

set_option autoImplicit false

namespace BuildGate

/-- What values of a format can be read as. -/
structure Format (ν : Type) where
  record? : List String → ν → Option (List (String × ν))
  optional? : ν → Option (Option ν)
  text? : ν → Option String
  bool? : ν → Option Bool
  items? : ν → Option (List ν)
  word? : ν → Option String
  json? : ν → Option Json

namespace Format

variable {ν : Type}

def field? {α : Type} (format : Format ν) (fields : List (String × ν)) (name : String)
    (read : ν → Option α) : Option (Option α) :=
  match fields.lookup name with
  | none => some none
  | some value =>
    match format.optional? value with
    | none => none
    | some none => some none
    | some (some value) => (read value).map some

def command? (format : Format ν) (value : ν) : Option (Option (List String)) := do
  let fields ← format.record? ["command"] value
  format.field? fields "command" fun value =>
    (format.items? value).bind fun items => items.mapM format.text?

def lintOptions? (format : Format ν) (value : ν) : Option LintOptions := do
  let fields ← format.record? ["fix", "rulesDirectory"] value
  let fix ←
    match fields.lookup "fix" with
    | some value => format.bool? value
    | none => some false
  return ⟨fix, ← format.field? fields "rulesDirectory" format.text?⟩

def yellowNames : ByKind String :=
  ⟨"yellowOnOptions", "yellowOnGlobal", "yellowOnSyntactic", "yellowOnSemantic", "yellowOnLint"⟩

def throwNames : ByKind String :=
  ⟨"throwOnOptions", "throwOnGlobal", "throwOnSyntactic", "throwOnSemantic", "throwOnTsLint"⟩

def fieldNames : List String :=
  ["tsConfigObj", "tsConfig", "basePath", "tsLint", "lintoptions", "type", "name"] ++
    Kind.all.map yellowNames.get ++ Kind.all.map throwNames.get ++
    ["quit", "finished", "lintCount", "engine", "lint"]

def flags? (format : Format ν) (fields : List (String × ν)) (names : ByKind String) :
    Option (ByKind (Option Bool)) := do
  let flag (kind : Kind) := format.field? fields (names.get kind) format.bool?
  return ⟨← flag .options, ← flag .global, ← flag .syntactic, ← flag .semantic, ← flag .lint⟩

def configFile? (format : Format ν) (value : ν) : Option ConfigFile := do
  let fields ← format.record? fieldNames value
  let text (name : String) := format.field? fields name format.text?
  let lintOptions ←
    match fields.lookup "lintoptions" with
    | some value => format.lintOptions? value
    | none => some .default
  return {
    project := ← format.field? fields "tsConfigObj" format.json?
    projectFile := ← text "tsConfig"
    basePath := ← text "basePath"
    lintFile := ← text "tsLint"
    lintOptions
    runType := ← text "type"
    name := ← text "name"
    yellow := ← format.flags? fields yellowNames
    throws := ← format.flags? fields throwNames
    quit := ← format.field? fields "quit" format.bool?
    finished := ← format.field? fields "finished" format.bool?
    lintUnit := ← format.field? fields "lintCount" fun value =>
      (format.word? value).bind LintUnit.ofWord?
    compiler := ← format.field? fields "engine" format.command?
    linter := ← format.field? fields "lint" format.command? }

end Format

namespace Toml

-- An array with enough items stands for a record, its items in the order of the fields.
def record? (names : List String) : Toml → Option (List (String × Toml))
  | .table _ members => some (members.filter fun (key, _) => names.contains key)
  | .array _ items => if names.length ≤ items.length then some (names.zip items) else none
  | _ => none

def word? : Toml → Option String
  | .text value => some value
  | .table _ [(word, .table _ [])] | .table _ [(word, .array _ [])] => some word
  | _ => none

def format : Format Toml where
  record? := record?
  optional? value := some (some value)
  text?
    | .text value => some value
    | _ => none
  bool?
    | .bool value => some value
    | _ => none
  items?
    | .array _ items => some items
    | _ => none
  word? := word?
  json? := toJson?

end Toml

namespace Yaml.Node

def target? : Node → Option Node
  | .alias (some target) => target? target
  | .alias none => none
  | node => some node

def isBare (style : Style) (text : String) : Bool := style == .plain && text == ""

def knownFields? (names : List String) : List (Node × Node) → Option (List (String × Node))
  | [] => some []
  | (key, value) :: fields =>
    match text? key, knownFields? names fields with
    | some key, some known =>
      if !names.contains key then some known
      else if (known.lookup key).isSome then none
      else some ((key, value) :: known)
    | _, _ => none

def record? (names : List String) (node : Node) : Option (List (String × Node)) :=
  match node.target? with
  | some (.mapping _ fields) => knownFields? names fields
  | some (.scalar _ style text) => if isBare style text then some [] else none
  | _ => none

def saysNothing (text : String) : Bool := text == "" || Scalar.isNull text

def optional? (node : Node) : Option (Option Node) :=
  match node.target? with
  | some (.scalar tag .plain text) =>
    if tag = some (Scalar.standardTag "null") then if Scalar.isNull text then some none else none
    else if tag = none ∧ saysNothing text then some none
    else some (some node)
  | some _ => some (some node)
  | none => none

def bool? (node : Node) : Option Bool :=
  match node.scalar? with
  | some (_, .plain, text) => Scalar.bool? text
  | some (tag, .literal, text) =>
    if tag = some (Scalar.standardTag "bool") then Scalar.bool? text else none
  | _ => none

def items? (node : Node) : Option (List Node) :=
  match node.target? with
  | some (.sequence _ items) => some items
  | some (.scalar _ style text) => if isBare style text then some [] else none
  | _ => none

def word? (node : Node) : Option String :=
  match node.scalar? with
  | some (tag, style, text) =>
    match customTag? tag with
    | some name => if style = .plain ∧ saysNothing text then some name else none
    | none => some text
  | none => none

def format : Format Node where
  record? := record?
  optional? := optional?
  text? := text?
  bool? := bool?
  items? := items?
  word? := word?
  json? := toJson? (depthLimit - 1)

end Yaml.Node

namespace ConfigFile

def ofToml? (text : String) : Option ConfigFile :=
  (Toml.parse text).bind Toml.format.configFile?

def ofYaml? (text : String) : Option ConfigFile :=
  (Yaml.Node.parse text).bind fun node => Yaml.Node.format.configFile? (node.getD .missing)

end ConfigFile

end BuildGate
