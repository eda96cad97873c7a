import BuildGate.Disk
import BuildGate.Error
import BuildGate.Settings.Format

set_option autoImplicit false

namespace BuildGate

namespace ConfigFile

def names : List (String × (String → Option ConfigFile)) :=
  [("tycheck.toml", ofToml?), ("tycheck.yaml", ofYaml?), ("tycheck.yml", ofYaml?)]

def markers : List String := names.map (·.1) ++ [".git"]

def isRoot (disk : Disk) (path : Path) : Bool := markers.any fun name => disk.has (path.join name)

def detectRoot (disk : Disk) (start : Path) : Path :=
  (start.ancestors.find? (isRoot disk)).getD start

def readFile {α : Type} (disk : Disk) (path : Path) (parse : String → Option α) :
    Except GateError α :=
  match disk.readText path with
  | .error cause => .error (.config path (.io cause))
  | .ok text =>
    match parse text with
    | some value => .ok value
    | none => .error (.config path .unreadable)

def load (disk : Disk) (root : Path) : Except GateError (Option ConfigFile) :=
  match names.find? fun (name, _) => disk.has (root.join name) with
  | none => .ok none
  | some (name, parse) => (readFile disk (root.join name) parse).map some

end ConfigFile

namespace Settings

-- A file given on the command line beats the object in the configuration file, which beats a file
-- given there.
def projectFile? (overrides : Overrides) (file : ConfigFile) : Option String :=
  overrides.projectFile.or (if file.project.isSome then none else file.projectFile)

def commandOr (section? : Option (Option (List String))) (default : List String) : List String :=
  match section? with
  | some (some (program :: arguments)) => program :: arguments
  | _ => default

def flagsOf (values : ByKind (Option Bool)) : Flags :=
  let flag (kind : Kind) : Bool := (values.get kind).getD false
  ⟨flag .options, flag .global, flag .syntactic, flag .semantic, flag .lint⟩

def basePathOf (root : Path) (overrides : Overrides) (file : ConfigFile) : Path :=
  match overrides.basePath.or file.basePath with
  | some inner => root.join inner
  | none => root

def merge (root : Path) (overrides : Overrides) (file : ConfigFile) (project : Json) : Settings where
  basePath := basePathOf root overrides file
  project := project
  lintFile := overrides.lintFile.or file.lintFile
  lintOptions := file.lintOptions
  runType := file.runType.getD default.runType
  name := (overrides.name.or file.name).getD default.name
  yellow := flagsOf file.yellow
  throws := flagsOf file.throws
  quit := (overrides.quit.or file.quit).getD false
  finished := (overrides.finished.or file.finished).getD false
  lintUnit := (overrides.lintUnit.or file.lintUnit).getD default.lintUnit
  compiler := commandOr file.compiler default.compiler
  linter := commandOr file.linter default.linter

def loadProject (disk : Disk) (root : Path) (overrides : Overrides) (file : ConfigFile) :
    Except GateError Json :=
  match projectFile? overrides file with
  | some inner => ConfigFile.readFile disk ((basePathOf root overrides file).join inner) Json.parse
  | none => .ok (file.project.getD default.project)

def resolve (disk : Disk) (start : Option String) (overrides : Overrides) :
    Except GateError Settings :=
  let root := ConfigFile.detectRoot disk ⟨start.getD "."⟩
  match ConfigFile.load disk root with
  | .error error => .error error
  | .ok found =>
    let file := found.getD .empty
    match loadProject disk root overrides file with
    | .error error => .error error
    | .ok project => .ok (merge root overrides file project)

end Settings

end BuildGate
