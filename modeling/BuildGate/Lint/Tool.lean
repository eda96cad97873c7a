import BuildGate.Engine
import BuildGate.Host
import BuildGate.Lint.Output
import BuildGate.Yaml.Value

set_option autoImplicit false

namespace BuildGate.Lint

structure Configuration where
  path : Path
  basePath : Path
deriving DecidableEq, Repr

def isYaml (path : Path) : Bool := path.extension?.any ["yaml", "yml"].contains

def isMapping? (yaml : Bool) (text : String) : Option Bool :=
  if yaml then (Yaml.Value.parse text).map (·.isMapping)
  else
    (Json.parse text).map fun
      | .object _ => true
      | _ => false

def findConfiguration (disk : Disk) (path basePath : Path) : Except EngineError Configuration :=
  if disk.isFile path then
    match disk.readText path with
    | .error cause => .error (.read path cause)
    | .ok text =>
      match isMapping? (isYaml path) text with
      | some true => .ok ⟨path, basePath⟩
      | some false => .error (.lintConfigMalformed path .notMapping)
      | none => .error (.lintConfigMalformed path .unreadable)
  else .error (.lintConfigMissing path)

def arguments (configuration : Configuration) (options : LintOptions) (file : String) :
    List String :=
  ["-c", configuration.path.text, "-t", "json"] ++ (if options.fix then ["--fix"] else []) ++
    (match options.rulesDirectory with
      | some directory => ["-r", directory]
      | none => []) ++
    [file]

def failuresFound : Int := 2

def readResponse (command : List String) (file : String) (response : Response) :
    Except EngineError (List Failure) :=
  if !response.succeeded && response.statusNumber != failuresFound then
    .error (.failed (" ".intercalate command) response.statusNumber response.complaint)
  else
    match parseFailures file response.output with
    | some failures => .ok failures
    | none => .error (.lintOutput file)

def lintFile (command : List String) (file : String) (configuration : Configuration)
    (options : LintOptions) : Action Host EngineError (List Failure) :=
  match command with
  | [] => .fail (.project .emptyLinter)
  | program :: own => do
    let response ←
      (Host.start program (own ++ arguments configuration options file)
        configuration.basePath).mapError (.spawn (" ".intercalate command))
    .ofExcept (readResponse command file response)

def tool {π : Type} (command : List String) (files : π → List String) :
    Linter Host π Configuration where
  configuration path basePath := fun host => (findConfiguration host.disk path basePath, host)
  files := files
  lint file _ configuration options := lintFile command file configuration options

end BuildGate.Lint
