import BuildGate.Compiler.Options
import BuildGate.Compiler.Output
import BuildGate.Engine
import BuildGate.Host
import BuildGate.LineMap

set_option autoImplicit false

namespace BuildGate.Compiler

structure Source where
  text : String
  modified : Option Int
deriving DecidableEq, Repr

abbrev Sources := List (String × Source)

structure Program where
  files : List String
  sources : Sources
  diagnostics : List (Category × Notice)
deriving Repr

namespace Program

def text? (program : Program) (file : String) : Option String :=
  (program.sources.lookup file).map (·.text)

def ofCategory (program : Program) (category : Category) : List Notice :=
  (program.diagnostics.filter (·.1 = category)).map (·.2)

end Program

-- Whether a text read earlier still stands for a file: its time must be known and the same.
def isCurrent (old : Source) (modified : Option Int) : Bool :=
  modified.isSome && old.modified == modified

def loadSource (disk : Disk) (base : Path) (old : Option Source) (file : String) :
    Except EngineError Source :=
  let path := base.join file
  let modified := disk.modified? path
  let fresh : Except EngineError Source :=
    match disk.readText path with
    | .ok text => .ok ⟨text, modified⟩
    | .error cause => .error (.read path cause)
  match old with
  | some source => if isCurrent source modified then .ok source else fresh
  | none => fresh

-- The sources of some files. An old source serves one file once, and a file that is listed again
-- replaces what was read for it before.
def loadSources (disk : Disk) (base : Path) :
    Sources → Sources → List String → Except EngineError Sources
  | _, loaded, [] => .ok loaded
  | old, loaded, file :: files =>
    match loadSource disk base (old.lookup file) file with
    | .error error => .error error
    | .ok source =>
      loadSources disk base (old.filter (·.1 ≠ file)) (Json.put file source loaded) files

def categoryOf (file : Option String) (code : Nat) : Category :=
  match file with
  | none => if 5000 ≤ code ∧ code ≤ 6999 then .options else .global
  | some _ => if 1000 ≤ code ∧ code ≤ 1999 then .syntactic else .semantic

def offsetOf? (sources : Sources) (position : Position) : Option Nat :=
  (sources.lookup position.file).bind fun source =>
    (LineMap.ofString source.text).offset? (position.line - 1) (position.column - 1)

def noticeOf (sources : Sources) (printed : Printed) : Notice where
  file := printed.position.map (·.file)
  start := printed.position.bind (offsetOf? sources)
  code := printed.code
  level := printed.level
  message := printed.message

def categorize (notice : Notice) : Category × Notice := (categoryOf notice.file notice.code, notice)

def fixedArguments : List String := ["--noEmit", "--pretty", "false"]

def shown (command : List String) : String := " ".intercalate command

def checkResponse (command : List String) (response : Response) : Except EngineError String :=
  if !response.succeeded && (Text.trim response.output.toList).isEmpty then
    .error (.failed (shown command) response.statusNumber response.complaint)
  else .ok response.output

def runCompiler (command : List String) (project : Project) : Action Host EngineError String :=
  match command with
  | [] => .fail (.project .emptyCompiler)
  | program :: own => do
    let response ←
      (Host.start program (own ++ fixedArguments ++ arguments project.options ++ project.files)
        project.basePath).mapError (.spawn (shown command))
    .ofExcept (checkResponse command response)

-- Without files the compiler would look for some itself, so it is not started.
def build (command : List String) (project : Project) (previous : Option Program) :
    Action Host EngineError Program := do
  let disk ← .look Host.disk
  let old := (previous.map (·.sources)).getD []
  let sources ← .ofExcept (loadSources disk project.basePath old [] project.files)
  if project.files = [] then return ⟨[], sources, []⟩
  else do
    let output ← runCompiler command project
    return {
      files := project.files
      sources
      diagnostics := (parseOutput output).map fun printed => categorize (noticeOf sources printed) }

def checker (command : List String) : Checker Host Program where
  resolve project base := fun host => (Project.resolve host.disk project base, host)
  build := build command
  diagnostics program category host := (program.ofCategory category, host)
  files := Program.files
  text? := Program.text?

end BuildGate.Compiler
