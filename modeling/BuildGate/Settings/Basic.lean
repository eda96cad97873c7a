import BuildGate.Finding.Kind
import BuildGate.Json.Value
import BuildGate.Path

set_option autoImplicit false

namespace BuildGate

inductive LintUnit
  | files
  | failures
deriving DecidableEq, Repr

namespace LintUnit

def all : List LintUnit := [files, failures]

def word : LintUnit → String
  | files => "files"
  | failures => "failures"

def ofWord? (text : String) : Option LintUnit := all.find? fun unit => unit.word == text

end LintUnit

structure LintOptions where
  fix : Bool
  rulesDirectory : Option String
deriving DecidableEq, Repr

def LintOptions.default : LintOptions := ⟨false, none⟩

structure ConfigFile where
  project : Option Json
  projectFile : Option String
  basePath : Option String
  lintFile : Option String
  lintOptions : LintOptions
  runType : Option String
  name : Option String
  yellow : ByKind (Option Bool)
  throws : ByKind (Option Bool)
  quit : Option Bool
  finished : Option Bool
  lintUnit : Option LintUnit
  compiler : Option (Option (List String))
  linter : Option (Option (List String))
deriving Repr

def ConfigFile.empty : ConfigFile where
  project := none
  projectFile := none
  basePath := none
  lintFile := none
  lintOptions := .default
  runType := none
  name := none
  yellow := ByKind.const none
  throws := ByKind.const none
  quit := none
  finished := none
  lintUnit := none
  compiler := none
  linter := none

structure Overrides where
  basePath : Option String
  projectFile : Option String
  lintFile : Option String
  name : Option String
  quit : Option Bool
  finished : Option Bool
  lintUnit : Option LintUnit
deriving DecidableEq, Repr

def Overrides.empty : Overrides := ⟨none, none, none, none, none, none, none⟩

structure Settings where
  basePath : Path
  project : Json
  lintFile : Option String
  lintOptions : LintOptions
  runType : String
  name : String
  yellow : Flags
  throws : Flags
  quit : Bool
  finished : Bool
  lintUnit : LintUnit
  compiler : List String
  linter : List String
deriving Repr

def Settings.default : Settings where
  basePath := ⟨"."⟩
  project := .emptyObject
  lintFile := none
  lintOptions := .default
  runType := "sync"
  name := "tycheck"
  yellow := .none
  throws := .none
  quit := false
  finished := false
  lintUnit := .files
  compiler := ["tsc"]
  linter := ["tslint"]

end BuildGate
