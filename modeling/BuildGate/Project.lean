import BuildGate.Disk
import BuildGate.Error
import BuildGate.Glob.Search
import BuildGate.Json.Value

set_option autoImplicit false

namespace BuildGate

structure Project where
  files : List String
  options : Json
  basePath : Path
deriving Repr

namespace Project

def sourceExtensions : List String := ["ts", "tsx"]

def isSource (path : Path) : Bool := path.extension?.any sourceExtensions.contains

def strings? (members : List (String × Json)) (key : String) :
    Except ProjectFault (Option (List String)) :=
  match members.lookup key with
  | none => .ok none
  | some (.array items) =>
    match items.mapM Json.text? with
    | some texts => .ok (some texts)
    | none => .error (.notStrings key)
  | some _ => .error (.notArray key)

structure Selection where
  files : List String
  patterns : List String
  excluded : List String
deriving DecidableEq, Repr

-- Without patterns a list of files stands alone; without both, all files are meant.
def selection? (members : List (String × Json)) : Except ProjectFault Selection := do
  let files ← strings? members "files"
  let patterns ← strings? members "include"
  let excluded ← strings? members "exclude"
  return {
    files := files.getD []
    patterns := patterns.getD (if (members.lookup "files").isSome then [] else ["**/*"])
    excluded := excluded.getD ["node_modules"] }

def dropSlashes (text : String) : String :=
  String.ofList (text.toList.reverse.dropWhile (· == '/')).reverse

def lastSegment (text : String) : List Char := (text.toList.reverse.takeWhile (· != '/')).reverse

def expandDirectory (pattern : String) : String :=
  if (lastSegment pattern).any fun c => c == '*' || c == '?' || c == '.' then pattern
  else dropSlashes pattern ++ "/**/*"

def exclusionTexts (entry : String) : List String :=
  [dropSlashes entry, dropSlashes entry ++ "/**"]

def parsePattern (text : String) : Except EngineError Glob.Pattern :=
  match Glob.parse text with
  | .ok pattern => .ok pattern
  | .error fault => .error (.glob text fault)

def exclusions (excluded : List String) : Except EngineError (List Glob.Pattern) :=
  (excluded.flatMap exclusionTexts).mapM parsePattern

def nameOf (base path : Path) : String :=
  let relative := (path.relativeTo? base).getD path
  String.ofList (relative.text.toList.map fun c => if c = '\\' then '/' else c)

def included (disk : Disk) (base : Path) (exclusions : List Glob.Pattern) (pattern : String) :
    Except EngineError (List String) :=
  match Glob.search disk (base.join (expandDirectory pattern)).text with
  | .error fault => .error (.glob pattern fault)
  | .ok paths =>
    let sources := paths.filter fun path => disk.isFile path && isSource path
    .ok ((sources.map (nameOf base)).filter fun name => !exclusions.any (·.matches name))

def insertName (name : String) : List String → List String
  | [] => [name]
  | other :: names =>
    if name < other then name :: other :: names
    else if name = other then other :: names
    else other :: insertName name names

def sortNames (names : List String) : List String := names.foldr insertName []

def optionsOf (members : List (String × Json)) : Json :=
  (members.lookup "compilerOptions").getD .emptyObject

def resolveMembers (disk : Disk) (members : List (String × Json)) (base : Path) :
    Except EngineError Project :=
  match selection? members with
  | .error fault => .error (.project fault)
  | .ok selection => do
    let exclusions ← exclusions selection.excluded
    let found ← selection.patterns.mapM (included disk base exclusions)
    return {
      files := sortNames (selection.files ++ found.flatten)
      options := optionsOf members
      basePath := base }

/-- The project that an object stands for. Its file names are sorted. -/
def resolve (disk : Disk) (project : Json) (base : Path) : Except EngineError Project :=
  match project with
  | .object members => resolveMembers disk members base
  | _ => .error (.project .notObject)

end Project

end BuildGate
