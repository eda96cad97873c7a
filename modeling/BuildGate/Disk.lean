import BuildGate.IoError
import BuildGate.Path
import BuildGate.Text.Utf8

/-!
A directory tree and the place in it that relative paths start from. An entry counts only if every
place above it is a directory, which the walk along a path checks step by step.
-/

set_option autoImplicit false

namespace BuildGate

open Text (Bytes)

abbrev Place := List String

inductive Entry
  | file (content : Bytes) (modified : Int)
  | directory (modified : Int)
deriving DecidableEq, Repr

def Entry.modified : Entry → Int
  | file _ modified => modified
  | directory modified => modified

structure Disk where
  entries : List (Place × Entry)
  current : Place
  clock : Int
deriving Repr

namespace Disk

-- The root is a directory without being listed.
def entry? (disk : Disk) : Place → Option Entry
  | [] => some (.directory 0)
  | place => disk.entries.lookup place

def walk (disk : Disk) : Place → List String → Except IoError Place
  | place, [] => .ok place
  | place, piece :: pieces =>
    match disk.entry? place with
    | none => .error .missing
    | some (.file ..) => .error .notDirectory
    | some (.directory _) =>
      if piece = "" ∨ piece = "." then walk disk place pieces
      else if piece = ".." then walk disk place.dropLast pieces
      else if (disk.entry? (place ++ [piece])).isSome then walk disk (place ++ [piece]) pieces
      else .error .missing

def startOf (disk : Disk) (path : Path) : Place := if path.isAbsolute then [] else disk.current

def resolve (disk : Disk) (path : Path) : Except IoError Place :=
  if path.text = "" then .error .missing
  else if holdsNul path.text then .error .nulInPath
  else disk.walk (disk.startOf path) path.pieces

def find (disk : Disk) (path : Path) : Except IoError Entry :=
  match disk.resolve path with
  | .error cause => .error cause
  | .ok place =>
    match disk.entry? place with
    | some entry => .ok entry
    | none => .error .missing

def has (disk : Disk) (path : Path) : Bool := (disk.find path).isOk

def isFile (disk : Disk) (path : Path) : Bool :=
  match disk.find path with
  | .ok (.file ..) => true
  | _ => false

def isDirectory (disk : Disk) (path : Path) : Bool :=
  match disk.find path with
  | .ok (.directory _) => true
  | _ => false

def modified? (disk : Disk) (path : Path) : Option Int := (disk.find path).toOption.map Entry.modified

def readText (disk : Disk) (path : Path) : Except IoError String :=
  match disk.find path with
  | .error cause => .error cause
  | .ok (.directory _) => .error .isDirectory
  | .ok (.file content _) =>
    match Text.decode? content with
    | some text => .ok text
    | none => .error .notText

def names (disk : Disk) (place : Place) : List String :=
  disk.entries.filterMap fun (inner, _) =>
    if inner.dropLast = place then inner.getLast? else none

def directoryAt (disk : Disk) (path : Path) : Except IoError Place :=
  match disk.resolve path with
  | .error cause => .error cause
  | .ok place =>
    match disk.entry? place with
    | some (.directory _) => .ok place
    | some (.file ..) => .error .notDirectory
    | none => .error .missing

def put (disk : Disk) (place : Place) (entry : Entry) : Disk :=
  { disk with entries := disk.entries.filter (·.1 ≠ place) ++ [(place, entry)] }

def remove (disk : Disk) (place : Place) : Disk :=
  { disk with entries := disk.entries.filter fun (inner, _) => !place.isPrefixOf inner }

def makeParents (disk : Disk) (place : Place) : Disk :=
  (List.range (place.length - 1)).foldl (fun disk n =>
    let above := place.take (n + 1)
    if (disk.entry? above).isSome then disk else disk.put above (.directory disk.clock)) disk

def makeDirectory (disk : Disk) (place : Place) : Disk :=
  let disk := disk.makeParents place
  if (disk.entry? place).isSome then disk else disk.put place (.directory disk.clock)

def write (disk : Disk) (place : Place) (content : Bytes) (modified : Int) : Disk :=
  (disk.makeParents place).put place (.file content modified)

def writeNow (disk : Disk) (place : Place) (content : Bytes) : Disk :=
  { disk.put place (.file content disk.clock) with clock := disk.clock + 1 }

def append (disk : Disk) (path : Path) (content : Bytes) : Except IoError Disk :=
  if path.text = "" then .error .missing
  else if holdsNul path.text then .error .nulInPath
  else
    match path.pieces.reverse.dropWhile (· == "") with
    | [] => .error .isDirectory
    | last :: before =>
      match disk.walk (disk.startOf path) before.reverse with
      | .error cause => .error cause
      | .ok parent =>
        match disk.entry? parent with
        | none => .error .missing
        | some (.file ..) => .error .notDirectory
        | some (.directory _) =>
          if last = "." ∨ last = ".." ∨ path.text.toList.getLast? = some '/' then
            .error .isDirectory
          else
            match disk.entry? (parent ++ [last]) with
            | some (.directory _) => .error .isDirectory
            | some (.file old _) => .ok (disk.writeNow (parent ++ [last]) (old ++ content))
            | none => .ok (disk.writeNow (parent ++ [last]) content)

end Disk

end BuildGate
