/-!
Paths as text. Joining and taking parents work on the text and ask no disk; `parts` is the reading
in which repeated slashes and inner dots do not count.
-/

set_option autoImplicit false

namespace BuildGate

structure Path where
  text : String
deriving DecidableEq, Repr

namespace Path

inductive Part
  | root
  | here
  | up
  | name (text : String)
deriving DecidableEq, Repr

namespace Part

def text : Part → String
  | root => "/"
  | here => "."
  | up => ".."
  | name text => text

def ofPiece (piece : String) : Option Part :=
  if piece = "" ∨ piece = "." then none
  else if piece = ".." then some up
  else some (name piece)

end Part

def pieces (path : Path) : List String := (path.text.toList.splitOn '/').map String.ofList

def isAbsolute (path : Path) : Bool := path.text.toList.head? == some '/'

def parts (path : Path) : List Part :=
  match path.pieces with
  | [] => []
  | first :: rest =>
    (if path.isAbsolute then [.root]
      else if first = "." then [.here]
      else (Part.ofPiece first).toList) ++ rest.filterMap Part.ofPiece

def join (outer : Path) (inner : String) : Path :=
  if (⟨inner⟩ : Path).isAbsolute then ⟨inner⟩
  else if outer.text = "" ∨ outer.text.toList.getLast? = some '/' then ⟨outer.text ++ inner⟩
  else ⟨outer.text ++ "/" ++ inner⟩

def ofParts (parts : List Part) : Path := parts.foldl (fun path part => path.join part.text) ⟨""⟩

def isIdle (piece : String) : Bool := piece == "" || piece == "."

def dropIdleEnd (pieces : List String) : List String := (pieces.reverse.dropWhile isIdle).reverse

def ofPieces (first : String) (rest : List String) : Path :=
  if first = "" ∧ rest = [] then ⟨"/"⟩ else ⟨"/".intercalate (first :: rest)⟩

def parent? (path : Path) : Option Path :=
  match path.pieces with
  | [] => none
  | first :: rest =>
    match (dropIdleEnd rest).reverse with
    | _ :: before => some (ofPieces first (dropIdleEnd before.reverse))
    | [] => if first = "" then none else some ⟨""⟩

def ancestorsFrom : Nat → Path → List Path
  | 0, path => [path]
  | fuel + 1, path =>
    match path.parent? with
    | some parent => path :: ancestorsFrom fuel parent
    | none => [path]

def ancestors (path : Path) : List Path := ancestorsFrom path.pieces.length path

def fileName? (path : Path) : Option String :=
  match path.parts.getLast? with
  | some (.name text) => some text
  | _ => none

def extension? (path : Path) : Option String :=
  path.fileName?.bind fun name =>
    match (name.toList.splitOn '.').reverse with
    | [] | [_] | [_, []] => none
    | after :: _ => some (String.ofList after)

def diffRest : List Part → List Part → Option (List Part)
  | path, [] => some path
  | [], base => some (base.map fun _ => .up)
  | a :: path, b :: base =>
    if b = .here then (diffRest path base).map (a :: ·)
    else if b = .up then none
    else some (.up :: (base.map fun _ => .up) ++ a :: path)

def diffParts : List Part → List Part → Option (List Part)
  | a :: path, b :: base =>
    if a = b then diffParts path base else diffRest (a :: path) (b :: base)
  | path, base => diffRest path base

def relativeTo? (path base : Path) : Option Path :=
  if path.isAbsolute = base.isAbsolute then (diffParts path.parts base.parts).map ofParts
  else if path.isAbsolute then some path
  else none

end Path

end BuildGate
