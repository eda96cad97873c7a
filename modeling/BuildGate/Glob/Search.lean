import BuildGate.Disk
import BuildGate.Glob.Match

/-!
Walking a disk along a glob pattern, one component at a time. A component without wildcards is
joined to the path as it is, one with wildcards chooses among the names of a directory, and `**`
stands for everything below.
-/

set_option autoImplicit false

namespace BuildGate.Glob

def componentTexts (pattern : List Char) : List (List Char) :=
  let pieces := pattern.splitOn '/'
  if pieces.getLast? = some [] then pieces.dropLast else pieces

def isRecursive (pattern : Pattern) : Bool := pattern.contains .anyDirectories

def literalText? (pattern : Pattern) : Option (List Char) :=
  pattern.mapM fun
    | .literal c => some c
    | _ => none

def squash : List Pattern → List Pattern
  | p :: q :: rest => if isRecursive p && isRecursive q then squash (q :: rest) else p :: squash (q :: rest)
  | patterns => patterns

def childOf (path : Path) (name : String) : Path :=
  if path.parts = [.here] then ⟨name⟩ else path.join name

def children (disk : Disk) (path : Path) : List Path :=
  match disk.directoryAt path with
  | .ok place => (disk.names place).map (childOf path)
  | .error _ => []

def below (disk : Disk) : Nat → Path → List Path
  | 0, _ => []
  | fuel + 1, path =>
    (children disk path).flatMap fun child => child :: below disk fuel child

-- No path leads further down than the longest place is long.
def depth (disk : Disk) : Nat := (disk.entries.map (·.1.length)).foldr max 0 + 1

def matchesName (pattern : Pattern) (path : Path) : Bool :=
  path.fileName?.any pattern.matches

def literalStep (disk : Disk) (path : Path) (name : String) : List Path :=
  let next := childOf path name
  if name = "." ∨ name = ".." then if disk.isDirectory path then [next] else []
  else if disk.has next then [next] else []

-- Only a pattern that starts with a dot can mean the directory itself or the one above.
def dotSteps (disk : Disk) (pattern : Pattern) (path : Path) : List Path :=
  if pattern.head? = some (.literal '.') ∧ disk.isDirectory path then
    ([".", ".."].filter pattern.matches).map path.join
  else []

def expand (disk : Disk) : List Pattern → Path → List Path
  | [], path => [path]
  | p :: ps, path =>
    if isRecursive p then
      match ps with
      | [] => (below disk (depth disk) path).filter disk.isDirectory
      | q :: qs =>
        ((below disk (depth disk) path).filter (matchesName q)).flatMap (expand disk qs)
    else
      match literalText? p with
      | some name => (literalStep disk path (String.ofList name)).flatMap (expand disk ps)
      | none =>
        ((children disk path).filter (matchesName p) ++ dotSteps disk p path).flatMap
          (expand disk ps)

def search (disk : Disk) (pattern : String) : Except Fault (List Path) := do
  let _ ← parse pattern
  let chars := pattern.toList
  let absolute := chars.head? = some '/'
  let rest := if absolute then chars.drop 1 else chars
  let components ← (componentTexts rest).mapM fun text => parse (String.ofList text)
  let components := if rest = [] then [[]] else squash components
  let found := expand disk components ⟨if absolute then "/" else "."⟩
  pure (if chars.getLast? = some '/' then found.filter disk.isDirectory else found)

end BuildGate.Glob
