import BuildGate.Finding.Diagnostic
import BuildGate.Text.Blank
import BuildGate.Text.Digit
import BuildGate.Text.Lines

set_option autoImplicit false

namespace BuildGate.Compiler

-- Lines and columns are counted from 1.
structure Position where
  file : String
  line : Nat
  column : Nat
deriving DecidableEq, Repr

structure Printed where
  position : Option Position
  level : Level
  code : Nat
  message : Message
deriving Repr

abbrev Part := Nat × String

def splitDeeper (depth : Nat) (parts : List Part) : List Part × List Part :=
  (parts.takeWhile (depth < ·.1), parts.dropWhile (depth < ·.1))

def nestAll (depth : Nat) : List Part → List Message
  | [] => []
  | (_, text) :: parts =>
    let causes := nestAll (depth + 1) (splitDeeper (depth + 1) parts).1
    (if causes.isEmpty then .plain text else .chain text causes) ::
      nestAll depth (splitDeeper (depth + 1) parts).2
termination_by parts => parts.length
decreasing_by
  · exact Nat.lt_succ_of_le (List.takeWhile_sublist _).length_le
  · exact Nat.lt_succ_of_le (List.dropWhile_sublist _).length_le

def nest (head : String) (parts : List Part) : Message :=
  match nestAll 0 parts with
  | [] => .plain head
  | causes => .chain head causes

def after? : List Char → List Char → Option (List Char)
  | [], cs => some cs
  | l :: lead, c :: cs => if l = c then after? lead cs else none
  | _ :: _, [] => none

def readDigits (cs : List Char) : Option (List Char × List Char) :=
  match cs.takeWhile Text.isDigit with
  | [] => none
  | digits => some (digits, cs.dropWhile Text.isDigit)

structure Head where
  level : Level
  code : List Char
  text : List Char
deriving DecidableEq, Repr

def Head.readAt (level : Level) (cs : List Char) : Option Head := do
  let cs ← after? level.word.toList cs
  let cs ← after? " TS".toList cs
  let (code, cs) ← readDigits cs
  let text ← after? ": ".toList cs
  return ⟨level, code, text⟩

def Head.read (cs : List Char) : Option Head := Level.all.findSome? (Head.readAt · cs)

def readLocated (cs : List Char) : Option (List Char × List Char × Head) := do
  let cs ← after? ['('] cs
  let (line, cs) ← readDigits cs
  let cs ← after? [','] cs
  let (column, cs) ← readDigits cs
  let cs ← after? "): ".toList cs
  let head ← Head.read cs
  return (line, column, head)

/-- The longest file name, one character at least, that a position follows. -/
def readFile : List Char → Option (List Char × List Char × List Char × Head)
  | [] => none
  | c :: cs =>
    match readFile cs with
    | some (file, found) => some (c :: file, found)
    | none => (readLocated cs).map ([c], ·)

-- A line or column that is no number of 64 bits counts as 1.
def ordinal (digits : List Char) : Nat := (Text.readBelow Word.size digits).getD 1

def codeOf (digits : List Char) : Nat := (Text.readBelow (Word.count 32) digits).getD 0

structure Opening where
  position : Option Position
  level : Level
  code : Nat
  text : String
deriving DecidableEq, Repr

def Opening.read (cs : List Char) : Option Opening :=
  match readFile cs with
  | some (file, line, column, head) =>
    some ⟨some ⟨String.ofList file, ordinal line, ordinal column⟩, head.level, codeOf head.code,
      String.ofList head.text⟩
  | none =>
    (Head.read cs).map fun head => ⟨none, head.level, codeOf head.code, String.ofList head.text⟩

inductive Line
  | opens (opening : Opening)
  | continues (part : Part)
  | noise
deriving DecidableEq, Repr

def depthOf (blanks : List Char) : Nat := max 1 ((Text.encodeChars blanks).length / 2)

def Line.read (cs : List Char) : Line :=
  let cs := Text.trimEnd cs
  match Text.leadingBlanks cs with
  | [] =>
    match Opening.read cs with
    | some opening => .opens opening
    | none => .noise
  | blanks => .continues (depthOf blanks, String.ofList (Text.trimStart cs))

def takeParts : List Line → List Part
  | [] => []
  | .opens _ :: _ => []
  | .continues part :: lines => part :: takeParts lines
  | .noise :: lines => takeParts lines

def group : List Line → List (Opening × List Part)
  | [] => []
  | .opens opening :: lines => (opening, takeParts lines) :: group lines
  | _ :: lines => group lines

def Printed.make (opening : Opening) (parts : List Part) : Printed :=
  ⟨opening.position, opening.level, opening.code, nest opening.text parts⟩

def parseOutput (output : String) : List Printed :=
  (group ((Text.lines output.toList).map Line.read)).map fun (opening, parts) =>
    Printed.make opening parts

end BuildGate.Compiler
