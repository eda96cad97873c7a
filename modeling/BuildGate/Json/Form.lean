import BuildGate.Json.Number
import BuildGate.Json.Quoted

set_option autoImplicit false

namespace BuildGate.Json

inductive Form
  | null
  | bool (value : Bool)
  | number (form : NumberForm)
  | text (content : Option String)
  | array (items : List Form)
  | object (members : List (Option String × Form))
deriving Repr

namespace Form

def isBlank (c : Char) : Bool := c == ' ' || c == '\n' || c == '\t' || c == '\r'

def skipBlanks (cs : List Char) : List Char := cs.dropWhile isBlank

def readText (cs : List Char) : Option (Option String × List Char) :=
  (Quoted.readPieces cs).map fun (pieces, rest) =>
    ((Quoted.assemble pieces).map String.ofList, rest)

def readKey (cs : List Char) : Option (Option String × List Char) :=
  match skipBlanks cs with
  | '"' :: cs =>
    match readText cs with
    | some (key, rest) =>
      match skipBlanks rest with
      | ':' :: rest => some (key, rest)
      | _ => none
    | none => none
  | _ => none

mutual

def readValue : Nat → List Char → Option (Form × List Char)
  | 0, _ => none
  | fuel + 1, cs =>
    match skipBlanks cs with
    | 'n' :: 'u' :: 'l' :: 'l' :: rest => some (.null, rest)
    | 't' :: 'r' :: 'u' :: 'e' :: rest => some (.bool true, rest)
    | 'f' :: 'a' :: 'l' :: 's' :: 'e' :: rest => some (.bool false, rest)
    | '"' :: rest => (readText rest).map fun (content, rest) => (.text content, rest)
    | '[' :: rest =>
      match skipBlanks rest with
      | ']' :: rest => some (.array [], rest)
      | rest => (readItems fuel rest).map fun (items, rest) => (.array items, rest)
    | '{' :: rest =>
      match skipBlanks rest with
      | '}' :: rest => some (.object [], rest)
      | rest => (readMembers fuel rest).map fun (members, rest) => (.object members, rest)
    | cs => (NumberForm.read cs).map fun (form, rest) => (.number form, rest)

def readItems : Nat → List Char → Option (List Form × List Char)
  | 0, _ => none
  | fuel + 1, cs =>
    match readValue fuel cs with
    | none => none
    | some (item, rest) =>
      match skipBlanks rest with
      | ',' :: rest => (readItems fuel rest).map fun (items, rest) => (item :: items, rest)
      | ']' :: rest => some ([item], rest)
      | _ => none

def readMembers : Nat → List Char → Option (List (Option String × Form) × List Char)
  | 0, _ => none
  | fuel + 1, cs =>
    match readKey cs with
    | none => none
    | some (key, rest) =>
      match readValue fuel rest with
      | none => none
      | some (value, rest) =>
        match skipBlanks rest with
        | ',' :: rest =>
          (readMembers fuel rest).map fun (members, rest) => ((key, value) :: members, rest)
        | '}' :: rest => some ([(key, value)], rest)
        | _ => none

end

-- Reads a whole text. No value takes more than two steps for each character.
def read (cs : List Char) : Option Form :=
  match readValue (2 * cs.length + 2) cs with
  | some (form, rest) => if (skipBlanks rest).isEmpty then some form else none
  | none => none

end Form

end BuildGate.Json
