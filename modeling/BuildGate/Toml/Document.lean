import BuildGate.Toml.Scalar

set_option autoImplicit false

namespace BuildGate.Toml

def isBareKey (c : Char) : Bool := c.isAlphanum || c == '_' || c == '-'

def skipSpace (cs : List Char) : List Char := cs.dropWhile isSpace

def skipComment : List Char → List Char
  | '#' :: cs => cs.dropWhile isInline
  | cs => cs

def lineEnd? (cs : List Char) : Option (List Char) :=
  match skipComment (skipSpace cs) with
  | [] => some []
  | cs => newline? cs

def skipTrivia : Nat → List Char → List Char
  | 0, cs => cs
  | fuel + 1, cs =>
    let cs := skipComment (skipSpace cs)
    match newline? cs with
    | some rest => skipTrivia fuel rest
    | none => cs

def readSimpleKey (cs : List Char) : Option (String × List Char) :=
  match cs with
  | '"' :: rest => (readBasic rest).map fun (key, rest) => (String.ofList key, rest)
  | '\x27' :: rest => (readLiteral rest).map fun (key, rest) => (String.ofList key, rest)
  | cs =>
    let key := cs.takeWhile isBareKey
    if key = [] then none else some (String.ofList key, cs.dropWhile isBareKey)

def readKey : Nat → List Char → Option (List String × List Char)
  | 0, _ => none
  | fuel + 1, cs =>
    match readSimpleKey (skipSpace cs) with
    | none => none
    | some (key, rest) =>
      match skipSpace rest with
      | '.' :: rest => (readKey fuel rest).map fun (path, rest) => (key :: path, rest)
      | rest => some ([key], rest)

mutual

def readValue : Nat → Nat → List Char → Option (Toml × List Char)
  | 0, _, _ => none
  | fuel + 1, depth, cs =>
    match cs with
    | '"' :: '"' :: '"' :: rest =>
      (readBlock false (dropNewline rest)).map fun (cs, rest) => (.text (String.ofList cs), rest)
    | '"' :: rest => (readBasic rest).map fun (cs, rest) => (.text (String.ofList cs), rest)
    | '\x27' :: '\x27' :: '\x27' :: rest =>
      (readLiteralBlock (dropNewline rest)).map fun (cs, rest) => (.text (String.ofList cs), rest)
    | '\x27' :: rest => (readLiteral rest).map fun (cs, rest) => (.text (String.ofList cs), rest)
    | '[' :: rest =>
      if depth = 0 then none
      else (readItems fuel (depth - 1) rest).map fun (items, rest) => (.array false items, rest)
    | '{' :: rest =>
      if depth = 0 then none
      else
        (readFields fuel (depth - 1) [] rest).map fun (members, rest) =>
          (.table .closed members, rest)
    | cs => readPlain cs

def readItems : Nat → Nat → List Char → Option (List Toml × List Char)
  | 0, _, _ => none
  | fuel + 1, depth, cs =>
    match skipTrivia cs.length cs with
    | ']' :: rest => some ([], rest)
    | cs =>
      match readValue fuel depth cs with
      | none => none
      | some (item, rest) =>
        match skipTrivia rest.length rest with
        | ']' :: rest => some ([item], rest)
        | ',' :: rest => (readItems fuel depth rest).map fun (items, rest) => (item :: items, rest)
        | _ => none

def readFields : Nat → Nat → Members → List Char → Option (Members × List Char)
  | 0, _, _, _ => none
  | fuel + 1, depth, members, cs =>
    match skipTrivia cs.length cs with
    | '}' :: rest => some (members, rest)
    | cs =>
      match readKey cs.length cs with
      | some (path, '=' :: rest) =>
        match readValue fuel depth (skipSpace rest) with
        | none => none
        | some (value, rest) =>
          match assign value path members with
          | none => none
          | some members =>
            match skipTrivia rest.length rest with
            | '}' :: rest => some (members, rest)
            | ',' :: rest => readFields fuel depth members rest
            | _ => none
      | _ => none

end

def depthLimit : Nat := 80

structure Draft where
  members : Members
  header : List String

def Draft.empty : Draft := ⟨[], []⟩

def readHeader (draft : Draft) (cs : List Char) : Option (Draft × List Char) :=
  match cs with
  | '[' :: cs =>
    match readKey cs.length cs with
    | some (path, ']' :: ']' :: rest) =>
      match path.getLast? with
      | some key => (enter (openItem key) path.dropLast draft.members).map (⟨⟨·, path⟩, rest⟩)
      | none => none
    | _ => none
  | cs =>
    match readKey cs.length cs with
    | some (path, ']' :: rest) =>
      match path.getLast? with
      | some key => (enter (openTable key) path.dropLast draft.members).map (⟨⟨·, path⟩, rest⟩)
      | none => none
    | _ => none

def readSetting (draft : Draft) (cs : List Char) : Option (Draft × List Char) :=
  match readKey cs.length cs with
  | some (path, '=' :: rest) =>
    match readValue (2 * rest.length + 2) depthLimit (skipSpace rest) with
    | some (value, rest) =>
      (enter (assign value path) draft.header draft.members).map (⟨⟨·, draft.header⟩, rest⟩)
    | none => none
  | _ => none

def readLines : Nat → Draft → List Char → Option Members
  | 0, draft, cs => if cs.isEmpty then some draft.members else none
  | fuel + 1, draft, cs =>
    if cs.isEmpty then some draft.members
    else
      match lineEnd? cs with
      | some rest => readLines fuel draft rest
      | none =>
        let read :=
          match skipSpace cs with
          | '[' :: cs => readHeader draft cs
          | cs => readSetting draft cs
        match read with
        | none => none
        | some (draft, rest) => (lineEnd? rest).bind (readLines fuel draft)

def parse (text : String) : Option Toml :=
  let cs := text.toList
  let cs := if cs.head? = some '\ufeff' then cs.drop 1 else cs
  (readLines cs.length .empty cs).map (.table .opened)

end BuildGate.Toml
