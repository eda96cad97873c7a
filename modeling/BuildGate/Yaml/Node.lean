import BuildGate.Yaml.Token

set_option autoImplicit false

namespace BuildGate.Yaml

inductive Node
  | scalar (tag : Option String) (style : Style) (text : String)
  | sequence (tag : Option String) (items : List Node)
  | mapping (tag : Option String) (fields : List (Node × Node))
  | alias (target : Option Node)
deriving Repr

namespace Node

def missing : Node := .scalar none .plain ""

abbrev Anchors := List (String × Option Node)

def note (anchor : Option String) (node : Option Node) (anchors : Anchors) : Anchors :=
  match anchor with
  | some name => (name, node) :: anchors
  | none => anchors

abbrev Handles := List (String × String)

def Handles.standard : Handles := [("!", "!"), ("!!", "tag:yaml.org,2002:")]

def tagOf? (handles : Handles) (handle text : String) : Option String :=
  if handle = "" then some text else (handles.lookup handle).map (· ++ text)

structure Properties where
  anchor : Option String
  tag : Option String

def readProperties (handles : Handles) :
    List Token → Option (Properties × List Token)
  | .anchor name :: .tag handle text :: rest =>
    (tagOf? handles handle text).map fun tag => (⟨some name, some tag⟩, rest)
  | .anchor name :: rest => some (⟨some name, none⟩, rest)
  | .tag handle text :: .anchor name :: rest =>
    (tagOf? handles handle text).map fun tag => (⟨some name, some tag⟩, rest)
  | .tag handle text :: rest =>
    (tagOf? handles handle text).map fun tag => (⟨none, some tag⟩, rest)
  | tokens => some (⟨none, none⟩, tokens)

def scalarTag : Option String → Option String
  | some "!" => none
  | tag => tag

def startsIn (marks : List Token) (tokens : List Token) : Bool :=
  tokens.head?.any marks.contains

mutual

-- A node. Blocks are read only where `block` says so, and a sequence without indentation of its
-- own only where `flush` does.
def read (handles : Handles) (block flush : Bool) :
    Nat → Anchors → List Token → Option (Node × Anchors × List Token)
  | 0, _, _ => none
  | _ + 1, anchors, .alias name :: rest => do
    let target ← anchors.lookup name
    return (.alias target, anchors, rest)
  | fuel + 1, anchors, tokens => do
    let (properties, tokens) ← readProperties handles tokens
    let tag := properties.tag
    let inner := note properties.anchor none anchors
    let (node, anchors, rest) ← match tokens with
      | .blockEntry :: rest =>
        if flush then do
          let (items, anchors, rest) ← readEntries handles true fuel inner (.blockEntry :: rest)
          pure (Node.sequence tag items, anchors, rest)
        else readMissing properties inner tokens
      | .scalar style text :: rest => pure (.scalar (scalarTag tag) style text, inner, rest)
      | .flowSequence :: rest => do
        let (items, anchors, rest) ← readFlowItems handles true fuel inner rest
        pure (.sequence tag items, anchors, rest)
      | .flowMapping :: rest => do
        let (fields, anchors, rest) ← readFlowFields handles true fuel inner rest
        pure (.mapping tag fields, anchors, rest)
      | .blockSequence :: rest =>
        if block then do
          let (items, anchors, rest) ← readEntries handles false fuel inner rest
          pure (.sequence tag items, anchors, rest)
        else readMissing properties inner tokens
      | .blockMapping :: rest =>
        if block then do
          let (fields, anchors, rest) ← readFields handles fuel inner rest
          pure (.mapping tag fields, anchors, rest)
        else readMissing properties inner tokens
      | tokens => readMissing properties inner tokens
    return (node, note properties.anchor (some node) anchors, rest)

def readMissing (properties : Properties) (anchors : Anchors) (tokens : List Token) :
    Option (Node × Anchors × List Token) :=
  if properties.anchor.isSome || properties.tag.isSome then
    some (.scalar (scalarTag properties.tag) .plain "", anchors, tokens)
  else none

def readOr (handles : Handles) (block flush : Bool) (marks : List Token) :
    Nat → Anchors → List Token → Option (Node × Anchors × List Token)
  | 0, _, _ => none
  | fuel + 1, anchors, tokens =>
    if startsIn marks tokens then some (missing, anchors, tokens)
    else read handles block flush fuel anchors tokens

def readEntries (handles : Handles) (flush : Bool) :
    Nat → Anchors → List Token → Option (List Node × Anchors × List Token)
  | 0, _, _ => none
  | fuel + 1, anchors, .blockEntry :: rest => do
    let marks := if flush then [.blockEntry, .key, .value, .blockEnd] else [.blockEntry, .blockEnd]
    let (item, anchors, rest) ← readOr handles true false marks fuel anchors rest
    let (items, anchors, rest) ← readEntries handles flush fuel anchors rest
    return (item :: items, anchors, rest)
  | _ + 1, anchors, tokens =>
    if flush then some ([], anchors, tokens)
    else
      match tokens with
      | .blockEnd :: rest => some ([], anchors, rest)
      | _ => none

def readFields (handles : Handles) :
    Nat → Anchors → List Token → Option (List (Node × Node) × Anchors × List Token)
  | 0, _, _ => none
  | fuel + 1, anchors, .key :: rest => do
    let marks := [.key, .value, .blockEnd]
    let (key, anchors, rest) ← readOr handles true true marks fuel anchors rest
    let (value, anchors, rest) ← match rest with
      | .value :: rest => readOr handles true true marks fuel anchors rest
      | _ => pure (missing, anchors, rest)
    let (fields, anchors, rest) ← readFields handles fuel anchors rest
    return ((key, value) :: fields, anchors, rest)
  | _ + 1, anchors, .blockEnd :: rest => some ([], anchors, rest)
  | _ + 1, _, _ => none

def readFlowItems (handles : Handles) (first : Bool) :
    Nat → Anchors → List Token → Option (List Node × Anchors × List Token)
  | 0, _, _ => none
  | _ + 1, anchors, .flowSequenceEnd :: rest => some ([], anchors, rest)
  | fuel + 1, anchors, tokens => do
    let tokens ← match first, tokens with
      | true, tokens => pure tokens
      | false, .flowEntry :: rest => pure rest
      | false, _ => none
    match tokens with
    | .flowSequenceEnd :: rest => return ([], anchors, rest)
    | .key :: rest => do
      let (field, anchors, rest) ← readPair handles fuel anchors rest
      let (items, anchors, rest) ← readFlowItems handles false fuel anchors rest
      return (.mapping none [field] :: items, anchors, rest)
    | tokens => do
      let (item, anchors, rest) ← read handles false false fuel anchors tokens
      let (items, anchors, rest) ← readFlowItems handles false fuel anchors rest
      return (item :: items, anchors, rest)

def readPair (handles : Handles) :
    Nat → Anchors → List Token → Option ((Node × Node) × Anchors × List Token)
  | 0, _, _ => none
  | fuel + 1, anchors, tokens => do
    let (key, anchors, rest) ←
      if startsIn [.value, .flowEntry, .flowSequenceEnd] tokens then
        pure (missing, anchors, tokens.drop 1)
      else read handles false false fuel anchors tokens
    let (value, anchors, rest) ← match rest with
      | .value :: rest =>
        readOr handles false false [.flowEntry, .flowSequenceEnd] fuel anchors rest
      | _ => pure (missing, anchors, rest)
    return ((key, value), anchors, rest)

def readFlowFields (handles : Handles) (first : Bool) :
    Nat → Anchors → List Token → Option (List (Node × Node) × Anchors × List Token)
  | 0, _, _ => none
  | _ + 1, anchors, .flowMappingEnd :: rest => some ([], anchors, rest)
  | fuel + 1, anchors, tokens => do
    let tokens ← match first, tokens with
      | true, tokens => pure tokens
      | false, .flowEntry :: rest => pure rest
      | false, _ => none
    match tokens with
    | .flowMappingEnd :: rest => return ([], anchors, rest)
    | .key :: rest => do
      let marks := [.value, .flowEntry, .flowMappingEnd]
      let (key, anchors, rest) ← readOr handles false false marks fuel anchors rest
      let (value, anchors, rest) ← match rest with
        | .value :: rest =>
          readOr handles false false [.flowEntry, .flowMappingEnd] fuel anchors rest
        | _ => pure (missing, anchors, rest)
      let (fields, anchors, rest) ← readFlowFields handles false fuel anchors rest
      return ((key, value) :: fields, anchors, rest)
    | tokens => do
      let (key, anchors, rest) ← read handles false false fuel anchors tokens
      let (fields, anchors, rest) ← readFlowFields handles false fuel anchors rest
      return ((key, missing) :: fields, anchors, rest)

end

def readDirectives : Bool → Handles → List Token → Option (Handles × List Token)
  | versioned, handles, .directive (.version major minor) :: rest =>
    if versioned ∨ major ≠ 1 ∨ ¬(minor = 1 ∨ minor = 2) then none
    else readDirectives true handles rest
  | versioned, handles, .directive (.tag handle lead) :: rest =>
    if (handles.lookup handle).isSome then none
    else readDirectives versioned ((handle, lead) :: handles) rest
  | _, handles, tokens => some (handles, tokens)

def isDirective : Token → Bool
  | .directive _ => true
  | _ => false

def isEmptyDocument : List Token → Bool
  | [] | .documentStart :: _ | .documentEnd :: _ | .directive _ :: _ => true
  | _ => false

def ofTokens? (tokens : List Token) : Option (Option Node) := do
  let fuel := 4 * tokens.length + 4
  if tokens = [] then return none
  else do
    let (handles, tokens, explicit) ←
      if startsIn [.documentStart] tokens || tokens.head?.any isDirective then do
        match ← readDirectives false [] tokens with
        | (handles, .documentStart :: rest) => pure (handles, rest, true)
        | _ => none
      else pure ([], tokens, false)
    let (node, rest) ←
      if explicit && isEmptyDocument tokens then pure (missing, tokens)
      else do
        let (node, _, rest) ← read (handles ++ .standard) true false fuel [] tokens
        pure (node, rest)
    guard (rest.all (· = .documentEnd))
    return some node

def parse (text : String) : Option (Option Node) := (Token.scan text).bind ofTokens?

end Node

end BuildGate.Yaml
