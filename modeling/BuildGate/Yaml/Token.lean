import BuildGate.Yaml.Scalar
import BuildGate.Yaml.Tag

/-!
Tokens of YAML. Indentation becomes tokens that start and end blocks, and a word turns out to be a
key only when a colon follows it, so tokens are also put in front of others.
-/

set_option autoImplicit false

namespace BuildGate.Yaml

inductive Token
  | directive (directive : Directive)
  | documentStart
  | documentEnd
  | blockSequence
  | blockMapping
  | blockEnd
  | flowSequence
  | flowSequenceEnd
  | flowMapping
  | flowMappingEnd
  | blockEntry
  | flowEntry
  | key
  | value
  | alias (name : String)
  | anchor (name : String)
  | tag (handle text : String)
  | scalar (style : Style) (text : String)
deriving DecidableEq, Repr

structure Candidate where
  number : Nat
  required : Bool
  index : Nat
  line : Nat
  column : Nat

structure Scanner where
  here : Cursor
  levels : List (Option Candidate)
  indent : Int
  outer : List Int
  keyAllowed : Bool
  tokens : List Token

namespace Scanner

def start (cs : List Char) : Scanner := ⟨.start cs, [none], -1, [], true, []⟩

def inFlow (s : Scanner) : Bool := 1 < s.levels.length

def emit (s : Scanner) (token : Token) : Scanner := { s with tokens := token :: s.tokens }

def insert (s : Scanner) (number : Nat) (token : Token) : Scanner :=
  let later := s.tokens.length - number
  { s with tokens := s.tokens.take later ++ token :: s.tokens.drop later }

def allowKey (s : Scanner) (allowed : Bool) : Scanner := { s with keyAllowed := allowed }

def moveTo (s : Scanner) (here : Cursor) : Scanner := { s with here }

def closeBlocks (column : Int) : Int → List Int → List Token → Int × List Int × List Token
  | indent, [], tokens => (indent, [], tokens)
  | indent, next :: outer, tokens =>
    if column < indent then closeBlocks column next outer (.blockEnd :: tokens)
    else (indent, next :: outer, tokens)

def unroll (s : Scanner) (column : Int) : Scanner :=
  if s.inFlow then s
  else
    let (indent, outer, tokens) := closeBlocks column s.indent s.outer s.tokens
    { s with indent, outer, tokens }

def roll (s : Scanner) (column number : Nat) (token : Token) : Scanner :=
  if s.inFlow || (column : Int) ≤ s.indent then s
  else { s with outer := s.indent :: s.outer, indent := column }.insert number token

def setCandidate (s : Scanner) (candidate : Option Candidate) : Scanner :=
  { s with levels := candidate :: s.levels.drop 1 }

def candidate? (s : Scanner) : Option Candidate := s.levels.head?.bind id

def dropCandidate (s : Scanner) : Option Scanner :=
  if s.candidate?.any (·.required) then none else some (s.setCandidate none)

def noteCandidate (s : Scanner) : Option Scanner :=
  if s.keyAllowed then
    s.dropCandidate.map fun dropped =>
      dropped.setCandidate (some
        { number := s.tokens.length
          required := !s.inFlow && s.indent == (s.here.column : Int)
          index := s.here.index
          line := s.here.line
          column := s.here.column })
  else some s

-- A key lies on one line and is at most 1024 characters long.
def isFresh (s : Scanner) (candidate : Candidate) : Bool :=
  s.here.line ≤ candidate.line && s.here.index ≤ candidate.index + 1024

def toNextToken : Nat → Scanner → Scanner
  | 0, s => s
  | fuel + 1, s =>
    let here := if s.here.index = 0 ∧ s.here.sees 0 '\ufeff' then s.here.skip 1 else s.here
    let here := here.skipWhile fun c => c == ' ' || ((s.inFlow || !s.keyAllowed) && c == '\t')
    let here := if here.sees 0 '#' then here.skipWhile (!isBreak ·) else here
    if here.rest.head?.any isBreak then
      toNextToken fuel { s with here := here.readBreak.2, keyAllowed := s.keyAllowed || !s.inFlow }
    else s.moveTo here

def endBlocks (s : Scanner) : Option Scanner :=
  (s.unroll (-1)).dropCandidate.map (·.allowKey false)

def openFlow (s : Scanner) (token : Token) : Option Scanner :=
  s.noteCandidate.map fun s =>
    ({ s with levels := none :: s.levels, keyAllowed := true, here := s.here.skip 1 }).emit token

def closeFlow (s : Scanner) (token : Token) : Option Scanner :=
  s.dropCandidate.map fun s =>
    let levels := if s.inFlow then s.levels.drop 1 else s.levels
    ({ s with levels, keyAllowed := false, here := s.here.skip 1 }).emit token

def readFlowEntry (s : Scanner) : Option Scanner :=
  s.dropCandidate.map fun s => ((s.allowKey true).moveTo (s.here.skip 1)).emit .flowEntry

def readBlockEntry (s : Scanner) : Option Scanner :=
  if !s.inFlow && !s.keyAllowed then none
  else
    (s.roll s.here.column s.tokens.length .blockSequence).dropCandidate.map fun s =>
      ((s.allowKey true).moveTo (s.here.skip 1)).emit .blockEntry

def readKeyMark (s : Scanner) : Option Scanner :=
  if !s.inFlow && !s.keyAllowed then none
  else
    (s.roll s.here.column s.tokens.length .blockMapping).dropCandidate.map fun s =>
      ((s.allowKey !s.inFlow).moveTo (s.here.skip 1)).emit .key

-- A colon: what the candidate started was a key. Without one the key is empty or was marked.
def readValueMark (s : Scanner) : Option Scanner :=
  let finish (s : Scanner) : Scanner := (s.moveTo (s.here.skip 1)).emit .value
  match s.candidate? with
  | some candidate =>
    if s.isFresh candidate then
      let s := (s.insert candidate.number .key).roll candidate.column candidate.number .blockMapping
      some (finish ((s.setCandidate none).allowKey false))
    else if candidate.required then none
    else unmarked (s.setCandidate none) finish
  | none => unmarked s finish
where
  unmarked (s : Scanner) (finish : Scanner → Scanner) : Option Scanner :=
    if !s.inFlow && !s.keyAllowed then none
    else
      let s := s.roll s.here.column s.tokens.length .blockMapping
      some (finish (s.allowKey !s.inFlow))

def readNamed (s : Scanner) (token : String → Token) : Option Scanner :=
  match s.noteCandidate with
  | none => none
  | some s =>
    (readName (s.here.skip 1)).map fun (name, after) =>
      ((s.allowKey false).moveTo after).emit (token name)

def readTagToken (s : Scanner) : Option Scanner :=
  match s.noteCandidate with
  | none => none
  | some s =>
    (readTag s.inFlow s.here).map fun (handle, text, after) =>
      ((s.allowKey false).moveTo after).emit (.tag handle text)

def readBlockToken (s : Scanner) (folded : Bool) : Option Scanner :=
  match s.dropCandidate with
  | none => none
  | some s =>
    (readBlock folded s.indent (s.here.skip 1)).map fun (text, after) =>
      ((s.allowKey true).moveTo after).emit
        (.scalar (if folded then .folded else .literal) (String.ofList text))

def readQuotedToken (s : Scanner) (single : Bool) : Option Scanner :=
  match s.noteCandidate with
  | none => none
  | some s =>
    (readQuoted single s.here.rest.length (s.here.skip 1)).map fun (text, after) =>
      ((s.allowKey false).moveTo after).emit (.scalar .quoted (String.ofList text))

def readPlainToken (s : Scanner) : Option Scanner :=
  match s.noteCandidate with
  | none => none
  | some s =>
    (readPlain s.inFlow (s.indent + 1) (s.here.rest.length + 1) [] .empty s.here).map
      fun (text, broken, after) =>
        ((s.allowKey broken).moveTo after).emit (.scalar .plain (String.ofList text))

def startsPlain (s : Scanner) (c : Char) : Bool :=
  !(s.here.endsAt 0 || "-?:,[]\x7b\x7d#&*!|>\x27\"%@\x60".toList.contains c) ||
    (c == '-' && !s.here.rest[1]?.any isBlank) ||
    (!s.inFlow && (c == '?' || c == ':') && !s.here.endsAt 1)

def readToken (s : Scanner) (c : Char) : Option Scanner :=
  if s.here.column = 0 ∧ c = '%' then do
    let s ← s.endBlocks
    let (directive, after) ← readDirective s.here
    return (s.moveTo after).emit (.directive directive)
  else if s.here.seesMark '-' then
    s.endBlocks.map fun s => (s.moveTo (s.here.skip 3)).emit .documentStart
  else if s.here.seesMark '.' then
    s.endBlocks.map fun s => (s.moveTo (s.here.skip 3)).emit .documentEnd
  else if c = '[' then s.openFlow .flowSequence
  else if c = '{' then s.openFlow .flowMapping
  else if c = ']' then s.closeFlow .flowSequenceEnd
  else if c = '}' then s.closeFlow .flowMappingEnd
  else if c = ',' then s.readFlowEntry
  else if c = '-' ∧ s.here.endsAt 1 then s.readBlockEntry
  else if c = '?' ∧ (s.inFlow ∨ s.here.endsAt 1) then s.readKeyMark
  else if c = ':' ∧ (s.inFlow ∨ s.here.endsAt 1) then s.readValueMark
  else if c = '*' then s.readNamed .alias
  else if c = '&' then s.readNamed .anchor
  else if c = '!' then s.readTagToken
  else if c = '|' ∧ !s.inFlow then s.readBlockToken false
  else if c = '>' ∧ !s.inFlow then s.readBlockToken true
  else if c = '\x27' then s.readQuotedToken true
  else if c = '"' then s.readQuotedToken false
  else if s.startsPlain c then s.readPlainToken
  else none

def run : Nat → Scanner → Option (List Token)
  | 0, _ => none
  | fuel + 1, s =>
    let s := toNextToken (s.here.rest.length + 1) s
    let s := s.unroll s.here.column
    match s.here.rest with
    | [] => s.endBlocks.map (·.tokens.reverse)
    | c :: _ => (s.readToken c).bind (run fuel)

end Scanner

def Token.scan (text : String) : Option (List Token) :=
  if text.toList.all isAllowed then
    let cs := text.toList
    let cs := if cs.head? = some '\ufeff' then cs.drop 1 else cs
    Scanner.run (cs.length + 1) (.start cs)
  else none

end BuildGate.Yaml
