import BuildGate.Yaml.Cursor

set_option autoImplicit false

namespace BuildGate.Yaml

inductive Style
  | plain
  | quoted
  | literal
  | folded
deriving DecidableEq, Repr

def isFlowMark (c : Char) : Bool := c == ',' || c == '[' || c == ']' || c == '{' || c == '}'

-- A word of a plain scalar: up to a blank, a line ending or a mark that ends the scalar. Between
-- brackets a colon must not stand before a mark.
def readWord (inFlow : Bool) : Nat → Cursor → Option (List Char × Cursor)
  | 0, here => some ([], here)
  | fuel + 1, here =>
    match here.rest with
    | [] => some ([], here)
    | c :: _ =>
      if here.endsAt 0 then some ([], here)
      else if inFlow && c == ':' && here.rest[1]?.any (fun d => isFlowMark d || d == '?') then none
      else if (c == ':' && here.endsAt 1) || (inFlow && isFlowMark c) then some ([], here)
      else (readWord inFlow fuel (here.skip 1)).map fun (word, after) => (c :: word, after)

def readPlain (inFlow : Bool) (least : Int) :
    Nat → List Char → Gap → Cursor → Option (List Char × Bool × Cursor)
  | 0, text, gap, here => some (text, gap.broken, here)
  | fuel + 1, text, gap, here =>
    if here.seesDocument || here.sees 0 '#' then some (text, gap.broken, here)
    else
      match readWord inFlow here.rest.length here with
      | none => none
      | some (word, after) =>
        let (text, gap) := if word = [] then (text, gap) else (text ++ gap.text ++ word, Gap.empty)
        if after.rest.isEmpty || !after.endsAt 0 then some (text, gap.broken, after)
        else
          match Gap.read (some least) after.rest.length gap after with
          | none => none
          | some (gap, after) =>
            if !inFlow && (after.column : Int) < least then some (text, gap.broken, after)
            else readPlain inFlow least fuel text gap after

def escaped? : Char → Option Char
  | '0' => some '\x00'
  | 'a' => some '\x07'
  | 'b' => some '\x08'
  | 't' | '\t' => some '\t'
  | 'n' => some '\n'
  | 'v' => some '\x0b'
  | 'f' => some '\x0c'
  | 'r' => some '\r'
  | 'e' => some '\x1b'
  | ' ' => some ' '
  | '"' => some '"'
  | '/' => some '/'
  | '\\' => some '\\'
  | 'N' => some '\x85'
  | '_' => some '\xa0'
  | 'L' => some '\u2028'
  | 'P' => some '\u2029'
  | _ => none

def escapeWidth : Char → Nat
  | 'x' => 2
  | 'u' => 4
  | 'U' => 8
  | _ => 0

def readEscape : List Char → Option (Char × Nat)
  | [] => none
  | c :: cs =>
    match escapeWidth c with
    | 0 => (escaped? c).map ((·, 1))
    | width =>
      let digits := cs.take width
      if digits.length = width then (Text.hexChar? digits).map ((·, width + 1)) else none

inductive WordEnd
  | quote
  | blank
  | escapedBreak
deriving DecidableEq

def readQuotedWord (single : Bool) : Nat → Cursor → Option (List Char × WordEnd × Cursor)
  | 0, _ => none
  | fuel + 1, here =>
    let more (c : Char) (n : Nat) :=
      (readQuotedWord single fuel (here.skip n)).map fun (word, ending) => (c :: word, ending)
    match here.rest with
    | [] => none
    | c :: rest =>
      if here.endsAt 0 then some ([], .blank, here)
      else if single then
        if c = '\x27' then
          if here.sees 1 '\x27' then more c 2 else some ([], .quote, here.skip 1)
        else more c 1
      else if c = '"' then some ([], .quote, here.skip 1)
      else if c = '\\' then
        if rest.head?.any isBreak then some ([], .escapedBreak, (here.skip 1).readBreak.2)
        else (readEscape rest).bind fun (e, width) => more e (width + 1)
      else more c 1

def readQuoted (single : Bool) : Nat → Cursor → Option (List Char × Cursor)
  | 0, _ => none
  | fuel + 1, here =>
    if here.seesDocument then none
    else
      match readQuotedWord single (here.rest.length + 1) here with
      | none => none
      | some (word, .quote, after) => some (word, after)
      | some (word, ending, after) =>
        let gap := if ending = .escapedBreak then Gap.escaped else Gap.empty
        match Gap.read none after.rest.length gap after with
        | none => none
        | some (gap, after) =>
          (readQuoted single fuel after).map fun (text, after) => (word ++ gap.text ++ text, after)

inductive Chomp
  | clip
  | strip
  | keep
deriving DecidableEq

def chompOf? : Char → Option Chomp
  | '-' => some .strip
  | '+' => some .keep
  | _ => none

def indentOf? (c : Char) : Option Nat :=
  if '1' ≤ c ∧ c ≤ '9' then some (Text.digitValue c) else none

def readMarks (here : Cursor) : Chomp × Option Nat × Cursor :=
  match here.rest with
  | [] => (.clip, none, here)
  | c :: cs =>
    match chompOf? c, indentOf? c with
    | some chomp, _ =>
      match cs.head?.bind indentOf? with
      | some n => (chomp, some n, here.skip 2)
      | none => (chomp, none, here.skip 1)
    | none, some n =>
      match cs.head?.bind chompOf? with
      | some chomp => (chomp, some n, here.skip 2)
      | none => (.clip, some n, here.skip 1)
    | none, none => (.clip, none, here)

def readBreaks (indent : Option Nat) :
    Nat → Nat → List Char → Cursor → Option (List Char × Nat × Cursor)
  | 0, widest, breaks, here => some (breaks, widest, here)
  | fuel + 1, widest, breaks, here =>
    let spaces := (here.rest.takeWhile (· == ' ')).length
    let here := here.skip (match indent with
      | some n => min spaces (n - here.column)
      | none => spaces)
    let widest := max widest here.column
    if indent.all (here.column < ·) && here.sees 0 '\t' then none
    else if here.rest.head?.any isBreak then
      let (ending, below) := here.readBreak
      readBreaks indent fuel widest (breaks ++ ending) below
    else some (breaks, widest, here)

structure BlockDraft where
  text : List Char
  ending : List Char
  blankBefore : Bool

-- Adds a line. In a folded block a line ending between two lines without a leading blank becomes
-- a space, or nothing if empty lines follow it.
def BlockDraft.add (draft : BlockDraft) (folded : Bool) (breaks line : List Char) : List Char :=
  let startsBlank := line.head?.any isBlank
  if folded && draft.ending.head? == some '\n' && !draft.blankBefore && !startsBlank then
    draft.text ++ (if breaks = [] then [' '] else []) ++ breaks ++ line
  else draft.text ++ draft.ending ++ breaks ++ line

def readBlockLines (folded : Bool) (indent : Nat) :
    Nat → BlockDraft → List Char → Cursor → Option (BlockDraft × List Char × Cursor)
  | 0, draft, breaks, here => some (draft, breaks, here)
  | fuel + 1, draft, breaks, here =>
    if here.column = indent ∧ here.rest ≠ [] then
      let line := here.rest.takeWhile (!isBreak ·)
      let (ending, below) := (here.skip line.length).readBreak
      let next : BlockDraft :=
        ⟨draft.add folded breaks line, ending, line.head?.any isBlank⟩
      match readBreaks (some indent) below.rest.length 0 [] below with
      | none => none
      | some (breaks, _, below) => readBlockLines folded indent fuel next breaks below
    else some (draft, breaks, here)

def readBlock (folded : Bool) (outer : Int) (here : Cursor) : Option (List Char × Cursor) :=
  let (chomp, given, here) := readMarks here
  let here := here.skipComment
  if !here.atLineEnd then none
  else
    let (_, here) := here.readBreak
    let indent := given.map fun n => (max outer 0).toNat + n
    match readBreaks indent (here.rest.length + 1) 0 [] here with
    | none => none
    | some (breaks, widest, here) =>
      let indent := indent.getD (max widest (max (outer + 1) 1).toNat)
      (readBlockLines folded indent here.rest.length ⟨[], [], false⟩ breaks here).map
        fun (draft, breaks, here) =>
          let text :=
            match chomp with
            | .strip => draft.text
            | .clip => draft.text ++ draft.ending
            | .keep => draft.text ++ draft.ending ++ breaks
          (text, here)

end BuildGate.Yaml
