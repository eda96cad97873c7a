import BuildGate.Text.Digit

set_option autoImplicit false

namespace BuildGate.Yaml

def isAllowed (c : Char) : Bool :=
  let n := c.toNat
  n == 9 || n == 10 || n == 13 || (0x20 ≤ n && n ≤ 0x7E) || n == 0x85 ||
    (0xA0 ≤ n && n ≤ 0xFFFD) || 0x10000 ≤ n

def isBlank (c : Char) : Bool := c == ' ' || c == '\t'

def isBreak (c : Char) : Bool :=
  c == '\n' || c == '\r' || c == '\x85' || c == '\u2028' || c == '\u2029'

def isWord (c : Char) : Bool := c.isAlphanum || c == '_' || c == '-'

structure Cursor where
  rest : List Char
  index : Nat
  line : Nat
  column : Nat
deriving Repr

namespace Cursor

def start (cs : List Char) : Cursor := ⟨cs, 0, 0, 0⟩

def sees (here : Cursor) (n : Nat) (c : Char) : Bool := here.rest[n]? == some c

def endsAt (here : Cursor) (n : Nat) : Bool := here.rest[n]?.all fun c => isBlank c || isBreak c

def atLineEnd (here : Cursor) : Bool := here.rest.head?.all isBreak

def skip (here : Cursor) (n : Nat) : Cursor :=
  { here with rest := here.rest.drop n, index := here.index + n, column := here.column + n }

def skipWhile (here : Cursor) (holds : Char → Bool) : Cursor :=
  here.skip (here.rest.takeWhile holds).length

def readBreak (here : Cursor) : List Char × Cursor :=
  let below (n : Nat) : Cursor := ⟨here.rest.drop n, here.index + n, here.line + 1, 0⟩
  match here.rest with
  | '\r' :: '\n' :: _ => (['\n'], below 2)
  | c :: _ =>
    if c = '\u2028' ∨ c = '\u2029' then ([c], below 1)
    else if isBreak c then (['\n'], below 1)
    else ([], here)
  | [] => ([], here)

def skipComment (here : Cursor) : Cursor :=
  let here := here.skipWhile isBlank
  if here.sees 0 '#' then here.skipWhile (!isBreak ·) else here

def seesMark (here : Cursor) (c : Char) : Bool :=
  here.column == 0 && here.sees 0 c && here.sees 1 c && here.sees 2 c && here.endsAt 3

def seesDocument (here : Cursor) : Bool := here.seesMark '-' || here.seesMark '.'

end Cursor

structure Gap where
  spaces : List Char
  broken : Bool
  first : List Char
  more : List Char

namespace Gap

def empty : Gap := ⟨[], false, [], []⟩

def escaped : Gap := ⟨[], true, [], []⟩

def text (gap : Gap) : List Char :=
  if gap.broken then
    if gap.first = ['\n'] then if gap.more = [] then [' '] else gap.more else gap.first ++ gap.more
  else gap.spaces

def read (least : Option Int) : Nat → Gap → Cursor → Option (Gap × Cursor)
  | 0, gap, here => some (gap, here)
  | fuel + 1, gap, here =>
    match here.rest with
    | [] => some (gap, here)
    | c :: _ =>
      if isBlank c then
        if !gap.broken then read least fuel { gap with spaces := gap.spaces ++ [c] } (here.skip 1)
        else if c = '\t' ∧ least.any ((here.column : Int) < ·) then none
        else read least fuel gap (here.skip 1)
      else if isBreak c then
        let (ending, below) := here.readBreak
        if gap.broken then read least fuel { gap with more := gap.more ++ ending } below
        else read least fuel ⟨[], true, ending, []⟩ below
      else some (gap, here)

end Gap

end BuildGate.Yaml
