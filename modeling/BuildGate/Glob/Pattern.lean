
set_option autoImplicit false

namespace BuildGate.Glob

structure Span where
  first : Char
  last : Char
deriving DecidableEq, Repr

def Span.holds (span : Span) (c : Char) : Bool := span.first ≤ c && c ≤ span.last

inductive Token
  | literal (c : Char)
  | anyChar
  | anySequence
  | anyDirectories
  | within (spans : List Span)
  | except (spans : List Span)
deriving DecidableEq, Repr

abbrev Pattern := List Token

inductive Reason
  | wildcards
  | recursiveWildcards
  | invalidRange
deriving DecidableEq, Repr

def Reason.message : Reason → String
  | wildcards => "wildcards are either regular `*` or recursive `**`"
  | recursiveWildcards => "recursive wildcards must form a single path component"
  | invalidRange => "invalid range pattern"

structure Fault where
  position : Nat
  reason : Reason
deriving DecidableEq, Repr

def Fault.message (fault : Fault) : String :=
  "Pattern syntax error near position " ++ toString fault.position ++ ": " ++ fault.reason.message

def spans : List Char → List Span
  | a :: '-' :: b :: cs => ⟨a, b⟩ :: spans cs
  | c :: cs => ⟨c, c⟩ :: spans cs
  | [] => []

def closeSet? : List Char → Option (List Char × List Char)
  | [] => none
  | c :: cs =>
    match cs.span (· != ']') with
    | (members, _ :: rest) => some (c :: members, rest)
    | (_, []) => none

def set? : List Char → Option (Token × List Char)
  | '!' :: cs => (closeSet? cs).map fun (members, rest) => (.except (spans members), rest)
  | cs => (closeSet? cs).map fun (members, rest) => (.within (spans members), rest)

def addDirectories (tokens : List Token) : List Token :=
  if tokens.head? = some .anyDirectories then tokens else .anyDirectories :: tokens

def parseFrom : Nat → Nat → Option Char → List Token → List Char → Except Fault Pattern
  | 0, _, _, tokens, _ => .ok tokens.reverse
  | _, _, _, tokens, [] => .ok tokens.reverse
  | fuel + 1, position, before, tokens, c :: cs =>
    if c = '?' then parseFrom fuel (position + 1) (some c) (.anyChar :: tokens) cs
    else if c = '*' then
      let stars := 1 + (cs.takeWhile (· == '*')).length
      let rest := cs.dropWhile (· == '*')
      if 2 < stars then .error ⟨position + 2, .wildcards⟩
      else if stars = 2 then
        if before = none ∨ before = some '/' then
          match rest with
          | [] => parseFrom fuel (position + 2) (some c) (addDirectories tokens) []
          | '/' :: rest => parseFrom fuel (position + 3) (some '/') (addDirectories tokens) rest
          | _ => .error ⟨position + 2, .recursiveWildcards⟩
        else .error ⟨position - 1, .recursiveWildcards⟩
      else parseFrom fuel (position + 1) (some c) (.anySequence :: tokens) cs
    else if c = '[' then
      match set? cs with
      | some (token, rest) =>
        parseFrom fuel (position + 1 + (cs.length - rest.length)) (some ']') (token :: tokens) rest
      | none => .error ⟨position, .invalidRange⟩
    else parseFrom fuel (position + 1) (some c) (.literal c :: tokens) cs

def parse (text : String) : Except Fault Pattern :=
  parseFrom text.toList.length 0 none [] text.toList

end BuildGate.Glob
