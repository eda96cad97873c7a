import BuildGate.Glob.Pattern

set_option autoImplicit false

namespace BuildGate.Glob

def suffixes : List Char → List (List Char)
  | [] => [[]]
  | c :: cs => (c :: cs) :: suffixes cs

def afterSlashes : List Char → List (List Char)
  | [] => []
  | c :: cs => if c = '/' then cs :: afterSlashes cs else afterSlashes cs

def Token.accepts : Token → Char → Bool
  | .literal d, c => c == d
  | .anyChar, _ => true
  | .within spans, c => spans.any (·.holds c)
  | .except spans, c => !spans.any (·.holds c)
  | .anySequence, _ | .anyDirectories, _ => false

-- The token for whole directories stands for nothing, for a text up to a slash, or for all the
-- rest.
def matchesChars : Pattern → List Char → Bool
  | [], cs => cs.isEmpty
  | .anySequence :: tokens, cs => (suffixes cs).any (matchesChars tokens)
  | .anyDirectories :: tokens, cs =>
    (cs :: afterSlashes cs).any (matchesChars tokens) || matchesChars tokens []
  | token :: tokens, c :: cs => token.accepts c && matchesChars tokens cs
  | _ :: _, [] => false

def Pattern.matches (pattern : Pattern) (text : String) : Bool := matchesChars pattern text.toList

end BuildGate.Glob
