import BuildGate.Report.Line

set_option autoImplicit false

namespace BuildGate

inductive Style
  | neutral
  | warning
  | error
  | muted
  | heading
  | banner
deriving DecidableEq, Repr

namespace Style

def opening : Style → String
  | neutral => "37"
  | warning => "33"
  | error => "31"
  | muted => "90"
  | heading => "4"
  | banner => "30;47"

def closing : Style → String
  | neutral | warning | error | muted => "39"
  | heading | banner => "0"

def ofLineClass : LineClass → Style
  | .warning => warning
  | .error => error

end Style

def escape (parameters : String) : String := "\x1b[" ++ parameters ++ "m"

def paint (color : Bool) (style : Style) (text : String) : String :=
  if color then escape style.opening ++ text ++ escape style.closing else text

@[simp] theorem paint_false (style : Style) (text : String) : paint false style text = text := rfl

def useColors (noColor : Bool) (noColorVariable : Option String) : Bool :=
  !noColor && noColorVariable.isNone

namespace Paint

def isParameter (c : Char) : Bool := c.isDigit || c == ';'

def skipSequence? : List Char → Option (List Char)
  | '\x1b' :: '[' :: cs =>
    match cs.dropWhile isParameter with
    | 'm' :: rest => some rest
    | _ => none
  | _ => none

def stripChars (cs : List Char) : List Char := go cs.length cs
where
  go : Nat → List Char → List Char
    | _, [] => []
    | 0, cs => cs
    | fuel + 1, c :: cs =>
      match skipSequence? (c :: cs) with
      | some rest => go fuel rest
      | none => c :: go fuel cs

def strip (text : String) : String := String.ofList (stripChars text.toList)

end Paint

end BuildGate
