import BuildGate.Decimal.Shortest
import BuildGate.Text.Digit

set_option autoImplicit false

namespace BuildGate.Json

inductive Number
  | int (value : Int)
  | float (value : Binary64)
deriving DecidableEq, Repr

def Number.toChars : Number → List Char
  | int value => (toString value).toList
  | float value => value.toChars

structure NumberForm where
  negative : Bool
  whole : List Char
  fraction : Option (List Char)
  exponent : Option (Bool × List Char)
deriving DecidableEq, Repr

namespace NumberForm

def isWhole : List Char → Bool
  | [] => false
  | ['0'] => true
  | c :: _ => c != '0'

def readFraction : List Char → Option (Option (List Char) × List Char)
  | '.' :: cs =>
    let digits := cs.takeWhile Text.isAsciiDigit
    if digits = [] then none else some (some digits, cs.dropWhile Text.isAsciiDigit)
  | cs => some (none, cs)

def readSign : List Char → Bool × List Char
  | '-' :: cs => (true, cs)
  | '+' :: cs => (false, cs)
  | cs => (false, cs)

def readExponent : List Char → Option (Option (Bool × List Char) × List Char)
  | c :: cs =>
    if c = 'e' ∨ c = 'E' then
      let (negative, cs) := readSign cs
      let digits := cs.takeWhile Text.isAsciiDigit
      if digits = [] then none
      else some (some (negative, digits), cs.dropWhile Text.isAsciiDigit)
    else some (none, c :: cs)
  | [] => some (none, [])

def read (cs : List Char) : Option (NumberForm × List Char) :=
  let (negative, cs) :=
    match cs with
    | '-' :: cs => (true, cs)
    | cs => (false, cs)
  let whole := cs.takeWhile Text.isAsciiDigit
  if isWhole whole then
    match readFraction (cs.dropWhile Text.isAsciiDigit) with
    | none => none
    | some (fraction, cs) =>
      (readExponent cs).map fun (exponent, rest) => (⟨negative, whole, fraction, exponent⟩, rest)
  else none

def word? (form : NumberForm) : Option Nat :=
  if form.negative || form.fraction.isSome || form.exponent.isSome then none
  else Text.readBelow Word.size form.whole

def fill : Nat → List Char → Nat × List Char
  | word, [] => (word, [])
  | word, c :: cs =>
    let next := word * 10 + Text.digitValue c
    if next < Word.size then fill next cs else (word, c :: cs)

def tenPow (exponent : Nat) : Binary64 := (Binary64.ofDecimal 1 exponent).getD .zero

-- Scales by a power of ten, in steps that the format can hold; none if the result is too large.
-- Two steps down make nothing of any word.
def scale : Nat → Binary64 → Int → Option Binary64
  | 0, _, _ => some .zero
  | fuel + 1, x, exponent =>
    if exponent.natAbs ≤ 308 then
      if 0 ≤ exponent then x.mul (tenPow exponent.natAbs) else x.div (tenPow exponent.natAbs)
    else if x.isZero then some x
    else if 0 < exponent then none
    else (x.div (tenPow 308)).bind fun x => scale fuel x (exponent + 308)

def exponentValue (form : NumberForm) : Int :=
  match form.exponent with
  | none => 0
  | some (true, digits) => -(Text.digitsValue 0 digits : Int)
  | some (false, digits) => Text.digitsValue 0 digits

def signed (negative : Bool) (x : Binary64) : Binary64 := if negative then x.negate else x

-- The floating-point number. Digits that do not fit the word lose their value: those of the
-- whole part still count as places, those of the fraction do not.
def float? (form : NumberForm) : Option Binary64 :=
  let (word, dropped) := fill 0 form.whole
  let fraction := form.fraction.getD []
  let (word, unread) := fill word fraction
  let exponent := (dropped.length : Int) - ((fraction.length : Int) - unread.length) +
    form.exponentValue
  (Binary64.round word 1).bind fun x => (scale 4 x exponent).map (signed form.negative)

def value? (form : NumberForm) : Option Number :=
  let (word, dropped) := fill 0 form.whole
  if form.fraction.isNone && form.exponent.isNone && dropped.isEmpty then
    if !form.negative then some (.int word)
    else if 0 < word ∧ word ≤ Word.count 63 then some (.int (-(word : Int)))
    else (Binary64.round word 1).map fun x => .float x.negate
  else form.float?.map .float

end NumberForm

end BuildGate.Json
