import BuildGate.Decimal.Binary64

set_option autoImplicit false

namespace BuildGate.Binary64

def log10 (numerator denominator : Nat) : Int :=
  if denominator ≤ numerator then ((Nat.toDigits 10 (numerator / denominator)).length : Int) - 1
  else
    let size := (Nat.toDigits 10 (denominator / numerator)).length
    if denominator ≤ numerator * Nat.pow 10 (size - 1) then -((size : Int) - 1) else -(size : Int)

def interval (x : Binary64) : Nat × Nat × Nat × Bool :=
  let (up, down) := twoPow (x.exponent - 2)
  -- Below a power of two the numbers lie twice as close.
  let below := if x.significand = Nat.pow 2 52 ∧ leastExponent < x.exponent then 1 else 2
  ((4 * x.significand - below) * up, (4 * x.significand + 2) * up, down, x.significand % 2 = 0)

/-- The decimal nearest to a positive number among those with `count` digits that read back as it,
as digits and an exponent of ten. -/
def decimalOf? (x : Binary64) (count : Nat) : Option (Nat × Int) :=
  let (n, d) := x.ratio
  let exponent := log10 n d - ((count : Int) - 1)
  let up := Nat.pow 10 exponent.toNat
  let down := Nat.pow 10 (-exponent).toNat
  let (low, high, scale, closed) := x.interval
  let inside (digits : Nat) : Bool :=
    let a := low * down
    let m := digits * up * scale
    let b := high * down
    if closed then a ≤ m && m ≤ b else a < m && m < b
  let lower := n * down / (d * up)
  match inside lower, inside (lower + 1) with
  | true, true => some (roundDiv (n * down) (d * up), exponent)
  | true, false => some (lower, exponent)
  | false, true => some (lower + 1, exponent)
  | false, false => none

def shortest (x : Binary64) : Nat × Int :=
  ((List.range 17).findSome? fun n => x.decimalOf? (n + 1)).getD (0, 0)

def isPositional (leading : Int) : Bool := -5 ≤ leading && leading < 16

def layout (digits : List Char) (exponent : Int) : List Char :=
  let leading := exponent + digits.length - 1
  if isPositional leading then
    if 0 ≤ exponent then digits ++ List.replicate exponent.toNat '0' ++ ['.', '0']
    else if 0 ≤ leading then
      digits.take (leading.toNat + 1) ++ '.' :: digits.drop (leading.toNat + 1)
    else '0' :: '.' :: List.replicate (-leading - 1).toNat '0' ++ digits
  else
    let power := (if 0 ≤ leading then ['e', '+'] else ['e', '-']) ++
      Nat.toDigits 10 leading.natAbs
    match digits with
    | [] => []
    | [d] => d :: power
    | d :: ds => d :: '.' :: ds ++ power

def dropZeros : Nat → Nat → Int → Nat × Int
  | 0, digits, exponent => (digits, exponent)
  | fuel + 1, digits, exponent =>
    if digits ≠ 0 ∧ digits % 10 = 0 then dropZeros fuel (digits / 10) (exponent + 1)
    else (digits, exponent)

def toChars (x : Binary64) : List Char :=
  let (digits, exponent) := if x.isZero then (0, 0) else x.shortest
  let (digits, exponent) := dropZeros 20 digits exponent
  (if x.negative then ['-'] else []) ++ layout (Nat.toDigits 10 digits) exponent

end BuildGate.Binary64
