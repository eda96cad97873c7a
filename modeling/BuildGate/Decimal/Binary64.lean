
set_option autoImplicit false

namespace BuildGate

structure Binary64 where
  negative : Bool
  significand : Nat
  exponent : Int
deriving DecidableEq, Repr

namespace Binary64

def leastExponent : Int := -1074

def greatestExponent : Int := 971

def zero : Binary64 := ⟨false, 0, leastExponent⟩

def negate (x : Binary64) : Binary64 := { x with negative := !x.negative }

def isZero (x : Binary64) : Bool := x.significand == 0

def twoPow (exponent : Int) : Nat × Nat := (Nat.pow 2 exponent.toNat, Nat.pow 2 (-exponent).toNat)

def roundDiv (numerator denominator : Nat) : Nat :=
  let quotient := numerator / denominator
  let remainder := numerator % denominator
  if 2 * remainder < denominator then quotient
  else if denominator < 2 * remainder then quotient + 1
  else if quotient % 2 = 0 then quotient else quotient + 1

def round (numerator denominator : Nat) : Option Binary64 :=
  if numerator = 0 then some zero
  else
    let scale := max leastExponent
      ((numerator.log2 : Int) - (denominator.log2 : Int) - 53)
    let scaled (exponent : Int) : Nat × Nat :=
      let (up, down) := twoPow exponent
      (numerator * down, denominator * up)
    let (n, d) := scaled scale
    -- The scale may be one too small, never too large.
    let exponent := if Nat.pow 2 53 ≤ n / d then scale + 1 else scale
    let (n, d) := scaled exponent
    let significand := roundDiv n d
    let (significand, exponent) :=
      if significand = Nat.pow 2 53 then (Nat.pow 2 52, exponent + 1) else (significand, exponent)
    if greatestExponent < exponent then none else some ⟨false, significand, exponent⟩

def ratio (x : Binary64) : Nat × Nat :=
  let (up, down) := twoPow x.exponent
  (x.significand * up, down)

def ofDecimal (digits : Nat) (exponent : Int) : Option Binary64 :=
  let size := (Nat.toDigits 10 digits).length
  if digits = 0 then some zero
  else if 400 < size + exponent then none
  else if size + exponent < -400 then some zero
  else round (digits * Nat.pow 10 exponent.toNat) (Nat.pow 10 (-exponent).toNat)

def mul (x y : Binary64) : Option Binary64 :=
  (round (x.ratio.1 * y.ratio.1) (x.ratio.2 * y.ratio.2)).map fun z =>
    { z with negative := x.negative != y.negative }

def div (x y : Binary64) : Option Binary64 :=
  (round (x.ratio.1 * y.ratio.2) (x.ratio.2 * y.ratio.1)).map fun z =>
    { z with negative := x.negative != y.negative }

end Binary64

end BuildGate
