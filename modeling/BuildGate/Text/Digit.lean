import BuildGate.Word

set_option autoImplicit false

namespace BuildGate.Text

-- The zeros of the scripts: each run of ten digits with the property Nd starts at one.
def scriptZeros : List Nat :=
  [0x30, 0x660, 0x6F0, 0x7C0, 0x966, 0x9E6, 0xA66, 0xAE6, 0xB66, 0xBE6, 0xC66, 0xCE6, 0xD66,
    0xDE6, 0xE50, 0xED0, 0xF20, 0x1040, 0x1090, 0x17E0, 0x1810, 0x1946, 0x19D0, 0x1A80, 0x1A90,
    0x1B50, 0x1BB0, 0x1C40, 0x1C50, 0xA620, 0xA8D0, 0xA900, 0xA9D0, 0xA9F0, 0xAA50, 0xABF0,
    0xFF10, 0x104A0, 0x10D30, 0x10D40, 0x11066, 0x110F0, 0x11136, 0x111D0, 0x112F0, 0x11450,
    0x114D0, 0x11650, 0x116C0, 0x116D0, 0x116DA, 0x11730, 0x118E0, 0x11950, 0x11BF0, 0x11C50,
    0x11D50, 0x11DA0, 0x11F50, 0x16130, 0x16A60, 0x16AC0, 0x16B50, 0x16D70, 0x1CCF0, 0x1D7CE,
    0x1D7D8, 0x1D7E2, 0x1D7EC, 0x1D7F6, 0x1E140, 0x1E2F0, 0x1E4F0, 0x1E5F1, 0x1E950, 0x1FBF0]

def isDigit (c : Char) : Bool :=
  scriptZeros.any fun first => first ≤ c.toNat && c.toNat < first + 10

def isAsciiDigit (c : Char) : Bool := '0'.toNat ≤ c.toNat && c.toNat ≤ '9'.toNat

def digitValue (c : Char) : Nat := c.toNat - '0'.toNat

def digitsValue : Nat → List Char → Nat
  | acc, [] => acc
  | acc, c :: cs => digitsValue (acc * 10 + digitValue c) cs

def readBelow (limit : Nat) (cs : List Char) : Option Nat :=
  if cs ≠ [] ∧ cs.all isAsciiDigit ∧ digitsValue 0 cs < limit then some (digitsValue 0 cs)
  else none

def hexDigit? (c : Char) : Option Nat :=
  if isAsciiDigit c then some (digitValue c)
  else if 'a' ≤ c ∧ c ≤ 'f' then some (c.toNat - 'a'.toNat + 10)
  else if 'A' ≤ c ∧ c ≤ 'F' then some (c.toNat - 'A'.toNat + 10)
  else none

def hexValueFrom : Nat → List Char → Option Nat
  | acc, [] => some acc
  | acc, c :: cs => (hexDigit? c).bind fun digit => hexValueFrom (acc * 16 + digit) cs

def hexValue? (cs : List Char) : Option Nat := hexValueFrom 0 cs

def scalar? (n : Nat) : Option Char := if n.isValidChar then some (Char.ofNat n) else none

def hexChar? (cs : List Char) : Option Char := (hexValue? cs).bind scalar?

end BuildGate.Text
