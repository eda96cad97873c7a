import BuildGate.Word

/-!
Offsets in a text and positions by line and character. Offsets and characters count UTF-16 code
units. A line feed, a carriage return and the two in this order each end a line.
-/

set_option autoImplicit false

namespace BuildGate

def units (c : Char) : Nat := if c.toNat < 0x10000 then 1 else 2

def width : List Char → Nat
  | [] => 0
  | c :: cs => units c + width cs

@[simp] theorem width_nil : width [] = 0 := rfl

@[simp] theorem width_cons (c : Char) (cs : List Char) : width (c :: cs) = units c + width cs := rfl

@[simp] theorem width_append (cs ds : List Char) : width (cs ++ ds) = width cs + width ds := by
  induction cs with
  | nil => simp
  | cons c cs ih => simp [ih, Nat.add_assoc]

def terminatorEnds : Nat → List Char → List Nat
  | _, [] => []
  | offset, '\r' :: '\n' :: cs => (offset + 2) :: terminatorEnds (offset + 2) cs
  | offset, c :: cs =>
    if c = '\r' ∨ c = '\n' then (offset + 1) :: terminatorEnds (offset + 1) cs
    else terminatorEnds (offset + units c) cs

structure LineMap where
  starts : List Nat
  length : Nat
deriving DecidableEq, Repr

namespace LineMap

def ofChars (cs : List Char) : LineMap := ⟨0 :: terminatorEnds 0 cs, width cs⟩

def ofString (text : String) : LineMap := ofChars text.toList

def lineAt (map : LineMap) (offset : Nat) : Nat := map.starts.countP (· ≤ offset) - 1

def startOf (map : LineMap) (line : Nat) : Nat := map.starts[line]?.getD 0

-- Line and character of an offset, from 0. An offset past the end stands for the end.
def lineAndCharacter (map : LineMap) (offset : Nat) : Nat × Nat :=
  let inside := min offset map.length
  let line := map.lineAt inside
  (line, inside - map.startOf line)

def offset? (map : LineMap) (line character : Nat) : Option Nat :=
  map.starts[line]?.map fun start => min (Word.add start character) map.length

end LineMap

end BuildGate
