import BuildGate.Json.Value
import BuildGate.Yaml.Node

set_option autoImplicit false

namespace BuildGate.Yaml

inductive Real
  | finite (value : Binary64)
  | infinite (negative : Bool)
  | undefined
deriving DecidableEq, Repr

inductive Scalar
  | null
  | bool (value : Bool)
  | int (value : Int)
  | real (value : Real)
  | text (value : String)
deriving DecidableEq, Repr

namespace Scalar

def isNull (text : String) : Bool := ["null", "Null", "NULL", "~"].contains text

def bool? (text : String) : Option Bool :=
  if ["true", "True", "TRUE"].contains text then some true
  else if ["false", "False", "FALSE"].contains text then some false
  else none

def digitsIn? (base : Nat) (cs : List Char) : Option Nat :=
  if cs ≠ [] ∧ cs.all fun c => (Text.hexDigit? c).any (· < base) then
    some (cs.foldl (fun n c => n * base + (Text.hexDigit? c).getD 0) 0)
  else none

def unsigned? : List Char → Option Nat
  | '0' :: 'x' :: cs => digitsIn? 16 cs
  | '0' :: 'o' :: cs => digitsIn? 8 cs
  | '0' :: 'b' :: cs => digitsIn? 2 cs
  | cs => digitsIn? 10 cs

def hasIdleZero : List Char → Bool
  | '0' :: c :: cs => (c :: cs).all Text.isAsciiDigit
  | _ => false

def splitSign : List Char → Option Bool × List Char
  | '-' :: cs => (some true, cs)
  | '+' :: cs => (some false, cs)
  | cs => (none, cs)

def int? (cs : List Char) : Option Int :=
  let (sign, cs) := splitSign cs
  if hasIdleZero cs then none
  else (unsigned? cs).map fun n => if sign = some true then -(n : Int) else n

def exponent? : List Char → Option Int
  | [] => some 0
  | _ :: cs =>
    let (sign, digits) := splitSign cs
    (digitsIn? 10 digits).map fun n => if sign = some true then -(n : Int) else n

def isExponentMark (c : Char) : Bool := c == 'e' || c == 'E'

def decimal? (cs : List Char) : Option Binary64 :=
  let mantissa := cs.takeWhile (!isExponentMark ·)
  let whole := mantissa.takeWhile (· != '.')
  let fraction := (mantissa.dropWhile (· != '.')).drop 1
  match digitsIn? 10 (whole ++ fraction), exponent? (cs.dropWhile (!isExponentMark ·)) with
  | some digits, some exponent => Binary64.ofDecimal digits (exponent - fraction.length)
  | _, _ => none

def real? (text : String) : Option Real :=
  let (sign, cs) := splitSign text.toList
  let rest := String.ofList cs
  if [".inf", ".Inf", ".INF"].contains rest then some (.infinite (sign == some true))
  else if [".nan", ".NaN", ".NAN"].contains text then some .undefined
  else (decimal? cs).map fun x => .finite (if sign = some true then x.negate else x)

-- The integer that a text is. One of more than 64 bits stands for nothing, which is none inside; one
-- of more than 128 bits counts as no integer.
def integer? (text : String) : Option (Option Int) :=
  match int? text.toList with
  | none => none
  | some value =>
    if Word.holds 64 value then some (some value)
    else if Word.holds 128 value then some none
    else none

def ofPlain? (text : String) : Option Scalar :=
  if text = "" ∨ isNull text then some .null
  else
    match bool? text, integer? text with
    | some value, _ => some (.bool value)
    | none, some value => value.map .int
    | none, none =>
      if hasIdleZero (splitSign text.toList).2 then some (.text text)
      else
        match real? text with
        | some value => some (.real value)
        | none => some (.text text)

def standardTag (name : String) : String := "tag:yaml.org,2002:" ++ name

def of? (tag : Option String) (style : Style) (text : String) : Option Scalar :=
  if tag = some (standardTag "bool") then (bool? text).map .bool
  else if tag = some (standardTag "int") then (integer? text).bind fun value => value.map .int
  else if tag = some (standardTag "float") then (real? text).map .real
  else if tag = some (standardTag "null") then if isNull text then some .null else none
  else if tag = none ∧ style = .plain then ofPlain? text
  else some (.text text)

end Scalar

def customTag? (tag : Option String) : Option String :=
  match tag.map String.toList with
  | some ('!' :: c :: cs) => some (String.ofList (c :: cs))
  | _ => none

def depthLimit : Nat := 128

namespace Node

def scalar? : Node → Option (Option String × Style × String)
  | .scalar tag style text => some (tag, style, text)
  | .alias (some target) => scalar? target
  | _ => none

def text? (node : Node) : Option String := node.scalar?.map (·.2.2)

def jsonOfScalar : Scalar → Json
  | .null => .null
  | .bool value => .bool value
  | .int value => .number (.int value)
  | .real (.finite value) => .number (.float value)
  | .real _ => .null
  | .text value => .text value

mutual

def toJson? (depth : Nat) : Node → Option Json
  | .scalar tag style text =>
    if (customTag? tag).isSome then none else (Scalar.of? tag style text).map jsonOfScalar
  | .sequence tag items =>
    if depth = 0 ∨ (customTag? tag).isSome then none
    else (itemsToJson? (depth - 1) items).map .array
  | .mapping tag fields =>
    if depth = 0 ∨ (customTag? tag).isSome then none
    else (fieldsToJson? (depth - 1) fields).map fun ms => .object (Json.ofPairs ms)
  | .alias (some target) => toJson? depth target
  | .alias none => none

def itemsToJson? (depth : Nat) : List Node → Option (List Json)
  | [] => some []
  | item :: items =>
    match toJson? depth item, itemsToJson? depth items with
    | some item, some items => some (item :: items)
    | _, _ => none

def fieldsToJson? (depth : Nat) : List (Node × Node) → Option (List (String × Json))
  | [] => some []
  | (key, value) :: fields =>
    match text? key, toJson? depth value, fieldsToJson? depth fields with
    | some key, some value, some fields => some ((key, value) :: fields)
    | _, _, _ => none

end

end Node

inductive Value
  | scalar (value : Scalar)
  | sequence (items : List Value)
  | mapping (fields : List (Value × Value))
  | tagged (tag : String) (value : Value)
deriving Repr

def Real.same : Real → Real → Bool
  | .finite x, .finite y => x == y || (x.isZero && y.isZero)
  | x, y => x == y

def Scalar.same : Scalar → Scalar → Bool
  | .real x, .real y => x.same y
  | x, y => x == y

namespace Value

mutual

def same : Value → Value → Bool
  | .scalar x, .scalar y => x.same y
  | .sequence xs, .sequence ys => sameItems xs ys
  | .mapping xs, .mapping ys => xs.length == ys.length && sameFields xs ys
  | .tagged s x, .tagged t y => s == t && same x y
  | _, _ => false

def sameItems : List Value → List Value → Bool
  | [], [] => true
  | x :: xs, y :: ys => same x y && sameItems xs ys
  | _, _ => false

def sameFields : List (Value × Value) → List (Value × Value) → Bool
  | [], _ => true
  | (key, value) :: xs, ys =>
    ys.any (fun (otherKey, otherValue) => same key otherKey && same value otherValue) &&
      sameFields xs ys

end

def keysDiffer : List (Value × Value) → Bool
  | [] => true
  | (key, _) :: fields => fields.all (fun (other, _) => !same key other) && keysDiffer fields

def withTag (tag : Option String) (value : Value) : Value :=
  match customTag? tag with
  | some name => .tagged name value
  | none => value

mutual

def ofNode? (depth : Nat) : Node → Option Value
  | .scalar tag style text =>
    let tag' := if (customTag? tag).isSome then none else tag
    (Scalar.of? tag' style text).map fun value => withTag tag (.scalar value)
  | .sequence tag items =>
    if depth = 0 then none
    else (ofNodes? (depth - 1) items).map fun items => withTag tag (.sequence items)
  | .mapping tag fields =>
    if depth = 0 then none
    else
      match ofFields? (depth - 1) fields with
      | some fields => if keysDiffer fields then some (withTag tag (.mapping fields)) else none
      | none => none
  | .alias (some target) => ofNode? depth target
  | .alias none => none

def ofNodes? (depth : Nat) : List Node → Option (List Value)
  | [] => some []
  | item :: items =>
    match ofNode? depth item, ofNodes? depth items with
    | some item, some items => some (item :: items)
    | _, _ => none

def ofFields? (depth : Nat) : List (Node × Node) → Option (List (Value × Value))
  | [] => some []
  | (key, value) :: fields =>
    match ofNode? depth key, ofNode? depth value, ofFields? depth fields with
    | some key, some value, some fields => some ((key, value) :: fields)
    | _, _, _ => none

end

def parse (text : String) : Option Value :=
  match Node.parse text with
  | none => none
  | some none => some (.scalar .null)
  | some (some node) => ofNode? depthLimit node

def isMapping : Value → Bool
  | .mapping _ => true
  | .tagged _ value => isMapping value
  | _ => false

end Value

end BuildGate.Yaml
