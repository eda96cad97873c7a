import BuildGate.Json.Form

set_option autoImplicit false

namespace BuildGate

inductive Json
  | null
  | bool (value : Bool)
  | number (value : Json.Number)
  | text (value : String)
  | array (items : List Json)
  | object (members : List (String × Json))
deriving Repr

namespace Json

def put {α : Type} (key : String) (value : α) : List (String × α) → List (String × α)
  | [] => [(key, value)]
  | (k, v) :: members => if k = key then (k, value) :: members else (k, v) :: put key value members

def ofPairs {α : Type} (pairs : List (String × α)) : List (String × α) :=
  pairs.foldl (fun members (key, value) => put key value members) []

def depthLimit : Nat := 127

mutual

def ofForm? (depth : Nat) : Form → Option Json
  | .null => some .null
  | .bool value => some (.bool value)
  | .number form => form.value?.map .number
  | .text content => content.map .text
  | .array items =>
    if depth = 0 then none else (ofForms? (depth - 1) items).map .array
  | .object members =>
    if depth = 0 then none else (ofMembers? (depth - 1) members).map fun ms => .object (ofPairs ms)

def ofForms? (depth : Nat) : List Form → Option (List Json)
  | [] => some []
  | form :: forms =>
    match ofForm? depth form, ofForms? depth forms with
    | some value, some values => some (value :: values)
    | _, _ => none

def ofMembers? (depth : Nat) : List (Option String × Form) → Option (List (String × Json))
  | [] => some []
  | (key, form) :: members =>
    match key, ofForm? depth form, ofMembers? depth members with
    | some key, some value, some members => some ((key, value) :: members)
    | _, _, _ => none

end

def parse (text : String) : Option Json := (Form.read text.toList).bind (ofForm? depthLimit)

def get? (json : Json) (key : String) : Option Json :=
  match json with
  | .object members => members.lookup key
  | _ => none

def text? : Json → Option String
  | .text value => some value
  | _ => none

def emptyObject : Json := .object []

def commas : List (List Char) → List Char
  | [] => []
  | [item] => item
  | item :: items => item ++ ',' :: commas items

mutual

def toChars : Json → List Char
  | .null => ['n', 'u', 'l', 'l']
  | .bool true => ['t', 'r', 'u', 'e']
  | .bool false => ['f', 'a', 'l', 's', 'e']
  | .number value => value.toChars
  | .text value => Quoted.write value.toList
  | .array items => '[' :: commas (itemChars items) ++ [']']
  | .object members => '{' :: commas (memberChars members) ++ ['}']

def itemChars : List Json → List (List Char)
  | [] => []
  | item :: items => toChars item :: itemChars items

def memberChars : List (String × Json) → List (List Char)
  | [] => []
  | (key, value) :: members => (Quoted.write key.toList ++ ':' :: toChars value) :: memberChars members

end

def render (json : Json) : String := String.ofList json.toChars

end Json

end BuildGate
