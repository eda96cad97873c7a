import BuildGate.Json.Value

set_option autoImplicit false

namespace BuildGate

inductive Toml.Origin
  | closed
  | opened
  | implied
  | dotted
deriving DecidableEq, Repr

inductive Toml
  | text (value : String)
  | bool (value : Bool)
  | int (value : Int)
  | float (value : Option Binary64)
  | moment (text : String)
  | array (grows : Bool) (items : List Toml)
  | table (origin : Toml.Origin) (members : List (String × Toml))
deriving Repr

namespace Toml

abbrev Members := List (String × Toml)

def addNew (key : String) (value : Toml) (members : Members) : Option Members :=
  if (members.lookup key).isSome then none else some (members ++ [(key, value)])

def alterLast (change : Toml → Option Toml) : List Toml → Option (List Toml)
  | [] => none
  | [item] => (change item).map ([·])
  | item :: items => (alterLast change items).map (item :: ·)

-- Adds a value under a key with dots. The tables on the way must not have been opened by a
-- header, and the last of them must be one that keys with dots made.
def assign (value : Toml) : List String → Members → Option Members
  | [], _ => none
  | [key], members => addNew key value members
  | key :: next :: path, members =>
    match members.lookup key with
    | none => do addNew key (.table .dotted (← assign value (next :: path) [])) members
    | some (.table origin inner) => do
      guard (origin = .dotted ∨ origin = .implied ∧ path ≠ [])
      return Json.put key (.table origin (← assign value (next :: path) inner)) members
    | some (.array true items) => do
      guard (path ≠ [])
      match items.getLast? with
      | some (.table origin inner) =>
        let last := Toml.table origin (← assign value (next :: path) inner)
        return Json.put key (.array true (items.dropLast ++ [last])) members
      | _ => none
    | some _ => none

def enter (change : Members → Option Members) : List String → Members → Option Members
  | [], members => change members
  | key :: path, members =>
    match members.lookup key with
    | none => do addNew key (.table .implied (← enter change path [])) members
    | some (.table .closed _) => none
    | some (.table origin inner) => do
      return Json.put key (.table origin (← enter change path inner)) members
    | some (.array true items) =>
      match items.getLast? with
      | some (.table origin inner) => do
        let last := Toml.table origin (← enter change path inner)
        return Json.put key (.array true (items.dropLast ++ [last])) members
      | _ => none
    | some _ => none

def openTable (key : String) (members : Members) : Option Members :=
  match members.lookup key with
  | none => addNew key (.table .opened []) members
  | some (.table .implied inner) => some (Json.put key (.table .opened inner) members)
  | some _ => none

def openItem (key : String) (members : Members) : Option Members :=
  match members.lookup key with
  | none => addNew key (.array true [.table .opened []]) members
  | some (.array true items) =>
    some (Json.put key (.array true (items ++ [.table .opened []])) members)
  | some _ => none

def insertSorted {α : Type} (member : String × α) : List (String × α) → List (String × α)
  | [] => [member]
  | other :: members =>
    if member.1 < other.1 then member :: other :: members else other :: insertSorted member members

def sorted {α : Type} (members : List (String × α)) : List (String × α) :=
  members.foldr insertSorted []

def momentKey : String := "$__toml_private_datetime"

mutual

def toJson? : Toml → Option Json
  | .text value => some (.text value)
  | .bool value => some (.bool value)
  | .int value => if Word.holds 64 value then some (.number (.int value)) else none
  | .float none => some .null
  | .float (some value) => some (.number (.float value))
  | .moment written => some (.object [(momentKey, .text written)])
  | .array _ items => (itemsToJson? items).map .array
  | .table _ members => (membersToJson? members).map fun ms => .object (sorted ms)

def itemsToJson? : List Toml → Option (List Json)
  | [] => some []
  | item :: items =>
    match toJson? item, itemsToJson? items with
    | some item, some items => some (item :: items)
    | _, _ => none

def membersToJson? : List (String × Toml) → Option (List (String × Json))
  | [] => some []
  | (key, value) :: members =>
    match toJson? value, membersToJson? members with
    | some value, some members => some ((key, value) :: members)
    | _, _ => none

end

end Toml

end BuildGate
