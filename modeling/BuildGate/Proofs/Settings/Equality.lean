import BuildGate.Settings.Basic

set_option autoImplicit false

namespace BuildGate

namespace Json

mutual

def same : Json → Json → Bool
  | .null, .null => true
  | .bool value, .bool other => value == other
  | .number value, .number other => value == other
  | .text value, .text other => value == other
  | .array items, .array others => sameItems items others
  | .object members, .object others => sameMembers members others
  | _, _ => false

def sameItems : List Json → List Json → Bool
  | [], [] => true
  | item :: items, other :: others => same item other && sameItems items others
  | _, _ => false

def sameMembers : List (String × Json) → List (String × Json) → Bool
  | [], [] => true
  | (key, value) :: members, (name, other) :: others =>
    key == name && same value other && sameMembers members others
  | _, _ => false

end

mutual

theorem same_iff (value other : Json) : same value other = true ↔ value = other := by
  match value with
  | .null | .bool _ | .number _ | .text _ => cases other <;> simp [same]
  | .array items =>
    cases other with
    | array others => simp [same, sameItems_iff items others]
    | _ => simp [same]
  | .object members =>
    cases other with
    | object others => simp [same, sameMembers_iff members others]
    | _ => simp [same]

theorem sameItems_iff (items others : List Json) : sameItems items others = true ↔ items = others := by
  match items, others with
  | [], [] | [], _ :: _ | _ :: _, [] => simp [sameItems]
  | item :: items, other :: others =>
    simp [sameItems, same_iff item other, sameItems_iff items others]

theorem sameMembers_iff (members others : List (String × Json)) :
    sameMembers members others = true ↔ members = others := by
  match members, others with
  | [], [] | [], _ :: _ | _ :: _, [] => simp [sameMembers]
  | (key, value) :: members, (name, other) :: others =>
    simp [sameMembers, same_iff value other, sameMembers_iff members others]

end

instance : DecidableEq Json := fun value other => decidable_of_iff _ (same_iff value other)

end Json

deriving instance DecidableEq for ConfigFile

deriving instance DecidableEq for Settings

end BuildGate
