
set_option autoImplicit false

namespace BuildGate.Calendar

def weekdays : List String := ["Sun", "Mon", "Tue", "Wed", "Thu", "Fri", "Sat"]

def months : List String :=
  ["Jan", "Feb", "Mar", "Apr", "May", "Jun", "Jul", "Aug", "Sep", "Oct", "Nov", "Dec"]

def ofDay (day : Nat) : Nat × Nat × Nat :=
  let days := day + 719468
  let era := days / 146097
  let ofEra := days % 146097
  let yearOfEra := (ofEra - ofEra / 1460 + ofEra / 36524 - ofEra / 146096) / 365
  let ofYear := ofEra - (365 * yearOfEra + yearOfEra / 4 - yearOfEra / 100)
  let fromMarch := (5 * ofYear + 2) / 153
  let dayOfMonth := ofYear - (153 * fromMarch + 2) / 5 + 1
  let month := if fromMarch < 10 then fromMarch + 3 else fromMarch - 9
  (yearOfEra + era * 400 + (if month ≤ 2 then 1 else 0), month, dayOfMonth)

def twoDigits (n : Nat) : String := (if n < 10 then "0" else "") ++ toString n

def text (seconds : Nat) : String :=
  let day := seconds / 86400
  let (year, month, dayOfMonth) := ofDay day
  let time := seconds % 86400
  (weekdays[(day + 4) % 7]?).getD "" ++ " " ++ (months[month - 1]?).getD "" ++ " " ++
    twoDigits dayOfMonth ++ " " ++ toString year ++ " " ++ twoDigits (time / 3600) ++ ":" ++
    twoDigits (time / 60 % 60) ++ ":" ++ twoDigits (time % 60)

end BuildGate.Calendar
