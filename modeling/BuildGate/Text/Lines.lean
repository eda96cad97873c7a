import BuildGate.Text.Utf8

set_option autoImplicit false

namespace BuildGate.Text

def dropLastIf {α : Type} [BEq α] (item : α) (items : List α) : List α :=
  if items.getLast? == some item then items.dropLast else items

def linesOf {α : Type} [BEq α] (feed ret : α) (items : List α) : List (List α) :=
  let pieces := items.splitOn feed
  let ended := pieces.dropLast.map (dropLastIf ret)
  match pieces.getLast? with
  | some [] | none => ended
  -- No line feed follows the last piece, so a carriage return there is part of it.
  | some rest => ended ++ [rest]

def lines (cs : List Char) : List (List Char) := linesOf '\n' '\r' cs

def byteLines (bytes : Bytes) : List (Option String) := (linesOf 10 13 bytes).map decode?

end BuildGate.Text
