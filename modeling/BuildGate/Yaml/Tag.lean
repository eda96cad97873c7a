import BuildGate.Yaml.Cursor
import BuildGate.Text.Utf8

set_option autoImplicit false

namespace BuildGate.Yaml

def isTagChar (verbatim : Bool) (c : Char) : Bool :=
  isWord c || ";/?:@&=+$.!~*\x27()".toList.contains c || (verbatim && ",[]".toList.contains c)

def readBytes : List Char → Option (Text.Bytes × Nat)
  | '%' :: a :: b :: rest =>
    match Text.hexValue? [a, b], readBytes rest with
    | some byte, some (bytes, n) => some (UInt8.ofNat byte :: bytes, n + 1)
    | _, _ => none
  | '%' :: _ => none
  | _ => some ([], 0)

def readTagText (verbatim : Bool) : Nat → Cursor → Option (List Char × Cursor)
  | 0, here => some ([], here)
  | fuel + 1, here =>
    match here.rest with
    | [] => some ([], here)
    | c :: _ =>
      if c = '%' then
        match readBytes here.rest with
        | none => none
        | some (bytes, n) =>
          match Text.decode? bytes, readTagText verbatim fuel (here.skip (3 * n)) with
          | some text, some (more, after) => some (text.toList ++ more, after)
          | _, _ => none
      else if isTagChar verbatim c then
        (readTagText verbatim fuel (here.skip 1)).map fun (more, after) => (c :: more, after)
      else some ([], here)

def readHandle (here : Cursor) : Option (List Char × Cursor) :=
  if here.sees 0 '!' then
    let word := (here.rest.drop 1).takeWhile isWord
    let after := here.skip (word.length + 1)
    if after.sees 0 '!' then some ('!' :: word ++ ['!'], after.skip 1)
    else some ('!' :: word, after)
  else none

def isHandle (cs : List Char) : Bool :=
  cs.head? == some '!' && 1 < cs.length && cs.getLast? == some '!'

def readTag (inFlow : Bool) (here : Cursor) : Option (String × String × Cursor) := do
  let (handle, text, after) ←
    if here.sees 1 '<' then do
      let (text, after) ← readTagText true here.rest.length (here.skip 2)
      guard (text ≠ [] ∧ after.sees 0 '>')
      pure ([], text, after.skip 1)
    else do
      let (handle, after) ← readHandle here
      let (text, after) ← readTagText false after.rest.length after
      if isHandle handle then do
        guard (text ≠ [])
        pure (handle, text, after)
      else
        let text := handle.drop 1 ++ text
        pure (if text = [] then ([], ['!'], after) else (['!'], text, after))
  guard (after.endsAt 0 ∨ inFlow ∧ after.sees 0 ',')
  return (String.ofList handle, String.ofList text, after)

def readName (here : Cursor) : Option (String × Cursor) :=
  let name := here.rest.takeWhile isWord
  let after := here.skip name.length
  let ends := after.rest.head?.any fun c => "?:,]\x7d%@\x60".toList.contains c
  if name ≠ [] ∧ (after.endsAt 0 ∨ ends) then some (String.ofList name, after) else none

inductive Directive
  | version (major minor : Nat)
  | tag (handle lead : String)
deriving DecidableEq, Repr

def readVersionPart (here : Cursor) : Option (Nat × Cursor) :=
  let digits := here.rest.takeWhile Text.isAsciiDigit
  if digits ≠ [] ∧ digits.length ≤ 9 then
    some (Text.digitsValue 0 digits, here.skip digits.length)
  else none

def readDirective (here : Cursor) : Option (Directive × Cursor) := do
  let here := here.skip 1
  let name := String.ofList (here.rest.takeWhile isWord)
  let here := here.skip name.length
  guard (here.endsAt 0)
  let (directive, here) ←
    if name = "YAML" then do
      let (major, here) ← readVersionPart (here.skipWhile isBlank)
      guard (here.sees 0 '.')
      let (minor, here) ← readVersionPart (here.skip 1)
      pure (Directive.version major minor, here)
    else if name = "TAG" then do
      let (handle, here) ← readHandle (here.skipWhile isBlank)
      guard ((handle = ['!'] ∨ isHandle handle) ∧ here.rest.head?.any isBlank)
      let here := here.skipWhile isBlank
      let (lead, here) ← readTagText true here.rest.length here
      guard (lead ≠ [] ∧ here.endsAt 0)
      pure (Directive.tag (String.ofList handle) (String.ofList lead), here)
    else none
  let here := here.skipComment
  guard here.atLineEnd
  return (directive, here.readBreak.2)

end BuildGate.Yaml
