import BuildGate.Toml.Value

set_option autoImplicit false

namespace BuildGate.Toml

def isSpace (c : Char) : Bool := c == ' ' || c == '\t'

def isInline (c : Char) : Bool := c == '\t' || (0x20 ≤ c.toNat && c.toNat != 0x7F)

def newline? : List Char → Option (List Char)
  | '\n' :: rest => some rest
  | '\r' :: '\n' :: rest => some rest
  | _ => none

def dropNewline (cs : List Char) : List Char := (newline? cs).getD cs

def escaped? : Char → Option Char
  | 'b' => some '\x08'
  | 't' => some '\t'
  | 'n' => some '\n'
  | 'f' => some '\x0c'
  | 'r' => some '\r'
  | 'e' => some '\x1b'
  | '"' => some '"'
  | '\\' => some '\\'
  | _ => none

def prepend? (c : Option Char) (text : Option (List Char × List Char)) :
    Option (List Char × List Char) :=
  match c, text with
  | some c, some (cs, rest) => some (c :: cs, rest)
  | _, _ => none

def readBasic : List Char → Option (List Char × List Char)
  | [] => none
  | '"' :: rest => some ([], rest)
  | '\\' :: 'u' :: a :: b :: c :: d :: rest =>
    prepend? (Text.hexChar? [a, b, c, d]) (readBasic rest)
  | '\\' :: 'U' :: a :: b :: c :: d :: e :: f :: g :: h :: rest =>
    prepend? (Text.hexChar? [a, b, c, d, e, f, g, h]) (readBasic rest)
  | '\\' :: 'x' :: a :: b :: rest => prepend? (Text.hexChar? [a, b]) (readBasic rest)
  | '\\' :: c :: rest => prepend? (escaped? c) (readBasic rest)
  | c :: rest => if isInline c then prepend? (some c) (readBasic rest) else none

def readLiteral : List Char → Option (List Char × List Char)
  | [] => none
  | c :: rest =>
    if c = '\x27' then some ([], rest)
    else if isInline c then prepend? (some c) (readLiteral rest)
    else none

def closeBlock? (quote : Char) (cs : List Char) : Option (List Char × List Char) :=
  let count := (cs.takeWhile (· == quote)).length
  if 3 ≤ count then
    let own := min count 5 - 3
    some (List.replicate own quote, cs.drop (own + 3))
  else none

def endsLine (cs : List Char) : Bool := (newline? (cs.dropWhile isSpace)).isSome

def readBlock (skipping : Bool) : List Char → Option (List Char × List Char)
  | [] => none
  | c :: rest =>
    if skipping && (isSpace c || (newline? (c :: rest)).isSome) then readBlock true rest
    else if skipping && c == '\n' then readBlock true rest
    else
      match closeBlock? '"' (c :: rest) with
      | some closed => some closed
      | none =>
        if c = '\\' then
          if endsLine rest then readBlock true rest
          else
            match rest with
            | 'u' :: a :: b :: c :: d :: rest =>
              prepend? (Text.hexChar? [a, b, c, d]) (readBlock false rest)
            | 'U' :: a :: b :: c :: d :: e :: f :: g :: h :: rest =>
              prepend? (Text.hexChar? [a, b, c, d, e, f, g, h]) (readBlock false rest)
            | 'x' :: a :: b :: rest => prepend? (Text.hexChar? [a, b]) (readBlock false rest)
            | c :: rest => prepend? (escaped? c) (readBlock false rest)
            | [] => none
        else if isInline c || c == '\n' || (newline? (c :: rest)).isSome then
          prepend? (some c) (readBlock false rest)
        else none

def readLiteralBlock : List Char → Option (List Char × List Char)
  | [] => none
  | c :: rest =>
    match closeBlock? '\x27' (c :: rest) with
    | some closed => some closed
    | none =>
      if isInline c || c == '\n' || (newline? (c :: rest)).isSome then
        prepend? (some c) (readLiteralBlock rest)
      else none

def groups? (isDigit : Char → Bool) (cs : List Char) : Option (List Char) :=
  let parts := cs.splitOn '_'
  if parts.all fun part => part ≠ [] ∧ part.all isDigit then some parts.flatten else none

def decimals? (cs : List Char) : Option (List Char) := groups? Text.isAsciiDigit cs

def whole? (cs : List Char) : Option (List Char) :=
  (decimals? cs).bind fun digits => if Json.NumberForm.isWhole digits then some digits else none

def splitSign : List Char → Bool × List Char
  | '-' :: cs => (true, cs)
  | '+' :: cs => (false, cs)
  | cs => (false, cs)

def limited (value : Int) : Option Toml :=
  if Word.holds 128 value then some (.int value) else none

def radix? (base : Nat) (cs : List Char) : Option Toml :=
  let holds (c : Char) : Bool := (Text.hexDigit? c).any (· < base)
  (groups? holds cs).bind fun digits =>
    limited (digits.foldl (fun n c => n * base + (Text.hexDigit? c).getD 0) 0)

def integer? : List Char → Option Toml
  | '0' :: 'x' :: cs => radix? 16 cs
  | '0' :: 'o' :: cs => radix? 8 cs
  | '0' :: 'b' :: cs => radix? 2 cs
  | cs =>
    let (negative, cs) := splitSign cs
    (whole? cs).bind fun digits =>
      let value : Int := Text.digitsValue 0 digits
      limited (if negative then -value else value)

def isExponentMark (c : Char) : Bool := c == 'e' || c == 'E'

def exponent? : List Char → Option Int
  | [] => some 0
  | _ :: cs =>
    let (negative, cs) := splitSign cs
    (decimals? cs).map fun digits =>
      let value : Int := Text.digitsValue 0 digits
      if negative then -value else value

def fraction? : List Char → Option (List Char)
  | [] => some []
  | _ :: cs => decimals? cs

def float? (cs : List Char) : Option Toml := do
  let (negative, cs) := splitSign cs
  let sign (x : Binary64) : Binary64 := if negative then x.negate else x
  if cs = ['i', 'n', 'f'] ∨ cs = ['n', 'a', 'n'] then some (.float none)
  else if cs.all fun c => c != '.' && !isExponentMark c then none
  else
    let mantissa := cs.takeWhile (!isExponentMark ·)
    let whole ← whole? (mantissa.takeWhile (· != '.'))
    let fraction ← fraction? (mantissa.dropWhile (· != '.'))
    let exponent ← exponent? (cs.dropWhile (!isExponentMark ·))
    let digits := Text.digitsValue 0 (whole ++ fraction)
    return .float (some (sign (← Binary64.ofDecimal digits (exponent - fraction.length))))

def two? (least greatest : Nat) : List Char → Option (Nat × List Char)
  | a :: b :: rest =>
    if Text.isAsciiDigit a && Text.isAsciiDigit b then
      let n := Text.digitValue a * 10 + Text.digitValue b
      if least ≤ n ∧ n ≤ greatest then some (n, rest) else none
    else none
  | _ => none

def isLeap (year : Nat) : Bool := year % 4 == 0 && (year % 100 != 0 || year % 400 == 0)

def daysOf (year month : Nat) : Nat :=
  if month = 2 then if isLeap year then 29 else 28
  else if month ∈ [4, 6, 9, 11] then 30
  else 31

def afterDate? (cs : List Char) : Option (List Char) :=
  let year := cs.take 4
  if year.length = 4 ∧ year.all Text.isAsciiDigit then
    match cs.drop 4 with
    | '-' :: cs =>
      match two? 1 12 cs with
      | some (month, '-' :: cs) =>
        (two? 1 (daysOf (Text.digitsValue 0 year) month) cs).map (·.2)
      | _ => none
    | _ => none
  else none

def dropZerosEnd (cs : List Char) : List Char := (cs.reverse.dropWhile (· == '0')).reverse

def fractionText (digits : List Char) : List Char :=
  match dropZerosEnd (digits.take 9) with
  | [] => ['.', '0']
  | kept => '.' :: kept

def readTime? (cs : List Char) : Option (List Char × List Char) :=
  match two? 0 23 cs with
  | some (_, ':' :: afterHour) =>
    match two? 0 59 afterHour with
    | some (_, ':' :: afterMinute) =>
      match two? 0 60 afterMinute with
      | some (_, '.' :: rest) =>
        let digits := rest.takeWhile Text.isAsciiDigit
        if digits = [] then none
        else some (cs.take 8 ++ fractionText digits, rest.dropWhile Text.isAsciiDigit)
      | some (_, rest) => some (cs.take 8, rest)
      | none => none
    | some (_, rest) => some (cs.take 5, rest)
    | none => none
  | _ => none

def offset? : List Char → Option (List Char)
  | [] => some []
  | ['z'] | ['Z'] => some ['Z']
  | sign :: cs =>
    if sign = '+' ∨ sign = '-' then
      match two? 0 23 cs with
      | some (hours, ':' :: rest) =>
        match two? 0 59 rest with
        | some (minutes, []) =>
          some ((if hours = 0 ∧ minutes = 0 then '+' else sign) :: cs)
        | _ => none
      | _ => none
    else none

def moment? (cs : List Char) : Option Toml :=
  match afterDate? cs with
  | some [] => some (.moment (String.ofList cs))
  | some (mark :: rest) =>
    if mark = 'T' ∨ mark = 't' ∨ mark = ' ' then do
      let (time, rest) ← readTime? rest
      let offset ← offset? rest
      return .moment (String.ofList (cs.take 10 ++ 'T' :: time ++ offset))
    else none
  | none =>
    match readTime? cs with
    | some (time, []) => some (.moment (String.ofList time))
    | _ => none

def isPlain (c : Char) : Bool :=
  c.isAlphanum || c == '_' || c == '+' || c == '-' || c == '.' || c == ':'

def plain? (cs : List Char) : Option Toml :=
  if cs = ['t', 'r', 'u', 'e'] then some (.bool true)
  else if cs = ['f', 'a', 'l', 's', 'e'] then some (.bool false)
  else (integer? cs).or ((moment? cs).or (float? cs))

def timeFollows : List Char → Bool
  | ' ' :: a :: b :: ':' :: _ => Text.isAsciiDigit a && Text.isAsciiDigit b
  | _ => false

def readPlain (cs : List Char) : Option (Toml × List Char) :=
  let run := cs.takeWhile isPlain
  let rest := cs.dropWhile isPlain
  if run.length = 10 && (afterDate? run).isSome && timeFollows rest then
    let time := (rest.drop 1).takeWhile isPlain
    (plain? (run ++ ' ' :: time)).map fun value => (value, (rest.drop 1).dropWhile isPlain)
  else (plain? run).map fun value => (value, rest)

end BuildGate.Toml
