
set_option autoImplicit false

namespace BuildGate.Text

abbrev Bytes := List UInt8

def encodeChars (cs : List Char) : Bytes := cs.flatMap String.utf8EncodeChar

def encode (text : String) : Bytes := encodeChars text.toList

def isContinuation (b : UInt8) : Bool := 0x80 ≤ b && b ≤ 0xBF

def payload (b : UInt8) : Nat := b.toNat % 64

def isSecondOfThree (a b : UInt8) : Bool :=
  isContinuation b && (a != 0xE0 || 0xA0 ≤ b) && (a != 0xED || b ≤ 0x9F)

def isSecondOfFour (a b : UInt8) : Bool :=
  isContinuation b && (a != 0xF0 || 0x90 ≤ b) && (a != 0xF4 || b ≤ 0x8F)

def decode : Bytes → List (Option Char)
  | [] => []
  | a :: rest =>
    if a ≤ 0x7F then some (Char.ofNat a.toNat) :: decode rest
    else if 0xC2 ≤ a && a ≤ 0xDF then
      match rest with
      | b :: rest =>
        if isContinuation b then
          some (Char.ofNat (a.toNat % 32 * 64 + payload b)) :: decode rest
        else none :: decode (b :: rest)
      | [] => [none]
    else if 0xE0 ≤ a && a ≤ 0xEF then
      match rest with
      | b :: rest =>
        if isSecondOfThree a b then
          match rest with
          | c :: rest =>
            if isContinuation c then
              some (Char.ofNat ((a.toNat % 16 * 64 + payload b) * 64 + payload c)) :: decode rest
            else none :: decode (c :: rest)
          | [] => [none]
        else none :: decode (b :: rest)
      | [] => [none]
    else if 0xF0 ≤ a && a ≤ 0xF4 then
      match rest with
      | b :: rest =>
        if isSecondOfFour a b then
          match rest with
          | c :: rest =>
            if isContinuation c then
              match rest with
              | d :: rest =>
                if isContinuation d then
                  some (Char.ofNat
                    (((a.toNat % 8 * 64 + payload b) * 64 + payload c) * 64 + payload d)) ::
                    decode rest
                else none :: decode (d :: rest)
              | [] => [none]
            else none :: decode (c :: rest)
          | [] => [none]
        else none :: decode (b :: rest)
      | [] => [none]
    else none :: decode rest
termination_by bytes => bytes.length

def decode? (bytes : Bytes) : Option String :=
  ((decode bytes).mapM id).map String.ofList

def decodeLossy (bytes : Bytes) : String :=
  String.ofList ((decode bytes).map (·.getD '\ufffd'))

end BuildGate.Text
