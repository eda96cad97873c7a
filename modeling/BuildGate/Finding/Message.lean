
set_option autoImplicit false

namespace BuildGate

inductive Message
  | plain (text : String)
  | chain (text : String) (causes : List Message)
deriving Repr

namespace Message

def indent (depth : Nat) : String := String.ofList (List.replicate (2 * depth) ' ')

def lead (newline : String) : Nat → String
  | 0 => ""
  | depth + 1 => newline ++ indent (depth + 1)

mutual

def flattenAt (newline : String) (depth : Nat) : Message → String
  | plain text => lead newline depth ++ text
  | chain text causes => lead newline depth ++ text ++ flattenAll newline (depth + 1) causes

def flattenAll (newline : String) (depth : Nat) : List Message → String
  | [] => ""
  | message :: messages => flattenAt newline depth message ++ flattenAll newline depth messages

end

def flatten (message : Message) (newline : String) : String := message.flattenAt newline 0

end Message

end BuildGate
