import BuildGate.Finding.Kind
import BuildGate.Finding.Level
import BuildGate.Finding.Message

set_option autoImplicit false

namespace BuildGate

structure Notice where
  file : Option String
  start : Option Nat
  code : Nat
  level : Level
  message : Message
deriving Repr

structure Location where
  file : String
  line : Nat
  character : Nat
deriving DecidableEq, Repr

structure Diagnostic where
  category : Category
  location : Option Location
  code : Nat
  level : Level
  message : Message
deriving Repr

structure Failure where
  file : String
  line : Nat
  character : Nat
  rule : String
  severity : Severity
  message : String
deriving DecidableEq, Repr

structure FileFailures where
  file : String
  failures : List Failure
deriving DecidableEq, Repr

end BuildGate
