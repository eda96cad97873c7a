
set_option autoImplicit false

namespace BuildGate

inductive IoError
  | missing
  | denied
  | notDirectory
  | isDirectory
  | notText
  | nulInPath
  | nulInArgument
  | other (text : String)
deriving DecidableEq, Repr

def IoError.message : IoError → String
  | missing => "No such file or directory (os error 2)"
  | denied => "Permission denied (os error 13)"
  | notDirectory => "Not a directory (os error 20)"
  | isDirectory => "Is a directory (os error 21)"
  | notText => "stream did not contain valid UTF-8"
  | nulInPath => "file name contained an unexpected NUL byte"
  | nulInArgument => "nul byte found in provided data"
  | other text => text

def holdsNul (text : String) : Bool := text.toList.contains '\x00'

end BuildGate
