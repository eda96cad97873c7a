import BuildGate.Action
import BuildGate.Disk
import BuildGate.Text.Blank

set_option autoImplicit false

namespace BuildGate

open Text (Bytes)

structure Response where
  stdout : Bytes
  stderr : Bytes
  status : Option Int
deriving DecidableEq, Repr

namespace Response

def silent : Response := ⟨[], [], some 0⟩

def succeeded (response : Response) : Bool := response.status == some 0

def statusNumber (response : Response) : Int := response.status.getD (-1)

def output (response : Response) : String := Text.decodeLossy response.stdout

def complaint (response : Response) : String :=
  String.ofList (Text.trim (Text.decodeLossy response.stderr).toList)

end Response

structure Call where
  directory : Place
  program : String
  arguments : List String
deriving DecidableEq, Repr

structure Host where
  disk : Disk
  obstacle : String → Option IoError
  respond : List Call → Call → Response
  calls : List Call

namespace Host

-- Why a process with this program and these arguments cannot be started in a directory. The
-- directory is entered first.
def place (host : Host) (program : String) (arguments : List String) (directory : Path) :
    Except IoError Place :=
  if (program :: directory.text :: arguments).any holdsNul then .error .nulInArgument
  else
    match host.disk.directoryAt directory with
    | .error cause => .error cause
    | .ok place =>
      match host.obstacle program with
      | some cause => .error cause
      | none => .ok place

def start (program : String) (arguments : List String) (directory : Path) :
    Action Host IoError Response := fun host =>
  match host.place program arguments directory with
  | .error cause => (.error cause, host)
  | .ok place =>
    let call : Call := ⟨place, program, arguments⟩
    (.ok (host.respond host.calls call), { host with calls := host.calls ++ [call] })

end Host

end BuildGate
