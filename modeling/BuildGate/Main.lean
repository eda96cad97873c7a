import BuildGate.Calendar
import BuildGate.Invocation

set_option autoImplicit false

namespace BuildGate.Main

def readEntry : Nat → Place → IO.FS.DirEntry → IO (List (Place × Entry))
  | 0, _, _ => return []
  | fuel + 1, place, item => do
    let inner := place ++ [item.fileName]
    let modified := (← item.path.metadata).modified.sec
    if ← item.path.isDir then
      let below ← (← item.path.readDir).toList.mapM (readEntry fuel inner)
      return (inner, .directory modified) :: below.flatten
    else
      return [(inner, .file (← IO.FS.readBinFile item.path).toList modified)]

def deepest : Nat := 64

def now : IO Nat := do
  let (_, path) ← IO.FS.createTempFile
  let modified := (← path.metadata).modified.sec
  IO.FS.removeFile path
  return modified.toNat

def readDisk (clock : Nat) : IO Disk := do
  let here ← IO.currentDir
  let place := (Path.mk here.toString).parts.filterMap fun
    | .name text => some text
    | _ => none
  let entries ← (← here.readDir).toList.mapM (readEntry deepest place)
  let above := (List.range place.length).map fun n => (place.take (n + 1), Entry.directory 0)
  return ⟨above ++ entries.flatten, place, clock⟩

def machine (disk : Disk) (seconds nanoseconds : Nat) : Machine where
  host := ⟨disk, fun _ => some .missing, fun _ _ => .silent, []⟩
  nanoseconds := nanoseconds
  localTime := Calendar.text seconds

partial def readAll (stream : IO.FS.Stream) (read : ByteArray) : IO ByteArray := do
  let more ← stream.read 65536
  if more.isEmpty then return read
  readAll stream (read ++ more)

def listens (arguments : List String) : Bool :=
  match CommandLine.parse arguments with
  | .ok line => line.listen
  | .error _ => false

def complaintOf : Invocation.Ending → Option String
  | .served _ => none
  | .failed error => some ("tycheck: " ++ error.message "not well-formed")
  | .refused .version => none
  | .refused .help => some "usage: tycheck [OPTIONS]"
  | .refused _ => some "error: the arguments are not understood"

def sendSignals (arguments : List String) (signals : List Signal) : IO Unit := do
  let words := (signals.filter (·.failure.isNone)).map fun signal => signal.indicator.word ++ "\n"
  match CommandLine.parse arguments with
  | .ok { parentChannel := some path, .. } =>
    if words ≠ [] then
      IO.FS.withFile path .append fun file => file.putStr (String.join words)
  | _ => return

end BuildGate.Main

open BuildGate in
def main (arguments : List String) : IO UInt32 := do
  let seconds ← Main.now
  let disk ← Main.readDisk seconds
  let triggers ←
    if Main.listens arguments then Main.readAll (← IO.getStdin) .empty else pure .empty
  let input : Invocation.Input := ⟨arguments, ← IO.getEnv "NO_COLOR", triggers.toList⟩
  let machine := Main.machine disk seconds (← IO.monoNanosNow)
  let (ending, scene) := Invocation.run input (.start machine .accepting)
  IO.print scene.console.text
  Main.sendSignals arguments scene.signals
  match Main.complaintOf ending with
  | some complaint => IO.eprintln complaint
  | none => pure ()
  return UInt32.ofNat ending.exitStatus
