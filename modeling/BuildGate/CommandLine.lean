import BuildGate.Settings.Basic

set_option autoImplicit false

namespace BuildGate

inductive ValueOption
  | root
  | basePath
  | project
  | tslint
  | name
  | lintCount
  | parentChannel
deriving DecidableEq, Repr

inductive Switch
  | quit
  | finished
  | listen
  | noColor
  | verbose
  | debug
deriving DecidableEq, Repr

inductive OptionMeaning
  | value (option : ValueOption)
  | switch (switch : Switch)
  | help
  | version
deriving DecidableEq, Repr

inductive Refusal
  | unknownArgument
  | invalidValue
  | argumentConflict
  | tooManyValues
  | help
  | version
deriving DecidableEq, Repr

def Refusal.exitStatus : Refusal → Nat
  | help | version => 0
  | _ => 2

def Refusal.announcement? : Refusal → Option String
  | version => some "tycheck 0.1.0\n"
  | _ => none

structure CommandLine where
  root : Option String
  overrides : Overrides
  parentChannel : Option String
  listen : Bool
  noColor : Bool
  verbose : Bool
  debug : Bool
deriving DecidableEq, Repr

namespace CommandLine

def longNames : List (String × OptionMeaning) :=
  [("root", .value .root), ("base-path", .value .basePath), ("project", .value .project),
    ("tslint", .value .tslint), ("name", .value .name), ("lint-count", .value .lintCount),
    ("parent-channel", .value .parentChannel), ("quit", .switch .quit),
    ("finished", .switch .finished), ("listen", .switch .listen), ("no-color", .switch .noColor),
    ("verbose", .switch .verbose), ("debug", .switch .debug), ("help", .help),
    ("version", .version)]

def shortNames : List (Char × OptionMeaning) :=
  [('v', .switch .verbose), ('h', .help), ('V', .version)]

structure Draft where
  values : List (ValueOption × String)
  switches : List Switch
  pending : Option (ValueOption × Option String)
  ended : Bool

namespace Draft

def empty : Draft := ⟨[], [], none, false⟩

def isValid (option : ValueOption) (value : String) : Bool :=
  option != .lintCount || (LintUnit.ofWord? value).isSome

def set (draft : Draft) (option : ValueOption) (value : String) : Except Refusal Draft :=
  if (draft.values.lookup option).isSome then .error .argumentConflict
  else if isValid option value then .ok { draft with values := draft.values ++ [(option, value)] }
  else .error .invalidValue

def settle (draft : Draft) : Except Refusal Draft :=
  match draft.pending with
  | none => .ok draft
  | some (_, none) => .error .invalidValue
  | some (option, some value) => { draft with pending := none }.set option value

def turnOn (draft : Draft) (switch : Switch) : Except Refusal Draft :=
  if draft.switches.contains switch then .error .argumentConflict
  else .ok { draft with switches := draft.switches ++ [switch] }

def takeName (draft : Draft) (meaning : OptionMeaning) : Except Refusal Draft := do
  let draft ← draft.settle
  match meaning with
  | .value option => return { draft with pending := some (option, none) }
  | .switch switch => draft.turnOn switch
  | .help => .error .help
  | .version => .error .version

def takeAttached (draft : Draft) (meaning : OptionMeaning) (value : String) :
    Except Refusal Draft :=
  match meaning with
  | .value option => do
    let draft ← draft.settle
    draft.set option value
  | _ => .error .tooManyValues

def takeLong (draft : Draft) (cs : List Char) : Except Refusal Draft :=
  match longNames.lookup (String.ofList (cs.takeWhile (· != '='))) with
  | none => .error .unknownArgument
  | some meaning =>
    match cs.dropWhile (· != '=') with
    | [] => draft.takeName meaning
    | _ :: value => draft.takeAttached meaning (String.ofList value)

def takeShort (draft : Draft) : List Char → Except Refusal Draft
  | [] => .ok draft
  | c :: cs =>
    match shortNames.lookup c with
    | none => .error .unknownArgument
    | some meaning => do
      let draft ← draft.takeName meaning
      draft.takeShort cs

def takePlain (draft : Draft) (argument : String) : Except Refusal Draft :=
  match draft.pending with
  | some (option, none) => .ok { draft with pending := some (option, some argument) }
  | _ => .error .unknownArgument

def take (draft : Draft) (argument : String) : Except Refusal Draft :=
  if draft.ended then .error .unknownArgument
  else
    match argument.toList with
    | ['-', '-'] => .ok { draft with ended := true }
    | '-' :: '-' :: cs => draft.takeLong cs
    | ['-'] => draft.takePlain argument
    | '-' :: cs => draft.takeShort cs
    | _ => draft.takePlain argument

def has (draft : Draft) (switch : Switch) : Bool := draft.switches.contains switch

-- A switch that is not given leaves the configuration file's value alone.
def override? (draft : Draft) (switch : Switch) : Option Bool :=
  if draft.has switch then some true else none

def finish (draft : Draft) : CommandLine where
  root := draft.values.lookup .root
  overrides := {
    basePath := draft.values.lookup .basePath
    projectFile := draft.values.lookup .project
    lintFile := draft.values.lookup .tslint
    name := draft.values.lookup .name
    quit := draft.override? .quit
    finished := draft.override? .finished
    lintUnit := (draft.values.lookup .lintCount).bind LintUnit.ofWord? }
  parentChannel := draft.values.lookup .parentChannel
  listen := draft.has .listen
  noColor := draft.has .noColor
  verbose := draft.has .verbose
  debug := draft.has .debug

end Draft

def readFrom (draft : Draft) : List String → Except Refusal Draft
  | [] => draft.settle
  | argument :: arguments => do
    let draft ← draft.take argument
    readFrom draft arguments

def parse (arguments : List String) : Except Refusal CommandLine :=
  (readFrom .empty arguments).map Draft.finish

end CommandLine

end BuildGate
