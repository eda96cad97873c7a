import BuildGate.Report.Paint

set_option autoImplicit false

namespace BuildGate

structure Elapsed where
  seconds : Nat
  nanoseconds : Nat
deriving DecidableEq, Repr

namespace Elapsed

def milliseconds (elapsed : Elapsed) : Nat :=
  elapsed.seconds * 1000 + elapsed.nanoseconds / 1000000

def ofNanoseconds (nanoseconds : Nat) : Elapsed :=
  ⟨nanoseconds / 1000000000, nanoseconds % 1000000000⟩

end Elapsed

structure ReportHeader where
  runType : String
  name : String
  time : String
deriving DecidableEq, Repr

namespace Report

def branch : String := "└── "

def header (color : Bool) (head : ReportHeader) : String :=
  paint color .banner ("\nTypechecker plugin(" ++ head.runType ++ ") " ++ head.name) ++
    paint color .neutral ".\n" ++
    paint color .muted ("Time:" ++ head.time ++ " \n")

-- Only a line with a location carries its tag.
def line (color : Bool) (line : ReportLine) : String :=
  paint color .error branch ++
    (match line.location with
      | some location =>
        paint color (.ofLineClass line.shown) (location ++ " ") ++
          paint color .neutral ("(" ++ line.tag ++ ")") ++ " "
      | none => "") ++
    line.message

def findings (color : Bool) (lines : List ReportLine) : String :=
  if lines.isEmpty then ""
  else
    paint color .heading "\nFile errors" ++ paint color .neutral ":" ++
      String.join (lines.map fun l => "\n" ++ line color l)

def countStyle (yellow : Flags) (kind : Kind) (count : Nat) : Style :=
  if count = 0 then .neutral else if yellow.get kind then .warning else .error

def countEnd : Kind → String
  | .lint => "\n\n"
  | _ => "\n"

def countLine (color : Bool) (yellow : Flags) (totals : Totals) (kind : Kind) : String :=
  paint color (countStyle yellow kind (totals.get kind))
    (branch ++ kind.label ++ ": " ++ toString (totals.get kind) ++ countEnd kind)

def summary (color : Bool) (yellow : Flags) (totals : Totals) : String :=
  paint color .heading "\n\nErrors" ++
    paint color .neutral (":" ++ toString totals.total ++ "\n") ++
    (if totals.total = 0 then "" else String.join (Kind.all.map (countLine color yellow totals)))

def footer (color : Bool) (elapsed : Elapsed) : String :=
  paint color .muted ("Typechecking time: " ++ toString elapsed.milliseconds ++ "ms\n")

def compose (color : Bool) (head : ReportHeader) (lines : List ReportLine) (totals : Totals)
    (yellow : Flags) (elapsed : Elapsed) : String :=
  header color head ++ findings color lines ++ summary color yellow totals ++ footer color elapsed

end Report

end BuildGate
