import BuildGate.Proofs.Compiler.Cited
import BuildGate.Proofs.Lint.Written

set_option autoImplicit false

namespace BuildGate

open Compiler (Position)

theorem Word.add_lt {a b : Nat} (first : a < size) (second : b < size) (beyond : size ≤ a + b) :
    add a b < a := by
  rw [add, Nat.mod_eq_sub_mod beyond, Nat.mod_eq_of_lt (by omega)]
  omega

theorem Word.add_eq_iff {a b : Nat} : add a b = a + b ↔ a + b < size :=
  ⟨fun same => same ▸ Nat.mod_lt _ (by decide), add_eq_of_lt⟩

theorem place_eq_shown_iff (file : String) (line character : Nat) :
    ReportLine.place file line character = Position.shown ⟨file, line + 1, character + 1⟩ ↔
      line + 1 < Word.size ∧ character + 1 < Word.size := by
  constructor
  · intro same
    have wrapped : Position.shown ⟨file, Word.add line 1, Word.add character 1⟩ =
        Position.shown ⟨file, line + 1, character + 1⟩ := same
    have equal : Position.mk file (Word.add line 1) (Word.add character 1) =
        ⟨file, line + 1, character + 1⟩ := Position.shown_inj rfl wrapped
    simp only [Position.mk.injEq, true_and, Word.add_eq_iff] at equal
    exact equal
  · rintro ⟨fits, within⟩
    exact Compiler.place_eq_shown file fits within

namespace Lint

/-- A failure has the numbers of its record, and is shown on the line and the character behind them exactly
if both of these are words. -/
structure Shows (file : String) (record : Json.Form) (failure : Failure) : Prop where
  marks : Marks record failure.line failure.character
  shown : ∀ yellow, (ReportLine.ofFailure yellow failure).location =
      some (Position.shown ⟨file, failure.line + 1, failure.character + 1⟩) ↔
    failure.line + 1 < Word.size ∧ failure.character + 1 < Word.size

theorem shows_of_marks {file : String} {record : Json.Form} {failure : Failure}
    (fits : Fits file failure) (marks : Marks record failure.line failure.character) :
    Shows file record failure := by
  refine ⟨marks, fun yellow => ?_⟩
  rw [← place_eq_shown_iff file, ← fits.file]
  exact Option.some_inj

end Lint

namespace Compiler

def lineStart (text : String) (line : Nat) : Nat := rowStart (rows text.toList) (line - 1)

def meant (text : String) (line column : Nat) : Nat :=
  min (lineStart text line + (max column 1 - 1)) (width text.toList)

/-- What is made of a line of a text and the digits of a column. The offset is never behind the one that is
meant. It is that one if the column is a word and so is the sum, or if the column is no word and the line
starts at the end of the text. -/
structure Measured (text : String) (line : Nat) (column : List Char) (start : Option Nat) : Prop where
  decimal : ∀ n, Decimal column n → ∃ offset, start = some offset ∧ offset ≤ meant text line n ∧
    (offset = meant text line n ↔
      n < Word.size ∧ lineStart text line + (n - 1) < Word.size ∨
      Word.size ≤ n ∧ lineStart text line = width text.toList)
  foreign : (∃ c ∈ column, Text.isAsciiDigit c = false) → start = some (lineStart text line)

theorem ordinal_of_le {digits : List Char} {n : Nat} (decimal : Decimal digits n)
    (beyond : Word.size ≤ n) : ordinal digits = 1 := by
  obtain ⟨-, -, rfl⟩ := decimal
  rw [ordinal, Text.readBelow, if_neg (fun read => Nat.not_lt.2 beyond read.2.2), Option.getD_none]

theorem ordinal_of_foreign {digits : List Char} {c : Char} (inside : c ∈ digits)
    (foreign : Text.isAsciiDigit c = false) : ordinal digits = 1 := by
  have other : ¬ digits.all Text.isAsciiDigit = true := by
    rw [List.all_eq_true]
    intro all
    rw [all c inside] at foreign
    cases foreign
  rw [ordinal, Text.readBelow, if_neg (fun read => other read.2.1), Option.getD_none]

theorem lineStart_le (text : String) (line : Nat) : lineStart text line ≤ width text.toList := by
  have bound := rowStart_le (rows text.toList) (line - 1)
  rwa [flatten_rows] at bound

theorem offset?_eq_some {text : String} {line : Nat} (row : max line 1 ≤ (rows text.toList).length)
    (column : Nat) :
    (LineMap.ofString text).offset? (line - 1) (column - 1) =
      some (min (Word.add (lineStart text line) (column - 1)) (width text.toList)) := by
  rw [LineMap.ofString, LineMap.offset?_eq, if_pos (by omega), lineStart]

theorem offset?_measured {text : String} {line : Nat} {column : List Char} (fits : Text.Fits text)
    (row : max line 1 ≤ (rows text.toList).length) :
    Measured text line column
      ((LineMap.ofString text).offset? (line - 1) (ordinal column - 1)) := by
  have half := Word.half
  have short := fits.width_lt
  have start := lineStart_le text line
  -- Where a column counts as the first, no sum can fail to fit.
  have first : Word.add (lineStart text line) (1 - 1) = lineStart text line :=
    Word.add_eq_of_lt (by omega)
  rw [offset?_eq_some row]
  constructor
  · intro n decimal
    refine ⟨_, rfl, ?_⟩
    unfold meant
    by_cases word : n < Word.size
    · rw [decimal.ordinal word]
      by_cases sum : lineStart text line + (n - 1) < Word.size
      · rw [Word.add_eq_of_lt sum]
        omega
      · have wrapped : Word.add (lineStart text line) (n - 1) < lineStart text line :=
          Word.add_lt (by omega) (by omega) (by omega)
        omega
    · rw [ordinal_of_le decimal (by omega), first]
      omega
  · rintro ⟨c, inside, foreign⟩
    rw [ordinal_of_foreign inside foreign, first, Nat.min_eq_left start]

/-- What a program makes of a line of its output. If the line cites a file, and the program has a text of
it with that line, then the offset is measured there and shown as the position it has in the text. -/
structure Told (program : Program) (cs : List Char) (diagnostic : Category × Notice) : Prop where
  cites : ∀ file, diagnostic.2.file = some file → ∃ line column, Cites cs file line column
  cited : ∀ file line column, Cites cs file line column → diagnostic.2.file = some file
  measured : ∀ file line column text n, Cites cs file line column → Decimal line n →
    program.text? file = some text → Text.Fits text → max n 1 ≤ (rows text.toList).length →
    Measured text n column diagnostic.2.start
  shown : ∀ file text start, diagnostic.2.file = some file → diagnostic.2.start = some start →
    program.text? file = some text → Text.Fits text → ∀ yellow,
    let place := (LineMap.ofString text).lineAndCharacter start
    (ReportLine.ofDiagnostic yellow
        (Session.diagnosticOf program.text? diagnostic.1 diagnostic.2)).location =
      some (Position.shown ⟨file, place.1 + 1, place.2 + 1⟩)

theorem lineAndCharacter_shown {text : String} (fits : Text.Fits text) (file : String) (start : Nat) :
    let place := (LineMap.ofString text).lineAndCharacter start
    ReportLine.place file place.1 place.2 = Position.shown ⟨file, place.1 + 1, place.2 + 1⟩ := by
  intro place
  obtain ⟨row, character, inside, found, offset⟩ :=
    LineMap.exists_lineAndCharacter text.toList start
  have half := Word.half
  have short := fits.width_lt
  have few := length_rows_le text.toList
  have listed := lt_length_of_reach inside
  have same : place = (row, character) := found
  rw [same]
  exact place_eq_shown file (by omega) (by omega)

theorem text?_eq_some {program : Program} {file text : String}
    (held : program.text? file = some text) :
    ∃ source, program.sources.lookup file = some source ∧ source.text = text :=
  Option.map_eq_some_iff.1 held

theorem told_of_stands {program : Program} {cs : List Char} {diagnostic : Category × Notice}
    (stands : Stands program.sources cs diagnostic) : Told program cs diagnostic := by
  obtain ⟨opening, read, named, measured⟩ := stands
  have placed {file : String} {line column : List Char} (cites : Cites cs file line column) :
      opening.position = some ⟨file, ordinal line, ordinal column⟩ := by
    obtain ⟨other, again, placed⟩ := cites.read
    rw [read, Line.opens.injEq] at again
    rwa [again]
  refine ⟨?_, ?_, ?_, ?_⟩
  · intro file here
    rw [named] at here
    obtain ⟨position, placed, rfl⟩ := Option.map_eq_some_iff.1 here
    exact cites_of_read read placed
  · intro file line column cites
    rw [named, placed cites]
    rfl
  · intro file line column text n cites decimal held fits row
    have half := Word.half
    have short := fits.width_lt
    have few := length_rows_le text.toList
    obtain ⟨source, found, rfl⟩ := text?_eq_some held
    rw [measured, placed cites, Option.bind_some, offsetOf?, found, Option.bind_some,
      decimal.ordinal (by omega)]
    exact offset?_measured fits row
  · intro file text start here begun held fits yellow place
    simp only [ReportLine.ofDiagnostic, Session.diagnosticOf, Session.locate?, here, begun, held,
      Option.map_some]
    rw [← lineAndCharacter_shown fits file start]

end Compiler

open Compiler (build Opens Told Program)

/-- Positions that a report shows are exact but for the limits of words. Each failure of an output that is
read is shown one behind the numbers of its record exactly if these are words. Each line that names a
diagnostic gives one diagnostic, whose offset is the one that is meant wherever the column and the sum are
words. -/
theorem positions_exact_iff (file output : String) (command : List String) (project : Project)
    (seed : Option Program) (before : Host) :
    (∀ failures, Lint.parseFailures file output = some failures →
      ∃ records, Lint.Holds output records ∧
        List.Forall₂ (Lint.Shows file) records failures) ∧
    ∀ after program call response,
      build command project seed before = (.ok program, after) → before.Ran after call response →
        List.Forall₂ (Told program) ((Text.lines response.output.toList).filter Opens)
          program.diagnostics := by
  constructor
  · intro failures read
    obtain ⟨records, holds, each⟩ := Lint.parseFailures_eq_some read
    exact ⟨records, holds, each.imp fun record failure ⟨fits, marks⟩ => Lint.shows_of_marks fits marks⟩
  · intro after program call response built ran
    obtain ⟨sources, -, ⟨-, -, rfl⟩ | ⟨-, other, answer, process, made⟩⟩ := Compiler.build_eq_ok built
    · exact absurd ran Host.not_ran_self
    · rw [ran.response_eq process, made]
      exact (Compiler.diagnostics_stand _ _ _).imp fun cs diagnostic => Compiler.told_of_stands

def limitListing : String :=
  "[\x7b\"failure\":\"m\",\"ruleName\":\"r\"," ++
    "\"startPosition\":\x7b\"line\":18446744073709551614,\"character\":7\x7d\x7d," ++
    "\x7b\"failure\":\"m\",\"ruleName\":\"r\"," ++
    "\"startPosition\":\x7b\"line\":18446744073709551615,\"character\":7\x7d\x7d]"

def limitFailure (line : Nat) : Failure := ⟨"a.ts", line, 7, "r", .error, "m"⟩

theorem limit_listed :
    Lint.parseFailures "a.ts" limitListing =
      some [limitFailure 18446744073709551614, limitFailure 18446744073709551615] := by
  decide +kernel

namespace Compiler

def shortText : String := "ab\ncd"

def farResponse (output : String) : Response := ⟨Text.encode output, [], some 2⟩

def farHost (output : String) : Host where
  disk := ⟨[(["a.ts"], .file (Text.encode shortText) 1)], [], 2⟩
  obstacle := fun _ => none
  respond := fun _ _ => farResponse output
  calls := []

def farProject : Project := ⟨["a.ts"], .emptyObject, ⟨"."⟩⟩

def farProgram (output : String) : Program :=
  programOf ["a.ts"] [("a.ts", ⟨shortText, some 1⟩)] output

def farCall : Call := ⟨[], "tsc", fixedArguments ++ ["a.ts"]⟩

theorem far_built {output : String} (spoken : (Text.trim output.toList).isEmpty = false) :
    build ["tsc"] farProject none (farHost output) =
      (.ok (farProgram output), { farHost output with calls := [farCall] }) := by
  have read : (farHost output).disk.readText (Path.join ⟨"."⟩ "a.ts") = .ok shortText := by
    have found : (farHost output).disk.find (Path.join ⟨"."⟩ "a.ts") =
        .ok (.file (Text.encode shortText) 1) := rfl
    have decoded : Text.decode? (Text.encode shortText) = some shortText := Text.decode?_encode _
    simp only [Disk.readText, found, decoded]
  have said : (farResponse output).output = output := Text.decodeLossy_encode _
  have passed : checkResponse ["tsc"] (farResponse output) = .ok output := by
    simp only [checkResponse, said, spoken, Bool.and_false, Bool.false_eq_true, if_false]
  have ran : runCompiler ["tsc"] farProject (farHost output) =
      (.ok output, { farHost output with calls := [farCall] }) := by
    rw [← passed]
    rfl
  exact build_of_runCompiler (loadSources_singleton read) (List.cons_ne_nil _ _) ran

def farLine : List Char := "a.ts(1,9999999999999999999): error TS2322: m".toList

def farOutput : String := "a.ts(1,9999999999999999999): error TS2322: m\n"

theorem far_cites : Cites farLine "a.ts" ['1'] "9999999999999999999".toList :=
  ⟨"2322".toList, ['m'], .error, by decide, ⟨by decide, List.all_eq_true.1 (by decide)⟩,
    ⟨by decide, List.all_eq_true.1 (by decide)⟩, ⟨by decide, List.all_eq_true.1 (by decide)⟩,
    unmarked_of_notMem (by decide), by decide, by decide⟩

end Compiler

open Compiler (farProject farHost farProgram farCall farLine farOutput shortText)

theorem distant_positions_exact :
    let program := farProgram farOutput
    Lint.parseFailures "a.ts" limitListing =
        some [limitFailure 18446744073709551614, limitFailure 18446744073709551615] ∧
      (ReportLine.ofFailure .none (limitFailure 18446744073709551614)).location =
        some "a.ts (18446744073709551615,8)" ∧
      build ["tsc"] farProject none (farHost farOutput) =
        (.ok program, { farHost farOutput with calls := [farCall] }) ∧
      program.diagnostics.map (·.2.start) = [some 5] := by
  intro program
  obtain ⟨listed, told⟩ :=
    positions_exact_iff "a.ts" limitListing ["tsc"] farProject none (farHost farOutput)
  have built := Compiler.far_built (show (Text.trim farOutput.toList).isEmpty = false by decide)
  have said : (Compiler.farResponse farOutput).output = farOutput := Text.decodeLossy_encode _
  refine ⟨limit_listed, ?_, built, ?_⟩
  · obtain ⟨records, -, each⟩ := listed _ limit_listed
    obtain ⟨record, _, shows, -, rfl⟩ := List.forall₂_cons_right_iff.1 each
    rw [(shows.shown .none).2 ⟨by decide, by decide⟩]
    decide +kernel
  · have ran : (farHost farOutput).Ran { farHost farOutput with calls := [farCall] } farCall
        (Compiler.farResponse farOutput) := ⟨rfl, rfl⟩
    have each := told _ _ _ _ built ran
    have lines : (Text.lines (Compiler.farResponse farOutput).output.toList).filter Opens =
        [farLine] := by
      rw [said]
      decide +kernel
    rw [lines, List.forall₂_cons_left_iff] at each
    obtain ⟨diagnostic, _, one, rest, same⟩ := each
    obtain rfl := List.forall₂_nil_left_iff.1 rest
    have fits : Text.Fits shortText := by
      unfold Text.Fits
      decide
    have measured := one.measured "a.ts" ['1'] _ shortText 1 Compiler.far_cites
      ⟨by decide, List.all_eq_true.1 (by decide), by decide⟩ rfl fits (by decide)
    obtain ⟨offset, start, -, reached⟩ := measured.decimal 9999999999999999999
      ⟨by decide, List.all_eq_true.1 (by decide), by decide⟩
    have five : offset = 5 := reached.2 (.inl ⟨by decide, by decide⟩)
    rw [same, List.map_singleton, start, five]

-- The line behind the last one counts as line 0. A column without a word for it counts as the first, and
-- one that only the sum takes out of the words leads back to an earlier line.
def oversizedOutput : String :=
  "a.ts(1,99999999999999999999): error TS2322: m\n" ++
    "a.ts(2,18446744073709551615): error TS2322: m\n"

theorem oversized_positions_misplaced :
    let program := farProgram oversizedOutput
    (Lint.parseFailures "a.ts" limitListing =
        some [limitFailure 18446744073709551614, limitFailure 18446744073709551615] ∧
      (ReportLine.ofFailure .none (limitFailure 18446744073709551615)).location =
        some "a.ts (0,8)") ∧
      build ["tsc"] farProject none (farHost oversizedOutput) =
        (.ok program, { farHost oversizedOutput with calls := [farCall] }) ∧
      program.diagnostics.map (·.2.start) = [some 0, some 1] ∧
      Compiler.meant shortText 1 99999999999999999999 = 5 ∧
      Compiler.meant shortText 2 18446744073709551615 = 5 := by
  intro program
  have spoken : (Text.trim oversizedOutput.toList).isEmpty = false := by decide +kernel
  refine ⟨⟨limit_listed, by decide +kernel⟩, Compiler.far_built spoken, by decide +kernel,
    by decide, by decide⟩

end BuildGate
