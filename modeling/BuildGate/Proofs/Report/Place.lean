import BuildGate.Proofs.Compiler.Opening
import BuildGate.Proofs.Compiler.Sources
import BuildGate.Proofs.LineMap
import BuildGate.Proofs.Report.Order
import BuildGate.Proofs.Text.Utf8

set_option autoImplicit false

namespace BuildGate

def Text.Fits (text : String) : Prop := (Text.encode text).length < Word.count 63

theorem units_le_bytes (c : Char) : units c ≤ (String.utf8EncodeChar c).length := by
  have one := c.utf8Size_pos
  rw [String.length_utf8EncodeChar]
  by_cases small : c.toNat < 0x10000
  · rwa [units, if_pos small]
  · have wide : c.utf8Size ≠ 1 := by
      rw [ne_eq, Char.utf8Size_eq_one_iff, UInt32.le_iff_toNat_le]
      change ¬ c.toNat ≤ 127
      omega
    rw [units, if_neg small]
    omega

theorem width_le_bytes (cs : List Char) : width cs ≤ (Text.encodeChars cs).length := by
  induction cs with
  | nil => simp
  | cons c cs ih =>
    have first := units_le_bytes c
    simp only [Text.encodeChars, List.flatMap_cons, List.length_append, width_cons] at ih ⊢
    omega

theorem Text.Fits.width_lt {text : String} (fits : Text.Fits text) :
    width text.toList < Word.count 63 :=
  (width_le_bytes _).trans_lt fits

theorem Word.half : Word.size = 2 * Word.count 63 := by decide

namespace Compiler

open Text (Digits NoLeading trimEnd)

def Decimal (digits : List Char) (n : Nat) : Prop :=
  digits ≠ [] ∧ (∀ c ∈ digits, Text.isAsciiDigit c = true) ∧ Text.digitsValue 0 digits = n

def Locates (cs : List Char) (position : Position) : Prop :=
  ∃ line column code text : List Char, ∃ level : Level,
    Decimal line position.line ∧ Decimal column position.column ∧ Digits code ∧ Unmarked text ∧
      position.file.toList ≠ [] ∧ NoLeading position.file.toList ∧
        trimEnd cs =
          position.file.toList ++ placeChars line column ++ tagChars level code ++ text

theorem Decimal.digits {digits : List Char} {n : Nat} (decimal : Decimal digits n) :
    Digits digits :=
  ⟨decimal.1, fun c inside => Text.isDigit_of_ascii (decimal.2.1 c inside)⟩

theorem Decimal.ordinal {digits : List Char} {n : Nat} (decimal : Decimal digits n)
    (bounded : n < Word.size) : ordinal digits = n := by
  obtain ⟨present, ascii, rfl⟩ := decimal
  rw [Compiler.ordinal, Text.readBelow, if_pos ⟨present, List.all_eq_true.2 ascii, bounded⟩,
    Option.getD_some]

theorem Locates.printed {output : String} {cs : List Char} {position : Position}
    (locates : Locates cs position) (listed : cs ∈ Text.lines output.toList)
    (line : position.line < Word.size) (column : position.column < Word.size) :
    ∃ printed ∈ parseOutput output, printed.position = some position := by
  obtain ⟨lineDigits, columnDigits, code, text, level, validLine, validColumn, validCode, plain,
    present, flush, form⟩ := locates
  have read : Opening.read (trimEnd cs) =
      some ⟨some position, level, codeOf code, String.ofList text⟩ := by
    rw [form, Opening.read_located present validLine.digits validColumn.digits validCode plain,
      validLine.ordinal line, validColumn.ordinal column, String.ofList_toList]
  have unindented : NoLeading (trimEnd cs) := by
    intro c first
    apply flush c
    rwa [form, List.append_assoc, List.append_assoc, List.head?_append_of_ne_nil _ present] at first
  obtain ⟨parts, member⟩ :=
    mem_parseOutput listed (by rw [Line.read_flush unindented, read])
  exact ⟨_, member, rfl⟩

namespace Position

def shown (position : Position) : String :=
  position.file ++ " (" ++ toString position.line ++ "," ++ toString position.column ++ ")"

def offset (position : Position) (text : String) : Nat :=
  rowStart (rows text.toList) (position.line - 1) + (position.column - 1)

structure Inside (position : Position) (text : String) : Prop where
  line_pos : 1 ≤ position.line
  line_le : position.line ≤ (rows text.toList).length
  column_pos : 1 ≤ position.column
  column_le : position.column ≤ reach (rows text.toList) (position.line - 1)

theorem shown_inj {a b : Position} (file : a.file = b.file) (same : a.shown = b.shown) : a = b := by
  have plain (n : Nat) : ',' ∉ (toString n).toList := by
    intro inside
    have digit := Text.ascii_toString n ',' inside
    revert digit
    decide
  have chars := congrArg String.toList same
  simp only [shown, String.toList_append, file, List.append_assoc] at chars
  replace chars := List.append_cancel_left (List.append_cancel_left chars)
  have ending : ',' ∉ (toString a.column).toList ++ ")".toList := by
    rw [List.mem_append, not_or]
    exact ⟨plain a.column, by decide⟩
  obtain ⟨line, -, column⟩ := (List.append_cons_inj_of_notMem (plain a.line) ending).1 chars
  obtain ⟨fileA, lineA, columnA⟩ := a
  obtain ⟨fileB, lineB, columnB⟩ := b
  obtain rfl : fileA = fileB := file
  obtain rfl : lineA = lineB := Text.toString_inj line
  obtain rfl : columnA = columnB := Text.toString_inj (List.append_cancel_right column)
  rfl

theorem Inside.column_lt {position : Position} {text : String} (inside : position.Inside text) :
    position.column - 1 < reach (rows text.toList) (position.line - 1) :=
  Nat.sub_one_lt_of_le inside.column_pos inside.column_le

theorem Inside.offset_le {position : Position} {text : String} (inside : position.Inside text) :
    position.offset text ≤ width text.toList := by
  have bound := add_le_of_reach inside.column_lt
  rwa [flatten_rows] at bound

end Position

theorem place_eq_shown (file : String) {line character : Nat} (fits : line + 1 < Word.size)
    (within : character + 1 < Word.size) :
    ReportLine.place file line character =
      Position.shown ⟨file, line + 1, character + 1⟩ := by
  rw [ReportLine.place, Word.add_eq_of_lt fits, Word.add_eq_of_lt within]
  rfl

theorem location_lineOf (yellow : Flags) (program : Program) {printed : Printed}
    {position : Position} (placed : printed.position = some position) :
    (lineOf yellow program printed).location = (program.text? position.file).bind fun text =>
      let map := LineMap.ofString text
      (map.offset? (position.line - 1) (position.column - 1)).map fun offset =>
        ReportLine.place position.file (map.lineAndCharacter offset).1
          (map.lineAndCharacter offset).2 := by
  simp only [lineOf, ReportLine.ofDiagnostic, Session.diagnosticOf, Session.locate?, noticeOf,
    placed, Option.map_some, Option.bind_some, offsetOf?, Program.text?]
  cases held : program.sources.lookup position.file with
  | none => rfl
  | some source =>
    simp only [Option.bind_some, Option.map_some]
    cases (LineMap.ofString source.text).offset? (position.line - 1) (position.column - 1) with
    | none => rfl
    | some offset => simp only [held, Option.map_some]

theorem location_isSome_iff (yellow : Flags) (program : Program) {printed : Printed}
    {position : Position} (placed : printed.position = some position) :
    (lineOf yellow program printed).location.isSome ↔ ∃ text,
      program.text? position.file = some text ∧
        max position.line 1 ≤ (rows text.toList).length := by
  rw [location_lineOf yellow program placed]
  cases program.text? position.file with
  | none => simp
  | some text =>
    have some_ := List.length_pos_iff.2 (rows_ne_nil text.toList)
    simp only [Option.bind_some, Option.isSome_map, LineMap.ofString, LineMap.offset?_eq,
      Option.some.injEq, exists_eq_left']
    split
    · simp only [Option.isSome_some, true_iff]
      omega
    · simp only [Option.isSome_none, Bool.false_eq_true, false_iff]
      omega

theorem location_of_row (yellow : Flags) {program : Program} {printed : Printed}
    {position : Position} {text : String} (placed : printed.position = some position)
    (held : program.text? position.file = some text) (fits : Text.Fits text)
    (bounded : position.column < Word.count 63)
    (row : max position.line 1 ≤ (rows text.toList).length) :
    ∃ shown : Position, (lineOf yellow program printed).location = some shown.shown ∧
      shown.file = position.file ∧ shown.Inside text ∧ (shown = position ↔ position.Inside text) := by
  have half := Word.half
  have short := fits.width_lt
  have few := length_rows_le text.toList
  have line : position.line - 1 < (rows text.toList).length := by omega
  have start : rowStart (rows text.toList) (position.line - 1) ≤ width text.toList := by
    have bound := rowStart_le (rows text.toList) (position.line - 1)
    rwa [flatten_rows] at bound
  have sum := Word.add_eq_of_lt
    (show rowStart (rows text.toList) (position.line - 1) + (position.column - 1) < Word.size by
      omega)
  let offset := min (position.offset text) (width text.toList)
  have found : (LineMap.ofChars text.toList).offset? (position.line - 1) (position.column - 1) =
      some offset := by
    rw [LineMap.offset?_eq, if_pos line, sum]
    rfl
  obtain ⟨row, character, inside, back, place⟩ :=
    LineMap.exists_lineAndCharacter text.toList offset
  have within := add_le_of_reach inside
  have listed := lt_length_of_reach inside
  rw [flatten_rows] at within
  refine ⟨⟨position.file, row + 1, character + 1⟩, ?_, rfl, ?_, ?_⟩
  · rw [location_lineOf yellow program placed, held, Option.bind_some]
    simp only [LineMap.ofString, found, Option.map_some, back]
    rw [place_eq_shown position.file (by omega) (by omega)]
  · exact ⟨by simp, listed, by simp, inside⟩
  · constructor
    · intro same
      rw [← same]
      exact ⟨by simp, listed, by simp, inside⟩
    · intro here
      have unclamped : offset = position.offset text := Nat.min_eq_left here.offset_le
      rw [unclamped, Position.offset, LineMap.lineAndCharacter_of_reach here.column_lt] at back
      obtain ⟨rfl, rfl⟩ := Prod.mk.inj back
      rw [Nat.sub_add_cancel here.line_pos, Nat.sub_add_cancel here.column_pos]

/-- A line that names a position is shown on a line of the report, with a place exactly if the
program has the file and its text has the line. The place is the position itself exactly if that
lies inside the text, and it always lies inside the text. -/
theorem report_shows_printed_position {command : List String} {project : Project}
    {seed : Option Program} {before after : Host} {program : Program} {call : Call}
    {response : Response} (built : build command project seed before = (.ok program, after))
    (ran : before.Ran after call response) (yellow : Flags) (host : Host) :
    (∀ cs ∈ Text.lines response.output.toList, ∀ position, Locates cs position →
      position.line < Word.count 63 → position.column < Word.count 63 →
        ∃ printed ∈ parseOutput response.output, printed.position = some position) ∧
    ∀ printed ∈ parseOutput response.output, ∀ position, printed.position = some position →
      position.column < Word.count 63 →
      (∀ text, program.text? position.file = some text → Text.Fits text) →
        let line := lineOf yellow program printed
        line ∈ (Session.collect (checker command) program Category.all host).1.map
            (ReportLine.ofDiagnostic yellow) ∧
          (line.location.isSome ↔ position.file ∈ program.files ∧ ∃ text,
            program.text? position.file = some text ∧
              max position.line 1 ≤ (rows text.toList).length) ∧
          ∀ text, program.text? position.file = some text →
            max position.line 1 ≤ (rows text.toList).length →
              (line.location = some position.shown ↔ position.Inside text) ∧
              ∃ shown : Position, line.location = some shown.shown ∧
                shown.file = position.file ∧ shown.Inside text ∧
                  shown.offset text ≤ width text.toList := by
  have half := Word.half
  have answered : before.Ran (build command project seed before).2 call response := by
    rwa [built]
  obtain ⟨sources, result⟩ := build_of_ran answered
  have made : program = programOf project.files sources response.output := by
    rw [built] at result
    cases passed : checkResponse command response with
    | error error =>
      rw [passed] at result
      cases result
    | ok output =>
      rw [passed] at result
      rw [← checkResponse_eq_ok passed]
      exact Except.ok.inj result
  refine ⟨fun cs listed position locates line column =>
    locates.printed listed (by omega) (by omega), ?_⟩
  intro printed member position placed bounded fits line
  refine ⟨?_, ?_, ?_⟩
  · rw [made, lines_collected, ← made]
    exact (lines_perm _ _).mem_iff.2 (List.mem_map_of_mem member)
  · rw [location_isSome_iff yellow program placed]
    constructor
    · rintro ⟨text, held, row⟩
      exact ⟨(text?_isSome_of_build built _).1 (by simp [held]), text, held, row⟩
    · rintro ⟨-, shown⟩
      exact shown
  · intro text held row
    obtain ⟨shown, location, file, inside, same⟩ :=
      location_of_row yellow placed held (fits text held) bounded row
    refine ⟨?_, shown, location, file, inside, inside.offset_le⟩
    rw [← same, location, Option.some.injEq]
    exact ⟨Position.shown_inj file, congrArg Position.shown⟩

def pairedText : String := "x\r\n😀y"

def pairedResponse : Response := ⟨Text.encode "a.ts(2,3): error TS2322: m\n", [], some 2⟩

def pairedHost : Host where
  disk := ⟨[(["a.ts"], .file [120, 13, 10, 0xF0, 0x9F, 0x98, 0x80, 121] 1)], [], 2⟩
  obstacle := fun _ => none
  respond := fun _ _ => pairedResponse
  calls := []

def pairedProject : Project := ⟨["a.ts"], .emptyObject, ⟨"."⟩⟩

def pairedCall : Call := ⟨[], "tsc", fixedArguments ++ ["a.ts"]⟩

def pairedProgram : Program :=
  programOf ["a.ts"] [("a.ts", ⟨pairedText, some 1⟩)] pairedResponse.output

theorem paired_output : pairedResponse.output = "a.ts(2,3): error TS2322: m\n" :=
  Text.decodeLossy_encode _

theorem paired_rows : rows pairedText.toList = [['x', '\r', '\n'], ['😀', 'y']] := by
  decide

theorem paired_built :
    build ["tsc"] pairedProject none pairedHost =
      (.ok pairedProgram, { pairedHost with calls := [pairedCall] }) := by
  have decoded : Text.decode? [120, 13, 10, 0xF0, 0x9F, 0x98, 0x80, 121] = some pairedText :=
    Text.decode?_encode pairedText
  have found : pairedHost.disk.find (Path.join ⟨"."⟩ "a.ts") =
      .ok (.file [120, 13, 10, 0xF0, 0x9F, 0x98, 0x80, 121] 1) := rfl
  have read : pairedHost.disk.readText (Path.join ⟨"."⟩ "a.ts") = .ok pairedText := by
    simp only [Disk.readText, found, decoded]
  have passed : checkResponse ["tsc"] pairedResponse = .ok pairedResponse.output := by
    rw [checkResponse, paired_output]
    rfl
  have ran : runCompiler ["tsc"] pairedProject pairedHost =
      (.ok pairedResponse.output, { pairedHost with calls := [pairedCall] }) := by
    rw [← passed]
    rfl
  exact build_of_runCompiler (loadSources_singleton read) (by decide) ran

theorem paired_locates : Locates "a.ts(2,3): error TS2322: m".toList ⟨"a.ts", 2, 3⟩ :=
  ⟨['2'], ['3'], "2322".toList, ['m'], .error,
    ⟨by decide, List.all_eq_true.1 (by decide), by decide⟩,
    ⟨by decide, List.all_eq_true.1 (by decide), by decide⟩,
    ⟨by decide, List.all_eq_true.1 (by decide)⟩, unmarked_of_notMem (by decide), by decide,
    by decide, by decide⟩

theorem paired_position_shown :
    build ["tsc"] pairedProject none pairedHost =
        (.ok pairedProgram, { pairedHost with calls := [pairedCall] }) ∧
      ∃ printed ∈ parseOutput pairedResponse.output, printed.position = some ⟨"a.ts", 2, 3⟩ ∧
        (lineOf .none pairedProgram printed).location = some "a.ts (2,3)" := by
  have ran : pairedHost.Ran { pairedHost with calls := [pairedCall] } pairedCall pairedResponse :=
    ⟨rfl, rfl⟩
  have held : pairedProgram.text? "a.ts" = some pairedText := rfl
  have fits : ∀ text, pairedProgram.text? "a.ts" = some text → Text.Fits text := by
    intro text same
    obtain rfl := Option.some.inj (held.symm.trans same)
    unfold Text.Fits
    decide
  have inside : Position.Inside ⟨"a.ts", 2, 3⟩ pairedText :=
    ⟨by decide, by simp [paired_rows], by decide, by rw [paired_rows]; decide⟩
  have listed : "a.ts(2,3): error TS2322: m".toList ∈ Text.lines pairedResponse.output.toList := by
    rw [paired_output]
    decide
  obtain ⟨named, shown⟩ := report_shows_printed_position paired_built ran .none pairedHost
  obtain ⟨printed, member, placed⟩ := named _ listed _ paired_locates (by decide) (by decide)
  obtain ⟨-, -, place⟩ := shown printed member _ placed (by decide) fits
  exact ⟨paired_built, printed, member, placed,
    (place pairedText held (by simp [paired_rows])).1.2 inside⟩

end Compiler

end BuildGate
