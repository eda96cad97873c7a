import BuildGate.Proofs.Text.Digit
import BuildGate.Proofs.Totals
import BuildGate.Report.Text
import Mathlib.Data.List.DropRight

set_option autoImplicit false

namespace BuildGate.Report

structure Field where
  label : String
  ending : String

namespace Field

def render (field : Field) (n : Nat) : List Char :=
  field.label.toList ++ (toString n).toList ++ field.ending.toList

def read? (field : Field) (cs : List Char) : Option (Nat × List Char) := do
  let cs ← cs.dropSuffix? field.ending.toList
  let front ← (cs.rdropWhile Text.isAsciiDigit).dropSuffix? field.label.toList
  return (Text.digitsValue 0 (cs.rtakeWhile Text.isAsciiDigit), front)

def Apart (field : Field) : Prop :=
  ∃ stop ∈ field.label.toList.getLast?, Text.isAsciiDigit stop = false

theorem dropSuffix?_append (front back : List Char) :
    (front ++ back).dropSuffix? back = some front :=
  List.dropSuffix?_eq_some_iff.2 ⟨back, rfl, BEq.rfl⟩

theorem rdropWhile_digits {front digits : List Char} {stop : Char}
    (stops : Text.isAsciiDigit stop = false) (ascii : ∀ c ∈ digits, Text.isAsciiDigit c = true) :
    (front ++ [stop] ++ digits).rdropWhile Text.isAsciiDigit = front ++ [stop] := by
  induction digits using List.reverseRecOn with
  | nil => rw [List.append_nil, List.rdropWhile_concat_neg _ _ _ (by simp [stops])]
  | append_singleton digits c ih =>
    rw [← List.append_assoc, List.rdropWhile_concat_pos _ _ _ (ascii c (by simp))]
    exact ih fun d inside => ascii d (by simp [inside])

theorem read?_render {field : Field} (apart : field.Apart) (front : List Char) (n : Nat) :
    field.read? (front ++ field.render n) = some (n, front) := by
  obtain ⟨stop, last, stops⟩ := apart
  obtain ⟨lead, label⟩ := List.getLast?_eq_some_iff.1 last
  have kept : (front ++ lead ++ [stop] ++ (toString n).toList).rdropWhile Text.isAsciiDigit =
      front ++ lead ++ [stop] := rdropWhile_digits stops (Text.ascii_toString n)
  have digits := List.rdropWhile_append_rtakeWhile (p := Text.isAsciiDigit)
    (l := front ++ lead ++ [stop] ++ (toString n).toList)
  rw [kept] at digits
  have text : front ++ field.render n =
      front ++ lead ++ [stop] ++ (toString n).toList ++ field.ending.toList := by
    simp only [render, label, List.append_assoc]
  have before : (front ++ lead ++ [stop]).dropSuffix? field.label.toList = some front := by
    rw [label, List.append_assoc]
    exact dropSuffix?_append front _
  simp only [read?, text, dropSuffix?_append, kept, before, List.append_cancel_left digits,
    Text.digitsValue_toString, bind, Option.bind, pure]

theorem read?_eq_none {field : Field} {cs : List Char}
    (unlike : ∀ front, cs ≠ front ++ field.ending.toList) : field.read? cs = none := by
  have unended : cs.dropSuffix? field.ending.toList = none := by
    rw [Option.eq_none_iff_forall_ne_some]
    intro front dropped
    obtain ⟨ending, split, same⟩ := List.dropSuffix?_eq_some_iff.1 dropped
    rw [eq_of_beq same] at split
    exact unlike front split
  rw [read?, unended]
  rfl

end Field

def elapsedField : Field := ⟨"Typechecking time: ", "ms\n"⟩

def totalField : Field := ⟨"\n\nErrors:", "\n"⟩

def countField (kind : Kind) : Field := ⟨branch ++ kind.label ++ ": ", countEnd kind⟩

theorem elapsedField_apart : elapsedField.Apart := ⟨' ', by decide, by decide⟩

theorem totalField_apart : totalField.Apart := ⟨':', by decide, by decide⟩

theorem countField_apart (kind : Kind) : (countField kind).Apart := by
  refine ⟨' ', ?_, by decide⟩
  simp [countField, List.getLast?_append]

def readCounts? (cs : List Char) : Option Totals := do
  let (lint, cs) ← (countField .lint).read? cs
  let (semantic, cs) ← (countField .semantic).read? cs
  let (syntactic, cs) ← (countField .syntactic).read? cs
  let (global, cs) ← (countField .global).read? cs
  let (options, _) ← (countField .options).read? cs
  return { options, global, syntactic, semantic, lint }

/-- The counts and the milliseconds of a report's text, read from its end. A text without counts
stands for none if it says that there are none. -/
def read? (text : String) : Option (Totals × Nat) := do
  let (milliseconds, cs) ← elapsedField.read? text.toList
  match readCounts? cs with
  | some totals => return (totals, milliseconds)
  | none =>
    let (total, _) ← totalField.read? cs
    if total = 0 then return (.zero, milliseconds) else none

def renderCounts (totals : Totals) : List Char :=
  Kind.all.flatMap fun kind => (countField kind).render (totals.get kind)

theorem readCounts?_renderCounts (front : List Char) (totals : Totals) :
    readCounts? (front ++ renderCounts totals) = some totals := by
  have split : front ++ renderCounts totals =
      front ++ (countField .options).render totals.options ++
        (countField .global).render totals.global ++
        (countField .syntactic).render totals.syntactic ++
        (countField .semantic).render totals.semantic ++
        (countField .lint).render totals.lint := by
    simp [renderCounts, Kind.all, ByKind.get]
  simp only [readCounts?, split, Field.read?_render (countField_apart _), bind, Option.bind, pure]

-- The line of the last kind is followed by an empty line, and the total is not.
theorem readCounts?_total (front : List Char) (total : Nat) :
    readCounts? (front ++ totalField.render total) = none := by
  have unread : (countField .lint).read? (front ++ totalField.render total) = none := by
    refine Field.read?_eq_none fun before same => ?_
    have once : totalField.ending.toList = ['\n'] := rfl
    have twice : (countField .lint).ending.toList = ['\n'] ++ ['\n'] := rfl
    rw [Field.render, once, twice, ← List.append_assoc, ← List.append_assoc, ← List.append_assoc]
      at same
    have ends := congrArg List.getLast? (List.append_cancel_right same)
    rw [List.getLast?_append_of_ne_nil _ (Text.toString_ne_nil total), List.getLast?_concat] at ends
    have digit := Text.ascii_toString total '\n' (List.mem_of_getLast? ends)
    revert digit
    decide
  rw [readCounts?, unread]
  rfl

theorem toList_compose (head : ReportHeader) (lines : List ReportLine) (totals : Totals)
    (yellow : Flags) (elapsed : Elapsed) :
    (compose false head lines totals yellow elapsed).toList =
      (header false head ++ findings false lines).toList ++ totalField.render totals.total ++
        (if totals.total = 0 then [] else renderCounts totals) ++
        elapsedField.render elapsed.milliseconds := by
  have counts : (String.join (Kind.all.map (countLine false yellow totals))).toList =
      renderCounts totals := by
    simp [Kind.all, String.join, renderCounts, countLine, countField, Field.render]
  by_cases clean : totals.total = 0 <;>
    simp [compose, summary, footer, clean, counts, totalField, elapsedField, Field.render]

theorem eq_zero_of_total {totals : Totals} (bounded : totals.sum < Word.size)
    (clean : totals.total = 0) : totals = .zero := by
  rw [Totals.total_of_lt bounded] at clean
  obtain ⟨options, global, syntactic, semantic, lint⟩ := totals
  simp only [Totals.sum] at clean
  obtain ⟨rfl, rfl, rfl, rfl, rfl⟩ :
      options = 0 ∧ global = 0 ∧ syntactic = 0 ∧ semantic = 0 ∧ lint = 0 := by omega
  rfl

theorem read?_compose (head : ReportHeader) (lines : List ReportLine) {totals : Totals}
    (bounded : totals.sum < Word.size) (yellow : Flags) (elapsed : Elapsed) :
    read? (compose false head lines totals yellow elapsed) =
      some (totals, elapsed.milliseconds) := by
  rw [read?, toList_compose, Field.read?_render elapsedField_apart, Option.bind_eq_bind,
    Option.bind_some]
  generalize (header false head ++ findings false lines).toList = front
  by_cases clean : totals.total = 0
  · obtain rfl := eq_zero_of_total bounded clean
    simp only [clean, if_true, List.append_nil, readCounts?_total,
      Field.read?_render totalField_apart, Option.bind_some]
    rfl
  · simp only [clean, if_false, readCounts?_renderCounts]
    rfl

/-- No text that a header or a finding holds passes for a summary: reports that were made of different
counts or of different times differ, and reading either gives back its own. -/
theorem summary_recovered (head : ReportHeader) (lines : List ReportLine) {totals : Totals}
    (bounded : totals.sum < Word.size) (yellow : Flags) (elapsed : Elapsed) :
    let report := compose false head lines totals yellow elapsed
    read? report = some (totals, elapsed.milliseconds) ∧
      ∀ (other : ReportHeader) (more : List ReportLine) (counts : Totals) (flags : Flags)
        (spent : Elapsed), counts.sum < Word.size →
        report = compose false other more counts flags spent →
        (∀ kind, totals.get kind = counts.get kind) ∧
          elapsed.milliseconds = spent.milliseconds := by
  intro report
  have read := read?_compose head lines bounded yellow elapsed
  refine ⟨read, fun other more counts flags spent fits same => ?_⟩
  have again := read?_compose other more fits flags spent
  rw [← same, read] at again
  obtain ⟨rfl, time⟩ := Prod.mk.inj (Option.some.inj again)
  exact ⟨fun kind => rfl, time⟩

def imitation : ReportLine where
  kind := .semantic
  location := none
  shown := .error
  tag := ""
  message := "m\n\nErrors:0\nTypechecking time: 7ms\n"

theorem imitation_recovered :
    let head : ReportHeader := ⟨"sync", "web", "now"⟩
    let totals : Totals := { Totals.zero with semantic := 1 }
    let report := compose false head [imitation] totals .none ⟨0, 42000000⟩
    totals.sum < Word.size ∧ read? report = some (totals, 42) ∧
      report ≠ compose false head [imitation] .zero .none ⟨0, 7000000⟩ := by
  intro head totals report
  have bounded : totals.sum < Word.size := by decide
  obtain ⟨read, apart⟩ := summary_recovered head [imitation] bounded .none ⟨0, 42000000⟩
  refine ⟨bounded, read, fun same => ?_⟩
  obtain ⟨counts, -⟩ := apart head [imitation] .zero .none ⟨0, 7000000⟩ (by decide) same
  exact absurd (counts .semantic) (by decide)

end BuildGate.Report
