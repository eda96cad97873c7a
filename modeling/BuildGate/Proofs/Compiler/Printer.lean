import BuildGate.Proofs.Compiler.Chain
import BuildGate.Proofs.Compiler.Form
import BuildGate.Proofs.Text.Lines

set_option autoImplicit false

namespace BuildGate

structure Tidy (text : String) : Prop where
  present : text.toList ≠ []
  single : '\n' ∉ text.toList
  trimmed : Text.NoTrailing text.toList

instance (text : String) : Decidable (Tidy text) :=
  decidable_of_iff (text.toList ≠ [] ∧ '\n' ∉ text.toList ∧ Text.NoTrailing text.toList)
    ⟨fun ⟨present, single, trimmed⟩ => ⟨present, single, trimmed⟩,
      fun ⟨present, single, trimmed⟩ => ⟨present, single, trimmed⟩⟩

namespace Compiler

open Text (Digits NoLeading NoTrailing digits_toString)

def Position.lead (position : Position) : String :=
  position.file ++ "(" ++ toString position.line ++ "," ++ toString position.column ++ "): "

structure Position.Printable (position : Position) : Prop where
  present : position.file.toList ≠ []
  single : '\n' ∉ position.file.toList
  flush : NoLeading position.file.toList
  line : position.line < Word.size
  column : position.column < Word.size

theorem Position.lead_toList (position : Position) :
    position.lead.toList = position.file.toList ++
      placeChars (toString position.line).toList (toString position.column).toList := by
  simp [lead, placeChars]

namespace Printed

def lead (printed : Printed) : String :=
  (printed.position.map Position.lead).getD "" ++ printed.level.word ++ " TS" ++
    toString printed.code ++ ": "

def text (printed : Printed) : String := printed.lead ++ printed.message.flatten "\n"

def lines (printed : Printed) : List (List Char) := printed.text.toList.splitOn '\n'

/-- What a compiler can print so that nothing of it is lost. A marker in the first line of the
message would be taken for the end of the file name. -/
structure Printable (printed : Printed) : Prop where
  position : ∀ position, printed.position = some position → position.Printable
  code : printed.code < Word.count 32
  full : printed.message.Full
  root : Tidy printed.message.text
  unmarked : Unmarked printed.message.text.toList
  parts : ∀ part ∈ printed.message.parts, Tidy part.2 ∧ NoLeading part.2.toList

def opening (printed : Printed) : Opening :=
  ⟨printed.position, printed.level, printed.code, printed.message.text⟩

theorem make_opening {printed : Printed} (full : printed.message.Full) :
    make printed.opening printed.message.parts = printed := by
  rw [make, opening, Message.nest_parts full]

theorem lead_toList_global {printed : Printed} (nowhere : printed.position = none) :
    printed.lead.toList = tagChars printed.level (toString printed.code).toList := by
  simp [lead, nowhere, tagChars]

theorem lead_toList_located {printed : Printed} {position : Position}
    (placed : printed.position = some position) :
    printed.lead.toList = position.file.toList ++
      placeChars (toString position.line).toList (toString position.column).toList ++
        tagChars printed.level (toString printed.code).toList := by
  simp [lead, placed, tagChars, Position.lead_toList]

theorem opening_read {printed : Printed} (printable : printed.Printable) :
    Opening.read (printed.lead.toList ++ printed.message.text.toList) = some printed.opening := by
  have code : codeOf (toString printed.code).toList = printed.code := by
    rw [codeOf, Text.readBelow_toString printable.code, Option.getD_some]
  cases placed : printed.position with
  | none =>
    rw [lead_toList_global placed, Opening.read_global (digits_toString _) printable.unmarked,
      code, String.ofList_toList, opening, placed]
  | some position =>
    obtain ⟨present, single, flush, line, column⟩ := printable.position position placed
    rw [lead_toList_located placed, Opening.read_located present (digits_toString _)
      (digits_toString _) (digits_toString _) printable.unmarked, code, opening, placed]
    simp only [ordinal, Text.readBelow_toString line, Text.readBelow_toString column,
      Option.getD_some, String.ofList_toList]

theorem newline_notMem_lead {printed : Printed} (printable : printed.Printable) :
    '\n' ∉ printed.lead.toList := by
  have tag := mark_notMem_tagChars (.inr rfl) printed.level (digits_toString printed.code)
  cases placed : printed.position with
  | none => rwa [lead_toList_global placed]
  | some position =>
    have file := (printable.position position placed).single
    have place := mark_notMem_placeChars (.inr rfl) (digits_toString position.line)
      (digits_toString position.column)
    rw [lead_toList_located placed]
    simp only [List.mem_append, not_or]
    exact ⟨⟨file, List.not_mem_cons_of_ne_of_not_mem (by decide) place⟩, tag⟩

theorem flush_lead {printed : Printed} (printable : printed.Printable) (rest : List Char) :
    NoLeading (printed.lead.toList ++ rest) := by
  cases placed : printed.position with
  | none =>
    intro c first
    rw [lead_toList_global placed] at first
    cases level : printed.level <;> simp [level, tagChars, Level.word] at first <;> subst first <;>
      decide
  | some position =>
    obtain ⟨present, -, flush, -⟩ := printable.position position placed
    intro c first
    apply flush c
    rw [lead_toList_located placed, List.append_assoc, List.append_assoc] at first
    rwa [List.head?_append_of_ne_nil _ present] at first

theorem lines_eq {printed : Printed} (printable : printed.Printable) :
    printed.lines = (printed.lead.toList ++ printed.message.text.toList) ::
      printed.message.parts.map fun part => (Message.indent part.1).toList ++ part.2.toList := by
  have whole : printed.text.toList = printed.lead.toList ++ printed.message.text.toList ++
      (printed.message.parts.map fun part =>
        (Message.indent part.1).toList ++ part.2.toList).flatMap ('\n' :: ·) := by
    rw [text, Message.flatten_eq]
    simp [Message.partText, List.flatMap_map]
  rw [lines, whole]
  apply Text.splitOn_feeds
  intro cs inside
  rcases List.mem_cons.1 inside with rfl | inside
  · simp [newline_notMem_lead printable, printable.root.single]
  · obtain ⟨part, member, rfl⟩ := List.mem_map.1 inside
    simp [Message.indent, (printable.parts part member).1.single]

end Printed

theorem Line.read_congr {line cs : List Char} (same : Text.trimEnd line = Text.trimEnd cs) :
    Line.read line = Line.read cs := by
  simp only [Line.read, same]

theorem Line.read_flush {cs : List Char} (flush : NoLeading (Text.trimEnd cs)) :
    Line.read cs = (match Opening.read (Text.trimEnd cs) with
      | some opening => .opens opening
      | none => .noise) := by
  cases read : Opening.read (Text.trimEnd cs) <;>
    simp only [Line.read, Text.leadingBlanks_eq_nil flush, read]

theorem Line.read_opens {printed : Printed} (printable : printed.Printable) :
    Line.read (printed.lead.toList ++ printed.message.text.toList) = .opens printed.opening := by
  have tidy : NoTrailing (printed.lead.toList ++ printed.message.text.toList) :=
    printable.root.trimmed.append printable.root.present
  have flush := Printed.flush_lead printable printed.message.text.toList
  rw [← Text.trimEnd_eq_self tidy] at flush
  rw [Line.read_flush flush, Text.trimEnd_eq_self tidy, Printed.opening_read printable]

theorem depthOf_indent {depth : Nat} (deep : 1 ≤ depth) :
    depthOf (Message.indent depth).toList = depth := by
  have bytes (n : Nat) : (Text.encodeChars (List.replicate n ' ')).length = n := by
    have one : ' '.utf8Size = 1 := rfl
    simp [Text.encodeChars, one]
  rw [depthOf, Message.indent, String.toList_ofList, bytes]
  omega

theorem Line.read_continues {part : Part} (deep : 1 ≤ part.1) (tidy : Tidy part.2)
    (flush : NoLeading part.2.toList) :
    Line.read ((Message.indent part.1).toList ++ part.2.toList) = .continues part := by
  have blank : ∀ c ∈ (Message.indent part.1).toList, Text.isBlank c = true := by
    intro c inside
    rw [Message.indent, String.toList_ofList] at inside
    rw [List.eq_of_mem_replicate inside]
    decide
  have blanks := Text.leadingBlanks_append blank flush
  have indented : (Message.indent part.1).toList ≠ [] := by
    simp only [Message.indent, String.toList_ofList, ne_eq, List.replicate_eq_nil_iff]
    omega
  simp only [Line.read, Text.trimEnd_eq_self (tidy.trimmed.append tidy.present), blanks,
    Text.trimStart_append blank flush, depthOf_indent deep, String.ofList_toList]

theorem Printed.lines_read {printed : Printed} (printable : printed.Printable) :
    printed.lines.map Line.read =
      .opens printed.opening :: printed.message.parts.map Line.continues := by
  have parts : printed.message.parts.map (Line.read ∘ fun part =>
      (Message.indent part.1).toList ++ part.2.toList) =
        printed.message.parts.map Line.continues := by
    apply List.map_congr_left
    intro part member
    obtain ⟨tidy, flush⟩ := printable.parts part member
    have deep : 1 ≤ part.1 := Message.le_of_mem_partsAll 1 _ part member
    rw [Function.comp_apply, Line.read_continues deep tidy flush]
  rw [Printed.lines_eq printable, List.map_cons, Line.read_opens printable, List.map_map, parts]

end Compiler

end BuildGate
