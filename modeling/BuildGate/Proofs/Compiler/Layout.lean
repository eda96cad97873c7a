import BuildGate.Proofs.Compiler.Printer

set_option autoImplicit false

namespace BuildGate.Compiler

open Text (IsEnding NoLeading isBlank trimEnd)

/-- A line that names no diagnostic and continues none: a blank one, or one that is not indented
and has neither form of a diagnostic. -/
structure Idle (cs : List Char) : Prop where
  single : '\n' ∉ cs
  silent : (∀ c ∈ cs, isBlank c = true) ∨
    (NoLeading cs ∧ ¬ IsLocated (trimEnd cs) ∧ ¬ IsGlobal (trimEnd cs))

inductive Layout : List (List Char) → List Char → Prop
  | done : Layout [] []
  | line {cs ending output : List Char} {lines : List (List Char)} (ends : IsEnding ending)
      (rest : Layout lines output) : Layout (cs :: lines) (cs ++ ending ++ output)
  | idle {cs ending output : List Char} {lines : List (List Char)} (idle : Idle cs)
      (ends : IsEnding ending) (rest : Layout lines output) : Layout lines (cs ++ ending ++ output)

theorem Line.read_idle {cs : List Char} (idle : Idle cs) : Line.read cs = .noise := by
  rcases idle.silent with blank | ⟨flush, located, global⟩
  · have empty : trimEnd cs = trimEnd [] := Text.trimEnd_blank blank
    rw [Line.read_congr empty]
    rfl
  · rw [Line.read_flush flush.trimEnd, Opening.read_eq_none located global]

def spoken (lines : List Line) : List Line := lines.filter (· ≠ .noise)

theorem Layout.spoken_eq {lines : List (List Char)} {output : List Char}
    (laid : Layout lines output) (single : ∀ cs ∈ lines, '\n' ∉ cs) :
    spoken ((Text.lines output).map Line.read) = spoken (lines.map Line.read) := by
  induction laid with
  | done => rw [Text.lines_nil]
  | @line cs ending output lines ends rest ih =>
    rw [List.forall_mem_cons] at single
    obtain ⟨line, split, same⟩ := Text.lines_append_ending single.1 ends output
    have later := ih single.2
    unfold spoken at later ⊢
    rw [split, List.map_cons, List.map_cons, Line.read_congr same, List.filter_cons,
      List.filter_cons, later]
  | @idle cs ending output lines idle ends rest ih =>
    obtain ⟨line, split, same⟩ := Text.lines_append_ending idle.single ends output
    rw [split, List.map_cons, Line.read_congr same, Line.read_idle idle, ← ih single]
    rfl

theorem takeParts_spoken (lines : List Line) : takeParts (spoken lines) = takeParts lines := by
  induction lines with
  | nil => rfl
  | cons line lines ih =>
    cases line with
    | opens opening => rfl
    | continues part => exact congrArg (part :: ·) ih
    | noise => exact ih

theorem group_spoken (lines : List Line) : group (spoken lines) = group lines := by
  induction lines with
  | nil => rfl
  | cons line lines ih =>
    cases line with
    | opens opening =>
      change (opening, takeParts (spoken lines)) :: group (spoken lines) = _
      rw [takeParts_spoken, ih, group]
    | continues part => exact ih
    | noise => exact ih

theorem takeParts_continues (parts : List Part) (lines : List Line) :
    takeParts (parts.map .continues ++ lines) = parts ++ takeParts lines := by
  induction parts with
  | nil => rfl
  | cons part parts ih => exact congrArg (part :: ·) ih

theorem group_continues (parts : List Part) (lines : List Line) :
    group (parts.map .continues ++ lines) = group lines := by
  induction parts with
  | nil => rfl
  | cons part parts ih => exact ih

theorem group_lines {printed : List Printed} (printable : ∀ p ∈ printed, p.Printable) :
    group ((printed.flatMap Printed.lines).map Line.read) =
      printed.map fun p => (p.opening, p.message.parts) := by
  induction printed with
  | nil => rfl
  | cons p printed ih =>
    rw [List.forall_mem_cons] at printable
    -- The next diagnostic starts with an opening, so no part of it is taken.
    have next : takeParts ((printed.flatMap Printed.lines).map Line.read) = [] := by
      cases printed with
      | nil => rfl
      | cons q printed =>
        rw [List.flatMap_cons, List.map_append,
          Printed.lines_read (printable.2 q List.mem_cons_self)]
        rfl
    rw [List.flatMap_cons, List.map_append, Printed.lines_read printable.1, List.cons_append, group,
      takeParts_continues, group_continues, next, ih printable.2, List.append_nil, List.map_cons]

/-- Reading undoes printing, whatever idle lines stand between the printed ones. -/
theorem parseOutput_of_layout {printed : List Printed} (printable : ∀ p ∈ printed, p.Printable)
    {output : String} (laid : Layout (printed.flatMap Printed.lines) output.toList) :
    parseOutput output = printed := by
  have single : ∀ cs ∈ printed.flatMap Printed.lines, '\n' ∉ cs := by
    intro cs inside
    obtain ⟨p, -, member⟩ := List.mem_flatMap.1 inside
    exact Text.separator_notMem_splitOn member
  have grouped : group ((Text.lines output.toList).map Line.read) =
      printed.map fun p => (p.opening, p.message.parts) := by
    rw [← group_spoken, laid.spoken_eq single, group_spoken, group_lines printable]
  rw [parseOutput, grouped, List.map_map]
  calc
    printed.map _ = printed.map id :=
      List.map_congr_left fun p inside => Printed.make_opening (printable p inside).full
    _ = printed := List.map_id printed

def samplePrinted : List Printed :=
  [⟨some ⟨"a(1,2): error TS3: b", 3, 7⟩, .error, 2322,
      .chain "Types differ." [.chain "Property x." [.plain "Not a string."], .plain "Last."]⟩,
    ⟨none, .warning, 5023, .plain "Unknown option."⟩]

def sampleOutput : String :=
  "\r\n" ++ ("a(1,2): error TS3: b(3,7): error TS2322: Types differ." ++ "\n" ++
    ("  Property x." ++ "\r\n" ++ (" " ++ "\n" ++ ("    Not a string." ++ "\n" ++
      ("  Last." ++ "\n" ++ ("warning TS5023: Unknown option." ++ "\r\n" ++
        ("Found 2 errors." ++ "\n")))))))

theorem sample_printable : ∀ p ∈ samplePrinted, p.Printable := by
  have file : Position.Printable ⟨"a(1,2): error TS3: b", 3, 7⟩ :=
    ⟨by decide, by decide, by decide, by decide, by decide⟩
  simp only [samplePrinted, List.forall_mem_cons]
  refine ⟨⟨?_, by decide, ?_, by decide, ?_, by decide⟩,
    ⟨by simp, by decide, trivial, by decide, ?_, by decide⟩, by simp⟩
  · intro position placed
    rw [← Option.some.inj placed]
    exact file
  · simp [Message.Full, Message.AllFull]
  · exact unmarked_of_notMem (by decide)
  · exact unmarked_of_notMem (by decide)

theorem sample_laid : Layout (samplePrinted.flatMap Printed.lines) sampleOutput.toList := by
  have feed : IsEnding ['\n'] := .inl rfl
  have returned : IsEnding ['\r', '\n'] := .inr rfl
  have empty : Idle [] := ⟨by decide, .inl (by simp)⟩
  have blank : Idle [' '] := ⟨by decide, .inl (by simp [isBlank])⟩
  have closing : Idle "Found 2 errors.".toList := by
    refine ⟨by decide, .inr ⟨by decide, ?_, ?_⟩⟩
    · rintro ⟨file, marker, text, -, ⟨line, column, code, level, -, -, -, rfl⟩, same⟩
      have bracket : '(' ∉ trimEnd "Found 2 errors.".toList := by decide
      rw [same] at bracket
      simp [placeChars] at bracket
    · rw [isGlobal_iff]
      decide
  have printed : samplePrinted.flatMap Printed.lines =
      ["a(1,2): error TS3: b(3,7): error TS2322: Types differ.".toList,
        "  Property x.".toList, "    Not a string.".toList, "  Last.".toList,
        "warning TS5023: Unknown option.".toList] := by decide
  have last := Layout.idle closing feed .done
  rw [List.append_nil] at last
  simp only [printed, sampleOutput, String.toList_append]
  exact .idle empty returned (.line feed (.line returned (.idle blank feed
    (.line feed (.line feed (.line returned last))))))

theorem parseOutput_sample :
    (∀ p ∈ samplePrinted, p.Printable) ∧
      Layout (samplePrinted.flatMap Printed.lines) sampleOutput.toList ∧
        parseOutput sampleOutput = samplePrinted :=
  ⟨sample_printable, sample_laid, parseOutput_of_layout sample_printable sample_laid⟩

end BuildGate.Compiler
