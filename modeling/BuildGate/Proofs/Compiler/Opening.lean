import BuildGate.Proofs.Compiler.Printer

set_option autoImplicit false

namespace BuildGate.Compiler

open Text (NoLeading leadingBlanks trimEnd)

def Line.opening? : Line → Option Opening
  | .opens opening => some opening
  | _ => none

/-- A line that is not indented and has one of the two forms of a diagnostic. -/
def Opens (cs : List Char) : Prop :=
  NoLeading (trimEnd cs) ∧ (IsLocated (trimEnd cs) ∨ IsGlobal (trimEnd cs))

theorem group_openings (lines : List Line) :
    (group lines).map (·.1) = lines.filterMap Line.opening? := by
  induction lines with
  | nil => rfl
  | cons line lines ih =>
    cases line with
    | opens opening => exact congrArg (opening :: ·) ih
    | continues part => exact ih
    | noise => exact ih

theorem mem_parseOutput {output : String} {cs : List Char} {opening : Opening}
    (listed : cs ∈ Text.lines output.toList) (opens : Line.read cs = .opens opening) :
    ∃ parts, Printed.make opening parts ∈ parseOutput output := by
  have found : opening ∈ (group ((Text.lines output.toList).map Line.read)).map (·.1) := by
    rw [group_openings, List.mem_filterMap]
    exact ⟨.opens opening, List.mem_map.2 ⟨cs, listed, opens⟩, rfl⟩
  obtain ⟨⟨same, parts⟩, grouped, rfl⟩ := List.mem_map.1 found
  exact ⟨parts, List.mem_map.2 ⟨(same, parts), grouped, rfl⟩⟩

theorem readFile_cons_eq_none {c : Char} {cs : List Char} (missed : readFile (c :: cs) = none) :
    readFile cs = none ∧ readLocated cs = none := by
  rw [readFile] at missed
  cases later : readFile cs with
  | some found => simp [later] at missed
  | none => exact ⟨rfl, by simpa [later] using missed⟩

theorem readLocated_of_readFile {file cs : List Char} (present : file ≠ [])
    (missed : readFile (file ++ cs) = none) : readLocated cs = none := by
  induction file with
  | nil => exact absurd rfl present
  | cons c file ih =>
    obtain ⟨shorter, here⟩ := readFile_cons_eq_none missed
    cases file with
    | nil => exact here
    | cons d file => exact ih (by simp) shorter

theorem readLocated_marker {marker : List Char} (marked : IsMarker marker) (text : List Char) :
    readLocated (marker ++ text) ≠ none := by
  obtain ⟨line, column, code, level, validLine, validColumn, validCode, rfl⟩ := marked
  have read : readLocated (placeChars line column ++ tagChars level code ++ text) =
      some (line, column, ⟨level, code, text⟩) :=
    readLocated_eq_some_iff.2 ⟨validLine, validColumn, validCode, rfl⟩
  rw [read]
  exact Option.some_ne_none _

theorem Opening.read_isSome_iff {cs : List Char} :
    (Opening.read cs).isSome ↔ IsLocated cs ∨ IsGlobal cs := by
  constructor
  · intro read
    by_contra neither
    rw [not_or] at neither
    simp [Opening.read_eq_none neither.1 neither.2] at read
  · intro form
    cases file : readFile cs with
    | some found => simp [Opening.read, file]
    | none =>
      rcases form with ⟨name, marker, text, present, marked, rfl⟩ | global
      · rw [List.append_assoc] at file
        exact absurd (readLocated_of_readFile present file) (readLocated_marker marked text)
      · simpa [Opening.read, file] using isGlobal_iff.1 global

theorem leadingBlanks_eq_nil_iff {cs : List Char} : leadingBlanks cs = [] ↔ NoLeading cs := by
  refine ⟨fun none_ c first => ?_, Text.leadingBlanks_eq_nil⟩
  cases cs with
  | nil => cases first
  | cons d cs =>
    cases first
    by_contra blank
    rw [Bool.not_eq_false] at blank
    simp [leadingBlanks, blank] at none_

theorem opens_iff {cs : List Char} : Opens cs ↔ ∃ opening, Line.read cs = .opens opening := by
  constructor
  · rintro ⟨flush, form⟩
    obtain ⟨opening, read⟩ := Option.isSome_iff_exists.1 (Opening.read_isSome_iff.2 form)
    exact ⟨opening, by rw [Line.read_flush flush, read]⟩
  · rintro ⟨opening, opens⟩
    simp only [Line.read] at opens
    split at opens
    next none_ =>
      split at opens
      next found read =>
        exact ⟨leadingBlanks_eq_nil_iff.1 none_, Opening.read_isSome_iff.1 (by simp [read])⟩
      next => cases opens
    next => cases opens

theorem parseOutput_eq_nil_iff (output : String) :
    parseOutput output = [] ↔ ∀ cs ∈ Text.lines output.toList, ¬ Opens cs := by
  constructor
  · intro silent cs listed opens
    obtain ⟨opening, read⟩ := opens_iff.1 opens
    obtain ⟨parts, member⟩ := mem_parseOutput listed read
    simp [silent] at member
  · intro noise
    have none_ : (group ((Text.lines output.toList).map Line.read)).map (·.1) = [] := by
      rw [group_openings, List.filterMap_eq_nil_iff]
      intro line listed
      obtain ⟨cs, member, rfl⟩ := List.mem_map.1 listed
      cases read : Line.read cs with
      | opens opening => exact absurd (opens_iff.2 ⟨opening, read⟩) (noise cs member)
      | continues part => rfl
      | noise => rfl
    rw [parseOutput, List.map_eq_nil_iff, ← List.map_eq_nil_iff, none_]

end BuildGate.Compiler
