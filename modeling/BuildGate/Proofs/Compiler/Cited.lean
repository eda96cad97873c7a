import BuildGate.Proofs.Compiler.Build
import BuildGate.Proofs.Compiler.Opening
import Mathlib.Data.List.Forall2

set_option autoImplicit false

namespace BuildGate.Compiler

open Text (Digits NoLeading trimEnd)

/-- A line `file(line,column): level TScode: text`. The text holds no second marker, so the name ends
where it does here. -/
def Cites (cs : List Char) (file : String) (line column : List Char) : Prop :=
  ∃ code text level, file.toList ≠ [] ∧ Digits line ∧ Digits column ∧ Digits code ∧
    Unmarked text ∧ NoLeading (trimEnd cs) ∧
      trimEnd cs = file.toList ++ placeChars line column ++ tagChars level code ++ text

theorem length_le_of_readFile {front rest file line column : List Char} {head : Head}
    (present : front ≠ []) (here : readLocated rest ≠ none)
    (read : readFile (front ++ rest) = some (file, line, column, head)) :
    front.length ≤ file.length := by
  induction front generalizing file with
  | nil => exact absurd rfl present
  | cons c front ih =>
    cases front with
    | nil => exact List.length_pos_iff.2 (readFile_eq_some read).1
    | cons d front =>
      rw [List.cons_append, readFile] at read
      cases later : readFile (d :: front ++ rest) with
      | none => exact absurd (readLocated_of_readFile (by simp) later) here
      | some found =>
        obtain ⟨more, place⟩ := found
        rw [later] at read
        obtain ⟨rfl, rfl⟩ := Prod.mk.inj (Option.some.inj read)
        exact Nat.succ_le_succ (ih (by simp) later)

theorem unmarked_of_readFile {cs file line column : List Char} {head : Head}
    (read : readFile cs = some (file, line, column, head)) : Unmarked head.text := by
  obtain ⟨present, rest, rfl, located⟩ := readFile_eq_some read
  obtain ⟨-, -, -, rfl⟩ := readLocated_eq_some_iff.1 located
  rintro marker marked ⟨before, after, same⟩
  let front := file ++ placeChars line column ++ tagChars head.level head.code ++ before
  have whole : file ++ (placeChars line column ++ tagChars head.level head.code ++ head.text) =
      front ++ (marker ++ after) := by
    rw [← same]
    simp only [front, List.append_assoc]
  rw [whole] at read
  have longer : front.length ≤ file.length :=
    length_le_of_readFile (by simp [front, present]) (readLocated_marker marked after) read
  simp only [front, placeChars, List.length_append, List.length_cons] at longer
  omega

theorem Cites.read {cs line column : List Char} {file : String}
    (cites : Cites cs file line column) :
    ∃ opening, Line.read cs = .opens opening ∧
      opening.position = some ⟨file, ordinal line, ordinal column⟩ := by
  obtain ⟨code, text, level, present, validLine, validColumn, validCode, plain, flush, form⟩ := cites
  rw [Line.read_flush flush, form,
    Opening.read_located present validLine validColumn validCode plain, String.ofList_toList]
  exact ⟨_, rfl, rfl⟩

theorem cites_of_read {cs : List Char} {opening : Opening} {position : Position}
    (read : Line.read cs = .opens opening) (placed : opening.position = some position) :
    ∃ line column, Cites cs position.file line column := by
  obtain ⟨flush, -⟩ := opens_iff.2 ⟨opening, read⟩
  rw [Line.read_flush flush] at read
  cases file : readFile (trimEnd cs) with
  | none =>
    simp only [Opening.read, file] at read
    cases head : Head.read (trimEnd cs) with
    | none => simp [head] at read
    | some found =>
      simp only [head, Option.map_some, Line.opens.injEq] at read
      subst read
      cases placed
  | some found =>
    obtain ⟨name, line, column, head⟩ := found
    simp only [Opening.read, file, Line.opens.injEq] at read
    subst read
    cases placed
    obtain ⟨present, rest, whole, located⟩ := readFile_eq_some file
    obtain ⟨validLine, validColumn, validCode, rfl⟩ := readLocated_eq_some_iff.1 located
    refine ⟨line, column, head.code, head.text, head.level, ?_, validLine, validColumn, validCode,
      unmarked_of_readFile file, flush, ?_⟩
    · rwa [String.toList_ofList]
    · rw [String.toList_ofList, whole]
      simp only [List.append_assoc]

instance (cs : List Char) : Decidable (Opens cs) :=
  decidable_of_iff ((Line.read cs).opening?.isSome = true) <| by
    rw [opens_iff]
    cases Line.read cs <;> simp [Line.opening?]

theorem group_opens (lines : List (List Char)) :
    List.Forall₂ (fun cs group => Line.read cs = .opens group.1) (lines.filter Opens)
      (group (lines.map Line.read)) := by
  induction lines with
  | nil => exact .nil
  | cons cs lines ih =>
    by_cases opens : Opens cs
    · obtain ⟨opening, read⟩ := opens_iff.1 opens
      rw [List.filter_cons_of_pos (by simpa using opens), List.map_cons, read, group]
      exact .cons read ih
    · rw [List.filter_cons_of_neg (by simpa using opens), List.map_cons]
      cases read : Line.read cs with
      | opens opening => exact absurd (opens_iff.2 ⟨opening, read⟩) opens
      | continues part => exact ih
      | noise => exact ih

def Stands (sources : Sources) (cs : List Char) (diagnostic : Category × Notice) : Prop :=
  ∃ opening, Line.read cs = .opens opening ∧
    diagnostic.2.file = opening.position.map (·.file) ∧
      diagnostic.2.start = opening.position.bind (offsetOf? sources)

theorem diagnostics_stand (files : List String) (sources : Sources) (output : String) :
    List.Forall₂ (Stands sources) ((Text.lines output.toList).filter Opens)
      (programOf files sources output).diagnostics := by
  rw [programOf, parseOutput, List.map_map, List.forall₂_map_right_iff]
  refine (group_opens _).imp ?_
  rintro cs ⟨opening, parts⟩ read
  exact ⟨opening, read, rfl, rfl⟩

end BuildGate.Compiler
