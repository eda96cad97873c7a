import BuildGate.LineMap
import Mathlib.Data.List.Basic

set_option autoImplicit false

namespace BuildGate

def rows : List Char → List (List Char)
  | [] => [[]]
  | '\r' :: '\n' :: cs => ['\r', '\n'] :: rows cs
  | c :: cs => if c = '\r' ∨ c = '\n' then [c] :: rows cs else (rows cs).modifyHead (c :: ·)

def rowStart (rows : List (List Char)) (line : Nat) : Nat := width (rows.take line).flatten

def reach : List (List Char) → Nat → Nat
  | [], _ => 0
  | [row], 0 => width row + 1
  | row :: _ :: _, 0 => width row
  | _ :: rows, line + 1 => reach rows line

theorem rows_ne_nil (cs : List Char) : rows cs ≠ [] := by
  fun_induction rows cs with
  | case1 => simp
  | case2 cs ih => simp
  | case3 c cs whole ends ih => simp
  | case4 c cs whole inside ih => simpa [List.modifyHead_eq_nil_iff] using ih

@[simp] theorem flatten_rows (cs : List Char) : (rows cs).flatten = cs := by
  fun_induction rows cs with
  | case1 => rfl
  | case2 cs ih => simp [ih]
  | case3 c cs whole ends ih => simp [ih]
  | case4 c cs whole inside ih =>
    cases parts : rows cs with
    | nil => exact absurd parts (rows_ne_nil cs)
    | cons row more =>
      rw [parts] at ih
      rw [← ih]
      rfl

theorem units_pos (c : Char) : 0 < units c := by
  unfold units
  split <;> omega

theorem length_rows_le (cs : List Char) : (rows cs).length ≤ width cs + 1 := by
  fun_induction rows cs with
  | case1 => simp
  | case2 cs ih =>
    have feed := units_pos '\n'
    simp only [List.length_cons, width_cons]
    omega
  | case3 c cs whole ends ih =>
    have unit := units_pos c
    simp only [List.length_cons, width_cons]
    omega
  | case4 c cs whole inside ih =>
    simp only [List.length_modifyHead, width_cons]
    omega

@[simp] theorem rowStart_zero (rows : List (List Char)) : rowStart rows 0 = 0 := by
  simp [rowStart]

@[simp] theorem rowStart_cons (row : List Char) (rows : List (List Char)) (line : Nat) :
    rowStart (row :: rows) (line + 1) = width row + rowStart rows line := by
  simp [rowStart]

theorem rowStart_le (rows : List (List Char)) (line : Nat) :
    rowStart rows line ≤ width rows.flatten := by
  have whole : width (rows.take line ++ rows.drop line).flatten = width rows.flatten := by
    rw [List.take_append_drop]
  rw [List.flatten_append, width_append] at whole
  rw [rowStart]
  omega

theorem lt_length_of_reach {rows : List (List Char)} {line character : Nat}
    (inside : character < reach rows line) : line < rows.length := by
  fun_induction reach rows line with
  | case1 => omega
  | case2 row => simp
  | case3 row next rows => simp
  | case4 row rows line ih =>
    have later := ih inside
    simpa using later

theorem add_le_of_reach {rows : List (List Char)} {line character : Nat}
    (inside : character < reach rows line) :
    rowStart rows line + character ≤ width rows.flatten := by
  fun_induction reach rows line with
  | case1 => omega
  | case2 row =>
    simp only [rowStart_zero, List.flatten_cons, List.flatten_nil, List.append_nil]
    omega
  | case3 row next rows =>
    simp only [rowStart_zero, List.flatten_cons, width_append]
    omega
  | case4 row rows line ih =>
    have later := ih inside
    simp only [rowStart_cons, List.flatten_cons, width_append]
    omega

theorem exists_reach {rows : List (List Char)} (some_ : rows ≠ []) {offset : Nat}
    (within : offset ≤ width rows.flatten) :
    ∃ line character, character < reach rows line ∧ offset = rowStart rows line + character := by
  induction rows generalizing offset with
  | nil => exact absurd rfl some_
  | cons row rows ih =>
    cases rows with
    | nil =>
      simp only [List.flatten_cons, List.flatten_nil, List.append_nil] at within
      exact ⟨0, offset, by simp only [reach]; omega, by simp⟩
    | cons next rows =>
      by_cases here : offset < width row
      · exact ⟨0, offset, here, by simp⟩
      · have left : offset - width row ≤ width (next :: rows).flatten := by
          rw [List.flatten_cons, width_append] at within
          omega
        obtain ⟨line, character, inside, place⟩ := ih (by simp) left
        refine ⟨line + 1, character, inside, ?_⟩
        rw [rowStart_cons]
        omega

def startsFrom : Nat → List (List Char) → List Nat
  | _, [] => []
  | offset, row :: rows => offset :: startsFrom (offset + width row) rows

theorem cons_terminatorEnds (offset : Nat) (cs : List Char) :
    offset :: terminatorEnds offset cs = startsFrom offset (rows cs) := by
  fun_induction terminatorEnds offset cs with
  | case1 offset => rfl
  | case2 offset cs ih =>
    have two : width ['\r', '\n'] = 2 := by decide
    rw [rows, startsFrom, two, ih]
  | case3 offset c cs whole ends ih =>
    have one : width [c] = 1 := by rcases ends with rfl | rfl <;> decide
    rw [rows, if_pos ends, startsFrom, one, ih]
    exact whole
  | case4 offset c cs whole inside ih =>
    rw [rows, if_neg inside]
    · cases parts : rows cs with
      | nil => exact absurd parts (rows_ne_nil cs)
      | cons row more =>
        rw [parts] at ih
        simp only [startsFrom, List.cons.injEq, true_and] at ih
        simp only [List.modifyHead_cons, startsFrom, width_cons, ih, Nat.add_assoc]
    · exact whole

theorem getElem?_startsFrom (offset : Nat) (rows : List (List Char)) (line : Nat) :
    (startsFrom offset rows)[line]? =
      if line < rows.length then some (offset + rowStart rows line) else none := by
  induction rows generalizing offset line with
  | nil => simp [startsFrom]
  | cons row rows ih =>
    cases line with
    | zero => simp [startsFrom]
    | succ line => simp [startsFrom, ih, Nat.add_assoc]

theorem le_of_mem_startsFrom {offset start : Nat} {rows : List (List Char)}
    (listed : start ∈ startsFrom offset rows) : offset ≤ start := by
  induction rows generalizing offset with
  | nil => simp [startsFrom] at listed
  | cons row rows ih =>
    rcases List.mem_cons.1 listed with rfl | later
    · exact Nat.le_refl _
    · exact Nat.le_of_add_right_le (ih later)

theorem countP_startsFrom {rows : List (List Char)} {line character : Nat}
    (inside : character < reach rows line) (offset : Nat) :
    (startsFrom offset rows).countP (· ≤ offset + rowStart rows line + character) = line + 1 := by
  fun_induction reach rows line generalizing offset with
  | case1 => omega
  | case2 row => simp [startsFrom]
  | case3 row next rows =>
    -- The next row starts behind the place, and so do all after it.
    have none_ : (startsFrom (offset + width row) (next :: rows)).countP
        (· ≤ offset + character) = 0 := by
      rw [List.countP_eq_zero]
      intro start listed
      have behind := le_of_mem_startsFrom listed
      simp only [decide_eq_true_eq]
      omega
    rw [startsFrom, rowStart_zero, Nat.add_zero, List.countP_cons_of_pos (by simp), none_]
  | case4 row rows line ih =>
    rw [startsFrom, rowStart_cons, List.countP_cons_of_pos (by simp; omega), ← Nat.add_assoc offset,
      ih inside]

namespace LineMap

theorem starts_ofChars (cs : List Char) : (ofChars cs).starts = startsFrom 0 (rows cs) :=
  cons_terminatorEnds 0 cs

theorem length_ofChars (cs : List Char) : (ofChars cs).length = width cs := rfl

theorem offset?_eq (cs : List Char) (line character : Nat) :
    (ofChars cs).offset? line character =
      if line < (rows cs).length then
        some (min (Word.add (rowStart (rows cs) line) character) (width cs))
      else none := by
  rw [offset?, starts_ofChars, getElem?_startsFrom, Nat.zero_add, length_ofChars]
  split <;> rfl

theorem lineAndCharacter_of_reach {cs : List Char} {line character : Nat}
    (inside : character < reach (rows cs) line) :
    (ofChars cs).lineAndCharacter (rowStart (rows cs) line + character) = (line, character) := by
  have within : rowStart (rows cs) line + character ≤ (ofChars cs).length := by
    have bound := add_le_of_reach inside
    rwa [flatten_rows] at bound
  have found : (ofChars cs).lineAt (rowStart (rows cs) line + character) = line := by
    have counted := countP_startsFrom inside 0
    rw [Nat.zero_add] at counted
    rw [lineAt, starts_ofChars, counted, Nat.add_sub_cancel]
  have start : (ofChars cs).startOf line = rowStart (rows cs) line := by
    rw [startOf, starts_ofChars, getElem?_startsFrom, if_pos (lt_length_of_reach inside),
      Nat.zero_add, Option.getD_some]
  simp only [lineAndCharacter, Nat.min_eq_left within, found, start, Nat.add_sub_cancel_left]

theorem exists_lineAndCharacter (cs : List Char) (offset : Nat) :
    ∃ line character, character < reach (rows cs) line ∧
      (ofChars cs).lineAndCharacter offset = (line, character) ∧
      rowStart (rows cs) line + character = min offset (width cs) := by
  have within : min offset (width cs) ≤ width (rows cs).flatten := by
    rw [flatten_rows]
    exact Nat.min_le_right _ _
  obtain ⟨line, character, inside, place⟩ := exists_reach (rows_ne_nil cs) within
  refine ⟨line, character, inside, ?_, place.symm⟩
  have clamped : (ofChars cs).lineAndCharacter offset =
      (ofChars cs).lineAndCharacter (min offset (width cs)) := by
    simp only [lineAndCharacter, length_ofChars, Nat.min_assoc, Nat.min_self]
  rw [clamped, place, lineAndCharacter_of_reach inside]

end LineMap

end BuildGate
