import BuildGate.Proofs.LineMap
import Mathlib.Data.Prod.Lex

set_option autoImplicit false

namespace BuildGate

section

variable {rows : List (List Char)} {line other character : Nat}

theorem rowStart_succ (next : line + 1 < rows.length) :
    rowStart rows (line + 1) = rowStart rows line + reach rows line := by
  fun_induction reach rows line with
  | case1 => simp at next
  | case2 row => simp at next
  | case3 row next rows => simp
  | case4 row rows line ih =>
    rw [rowStart_cons, rowStart_cons, ih (by simpa using next), Nat.add_assoc]

theorem rowStart_last (last : line + 1 = rows.length) :
    rowStart rows line + reach rows line = width rows.flatten + 1 := by
  fun_induction reach rows line with
  | case1 => simp at last
  | case2 row => simp
  | case3 row next rows => simp at last
  | case4 row rows line ih =>
    rw [rowStart_cons, Nat.add_assoc, ih (by simpa using last), List.flatten_cons, width_append,
      Nat.add_assoc]

theorem lt_rowStart (inside : character < reach rows line) (later : line < other)
    (listed : other < rows.length) : rowStart rows line + character < rowStart rows other := by
  induction other, later using Nat.le_induction with
  | base =>
    rw [rowStart_succ listed]
    omega
  | succ other later ih =>
    have earlier := ih (Nat.lt_of_succ_lt listed)
    rw [rowStart_succ listed]
    omega

end

namespace LineMap

variable {cs : List Char} {line character offset : Nat}

/-- A character is inside a line: before the next line starts, or in the last line at most at the end of
the text. -/
inductive Inside (map : LineMap) (line character : Nat) : Prop
  | before {start next : Nat} (starts : map.starts[line]? = some start)
      (ends : map.starts[line + 1]? = some next) (inside : start + character < next) :
      Inside map line character
  | last {start : Nat} (starts : map.starts[line]? = some start)
      (ends : map.starts[line + 1]? = none) (inside : start + character ≤ map.length) :
      Inside map line character

theorem getElem?_starts (cs : List Char) (line : Nat) :
    (ofChars cs).starts[line]? =
      if line < (rows cs).length then some (rowStart (rows cs) line) else none := by
  rw [starts_ofChars, getElem?_startsFrom, Nat.zero_add]

theorem getElem?_starts_eq_some {start : Nat} :
    (ofChars cs).starts[line]? = some start ↔
      line < (rows cs).length ∧ rowStart (rows cs) line = start := by
  rw [getElem?_starts]
  split
  next listed => simp [listed]
  next unlisted => simp [unlisted]

theorem inside_iff : (ofChars cs).Inside line character ↔ character < reach (rows cs) line := by
  constructor
  · rintro (⟨starts, ends, inside⟩ | ⟨starts, ends, inside⟩)
    · obtain ⟨-, rfl⟩ := getElem?_starts_eq_some.1 starts
      obtain ⟨next, rfl⟩ := getElem?_starts_eq_some.1 ends
      rw [rowStart_succ next] at inside
      omega
    · obtain ⟨listed, rfl⟩ := getElem?_starts_eq_some.1 starts
      rw [getElem?_starts, ite_eq_right_iff] at ends
      have last := rowStart_last (show line + 1 = (rows cs).length by
        by_contra more
        exact absurd (ends (by omega)) (Option.some_ne_none _))
      rw [flatten_rows] at last
      rw [length_ofChars] at inside
      omega
  · intro inside
    have listed := lt_length_of_reach inside
    have starts := getElem?_starts_eq_some.2 ⟨listed, rfl⟩
    by_cases next : line + 1 < (rows cs).length
    · refine .before starts (getElem?_starts_eq_some.2 ⟨next, rfl⟩) ?_
      exact lt_rowStart inside (Nat.lt_succ_self line) next
    · have bound := add_le_of_reach inside
      rw [flatten_rows] at bound
      exact .last starts (by rw [getElem?_starts, if_neg next]) bound

/-- The offset of the position of an offset is that offset again, or the end of the text if that comes
first. A position is found again from its offset exactly if it lies inside its line. A larger offset up
to the end has a later position. Offsets are words, and so is the sum of a start and a character unless
it wraps around. -/
theorem offset_position_inverse (text : String) :
    let map := ofString text
    (∀ offset, min offset (width text.toList) < Word.size →
      map.offset? (map.lineAndCharacter offset).1 (map.lineAndCharacter offset).2 =
        some (min offset (width text.toList))) ∧
    (∀ line character offset, map.offset? line character = some offset →
      (∀ start, map.starts[line]? = some start → start + character < Word.size) →
        (map.lineAndCharacter offset = (line, character) ↔ map.Inside line character)) ∧
    ∀ offset other, offset < other → other ≤ width text.toList →
      Prod.Lex (· < ·) (· < ·) (map.lineAndCharacter offset) (map.lineAndCharacter other) := by
  intro map
  refine ⟨?_, ?_, ?_⟩
  · intro offset word
    obtain ⟨line, character, inside, found, place⟩ := exists_lineAndCharacter text.toList offset
    rw [show map.lineAndCharacter offset = (line, character) from found]
    rw [show map.offset? line character = _ from offset?_eq text.toList line character,
      if_pos (lt_length_of_reach inside), Word.add_eq_of_lt (place.trans_lt word), place,
      Nat.min_assoc, Nat.min_self]
  · intro line character offset found fits
    rw [show map.offset? line character = _ from offset?_eq text.toList line character] at found
    split at found
    next listed =>
      have starts := getElem?_starts_eq_some.2 ⟨listed, rfl⟩
      rw [Word.add_eq_of_lt (fits _ starts), Option.some.injEq] at found
      subst found
      rw [show map.Inside line character ↔ _ from inside_iff]
      constructor
      · intro back
        obtain ⟨line', character', inside, there, -⟩ := exists_lineAndCharacter text.toList
          (min (rowStart (rows text.toList) line + character) (width text.toList))
        obtain ⟨rfl, rfl⟩ := Prod.mk.inj (there.symm.trans back)
        exact inside
      · intro inside
        have within := add_le_of_reach inside
        rw [flatten_rows] at within
        rw [Nat.min_eq_left within]
        exact lineAndCharacter_of_reach inside
    next unlisted => cases found
  · intro offset other less within
    obtain ⟨line, character, inside, found, place⟩ := exists_lineAndCharacter text.toList offset
    obtain ⟨line', character', inside', found', place'⟩ := exists_lineAndCharacter text.toList other
    rw [show map.lineAndCharacter offset = _ from found,
      show map.lineAndCharacter other = _ from found']
    rw [Nat.min_eq_left (by omega)] at place place'
    rcases Nat.lt_trichotomy line line' with earlier | rfl | later
    · exact .left _ _ earlier
    · exact .right _ (by omega)
    · have behind := lt_rowStart inside' later (lt_length_of_reach inside)
      omega

theorem spilled_position :
    let map := ofString "x\r\n😀y"
    min 9 (width "x\r\n😀y".toList) < Word.size ∧
      map.offset? (map.lineAndCharacter 9).1 (map.lineAndCharacter 9).2 = some 6 ∧
      map.offset? 1 2 = some 5 ∧ map.lineAndCharacter 5 = (1, 2) ∧
      map.offset? 0 4 = some 4 ∧ map.lineAndCharacter 4 ≠ (0, 4) ∧
      Prod.Lex (· < ·) (· < ·) (map.lineAndCharacter 2) (map.lineAndCharacter 3) := by
  intro map
  have word : min 9 (width "x\r\n😀y".toList) < Word.size := by decide
  obtain ⟨inverse, found, rising⟩ := offset_position_inverse "x\r\n😀y"
  have starts : map.starts = [0, 3] := by decide
  have fits {line character : Nat} (small : character < 9) (start : Nat)
      (here : map.starts[line]? = some start) : start + character < Word.size := by
    have listed := List.mem_of_getElem? here
    simp only [starts, List.mem_cons, List.not_mem_nil, or_false] at listed
    rw [Word.size]
    omega
  refine ⟨word, inverse 9 word, by decide, ?_, by decide, ?_, rising 2 3 (by decide) (by decide)⟩
  · exact (found 1 2 5 (by decide) (fits (by decide))).2 (.last (by rw [starts]; rfl) rfl (by decide))
  · rw [ne_eq, found 0 4 4 (by decide) (fits (by decide))]
    rintro (⟨here, next, inside⟩ | ⟨here, last, inside⟩)
    · rw [starts] at here next
      cases here
      cases next
      omega
    · rw [starts] at last
      cases last

end LineMap

end BuildGate
