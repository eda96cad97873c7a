import BuildGate.Proofs.Text.Utf8
import BuildGate.Text.Blank
import BuildGate.Text.Lines
import Mathlib.Data.List.Basic
import Mathlib.Data.List.TakeWhile

set_option autoImplicit false

namespace BuildGate.Text

def NoTrailing (cs : List Char) : Prop := ∀ c, cs.getLast? = some c → isBlank c = false

def NoLeading (cs : List Char) : Prop := ∀ c, cs.head? = some c → isBlank c = false

-- Named, since a search may come up with the instance that tries every character.
instance (cs : List Char) : Decidable (NoTrailing cs) := Option.decidableForallMem cs.getLast?

instance (cs : List Char) : Decidable (NoLeading cs) := Option.decidableForallMem cs.head?

theorem NoTrailing.append {cs ds : List Char} (tidy : NoTrailing ds) (present : ds ≠ []) :
    NoTrailing (cs ++ ds) := by
  intro c last
  exact tidy c (by rwa [List.getLast?_append_of_ne_nil cs present] at last)

theorem trimEnd_append_blank (cs : List Char) {blanks : List Char}
    (blank : ∀ c ∈ blanks, isBlank c = true) : trimEnd (cs ++ blanks) = trimEnd cs := by
  rw [trimEnd, trimEnd, List.reverse_append, List.dropWhile_append_of_pos]
  intro c inside
  exact blank c (List.mem_reverse.1 inside)

theorem trimEnd_eq_self {cs : List Char} (tidy : NoTrailing cs) : trimEnd cs = cs := by
  have stop : cs.reverse.dropWhile isBlank = cs.reverse := by
    cases turned : cs.reverse with
    | nil => rfl
    | cons c rest =>
      have last : cs.getLast? = some c := by rw [← List.head?_reverse, turned]; rfl
      rw [List.dropWhile_cons_of_neg (by simp [tidy c last])]
  rw [trimEnd, stop, List.reverse_reverse]

theorem trimEnd_blank {cs : List Char} (blank : ∀ c ∈ cs, isBlank c = true) : trimEnd cs = [] :=
  trimEnd_append_blank [] blank

theorem trim_eq_nil_iff {cs : List Char} : trim cs = [] ↔ ∀ c ∈ cs, isBlank c = true := by
  constructor
  · intro empty c inside
    rw [← leadingBlanks_append_trimStart cs, List.mem_append] at inside
    rcases inside with leading | rest
    · exact List.mem_takeWhile_imp leading
    · simp only [trim, trimEnd, List.reverse_eq_nil_iff, List.dropWhile_eq_nil_iff] at empty
      exact empty c (List.mem_reverse.2 rest)
  · intro blank
    have start : trimStart cs = [] := by simpa [trimStart] using blank
    rw [trim, start, trimEnd_nil]

theorem blank_return : ∀ c ∈ ['\r'], isBlank c = true := by
  simp [isBlank]

theorem trimEnd_dropLastIf (cs : List Char) : trimEnd (dropLastIf '\r' cs) = trimEnd cs := by
  by_cases last : cs.getLast? = some '\r'
  · have ended : cs.dropLast ++ ['\r'] = cs := List.dropLast_append_getLast? '\r' last
    rw [dropLastIf, if_pos (by simpa using last), ← trimEnd_append_blank cs.dropLast blank_return,
      ended]
  · rw [dropLastIf, if_neg (by simpa using last)]

theorem trimEnd_prefix (cs : List Char) : trimEnd cs <+: cs := by
  have suffix := List.reverse_prefix.2 (List.dropWhile_suffix isBlank (l := cs.reverse))
  rwa [List.reverse_reverse] at suffix

theorem NoLeading.trimEnd {cs : List Char} (flush : NoLeading cs) : NoLeading (trimEnd cs) := by
  intro c first
  obtain ⟨blanks, whole⟩ := trimEnd_prefix cs
  apply flush c
  rw [← whole, List.head?_append, first]
  rfl

theorem leadingBlanks_eq_nil {cs : List Char} (flush : NoLeading cs) : leadingBlanks cs = [] := by
  cases cs with
  | nil => rfl
  | cons c cs => rw [leadingBlanks, List.takeWhile_cons_of_neg (by simp [flush c rfl])]

theorem leadingBlanks_append {blanks cs : List Char} (blank : ∀ c ∈ blanks, isBlank c = true)
    (flush : NoLeading cs) : leadingBlanks (blanks ++ cs) = blanks := by
  rw [leadingBlanks, List.takeWhile_append_of_pos blank, ← leadingBlanks,
    leadingBlanks_eq_nil flush, List.append_nil]

theorem trimStart_append {blanks cs : List Char} (blank : ∀ c ∈ blanks, isBlank c = true)
    (flush : NoLeading cs) : trimStart (blanks ++ cs) = cs := by
  have whole := leadingBlanks_append_trimStart (blanks ++ cs)
  rw [leadingBlanks_append blank flush] at whole
  exact List.append_cancel_left whole

def IsEnding (cs : List Char) : Prop := cs = ['\n'] ∨ cs = ['\r', '\n']

theorem lines_nil : lines [] = [] := by
  simp [lines, linesOf]

theorem lines_append_feed {cs : List Char} (plain : '\n' ∉ cs) (rest : List Char) :
    lines (cs ++ '\n' :: rest) = dropLastIf '\r' cs :: lines rest := by
  have pieces := List.splitOn_append_cons_self_of_not_mem plain rest
  have some_ := List.splitOn_ne_nil '\n' rest
  cases split : rest.splitOn '\n' with
  | nil => exact absurd split some_
  | cons piece more =>
    rw [split] at pieces
    simp only [lines, linesOf, pieces, split, List.dropLast_cons_cons, List.map_cons,
      List.getLast?_cons_cons]
    split <;> rfl

theorem splitOn_feeds {first : List Char} {rest : List (List Char)}
    (plain : ∀ cs ∈ first :: rest, '\n' ∉ cs) :
    (first ++ rest.flatMap ('\n' :: ·)).splitOn '\n' = first :: rest := by
  induction rest generalizing first with
  | nil =>
    rw [List.flatMap_nil, List.append_nil]
    exact List.splitOn_eq_singleton (plain first List.mem_cons_self)
  | cons next rest ih =>
    simp only [List.forall_mem_cons] at plain ih
    rw [List.flatMap_cons, List.cons_append,
      List.splitOn_append_cons_self_of_not_mem plain.1, ih plain.2]

theorem separator_notMem_splitOn {sep : Char} {cs piece : List Char}
    (inside : piece ∈ cs.splitOn sep) : sep ∉ piece := by
  induction cs generalizing piece with
  | nil =>
    rw [List.splitOn_nil, List.mem_singleton] at inside
    simp [inside]
  | cons c cs ih =>
    rw [List.splitOn_cons_eq_if_modifyHead] at inside
    by_cases same : c = sep
    · rw [if_pos (by simp [same]), List.mem_cons] at inside
      rcases inside with rfl | later
      · simp
      · exact ih later
    · rw [if_neg (by simp [same])] at inside
      cases pieces : cs.splitOn sep with
      | nil => exact absurd pieces (List.splitOn_ne_nil sep cs)
      | cons first rest =>
        rw [pieces, List.modifyHead_cons, List.mem_cons] at inside
        rcases inside with rfl | later
        · simp [Ne.symm same, ih (pieces ▸ List.mem_cons_self)]
        · exact ih (pieces ▸ List.mem_cons_of_mem first later)

-- The line that is found may keep a carriage return, but no reader that trims sees that.
theorem lines_append_ending {cs ending : List Char} (plain : '\n' ∉ cs) (ends : IsEnding ending)
    (rest : List Char) :
    ∃ line, lines (cs ++ ending ++ rest) = line :: lines rest ∧ trimEnd line = trimEnd cs := by
  rcases ends with rfl | rfl
  · refine ⟨dropLastIf '\r' cs, ?_, trimEnd_dropLastIf cs⟩
    rw [List.append_assoc]
    exact lines_append_feed plain rest
  · have returned : '\n' ∉ cs ++ ['\r'] := by simpa using plain
    refine ⟨dropLastIf '\r' (cs ++ ['\r']), ?_, ?_⟩
    · have moved : cs ++ ['\r', '\n'] ++ rest = (cs ++ ['\r']) ++ '\n' :: rest := by simp
      rw [moved]
      exact lines_append_feed returned rest
    · rw [trimEnd_dropLastIf, trimEnd_append_blank cs blank_return]

/-- The pieces between line feeds. Where the last line feed ends the bytes, there is none after
it. -/
def pieces (bytes : Bytes) : List Bytes :=
  let all := bytes.splitOn 10
  if all.getLast? = some [] then all.dropLast else all

theorem isUtf8_dropLastIf {bytes : Bytes} : IsUtf8 (dropLastIf 13 bytes) ↔ IsUtf8 bytes := by
  by_cases last : bytes.getLast? = some 13
  · have ended : bytes.dropLast ++ [13] = bytes := List.dropLast_append_getLast? 13 last
    rw [dropLastIf, if_pos (by simpa using last), ← isUtf8_append_return, ended]
  · rw [dropLastIf, if_neg (by simpa using last)]

theorem byteLines_isSome (bytes : Bytes) :
    (byteLines bytes).map Option.isSome = (pieces bytes).map fun piece => decide (IsUtf8 piece) := by
  have read (piece : Bytes) : (decode? piece).isSome = decide (IsUtf8 piece) := by
    rw [Bool.eq_iff_iff, decide_eq_true_eq, isUtf8_iff]
  have ended (front : List Bytes) :
      ((front.map (dropLastIf 13)).map decode?).map Option.isSome =
        front.map fun piece => decide (IsUtf8 piece) := by
    simp only [List.map_map, Function.comp_def, read, isUtf8_dropLastIf]
  rw [byteLines, linesOf, pieces]
  cases last : (bytes.splitOn 10).getLast? with
  | none => exact absurd (List.getLast?_eq_none_iff.1 last) (List.splitOn_ne_nil 10 bytes)
  | some rest =>
    cases rest with
    | nil => rw [if_pos rfl, ended]
    | cons byte rest =>
      rw [if_neg (by simp), List.map_append, List.map_append, ended]
      nth_rewrite 2 [← List.dropLast_append_getLast? _ last]
      simp [read]

end BuildGate.Text
