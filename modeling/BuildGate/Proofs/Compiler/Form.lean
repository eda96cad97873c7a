import BuildGate.Compiler.Output
import BuildGate.Proofs.Text.Digit
import Mathlib.Data.List.TakeWhile

set_option autoImplicit false

namespace BuildGate.Compiler

open Text (Digits)

def tagChars (level : Level) (code : List Char) : List Char :=
  level.word.toList ++ " TS".toList ++ code ++ ": ".toList

def placeChars (line column : List Char) : List Char :=
  ['('] ++ line ++ [','] ++ column ++ "): ".toList

def IsMarker (cs : List Char) : Prop :=
  ∃ line column code : List Char, ∃ level : Level, Digits line ∧ Digits column ∧ Digits code ∧
    cs = placeChars line column ++ tagChars level code

def Unmarked (cs : List Char) : Prop := ∀ marker, IsMarker marker → ¬ marker <:+: cs

theorem unmarked_of_notMem {cs : List Char} (plain : '(' ∉ cs) : Unmarked cs := by
  rintro marker ⟨line, column, code, level, -, -, -, rfl⟩ inside
  exact plain (inside.subset (by simp [placeChars]))

def IsLocated (cs : List Char) : Prop :=
  ∃ file marker text : List Char, file ≠ [] ∧ IsMarker marker ∧ cs = file ++ marker ++ text

def IsGlobal (cs : List Char) : Prop :=
  ∃ code text : List Char, ∃ level : Level, Digits code ∧ cs = tagChars level code ++ text

theorem after?_eq_some_iff {lead cs rest : List Char} :
    after? lead cs = some rest ↔ cs = lead ++ rest := by
  induction lead generalizing cs with
  | nil => simp [after?]
  | cons l lead ih =>
    cases cs with
    | nil => simp [after?]
    | cons c cs =>
      by_cases same : l = c
      · simp [after?, same, ih]
      · simp [after?, same, Ne.symm same]

theorem after?_append (lead rest : List Char) : after? lead (lead ++ rest) = some rest :=
  after?_eq_some_iff.2 rfl

theorem readDigits_append {digits rest : List Char} (valid : Digits digits)
    (stop : Text.Unled Text.isDigit rest) : readDigits (digits ++ rest) = some (digits, rest) := by
  obtain ⟨taken, left⟩ := Text.span_unled valid.2 stop
  rw [readDigits, taken, left]
  cases digits with
  | nil => exact absurd rfl valid.1
  | cons c digits => rfl

theorem readDigits_eq_some {cs digits rest : List Char}
    (read : readDigits cs = some (digits, rest)) : Digits digits ∧ cs = digits ++ rest := by
  cases taken : cs.takeWhile Text.isDigit with
  | nil => simp [readDigits, taken] at read
  | cons c more =>
    simp only [readDigits, taken, Option.some.injEq, Prod.mk.injEq] at read
    obtain ⟨rfl, rfl⟩ := read
    rw [← taken]
    refine ⟨⟨by simp [taken], fun d inside => List.mem_takeWhile_imp inside⟩, ?_⟩
    rw [List.takeWhile_append_dropWhile]

namespace Head

theorem readAt_eq_some_iff {level : Level} {cs : List Char} {head : Head} :
    readAt level cs = some head ↔
      head.level = level ∧ Digits head.code ∧ cs = tagChars level head.code ++ head.text := by
  constructor
  · intro read
    simp only [readAt, Option.bind_eq_bind, Option.bind_eq_some_iff, Prod.exists] at read
    obtain ⟨a, word, b, mark, code, c, digits, text, colon, made⟩ := read
    obtain ⟨valid, rfl⟩ := readDigits_eq_some digits
    obtain rfl := after?_eq_some_iff.1 colon
    obtain rfl := after?_eq_some_iff.1 mark
    obtain rfl := after?_eq_some_iff.1 word
    cases made
    exact ⟨rfl, valid, by simp [tagChars]⟩
  · rintro ⟨rfl, valid, rfl⟩
    have stop : Text.Unled Text.isDigit (": ".toList ++ head.text) := by
      intro c first
      cases first
      decide
    simp only [readAt, tagChars, List.append_assoc, after?_append, readDigits_append valid stop,
      Option.bind_eq_bind, Option.bind_some]
    rfl

theorem level_of_tagChars {a b : Level} {code digits text rest : List Char}
    (same : tagChars a code ++ text = tagChars b digits ++ rest) : a = b := by
  have first := congrArg List.head? same
  cases a <;> cases b <;> first | rfl | (simp [tagChars, Level.word] at first)

theorem read_eq_some_iff {cs : List Char} {head : Head} :
    Head.read cs = some head ↔
      Digits head.code ∧ cs = tagChars head.level head.code ++ head.text := by
  constructor
  · intro found
    obtain ⟨level, -, read⟩ := List.exists_of_findSome?_eq_some found
    obtain ⟨rfl, form⟩ := readAt_eq_some_iff.1 read
    exact form
  · intro form
    have here : readAt head.level cs = some head := readAt_eq_some_iff.2 ⟨rfl, form⟩
    cases found : Head.read cs with
    | none =>
      have missed := List.findSome?_eq_none_iff.1 found head.level
        (by cases head.level <;> simp [Level.all])
      rw [here] at missed
      cases missed
    | some other =>
      -- The level that is found first is the only one whose word the text starts with.
      obtain ⟨level, -, read⟩ := List.exists_of_findSome?_eq_some found
      obtain ⟨rfl, -, same⟩ := readAt_eq_some_iff.1 read
      rw [← level_of_tagChars (form.2.symm.trans same), here] at read
      exact read.symm

end Head

theorem isGlobal_iff {cs : List Char} : IsGlobal cs ↔ (Head.read cs).isSome = true := by
  rw [Option.isSome_iff_exists]
  constructor
  · rintro ⟨code, text, level, form⟩
    exact ⟨⟨level, code, text⟩, Head.read_eq_some_iff.2 form⟩
  · rintro ⟨head, read⟩
    exact ⟨head.code, head.text, head.level, Head.read_eq_some_iff.1 read⟩

theorem readLocated_eq_some_iff {cs line column : List Char} {head : Head} :
    readLocated cs = some (line, column, head) ↔
      Digits line ∧ Digits column ∧ Digits head.code ∧
        cs = placeChars line column ++ tagChars head.level head.code ++ head.text := by
  constructor
  · intro read
    simp only [readLocated, Option.bind_eq_bind, Option.bind_eq_some_iff, Prod.exists] at read
    obtain ⟨a, start, lineDigits, b, readLine, c, comma, columnDigits, d, readColumn, e, close,
      found, tag, made⟩ := read
    obtain ⟨validLine, rfl⟩ := readDigits_eq_some readLine
    obtain ⟨validColumn, rfl⟩ := readDigits_eq_some readColumn
    obtain rfl := after?_eq_some_iff.1 close
    obtain rfl := after?_eq_some_iff.1 comma
    obtain rfl := after?_eq_some_iff.1 start
    cases made
    obtain ⟨validCode, rfl⟩ := Head.read_eq_some_iff.1 tag
    exact ⟨validLine, validColumn, validCode, by simp [placeChars]⟩
  · rintro ⟨validLine, validColumn, validCode, rfl⟩
    have comma (rest : List Char) : Text.Unled Text.isDigit ([','] ++ rest) := by
      intro c first
      cases first
      decide
    have close (rest : List Char) : Text.Unled Text.isDigit ("): ".toList ++ rest) := by
      intro c first
      cases first
      decide
    have tag := Head.read_eq_some_iff.2 ⟨validCode, rfl⟩
    simp only [readLocated, placeChars, List.append_assoc, after?_append,
      readDigits_append validLine (comma _), readDigits_append validColumn (close _),
      Option.bind_eq_bind, Option.bind_some, tag]
    rfl

theorem readLocated_unmarked {cs : List Char} (plain : Unmarked cs) {rest : List Char}
    (suffix : rest <:+ cs) : readLocated rest = none := by
  cases read : readLocated rest with
  | none => rfl
  | some found =>
    obtain ⟨line, column, head⟩ := found
    obtain ⟨validLine, validColumn, validCode, rfl⟩ := readLocated_eq_some_iff.1 read
    have marker : IsMarker (placeChars line column ++ tagChars head.level head.code) :=
      ⟨line, column, head.code, head.level, validLine, validColumn, validCode, rfl⟩
    exact absurd ((List.prefix_append _ _).isInfix.trans suffix.isInfix) (plain _ marker)

theorem readLocated_cons_ne {c : Char} (other : c ≠ '(') (cs : List Char) :
    readLocated (c :: cs) = none := by
  simp [readLocated, after?, Ne.symm other]

theorem readLocated_append {before cs : List Char} (open_ : '(' ∉ before)
    (none_ : ∀ rest, rest <:+ cs → readLocated rest = none) :
    ∀ rest, rest <:+ before ++ cs → readLocated rest = none := by
  induction before with
  | nil => exact none_
  | cons c before ih =>
    simp only [List.mem_cons, not_or] at open_
    intro rest suffix
    rcases List.suffix_cons_iff.1 suffix with rfl | later
    · exact readLocated_cons_ne (Ne.symm open_.1) _
    · exact ih open_.2 rest later

theorem readFile_eq_none {cs : List Char}
    (none_ : ∀ rest, rest <:+ cs.tail → readLocated rest = none) : readFile cs = none := by
  induction cs with
  | nil => rfl
  | cons c cs ih =>
    have later : readFile cs = none :=
      ih fun rest suffix => none_ rest (suffix.trans (List.tail_suffix cs))
    rw [readFile, later, none_ cs List.suffix_rfl]
    rfl

-- Later places are tried first, so the name goes on up to the last place that a position follows.
theorem readFile_append {file cs line column : List Char} {head : Head} (present : file ≠ [])
    (here : readLocated cs = some (line, column, head))
    (none_ : ∀ rest, rest <:+ cs.tail → readLocated rest = none) :
    readFile (file ++ cs) = some (file, line, column, head) := by
  induction file with
  | nil => exact absurd rfl present
  | cons c file ih =>
    cases file with
    | nil =>
      rw [List.cons_append, List.nil_append, readFile, readFile_eq_none none_, here]
      rfl
    | cons d file => rw [List.cons_append, readFile, ih (by simp)]

theorem readFile_eq_some {cs file line column : List Char} {head : Head}
    (read : readFile cs = some (file, line, column, head)) :
    file ≠ [] ∧ ∃ rest, cs = file ++ rest ∧ readLocated rest = some (line, column, head) := by
  induction cs generalizing file with
  | nil => cases read
  | cons c cs ih =>
    rw [readFile] at read
    cases later : readFile cs with
    | some found =>
      obtain ⟨more, place⟩ := found
      rw [later] at read
      obtain ⟨rfl, rfl⟩ := Prod.mk.inj (Option.some.inj read)
      obtain ⟨-, rest, rfl, located⟩ := ih later
      exact ⟨List.cons_ne_nil c more, rest, rfl, located⟩
    | none =>
      rw [later] at read
      obtain ⟨⟨a, b, h⟩, here, made⟩ := Option.map_eq_some_iff.1 read
      cases made
      exact ⟨List.cons_ne_nil c [], cs, rfl, here⟩

theorem isLocated_of_readFile {cs file line column : List Char} {head : Head}
    (read : readFile cs = some (file, line, column, head)) : IsLocated cs := by
  obtain ⟨present, rest, rfl, located⟩ := readFile_eq_some read
  obtain ⟨validLine, validColumn, validCode, rfl⟩ := readLocated_eq_some_iff.1 located
  exact ⟨file, placeChars line column ++ tagChars head.level head.code, head.text, present,
    ⟨line, column, head.code, head.level, validLine, validColumn, validCode, rfl⟩, by simp⟩

theorem Opening.read_eq_none {cs : List Char} (located : ¬ IsLocated cs) (global : ¬ IsGlobal cs) :
    Opening.read cs = none := by
  have file : readFile cs = none := by
    cases read : readFile cs with
    | none => rfl
    | some found =>
      obtain ⟨name, line, column, head⟩ := found
      exact absurd (isLocated_of_readFile read) located
  have head : Head.read cs = none := by
    rw [isGlobal_iff] at global
    simpa using global
  simp only [Opening.read, file, head]
  rfl

theorem mark_notMem_digits {c : Char} (mark : c = '(' ∨ c = '\n') {digits : List Char}
    (valid : Digits digits) : c ∉ digits := by
  intro inside
  have digit := valid.2 c inside
  rcases mark with rfl | rfl <;> revert digit <;> decide

theorem mark_notMem_tagChars {c : Char} (mark : c = '(' ∨ c = '\n') (level : Level)
    {code : List Char} (valid : Digits code) : c ∉ tagChars level code := by
  have digits := mark_notMem_digits mark valid
  rcases mark with rfl | rfl <;> cases level <;> simp [tagChars, Level.word, digits]

theorem mark_notMem_placeChars {c : Char} (mark : c = '(' ∨ c = '\n') {line column : List Char}
    (validLine : Digits line) (validColumn : Digits column) :
    c ∉ (placeChars line column).tail := by
  have lineDigits := mark_notMem_digits mark validLine
  have columnDigits := mark_notMem_digits mark validColumn
  rcases mark with rfl | rfl <;> simp [placeChars, lineDigits, columnDigits]

theorem Opening.read_located {file line column code text : List Char} {level : Level}
    (present : file ≠ []) (validLine : Digits line) (validColumn : Digits column)
    (validCode : Digits code) (plain : Unmarked text) :
    Opening.read (file ++ placeChars line column ++ tagChars level code ++ text) =
      some ⟨some ⟨String.ofList file, ordinal line, ordinal column⟩, level, codeOf code,
        String.ofList text⟩ := by
  have here : readLocated (placeChars line column ++ tagChars level code ++ text) =
      some (line, column, ⟨level, code, text⟩) :=
    readLocated_eq_some_iff.2 ⟨validLine, validColumn, validCode, rfl⟩
  have later : ∀ rest, rest <:+ (placeChars line column ++ tagChars level code ++ text).tail →
      readLocated rest = none := by
    have before : '(' ∉ (placeChars line column).tail ++ tagChars level code := by
      simp [mark_notMem_placeChars (.inl rfl) validLine validColumn,
        mark_notMem_tagChars (.inl rfl) level validCode]
    exact readLocated_append before fun rest => readLocated_unmarked plain
  have read := readFile_append present here later
  simp only [← List.append_assoc] at read
  simp only [Opening.read, read]

theorem Opening.read_global {code text : List Char} {level : Level} (validCode : Digits code)
    (plain : Unmarked text) :
    Opening.read (tagChars level code ++ text) =
      some ⟨none, level, codeOf code, String.ofList text⟩ := by
  have nowhere : ∀ rest, rest <:+ tagChars level code ++ text → readLocated rest = none :=
    readLocated_append (mark_notMem_tagChars (.inl rfl) level validCode)
      fun rest => readLocated_unmarked plain
  have file : readFile (tagChars level code ++ text) = none :=
    readFile_eq_none fun rest suffix => nowhere rest (suffix.trans (List.tail_suffix _))
  have head : Head.read (tagChars level code ++ text) = some ⟨level, code, text⟩ :=
    Head.read_eq_some_iff.2 ⟨validCode, rfl⟩
  simp only [Opening.read, file, head]
  rfl

end BuildGate.Compiler
