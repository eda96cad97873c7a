import BuildGate.Json.Form
import BuildGate.Proofs.Json.Number
import BuildGate.Proofs.Json.Quoted

set_option autoImplicit false

namespace BuildGate.Json.Form

open NumberForm (Apart Numeral)
open Quoted (Body Literal)

def Blank (cs : List Char) : Prop := ∀ c ∈ cs, isBlank c = true

inductive Key : Option String → List Char → Prop
  | mk {key : Option String} {front literal back : List Char} (before : Blank front)
      (quoted : Literal key literal) (after : Blank back) : Key key (front ++ (literal ++ back))

mutual

/-- How a value is written, from its first character to its last. -/
inductive Value : Form → List Char → Prop
  | null : Value .null "null".toList
  | yes : Value (.bool true) "true".toList
  | no : Value (.bool false) "false".toList
  | number {form : NumberForm} {cs : List Char} (numeral : Numeral form cs) : Value (.number form) cs
  | text {content : Option String} {cs : List Char} (literal : Literal content cs) :
      Value (.text content) cs
  | noItems {cs : List Char} (blank : Blank cs) : Value (.array []) ('[' :: (cs ++ [']']))
  | array {forms : List Form} {cs : List Char} (items : Items forms cs) :
      Value (.array forms) ('[' :: (cs ++ [']']))
  | noMembers {cs : List Char} (blank : Blank cs) : Value (.object []) ('{' :: (cs ++ ['}']))
  | object {forms : List (Option String × Form)} {cs : List Char} (members : Members forms cs) :
      Value (.object forms) ('{' :: (cs ++ ['}']))

inductive Element : Form → List Char → Prop
  | mk {form : Form} {front value back : List Char} (before : Blank front)
      (written : Value form value) (after : Blank back) : Element form (front ++ (value ++ back))

inductive Items : List Form → List Char → Prop
  | one {form : Form} {cs : List Char} (element : Element form cs) : Items [form] cs
  | more {form : Form} {forms : List Form} {cs ds : List Char} (element : Element form cs)
      (rest : Items forms ds) : Items (form :: forms) (cs ++ ',' :: ds)

inductive Members : List (Option String × Form) → List Char → Prop
  | one {key : Option String} {form : Form} {cs ds : List Char} (name : Key key cs)
      (element : Element form ds) : Members [(key, form)] (cs ++ ':' :: ds)
  | more {key : Option String} {form : Form} {forms : List (Option String × Form)}
      {cs ds es : List Char} (name : Key key cs) (element : Element form ds)
      (rest : Members forms es) : Members ((key, form) :: forms) (cs ++ ':' :: (ds ++ ',' :: es))

end

section Reading

variable {cs rest blanks : List Char}

theorem isBlank_iff {c : Char} : isBlank c = true ↔ c ∈ [' ', '\n', '\t', '\r'] := by
  simp [isBlank, or_assoc]

theorem skipBlanks_append (blank : Blank blanks) (cs : List Char) :
    skipBlanks (blanks ++ cs) = skipBlanks cs :=
  List.dropWhile_append_of_pos blank

theorem skipBlanks_cons {c : Char} (mark : isBlank c = false) (cs : List Char) :
    skipBlanks (c :: cs) = c :: cs :=
  List.dropWhile_cons_of_neg (by simp [mark])

theorem exists_blanks (cs : List Char) : ∃ blanks, Blank blanks ∧ cs = blanks ++ skipBlanks cs :=
  ⟨cs.takeWhile isBlank, fun _ inside => List.mem_takeWhile_imp inside,
    List.takeWhile_append_dropWhile.symm⟩

theorem skipBlanks_skipBlanks (cs : List Char) : skipBlanks (skipBlanks cs) = skipBlanks cs := by
  obtain ⟨blanks, blank, parts⟩ := exists_blanks cs
  conv_rhs => rw [parts, skipBlanks_append blank]

theorem readText_body {pieces : List Quoted.Piece} {body : List Char} (valid : Body pieces body)
    (rest : List Char) :
    readText (body ++ ['"'] ++ rest) = some ((Quoted.assemble pieces).map String.ofList, rest) := by
  rw [List.append_assoc, readText, List.singleton_append, Quoted.readPieces_append valid]
  rfl

theorem readText_append {content : Option String} (literal : Literal content ('"' :: cs))
    (rest : List Char) : readText (cs ++ rest) = some (content, rest) := by
  cases literal with
  | text body spells =>
    rw [readText_body body, Quoted.assemble_eq_some_iff.2 spells, Option.map_some,
      String.ofList_toList]
  | @broken pieces cs body spells =>
    have apart : Quoted.assemble pieces = none :=
      Option.eq_none_iff_forall_ne_some.2 fun content whole =>
        spells content (Quoted.assemble_eq_some_iff.1 whole)
    rw [readText_body body, apart, Option.map_none]

theorem readText_eq_some {content : Option String} (read : readText cs = some (content, rest)) :
    ∃ body, Literal content ('"' :: body) ∧ cs = body ++ rest := by
  obtain ⟨⟨pieces, left⟩, taken, made⟩ := Option.map_eq_some_iff.1 read
  cases made
  obtain ⟨body, valid, rfl⟩ := Quoted.readPieces_eq_some taken
  refine ⟨body ++ ['"'], ?_, by rw [List.append_assoc, List.singleton_append]⟩
  cases whole : Quoted.assemble pieces with
  | none =>
    refine .broken valid fun content spells => ?_
    rw [Quoted.assemble_eq_some_iff.2 spells] at whole
    cases whole
  | some content =>
    have spells := Quoted.assemble_eq_some_iff.1 whole
    exact .text valid (by rwa [String.toList_ofList])

theorem readKey_append {key : Option String} (name : Key key cs) (rest : List Char) :
    readKey (cs ++ ':' :: rest) = some (key, rest) := by
  obtain ⟨before, quoted, after⟩ := name
  obtain ⟨body, rfl⟩ := quoted.starts
  rw [List.append_assoc, List.append_assoc, readKey, skipBlanks_append before, List.cons_append,
    skipBlanks_cons (by decide)]
  simp only [readText_append quoted, skipBlanks_append after]
  rfl

theorem readKey_eq_some {key : Option String} (read : readKey cs = some (key, rest)) :
    ∃ body, Key key body ∧ cs = body ++ ':' :: rest := by
  obtain ⟨front, before, parts⟩ := exists_blanks cs
  unfold readKey at read
  split at read
  next tail opened =>
    split at read
    next key left taken =>
      obtain ⟨body, quoted, rfl⟩ := readText_eq_some taken
      obtain ⟨back, after, ended⟩ := exists_blanks left
      split at read
      next left closed =>
        cases read
        refine ⟨_, .mk before quoted after, ?_⟩
        rw [parts, opened, ended, closed]
        simp only [List.append_assoc, List.cons_append]
      next => cases read
    next => cases read
  next => cases read

theorem readKey_skipBlanks (cs : List Char) : readKey (skipBlanks cs) = readKey cs := by
  rw [readKey, readKey, skipBlanks_skipBlanks]

theorem readValue_skipBlanks (fuel : Nat) (cs : List Char) :
    readValue fuel (skipBlanks cs) = readValue fuel cs := by
  cases fuel with
  | zero => rfl
  | succ fuel => rw [readValue, readValue, skipBlanks_skipBlanks]

theorem readItems_skipBlanks (fuel : Nat) (cs : List Char) :
    readItems fuel (skipBlanks cs) = readItems fuel cs := by
  cases fuel with
  | zero => rfl
  | succ fuel => rw [readItems, readItems, readValue_skipBlanks]

theorem readMembers_skipBlanks (fuel : Nat) (cs : List Char) :
    readMembers fuel (skipBlanks cs) = readMembers fuel cs := by
  cases fuel with
  | zero => rfl
  | succ fuel => rw [readMembers, readMembers, readKey_skipBlanks]

theorem start_ne {c : Char} (starts : c = '-' ∨ Text.isAsciiDigit c = true) :
    isBlank c = false ∧ ∀ mark ∈ [']', 'n', 't', 'f', '"', '[', '\x7b'], c ≠ mark := by
  have none_ : ∀ mark ∈ [' ', '\n', '\t', '\r'] ++ [']', 'n', 't', 'f', '"', '[', '\x7b'],
      ¬ (mark = '-' ∨ Text.isAsciiDigit mark = true) := by
    simp [Text.isAsciiDigit]
  constructor
  · rw [Bool.eq_false_iff, ne_eq, isBlank_iff]
    exact fun blank => none_ c (List.mem_append_left _ blank) starts
  · rintro mark inside rfl
    exact none_ c (List.mem_append_right _ inside) starts

theorem readValue_number {fuel : Nat} {c : Char} (starts : c = '-' ∨ Text.isAsciiDigit c = true) :
    readValue (fuel + 1) (c :: cs) =
      (NumberForm.read (c :: cs)).map fun (form, rest) => (.number form, rest) := by
  obtain ⟨mark, apart⟩ := start_ne starts
  rw [readValue, skipBlanks_cons mark]
  split
  case h_7 => rfl
  all_goals
    next same => exact absurd (List.cons.inj same).1 (apart _ (by decide))

end Reading

theorem apart_of_blank {blanks rest : List Char} (blank : Blank blanks) (apart : Apart rest) :
    Apart (blanks ++ rest) := by
  cases blanks with
  | nil => exact apart
  | cons c blanks =>
    have none_ : ∀ c ∈ [' ', '\n', '\t', '\r'],
        Text.isAsciiDigit c = false ∧ c ≠ '.' ∧ c ≠ 'e' ∧ c ≠ 'E' := by
      simp [Text.isAsciiDigit]
    obtain ⟨digit, point, mark⟩ := none_ c (isBlank_iff.1 (blank c List.mem_cons_self))
    exact .cons digit point mark

theorem Value.starts {form : Form} {cs : List Char} (value : Value form cs) :
    ∃ c ds, cs = c :: ds ∧ isBlank c = false ∧ c ≠ ']' := by
  cases value with
  | null => exact ⟨'n', _, rfl, rfl, by decide⟩
  | yes => exact ⟨'t', _, rfl, rfl, by decide⟩
  | no => exact ⟨'f', _, rfl, rfl, by decide⟩
  | number numeral =>
    obtain ⟨c, ds, rfl, starts⟩ := numeral.starts
    obtain ⟨mark, apart⟩ := start_ne starts
    exact ⟨c, ds, rfl, mark, apart ']' (by decide)⟩
  | text literal =>
    obtain ⟨body, rfl⟩ := literal.starts
    exact ⟨'"', body, rfl, rfl, by decide⟩
  | noItems | array => exact ⟨'[', _, rfl, rfl, by decide⟩
  | noMembers | object => exact ⟨'\x7b', _, rfl, rfl, by decide⟩

-- A value costs one step and its place in a list another, and both of them take up a character. So the
-- induction is on the fuel, with the length of what is written as its measure.
structure Enough (fuel : Nat) : Prop where
  value : ∀ {form cs rest}, Value form cs → 2 * cs.length ≤ fuel → Apart rest →
    readValue fuel (cs ++ rest) = some (form, rest)
  items : ∀ {forms cs} (rest), Items forms cs → 2 * cs.length + 1 ≤ fuel →
    readItems fuel (cs ++ ']' :: rest) = some (forms, rest)
  members : ∀ {forms cs} (rest), Members forms cs → 2 * cs.length + 1 ≤ fuel →
    readMembers fuel (cs ++ '}' :: rest) = some (forms, rest)

section Enough

variable {fuel : Nat} {cs rest : List Char}

theorem Enough.element {form : Form} (enough : Enough fuel) (element : Element form cs)
    (bound : 2 * cs.length ≤ fuel) (apart : Apart rest) :
    ∃ back, Blank back ∧ readValue fuel (cs ++ rest) = some (form, back ++ rest) := by
  obtain ⟨before, written, after⟩ := element
  simp only [List.length_append] at bound
  refine ⟨_, after, ?_⟩
  rw [List.append_assoc, List.append_assoc, ← readValue_skipBlanks, skipBlanks_append before,
    readValue_skipBlanks]
  exact enough.value written (by omega) (apart_of_blank after apart)

theorem Enough.items_succ {forms : List Form} (enough : Enough fuel) (items : Items forms cs)
    (bound : 2 * cs.length + 1 ≤ fuel + 1) :
    readItems (fuel + 1) (cs ++ ']' :: rest) = some (forms, rest) := by
  cases items with
  | one element =>
    have apart : Apart (']' :: rest) := .cons (by decide) (by decide) (by decide)
    obtain ⟨back, after, read⟩ := enough.element element (by omega) apart
    rw [readItems, read]
    simp only [skipBlanks_append after]
    rfl
  | @more form forms cs ds element others =>
    simp only [List.length_append, List.length_cons] at bound
    have apart : Apart (',' :: (ds ++ ']' :: rest)) := .cons (by decide) (by decide) (by decide)
    obtain ⟨back, after, read⟩ := enough.element element (by omega) apart
    rw [List.append_assoc, List.cons_append, readItems, read]
    simp only [skipBlanks_append after, skipBlanks_cons (show isBlank ',' = false by decide),
      enough.items rest others (by omega), Option.map_some]

theorem Enough.members_succ {forms : List (Option String × Form)} (enough : Enough fuel)
    (members : Members forms cs) (bound : 2 * cs.length + 1 ≤ fuel + 1) :
    readMembers (fuel + 1) (cs ++ '}' :: rest) = some (forms, rest) := by
  cases members with
  | @one key form cs ds name element =>
    simp only [List.length_append, List.length_cons] at bound
    have apart : Apart ('}' :: rest) := .cons (by decide) (by decide) (by decide)
    obtain ⟨back, after, read⟩ := enough.element element (by omega) apart
    rw [List.append_assoc, List.cons_append, readMembers, readKey_append name]
    simp only [read, skipBlanks_append after]
    rfl
  | @more key form forms cs ds es name element others =>
    simp only [List.length_append, List.length_cons] at bound
    have apart : Apart (',' :: (es ++ '}' :: rest)) := .cons (by decide) (by decide) (by decide)
    obtain ⟨back, after, read⟩ := enough.element element (by omega) apart
    rw [List.append_assoc, List.cons_append, List.append_assoc, List.cons_append, readMembers,
      readKey_append name]
    simp only [read, skipBlanks_append after, skipBlanks_cons (show isBlank ',' = false by decide),
      enough.members rest others (by omega), Option.map_some]

theorem Element.starts {form : Form} (element : Element form cs) (rest : List Char) :
    ∃ c ds, skipBlanks (cs ++ rest) = c :: ds ∧ c ≠ ']' := by
  obtain ⟨before, written, after⟩ := element
  obtain ⟨c, ds, rfl, mark, open_⟩ := written.starts
  rw [List.append_assoc, List.append_assoc, skipBlanks_append before, List.cons_append,
    skipBlanks_cons mark]
  exact ⟨c, _, rfl, open_⟩

theorem Items.starts {forms : List Form} (items : Items forms cs) (rest : List Char) :
    ∃ c ds, skipBlanks (cs ++ rest) = c :: ds ∧ c ≠ ']' := by
  cases items with
  | one element => exact element.starts rest
  | more element others =>
    rw [List.append_assoc]
    exact element.starts _

theorem Key.starts {key : Option String} (name : Key key cs) (rest : List Char) :
    ∃ ds, skipBlanks (cs ++ rest) = '"' :: ds := by
  obtain ⟨before, quoted, after⟩ := name
  obtain ⟨body, rfl⟩ := quoted.starts
  rw [List.append_assoc, List.append_assoc, skipBlanks_append before, List.cons_append,
    skipBlanks_cons (by decide)]
  exact ⟨_, rfl⟩

theorem Members.starts {forms : List (Option String × Form)} (members : Members forms cs)
    (rest : List Char) : ∃ ds, skipBlanks (cs ++ rest) = '"' :: ds := by
  cases members with
  | one name _ =>
    rw [List.append_assoc]
    exact name.starts _
  | more name _ _ =>
    rw [List.append_assoc]
    exact name.starts _

theorem Enough.value_succ {form : Form} (enough : Enough fuel) (value : Value form cs)
    (bound : 2 * cs.length ≤ fuel + 1) (apart : Apart rest) :
    readValue (fuel + 1) (cs ++ rest) = some (form, rest) := by
  cases value with
  | null => rfl
  | yes => rfl
  | no => rfl
  | number numeral =>
    obtain ⟨c, ds, same, starts⟩ := numeral.starts
    have read := NumberForm.read_append numeral apart
    rw [same, List.cons_append] at read ⊢
    rw [readValue_number starts, read, Option.map_some]
  | text literal =>
    obtain ⟨body, rfl⟩ := literal.starts
    rw [List.cons_append, readValue, skipBlanks_cons (by decide)]
    simp only [readText_append literal, Option.map_some]
  | noItems blank =>
    rw [List.cons_append, List.append_assoc, readValue, skipBlanks_cons (by decide)]
    simp only [skipBlanks_append blank]
    rfl
  | @array forms cs items =>
    simp only [List.length_append, List.length_cons, List.length_nil] at bound
    have read := enough.items rest items (by omega)
    obtain ⟨c, ds, open_, mark⟩ := items.starts (']' :: rest)
    rw [← readItems_skipBlanks, open_] at read
    rw [List.cons_append, List.append_assoc, List.singleton_append, readValue,
      skipBlanks_cons (by decide)]
    simp only [open_]
    split
    next same => exact absurd (List.cons.inj same).1 mark
    next => rw [read, Option.map_some]
  | noMembers blank =>
    rw [List.cons_append, List.append_assoc, readValue, skipBlanks_cons (by decide)]
    simp only [skipBlanks_append blank]
    rfl
  | object members =>
    simp only [List.length_append, List.length_cons, List.length_nil] at bound
    have read := enough.members rest members (by omega)
    obtain ⟨ds, open_⟩ := members.starts ('}' :: rest)
    rw [← readMembers_skipBlanks, open_] at read
    rw [List.cons_append, List.append_assoc, List.singleton_append, readValue,
      skipBlanks_cons (by decide)]
    simp only [open_]
    split
    next same => exact absurd (List.cons.inj same).1 (by decide)
    next => rw [read, Option.map_some]

end Enough

theorem enough (fuel : Nat) : Enough fuel := by
  induction fuel with
  | zero =>
    refine ⟨fun {form cs rest} value bound _ => ?_, fun _ _ bound => ?_, fun _ _ bound => ?_⟩
    · obtain ⟨c, ds, rfl, -⟩ := value.starts
      simp at bound
    · omega
    · omega
  | succ fuel ih =>
    exact ⟨fun value => ih.value_succ value, fun _ items => ih.items_succ items,
      fun _ members => ih.members_succ members⟩

structure Sound (fuel : Nat) : Prop where
  value : ∀ {cs rest form}, readValue fuel cs = some (form, rest) →
    ∃ front body, Blank front ∧ Value form body ∧ cs = front ++ (body ++ rest)
  items : ∀ {cs rest forms}, readItems fuel cs = some (forms, rest) →
    ∃ body, Items forms body ∧ cs = body ++ ']' :: rest
  members : ∀ {cs rest forms}, readMembers fuel cs = some (forms, rest) →
    ∃ body, Members forms body ∧ cs = body ++ '}' :: rest

section Sound

variable {fuel : Nat} {cs rest : List Char}

theorem Sound.element {form : Form} (sound : Sound fuel)
    (read : readValue fuel cs = some (form, rest)) :
    ∃ body, Element form body ∧ cs = body ++ skipBlanks rest := by
  obtain ⟨front, body, before, value, parts⟩ := sound.value read
  obtain ⟨back, after, ended⟩ := exists_blanks rest
  refine ⟨_, .mk before value after, ?_⟩
  rw [parts, List.append_assoc, List.append_assoc, ← ended]

theorem Sound.items_succ {forms : List Form} (sound : Sound fuel)
    (read : readItems (fuel + 1) cs = some (forms, rest)) :
    ∃ body, Items forms body ∧ cs = body ++ ']' :: rest := by
  rw [readItems] at read
  split at read
  next => cases read
  next form left taken =>
    obtain ⟨body, element, parts⟩ := sound.element taken
    split at read
    next left comma =>
      obtain ⟨⟨forms, left⟩, later, made⟩ := Option.map_eq_some_iff.1 read
      cases made
      obtain ⟨others, items, rfl⟩ := sound.items later
      refine ⟨_, .more element items, ?_⟩
      rw [parts, comma, List.append_assoc, List.cons_append]
    next left closed =>
      cases read
      exact ⟨body, .one element, by rw [parts, closed]⟩
    next => cases read

theorem Sound.members_succ {forms : List (Option String × Form)} (sound : Sound fuel)
    (read : readMembers (fuel + 1) cs = some (forms, rest)) :
    ∃ body, Members forms body ∧ cs = body ++ '}' :: rest := by
  rw [readMembers] at read
  split at read
  next => cases read
  next key left named =>
    obtain ⟨front, name, rfl⟩ := readKey_eq_some named
    split at read
    next => cases read
    next form left taken =>
      obtain ⟨body, element, rfl⟩ := sound.element taken
      split at read
      next left comma =>
        obtain ⟨⟨forms, left⟩, later, made⟩ := Option.map_eq_some_iff.1 read
        cases made
        obtain ⟨others, members, rfl⟩ := sound.members later
        refine ⟨_, .more name element members, ?_⟩
        simp only [comma, List.append_assoc, List.cons_append]
      next left closed =>
        cases read
        refine ⟨_, .one name element, ?_⟩
        simp only [closed, List.append_assoc, List.cons_append]
      next => cases read

theorem Sound.value_succ {form : Form} (sound : Sound fuel)
    (read : readValue (fuel + 1) cs = some (form, rest)) :
    ∃ front body, Blank front ∧ Value form body ∧ cs = front ++ (body ++ rest) := by
  obtain ⟨front, before, parts⟩ := exists_blanks cs
  suffices found : ∃ body, Value form body ∧ skipBlanks cs = body ++ rest by
    obtain ⟨body, value, same⟩ := found
    exact ⟨front, body, before, value, same ▸ parts⟩
  rw [readValue] at read
  split at read
  next left word =>
    cases read
    exact ⟨_, .null, word⟩
  next left word =>
    cases read
    exact ⟨_, .yes, word⟩
  next left word =>
    cases read
    exact ⟨_, .no, word⟩
  next left opened =>
    obtain ⟨⟨content, left⟩, taken, made⟩ := Option.map_eq_some_iff.1 read
    cases made
    obtain ⟨body, literal, rfl⟩ := readText_eq_some taken
    exact ⟨_, .text literal, opened⟩
  next left opened =>
    obtain ⟨inner, blank, behind⟩ := exists_blanks left
    split at read
    next left closed =>
      cases read
      refine ⟨_, .noItems blank, ?_⟩
      rw [opened, behind, closed]
      simp
    next =>
      obtain ⟨⟨forms, left⟩, taken, made⟩ := Option.map_eq_some_iff.1 read
      cases made
      rw [readItems_skipBlanks] at taken
      obtain ⟨body, items, rfl⟩ := sound.items taken
      refine ⟨_, .array items, ?_⟩
      rw [opened]
      simp
  next left opened =>
    obtain ⟨inner, blank, behind⟩ := exists_blanks left
    split at read
    next left closed =>
      cases read
      refine ⟨_, .noMembers blank, ?_⟩
      rw [opened, behind, closed]
      simp
    next =>
      obtain ⟨⟨forms, left⟩, taken, made⟩ := Option.map_eq_some_iff.1 read
      cases made
      rw [readMembers_skipBlanks] at taken
      obtain ⟨body, members, rfl⟩ := sound.members taken
      refine ⟨_, .object members, ?_⟩
      rw [opened]
      simp
  next =>
    obtain ⟨⟨form, left⟩, taken, made⟩ := Option.map_eq_some_iff.1 read
    cases made
    obtain ⟨body, numeral, same⟩ := NumberForm.read_eq_some taken
    exact ⟨body, .number numeral, same⟩

end Sound

theorem sound (fuel : Nat) : Sound fuel := by
  induction fuel with
  | zero => exact ⟨nofun, nofun, nofun⟩
  | succ fuel ih =>
    exact ⟨fun read => ih.value_succ read, fun read => ih.items_succ read,
      fun read => ih.members_succ read⟩

theorem read_eq_some_iff {cs : List Char} {form : Form} :
    Form.read cs = some form ↔ Element form cs := by
  constructor
  · intro whole
    unfold Form.read at whole
    split at whole
    next form rest taken =>
      split at whole
      next ended =>
        cases whole
        obtain ⟨body, element, parts⟩ := (sound _).element taken
        rw [List.isEmpty_iff.1 ended, List.append_nil] at parts
        exact parts ▸ element
      next => cases whole
    next => cases whole
  · intro element
    have apart : Apart [] := ⟨nofun, by simp, by simp⟩
    obtain ⟨back, after, taken⟩ := (enough (2 * cs.length + 2)).element element (by omega) apart
    rw [List.append_nil, List.append_nil] at taken
    have ended : skipBlanks back = [] := List.dropWhile_eq_nil_iff.2 after
    rw [Form.read, taken]
    simp only [ended]
    rfl

def Writable (form : Form) : Prop := ∃ cs, Value form cs

theorem Writable.element {form : Form} (writable : Writable form) : ∃ cs, Element form cs := by
  obtain ⟨cs, value⟩ := writable
  exact ⟨_, .mk (List.forall_mem_nil _) value (List.forall_mem_nil _)⟩

theorem exists_key (key : String) : ∃ cs, Key (some key) cs := by
  obtain ⟨cs, quoted⟩ := Quoted.exists_literal key
  exact ⟨_, .mk (List.forall_mem_nil _) quoted (List.forall_mem_nil _)⟩

theorem writable_text (content : String) : Writable (.text (some content)) := by
  obtain ⟨cs, literal⟩ := Quoted.exists_literal content
  exact ⟨cs, .text literal⟩

theorem writable_decimal (n : Nat) : Writable (.number (.decimal n)) :=
  ⟨_, .number (NumberForm.numeral_decimal n)⟩

theorem exists_items {form : Form} {forms : List Form}
    (each : ∀ other ∈ form :: forms, Writable other) : ∃ cs, Items (form :: forms) cs := by
  obtain ⟨cs, element⟩ := (each form List.mem_cons_self).element
  induction forms generalizing form cs with
  | nil => exact ⟨cs, .one element⟩
  | cons next forms ih =>
    have later : ∀ other ∈ next :: forms, Writable other :=
      fun other inside => each other (List.mem_cons_of_mem form inside)
    obtain ⟨ds, beside⟩ := (later next List.mem_cons_self).element
    obtain ⟨es, rest⟩ := ih later ds beside
    exact ⟨_, .more element rest⟩

theorem writable_array {forms : List Form} (each : ∀ form ∈ forms, Writable form) :
    Writable (.array forms) := by
  cases forms with
  | nil => exact ⟨_, .noItems (List.forall_mem_nil _)⟩
  | cons form forms =>
    obtain ⟨cs, written⟩ := exists_items each
    exact ⟨_, .array written⟩

def named (members : List (String × Form)) : List (Option String × Form) :=
  members.map fun (key, form) => (some key, form)

theorem exists_members {member : String × Form} {members : List (String × Form)}
    (each : ∀ other ∈ member :: members, Writable other.2) :
    ∃ cs, Members (named (member :: members)) cs := by
  obtain ⟨cs, name⟩ := exists_key member.1
  obtain ⟨ds, element⟩ := (each member List.mem_cons_self).element
  induction members generalizing member cs ds with
  | nil => exact ⟨_, .one name element⟩
  | cons next members ih =>
    have later : ∀ other ∈ next :: members, Writable other.2 :=
      fun other inside => each other (List.mem_cons_of_mem member inside)
    obtain ⟨es, key⟩ := exists_key next.1
    obtain ⟨fs, beside⟩ := (later next List.mem_cons_self).element
    obtain ⟨gs, rest⟩ := ih later es key fs beside
    exact ⟨_, .more name element rest⟩

theorem writable_object {members : List (String × Form)}
    (each : ∀ member ∈ members, Writable member.2) : Writable (.object (named members)) := by
  cases members with
  | nil => exact ⟨_, .noMembers (List.forall_mem_nil _)⟩
  | cons member members =>
    obtain ⟨cs, written⟩ := exists_members each
    exact ⟨_, .object written⟩

end BuildGate.Json.Form
