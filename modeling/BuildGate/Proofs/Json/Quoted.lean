import BuildGate.Json.Quoted
import BuildGate.Proofs.Text.Utf8
import Mathlib.Tactic.IntervalCases

set_option autoImplicit false

namespace BuildGate.Json.Quoted

def HexDigit (value : Nat) (c : Char) : Prop :=
  "0123456789abcdef".toList[value]? = some c ∨ "0123456789ABCDEF".toList[value]? = some c

instance (value : Nat) (c : Char) : Decidable (HexDigit value c) := inferInstanceAs (Decidable (_ ∨ _))

inductive HexUnit : Nat → List Char → Prop
  | digits {p q r s : Nat} {a b c d : Char} (first : HexDigit p a) (second : HexDigit q b)
      (third : HexDigit r c) (fourth : HexDigit s d) :
      HexUnit (((p * 16 + q) * 16 + r) * 16 + s) [a, b, c, d]

def HighHalf (unit : Nat) : Prop := 0xD800 ≤ unit ∧ unit < 0xDC00

def LowHalf (unit : Nat) : Prop := 0xDC00 ≤ unit ∧ unit < 0xE000

def letters : List (Char × Char) :=
  [('"', '"'), ('\\', '\\'), ('/', '/'), ('b', '\x08'), ('f', '\x0c'), ('n', '\n'), ('r', '\r'),
    ('t', '\t')]

inductive Written : Piece → List Char → Prop
  | plain {c : Char} (quote : c ≠ '"') (backslash : c ≠ '\\') (printed : 0x20 ≤ c.toNat) :
      Written (.char c) [c]
  | letter {letter c : Char} (known : (letter, c) ∈ letters) : Written (.char c) ['\\', letter]
  | unit {c : Char} {digits : List Char} (hex : HexUnit c.toNat digits) :
      Written (.char c) ('\\' :: 'u' :: digits)
  | half {unit : Nat} {digits : List Char} (hex : HexUnit unit digits)
      (surrogate : HighHalf unit ∨ LowHalf unit) : Written (.half unit) ('\\' :: 'u' :: digits)

inductive Body : List Piece → List Char → Prop
  | nil : Body [] []
  | cons {piece : Piece} {pieces : List Piece} {cs ds : List Char} (first : Written piece cs)
      (rest : Body pieces ds) : Body (piece :: pieces) (cs ++ ds)

inductive Spells : List Piece → List Char → Prop
  | nil : Spells [] []
  | char {c : Char} {pieces : List Piece} {cs : List Char} (rest : Spells pieces cs) :
      Spells (.char c :: pieces) (c :: cs)
  | pair {high low : Nat} {c : Char} {pieces : List Piece} {cs : List Char} (first : HighHalf high)
      (second : LowHalf low)
      (value : c.toNat = 0x10000 + (high - 0xD800) * 0x400 + (low - 0xDC00))
      (rest : Spells pieces cs) : Spells (.half high :: .half low :: pieces) (c :: cs)

/-- How a string is written between its quotes. It has no content if a half stands alone in it. -/
inductive Literal : Option String → List Char → Prop
  | text {pieces : List Piece} {content : String} {cs : List Char} (body : Body pieces cs)
      (spells : Spells pieces content.toList) : Literal (some content) ('"' :: (cs ++ ['"']))
  | broken {pieces : List Piece} {cs : List Char} (body : Body pieces cs)
      (spells : ∀ content, ¬ Spells pieces content) : Literal none ('"' :: (cs ++ ['"']))

theorem Literal.starts {content : Option String} {cs : List Char} (literal : Literal content cs) :
    ∃ body, cs = '"' :: body := by
  cases literal <;> exact ⟨_, rfl⟩

theorem lt_of_hexDigit? {c : Char} {value : Nat} (read : Text.hexDigit? c = some value) :
    c.toNat < 103 := by
  have bounds : '9'.toNat = 57 ∧ 'f'.val.toNat = 102 ∧ 'F'.val.toNat = 70 := by decide
  have same : c.val.toNat = c.toNat := rfl
  simp only [Text.hexDigit?, Text.isAsciiDigit, Bool.and_eq_true, decide_eq_true_eq, Char.le_def,
    UInt32.le_iff_toNat_le] at read
  split_ifs at read <;> omega

theorem HexDigit.lt {value : Nat} {c : Char} (digit : HexDigit value c) : value < 16 := by
  rcases digit with lower | upper
  · exact (List.getElem?_eq_some_iff.1 lower).1
  · exact (List.getElem?_eq_some_iff.1 upper).1

theorem hexDigit?_eq_some_iff {c : Char} {value : Nat} :
    Text.hexDigit? c = some value ↔ HexDigit value c := by
  constructor
  · intro read
    have each : ∀ n < 103, ∀ value ∈ Text.hexDigit? (Char.ofNat n), HexDigit value (Char.ofNat n) := by
      decide
    have here := each c.toNat (lt_of_hexDigit? read)
    rw [Char.ofNat_toNat] at here
    exact here value read
  · intro digit
    have small := digit.lt
    interval_cases value <;> rcases digit with digit | digit <;> cases digit <;> rfl

theorem hexValue?_four {a b c d : Char} {unit : Nat} :
    Text.hexValue? [a, b, c, d] = some unit ↔ HexUnit unit [a, b, c, d] := by
  simp only [Text.hexValue?, Text.hexValueFrom, Option.bind_eq_some_iff, hexDigit?_eq_some_iff]
  constructor
  · rintro ⟨p, first, q, second, r, third, s, fourth, made⟩
    cases made
    rw [Nat.zero_mul, Nat.zero_add]
    exact .digits first second third fourth
  · rintro ⟨first, second, third, fourth⟩
    refine ⟨_, first, _, second, _, third, _, fourth, ?_⟩
    rw [Nat.zero_mul, Nat.zero_add]

theorem HexUnit.lt {unit : Nat} {digits : List Char} (hex : HexUnit unit digits) :
    unit < 0x10000 := by
  obtain ⟨first, second, third, fourth⟩ := hex
  have a := first.lt
  have b := second.lt
  have c := third.lt
  have d := fourth.lt
  omega

theorem isHighHalf_iff {unit : Nat} : isHighHalf unit = true ↔ HighHalf unit := by
  simp [isHighHalf, HighHalf]

theorem isLowHalf_iff {unit : Nat} : isLowHalf unit = true ↔ LowHalf unit := by
  simp [isLowHalf, LowHalf]

theorem written_ofUnit {unit : Nat} {digits : List Char} (hex : HexUnit unit digits) :
    Written (.ofUnit unit) ('\\' :: 'u' :: digits) := by
  unfold Piece.ofUnit
  split
  next surrogate =>
    rw [Bool.or_eq_true, isHighHalf_iff, isLowHalf_iff] at surrogate
    exact .half hex surrogate
  next scalar =>
    rw [Bool.or_eq_true, isHighHalf_iff, isLowHalf_iff] at scalar
    have value : (Char.ofNat unit).toNat = unit := by
      have bound := hex.lt
      unfold HighHalf LowHalf at scalar
      exact Text.val_ofNat (by omega)
    exact .unit (value.symm ▸ hex)

theorem ofUnit_half {unit : Nat} (surrogate : HighHalf unit ∨ LowHalf unit) :
    Piece.ofUnit unit = .half unit := by
  rw [← isHighHalf_iff, ← isLowHalf_iff, ← Bool.or_eq_true] at surrogate
  rw [Piece.ofUnit, if_pos surrogate]

theorem ofUnit_char (c : Char) : Piece.ofUnit c.toNat = .char c := by
  have scalar : ¬ (HighHalf c.toNat ∨ LowHalf c.toNat) := by
    have valid : c.toNat.isValidChar := c.valid
    unfold Nat.isValidChar at valid
    unfold HighHalf LowHalf
    omega
  rw [← isHighHalf_iff, ← isLowHalf_iff, ← Bool.or_eq_true] at scalar
  rw [Piece.ofUnit, if_neg scalar, Char.ofNat_toNat]

theorem mem_letters_iff {letter c : Char} : (letter, c) ∈ letters ↔ escaped? letter = some c := by
  constructor
  · intro known
    revert known
    simp only [letters, List.mem_cons, Prod.mk.injEq, List.not_mem_nil, or_false]
    rintro (⟨rfl, rfl⟩ | ⟨rfl, rfl⟩ | ⟨rfl, rfl⟩ | ⟨rfl, rfl⟩ | ⟨rfl, rfl⟩ | ⟨rfl, rfl⟩ |
      ⟨rfl, rfl⟩ | ⟨rfl, rfl⟩) <;> rfl
  · intro found
    unfold escaped? at found
    split at found <;> cases found <;> decide

theorem readPieces_unit {unit : Nat} {digits : List Char} (hex : HexUnit unit digits)
    (rest : List Char) :
    readPieces ('\\' :: 'u' :: digits ++ rest) =
      (readPieces rest).map fun (pieces, rest) => (.ofUnit unit :: pieces, rest) := by
  obtain ⟨first, second, third, fourth⟩ := id hex
  simp only [List.cons_append, List.nil_append, readPieces.eq_3, hexValue?_four.2 hex]
  cases readPieces rest <;> rfl

theorem readPieces_written {piece : Piece} {cs : List Char} (written : Written piece cs)
    (rest : List Char) :
    readPieces (cs ++ rest) = (readPieces rest).map fun (pieces, rest) => (piece :: pieces, rest) := by
  cases written with
  | plain quote backslash printed =>
    rw [List.cons_append, List.nil_append, readPieces.eq_5 _ _ (by simpa using quote)
      (fun _ _ _ _ _ same => absurd same backslash) (fun _ _ same => absurd same backslash),
      if_neg (by omega)]
  | @letter letter c known =>
    have found := mem_letters_iff.1 known
    have other : letter ≠ 'u' := by
      rintro rfl
      cases found
    rw [List.cons_append, List.cons_append, List.nil_append,
      readPieces.eq_4 _ _ (fun _ _ _ _ _ same => absurd same other), found]
    cases readPieces rest <;> rfl
  | unit hex => rw [readPieces_unit hex, ofUnit_char]
  | half hex surrogate => rw [readPieces_unit hex, ofUnit_half surrogate]

theorem readPieces_append {pieces : List Piece} {cs : List Char} (body : Body pieces cs)
    (rest : List Char) : readPieces (cs ++ '"' :: rest) = some (pieces, rest) := by
  induction body with
  | nil => rfl
  | cons first _ ih =>
    rw [List.append_assoc, readPieces_written first, ih]
    rfl

theorem readPieces_eq_some {pieces : List Piece} {cs rest : List Char}
    (read : readPieces cs = some (pieces, rest)) :
    ∃ body, Body pieces body ∧ cs = body ++ '"' :: rest := by
  have more {piece : Piece} {pieces : List Piece} {front back body : List Char}
      (first : Written piece front) (valid : Body pieces body) (parts : back = body ++ '"' :: rest) :
      ∃ body, Body (piece :: pieces) body ∧ front ++ back = body ++ '"' :: rest :=
    ⟨front ++ body, .cons first valid, by rw [parts, List.append_assoc]⟩
  fun_induction readPieces cs generalizing pieces with
  | case1 => cases read
  | case2 =>
    cases read
    exact ⟨[], .nil, rfl⟩
  | case3 a b c d tail unit pieces left later found ih =>
    cases read
    obtain ⟨body, valid, parts⟩ := ih later
    exact more (written_ofUnit (hexValue?_four.1 found)) valid parts
  | case4 => cases read
  | case5 letter tail _ c pieces left later found ih =>
    cases read
    obtain ⟨body, valid, parts⟩ := ih later
    exact more (.letter (mem_letters_iff.2 found)) valid parts
  | case6 => cases read
  | case7 => cases read
  | case8 c tail quote _ backslash printed ih =>
    obtain ⟨⟨pieces, left⟩, later, made⟩ := Option.map_eq_some_iff.1 read
    cases made
    obtain ⟨body, valid, parts⟩ := ih later
    refine more (.plain quote ?_ (by omega)) valid parts
    rintro rfl
    cases tail with
    | nil => cases later
    | cons d tail => exact backslash d tail rfl rfl

theorem paired_toNat {high low : Nat} (first : HighHalf high) (second : LowHalf low) :
    (paired high low).toNat = 0x10000 + (high - 0xD800) * 0x400 + (low - 0xDC00) := by
  unfold HighHalf at first
  unfold LowHalf at second
  exact Text.val_ofNat (by omega)

theorem assemble_eq_some_iff {pieces : List Piece} {cs : List Char} :
    assemble pieces = some cs ↔ Spells pieces cs := by
  constructor
  · intro assembled
    fun_induction assemble pieces generalizing cs with
    | case1 =>
      cases assembled
      exact .nil
    | case2 c pieces ih =>
      obtain ⟨rest, spelled, rfl⟩ := Option.map_eq_some_iff.1 assembled
      exact .char (ih spelled)
    | case3 high low pieces halves ih =>
      rw [Bool.and_eq_true, isHighHalf_iff, isLowHalf_iff] at halves
      obtain ⟨rest, spelled, rfl⟩ := Option.map_eq_some_iff.1 assembled
      exact .pair halves.1 halves.2 (paired_toNat halves.1 halves.2) (ih spelled)
    | case4 => cases assembled
    | case5 => cases assembled
  · intro spells
    induction spells with
    | nil => rfl
    | char _ ih => rw [assemble, ih, Option.map_some]
    | @pair high low c pieces cs first second value _ ih =>
      obtain rfl : paired high low = c := by
        rw [← Char.ofNat_toNat c, value, paired]
      have halves : (isHighHalf high && isLowHalf low) = true := by
        rw [Bool.and_eq_true, isHighHalf_iff, isLowHalf_iff]
        exact ⟨first, second⟩
      rw [assemble, if_pos halves, ih, Option.map_some]

theorem exists_hexUnit {unit : Nat} (bound : unit < 0x10000) : ∃ digits, HexUnit unit digits := by
  have digit {value : Nat} (small : value < 16) : ∃ c, HexDigit value c :=
    ⟨_, .inl (List.getElem?_eq_getElem small)⟩
  obtain ⟨a, first⟩ := digit (show unit / 4096 < 16 by omega)
  obtain ⟨b, second⟩ := digit (show unit / 256 % 16 < 16 by omega)
  obtain ⟨c, third⟩ := digit (show unit / 16 % 16 < 16 by omega)
  obtain ⟨d, fourth⟩ := digit (show unit % 16 < 16 by omega)
  have hex := HexUnit.digits first second third fourth
  have whole : ((unit / 4096 * 16 + unit / 256 % 16) * 16 + unit / 16 % 16) * 16 + unit % 16 =
      unit := by
    omega
  rw [whole] at hex
  exact ⟨_, hex⟩

theorem exists_written (c : Char) : ∃ cs, Written (.char c) cs := by
  by_cases quote : c = '"'
  · subst quote
    exact ⟨_, .letter (mem_letters_iff.2 (show escaped? '"' = some '"' from rfl))⟩
  by_cases backslash : c = '\\'
  · subst backslash
    exact ⟨_, .letter (mem_letters_iff.2 (show escaped? '\\' = some '\\' from rfl))⟩
  by_cases printed : 0x20 ≤ c.toNat
  · exact ⟨_, .plain quote backslash printed⟩
  · obtain ⟨digits, hex⟩ := exists_hexUnit (show c.toNat < 0x10000 by omega)
    exact ⟨_, .unit hex⟩

theorem exists_body (cs : List Char) :
    ∃ ds, Body (cs.map .char) ds ∧ Spells (cs.map .char) cs := by
  induction cs with
  | nil => exact ⟨[], .nil, .nil⟩
  | cons c cs ih =>
    obtain ⟨ds, body, spells⟩ := ih
    obtain ⟨es, written⟩ := exists_written c
    exact ⟨_, .cons written body, .char spells⟩

theorem exists_literal (content : String) : ∃ cs, Literal (some content) cs := by
  obtain ⟨ds, body, spells⟩ := exists_body content.toList
  exact ⟨_, .text body spells⟩

end BuildGate.Json.Quoted
