import BuildGate.Json.Number
import BuildGate.Proofs.Text.Digit

set_option autoImplicit false

namespace BuildGate.Json.NumberForm

open Text (isAsciiDigit Unled span_unled)

def Digits (cs : List Char) : Prop := cs ≠ [] ∧ ∀ c ∈ cs, isAsciiDigit c = true

inductive Whole : List Char → Prop
  | zero : Whole ['0']
  | digits {c : Char} {cs : List Char} (first : c ≠ '0') (valid : Digits (c :: cs)) : Whole (c :: cs)

inductive Fraction : Option (List Char) → List Char → Prop
  | absent : Fraction none []
  | present {digits : List Char} (valid : Digits digits) : Fraction (some digits) ('.' :: digits)

inductive Sign : Bool → List Char → Prop
  | absent : Sign false []
  | plus : Sign false ['+']
  | minus : Sign true ['-']

inductive Exponent : Option (Bool × List Char) → List Char → Prop
  | absent : Exponent none []
  | present {mark : Char} {negative : Bool} {sign digits : List Char}
      (marked : mark = 'e' ∨ mark = 'E') (signed : Sign negative sign) (valid : Digits digits) :
      Exponent (some (negative, digits)) (mark :: (sign ++ digits))

inductive Numeral : NumberForm → List Char → Prop
  | positive {whole fraction exponent : List Char} {fraction? : Option (List Char)}
      {exponent? : Option (Bool × List Char)} (wholes : Whole whole)
      (fractions : Fraction fraction? fraction) (exponents : Exponent exponent? exponent) :
      Numeral ⟨false, whole, fraction?, exponent?⟩ (whole ++ (fraction ++ exponent))
  | negative {whole fraction exponent : List Char} {fraction? : Option (List Char)}
      {exponent? : Option (Bool × List Char)} (wholes : Whole whole)
      (fractions : Fraction fraction? fraction) (exponents : Exponent exponent? exponent) :
      Numeral ⟨true, whole, fraction?, exponent?⟩ ('-' :: (whole ++ (fraction ++ exponent)))

structure Apart (rest : List Char) : Prop where
  digit : Unled isAsciiDigit rest
  point : rest.head? ≠ some '.'
  mark : rest.head? ≠ some 'e' ∧ rest.head? ≠ some 'E'

variable {cs rest : List Char}

theorem Apart.cons {c : Char} (digit : isAsciiDigit c = false) (point : c ≠ '.')
    (mark : c ≠ 'e' ∧ c ≠ 'E') : Apart (c :: rest) := by
  refine ⟨?_, by simpa using point, by simpa using mark⟩
  rintro d ⟨⟩
  exact digit

theorem Whole.valid {whole : List Char} (wholes : Whole whole) : Digits whole := by
  cases wholes with
  | zero => exact ⟨by simp, by simp [isAsciiDigit]⟩
  | digits first valid => exact valid

theorem isWhole_iff (valid : ∀ c ∈ cs, isAsciiDigit c = true) : isWhole cs = true ↔ Whole cs := by
  constructor
  · intro whole
    unfold isWhole at whole
    split at whole
    next => cases whole
    next => exact .zero
    next c cs _ => exact .digits (by simpa using whole) ⟨by simp, valid⟩
  · rintro (_ | ⟨first, -⟩)
    · rfl
    · unfold isWhole
      split <;> simp_all

theorem Digits.head?_ne {digits : List Char} {c : Char} (valid : Digits digits)
    (apart : isAsciiDigit c = false) (rest : List Char) : (digits ++ rest).head? ≠ some c := by
  obtain ⟨some_, ascii⟩ := valid
  cases digits with
  | nil => exact absurd rfl some_
  | cons d digits =>
    intro first
    obtain rfl : d = c := Option.some.inj first
    rw [ascii d List.mem_cons_self] at apart
    cases apart

theorem Numeral.starts {form : NumberForm} (numeral : Numeral form cs) :
    ∃ c ds, cs = c :: ds ∧ (c = '-' ∨ isAsciiDigit c = true) := by
  cases numeral with
  | @positive whole fraction exponent _ _ wholes _ _ =>
    obtain ⟨some_, ascii⟩ := wholes.valid
    obtain ⟨c, digits, rfl⟩ := List.exists_cons_of_ne_nil some_
    exact ⟨c, _, rfl, .inr (ascii c List.mem_cons_self)⟩
  | negative => exact ⟨'-', _, rfl, .inl rfl⟩

theorem readFraction_append {fraction? : Option (List Char)} {fraction : List Char}
    (fractions : Fraction fraction? fraction) (unled : Unled isAsciiDigit rest)
    (point : rest.head? ≠ some '.') :
    readFraction (fraction ++ rest) = some (fraction?, rest) := by
  cases fractions with
  | absent =>
    rw [List.nil_append]
    unfold readFraction
    split
    next => exact absurd rfl point
    next => rfl
  | @present digits valid =>
    obtain ⟨taken, left⟩ := span_unled valid.2 unled
    rw [List.cons_append]
    simp only [readFraction, taken, left, if_neg valid.1]

theorem readFraction_eq_some {fraction? : Option (List Char)}
    (read : readFraction cs = some (fraction?, rest)) :
    ∃ fraction, Fraction fraction? fraction ∧ cs = fraction ++ rest := by
  unfold readFraction at read
  split at read
  next cs =>
    dsimp only at read
    split at read
    next => cases read
    next some_ =>
      cases read
      refine ⟨_, .present ⟨some_, fun c inside => List.mem_takeWhile_imp inside⟩, ?_⟩
      rw [List.cons_append, List.takeWhile_append_dropWhile]
  next =>
    cases read
    exact ⟨[], .absent, rfl⟩

theorem readSign_append {negative : Bool} {sign digits : List Char} (signed : Sign negative sign)
    (valid : Digits digits) (rest : List Char) :
    readSign (sign ++ (digits ++ rest)) = (negative, digits ++ rest) := by
  cases signed with
  | absent =>
    have minus := valid.head?_ne (show isAsciiDigit '-' = false by decide) rest
    have plus := valid.head?_ne (show isAsciiDigit '+' = false by decide) rest
    rw [List.nil_append]
    unfold readSign
    split
    next whole => exact absurd (whole ▸ rfl) minus
    next whole => exact absurd (whole ▸ rfl) plus
    next => rfl
  | plus => rfl
  | minus => rfl

theorem exists_sign (cs : List Char) :
    ∃ sign, Sign (readSign cs).1 sign ∧ cs = sign ++ (readSign cs).2 := by
  unfold readSign
  split
  next cs => exact ⟨['-'], .minus, rfl⟩
  next cs => exact ⟨['+'], .plus, rfl⟩
  next => exact ⟨[], .absent, rfl⟩

theorem readExponent_append {exponent? : Option (Bool × List Char)} {exponent : List Char}
    (exponents : Exponent exponent? exponent) (unled : Unled isAsciiDigit rest)
    (mark : rest.head? ≠ some 'e' ∧ rest.head? ≠ some 'E') :
    readExponent (exponent ++ rest) = some (exponent?, rest) := by
  cases exponents with
  | absent =>
    rw [List.nil_append]
    unfold readExponent
    split
    next c rest =>
      rw [if_neg (by simpa using mark)]
    next => rfl
  | @present mark negative sign digits marked signed valid =>
    obtain ⟨taken, left⟩ := span_unled valid.2 unled
    rw [List.cons_append, List.append_assoc]
    simp only [readExponent, if_pos marked, readSign_append signed valid, taken, left,
      if_neg valid.1]

theorem readExponent_eq_some {exponent? : Option (Bool × List Char)}
    (read : readExponent cs = some (exponent?, rest)) :
    ∃ exponent, Exponent exponent? exponent ∧ cs = exponent ++ rest := by
  unfold readExponent at read
  split at read
  next c cs =>
    split at read
    next marked =>
      obtain ⟨sign, signed, whole⟩ := exists_sign cs
      dsimp only at read
      split at read
      next => cases read
      next some_ =>
        cases read
        refine ⟨_, .present marked signed ⟨some_, fun c inside => List.mem_takeWhile_imp inside⟩, ?_⟩
        rw [List.cons_append, List.append_assoc, List.takeWhile_append_dropWhile, ← whole]
    next =>
      cases read
      exact ⟨[], .absent, rfl⟩
  next =>
    cases read
    exact ⟨[], .absent, rfl⟩

theorem Exponent.unled {exponent? : Option (Bool × List Char)} {exponent : List Char}
    (exponents : Exponent exponent? exponent) (apart : Apart rest) :
    Unled isAsciiDigit (exponent ++ rest) ∧ (exponent ++ rest).head? ≠ some '.' := by
  cases exponents with
  | absent => exact ⟨apart.digit, apart.point⟩
  | present marked signed valid =>
    refine ⟨fun c first => ?_, ?_⟩
    · obtain rfl := Option.some.inj first
      rcases marked with rfl | rfl <;> decide
    · rcases marked with rfl | rfl <;> simp

theorem Fraction.unled {fraction? : Option (List Char)} {fraction : List Char}
    (fractions : Fraction fraction? fraction) (unled : Unled isAsciiDigit rest) :
    Unled isAsciiDigit (fraction ++ rest) := by
  cases fractions with
  | absent => exact unled
  | present valid =>
    intro c first
    obtain rfl := Option.some.inj first
    decide

theorem read_parts {whole fraction exponent : List Char} {fraction? : Option (List Char)}
    {exponent? : Option (Bool × List Char)} (wholes : Whole whole)
    (fractions : Fraction fraction? fraction) (exponents : Exponent exponent? exponent)
    (apart : Apart rest) :
    let cs := whole ++ (fraction ++ exponent) ++ rest
    cs.takeWhile isAsciiDigit = whole ∧
      readFraction (cs.dropWhile isAsciiDigit) = some (fraction?, exponent ++ rest) ∧
        readExponent (exponent ++ rest) = some (exponent?, rest) := by
  obtain ⟨digit, point⟩ := exponents.unled apart
  obtain ⟨taken, left⟩ := span_unled wholes.valid.2 (fractions.unled digit)
  rw [List.append_assoc, List.append_assoc]
  refine ⟨taken, ?_, readExponent_append exponents apart.digit apart.mark⟩
  rw [left]
  exact readFraction_append fractions digit point

theorem read_append {form : NumberForm} (numeral : Numeral form cs) (apart : Apart rest) :
    read (cs ++ rest) = some (form, rest) := by
  unfold read
  cases numeral with
  | @positive whole fraction exponent _ _ wholes fractions exponents =>
    obtain ⟨taken, fractionRead, exponentRead⟩ := read_parts wholes fractions exponents apart
    have unsigned := wholes.valid.head?_ne (show isAsciiDigit '-' = false by decide)
      (fraction ++ exponent ++ rest)
    rw [← List.append_assoc] at unsigned
    split
    rename_i negative cs sign
    split at sign
    next cs minus => exact absurd (minus ▸ rfl) unsigned
    next =>
      cases sign
      simp only [taken, (isWhole_iff wholes.valid.2).2 wholes, fractionRead, exponentRead]
      rfl
  | negative wholes fractions exponents =>
    obtain ⟨taken, fractionRead, exponentRead⟩ := read_parts wholes fractions exponents apart
    simp only [List.cons_append, taken, (isWhole_iff wholes.valid.2).2 wholes, fractionRead,
      exponentRead]
    rfl

theorem read_eq_some {form : NumberForm} (taken : read cs = some (form, rest)) :
    ∃ body, Numeral form body ∧ cs = body ++ rest := by
  unfold read at taken
  split at taken
  rename_i negative tail sign
  dsimp only at taken
  split at taken
  next whole =>
    have wholes := (isWhole_iff fun c inside => List.mem_takeWhile_imp inside).1 whole
    split at taken
    next => cases taken
    next fraction? left fractionRead =>
      obtain ⟨⟨exponent?, rest⟩, exponentRead, made⟩ := Option.map_eq_some_iff.1 taken
      cases made
      obtain ⟨fraction, fractions, behind⟩ := readFraction_eq_some fractionRead
      obtain ⟨exponent, exponents, rfl⟩ := readExponent_eq_some exponentRead
      have parts : tail = tail.takeWhile isAsciiDigit ++ (fraction ++ exponent) ++ rest := by
        rw [List.append_assoc, List.append_assoc, ← behind, List.takeWhile_append_dropWhile]
      split at sign
      next =>
        cases sign
        refine ⟨_, .negative wholes fractions exponents, ?_⟩
        rw [List.cons_append, ← parts]
      next =>
        cases sign
        exact ⟨_, .positive wholes fractions exponents, parts⟩
  next => cases taken

def decimal (n : Nat) : NumberForm := ⟨false, (toString n).toList, none, none⟩

theorem head?_toDigits {n : Nat} (positive : 0 < n) : (Nat.toDigits 10 n).head? ≠ some '0' := by
  induction n using Nat.strongRecOn with
  | ind n ih =>
    by_cases small : n < 10
    · have first : ∀ n < 10, 0 < n → n.digitChar ≠ '0' := by decide
      rw [Nat.toDigits_of_lt_base small]
      simpa using first n small positive
    · have before := ih (n / 10) (by omega) (by omega)
      rw [Nat.toDigits_of_base_le (by decide) (by omega),
        List.head?_append_of_ne_nil _ Nat.toDigits_ne_nil]
      exact before

theorem whole_toString (n : Nat) : Whole (toString n).toList := by
  have ascii := Text.ascii_toString n
  rw [Nat.toString_eq_repr, Nat.toList_repr] at ascii ⊢
  rcases Nat.eq_zero_or_pos n with rfl | positive
  · exact .zero
  · have first := head?_toDigits positive
    obtain ⟨c, cs, parts⟩ := List.exists_cons_of_ne_nil (Nat.toDigits_ne_nil (n := n) (b := 10))
    rw [parts] at ascii first ⊢
    exact .digits (by simpa using first) ⟨by simp, ascii⟩

theorem numeral_decimal (n : Nat) : Numeral (decimal n) (toString n).toList := by
  have numeral := Numeral.positive (whole_toString n) .absent .absent
  rwa [List.append_nil, List.append_nil] at numeral

end BuildGate.Json.NumberForm
