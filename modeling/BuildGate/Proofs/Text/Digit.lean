import BuildGate.Text.Digit
import Mathlib.Data.List.Basic
import Mathlib.Data.List.TakeWhile

set_option autoImplicit false

namespace BuildGate.Text

def Unled (kind : Char → Bool) (cs : List Char) : Prop := ∀ c, cs.head? = some c → kind c = false

theorem span_unled {kind : Char → Bool} {cs rest : List Char} (all : ∀ c ∈ cs, kind c = true)
    (unled : Unled kind rest) :
    (cs ++ rest).takeWhile kind = cs ∧ (cs ++ rest).dropWhile kind = rest := by
  rw [List.takeWhile_append_of_pos all, List.dropWhile_append_of_pos all]
  cases rest with
  | nil => simp
  | cons c rest =>
    have stop := unled c rfl
    rw [List.takeWhile_cons_of_neg (by simp [stop]), List.dropWhile_cons_of_neg (by simp [stop])]
    simp

def Digits (cs : List Char) : Prop := cs ≠ [] ∧ ∀ c ∈ cs, isDigit c = true

theorem isAsciiDigit_iff (c : Char) : isAsciiDigit c = true ↔ c.isDigit = true := by
  simp [isAsciiDigit, Char.isDigit, UInt32.le_iff_toNat_le]

theorem isDigit_of_ascii {c : Char} (ascii : isAsciiDigit c = true) : isDigit c = true := by
  have first : 0x30 ∈ scriptZeros := by simp [scriptZeros]
  refine List.any_eq_true.2 ⟨0x30, first, ?_⟩
  simp only [isAsciiDigit, Bool.and_eq_true, decide_eq_true_eq] at ascii ⊢
  have zero : '0'.toNat = 0x30 := rfl
  have nine : '9'.toNat = 0x39 := rfl
  omega

-- Stated because the equations that Lean derives for the definition take too long to make.
theorem digitsValue_nil (acc : Nat) : digitsValue acc [] = acc := (rfl)

theorem digitsValue_cons (acc : Nat) (c : Char) (cs : List Char) :
    digitsValue acc (c :: cs) = digitsValue (acc * 10 + digitValue c) cs := (rfl)

theorem digitsValue_eq (acc : Nat) (cs : List Char) :
    digitsValue acc cs = Nat.ofDigitChars 10 cs acc := by
  induction cs generalizing acc with
  | nil => rw [digitsValue_nil, Nat.ofDigitChars_nil]
  | cons c cs ih => rw [digitsValue_cons, ih, Nat.ofDigitChars_cons, Nat.mul_comm, digitValue]

theorem ascii_toString (n : Nat) : ∀ c ∈ (toString n).toList, isAsciiDigit c = true := by
  intro c inside
  rw [Nat.toString_eq_repr, Nat.toList_repr] at inside
  exact (isAsciiDigit_iff c).2 (Nat.isDigit_of_mem_toDigits (by decide) (by decide) inside)

theorem toString_ne_nil (n : Nat) : (toString n).toList ≠ [] := by
  rw [Nat.toString_eq_repr, Nat.toList_repr]
  exact Nat.toDigits_ne_nil

theorem digits_toString (n : Nat) : Digits (toString n).toList :=
  ⟨toString_ne_nil n, fun c inside => isDigit_of_ascii (ascii_toString n c inside)⟩

theorem digitsValue_toString (n : Nat) : digitsValue 0 (toString n).toList = n := by
  rw [digitsValue_eq, Nat.toString_eq_repr, Nat.toList_repr, Nat.ofDigitChars_ten_toDigits]

theorem toString_inj {a b : Nat} (same : (toString a).toList = (toString b).toList) : a = b := by
  rw [← digitsValue_toString a, same, digitsValue_toString]

theorem readBelow_toString {limit n : Nat} (bounded : n < limit) :
    readBelow limit (toString n).toList = some n := by
  have ascii : (toString n).toList.all isAsciiDigit = true :=
    List.all_eq_true.2 (ascii_toString n)
  rw [readBelow, digitsValue_toString, if_pos ⟨toString_ne_nil n, ascii, bounded⟩]

end BuildGate.Text
