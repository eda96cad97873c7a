import BuildGate.Text.Utf8
import Mathlib.Data.List.Basic
import Mathlib.Tactic.SplitIfs

set_option autoImplicit false

namespace BuildGate.Text

theorem between_iff {low high a : UInt8} :
    (decide (low ≤ a) && decide (a ≤ high)) = true ↔
      low.toNat ≤ a.toNat ∧ a.toNat ≤ high.toNat := by
  rw [Bool.and_eq_true, decide_eq_true_eq, decide_eq_true_eq, UInt8.le_iff_toNat_le,
    UInt8.le_iff_toNat_le]

theorem isContinuation_iff {b : UInt8} :
    isContinuation b = true ↔ 0x80 ≤ b.toNat ∧ b.toNat ≤ 0xBF := between_iff

variable {a b c d : UInt8} {n : Nat}

theorem isSecondOfThree_iff : isSecondOfThree a b = true ↔ isContinuation b = true ∧
    (a.toNat = 0xE0 → 0xA0 ≤ b.toNat) ∧ (a.toNat = 0xED → b.toNat ≤ 0x9F) := by
  simp only [isSecondOfThree, Bool.and_eq_true, Bool.or_eq_true, bne_iff_ne, decide_eq_true_eq,
    ne_eq, ← UInt8.toNat_inj, UInt8.le_iff_toNat_le, ← Decidable.imp_iff_not_or, and_assoc]
  rfl

theorem isSecondOfFour_iff : isSecondOfFour a b = true ↔ isContinuation b = true ∧
    (a.toNat = 0xF0 → 0x90 ≤ b.toNat) ∧ (a.toNat = 0xF4 → b.toNat ≤ 0x8F) := by
  simp only [isSecondOfFour, Bool.and_eq_true, Bool.or_eq_true, bne_iff_ne, decide_eq_true_eq,
    ne_eq, ← UInt8.toNat_inj, UInt8.le_iff_toNat_le, ← Decidable.imp_iff_not_or, and_assoc]
  rfl

theorem leadsOne_iff : a ≤ 0x7F ↔ a.toNat ≤ 0x7F := UInt8.le_iff_toNat_le

theorem leadsTwo_iff :
    (decide (0xC2 ≤ a) && decide (a ≤ 0xDF)) = true ↔ 0xC2 ≤ a.toNat ∧ a.toNat ≤ 0xDF :=
  between_iff

theorem leadsThree_iff :
    (decide (0xE0 ≤ a) && decide (a ≤ 0xEF)) = true ↔ 0xE0 ≤ a.toNat ∧ a.toNat ≤ 0xEF :=
  between_iff

theorem leadsFour_iff :
    (decide (0xF0 ≤ a) && decide (a ≤ 0xF4)) = true ↔ 0xF0 ≤ a.toNat ∧ a.toNat ≤ 0xF4 :=
  between_iff

theorem decode_one (first : a.toNat = n) (small : n ≤ 0x7F) (rest : Bytes) :
    decode (a :: rest) = some (Char.ofNat n) :: decode rest := by
  have one : a ≤ 0x7F := leadsOne_iff.2 (by omega)
  rw [decode.eq_def]
  simp only [one, if_true, first]

theorem decode_two (first : a.toNat = n / 64 % 32 + 192) (second : b.toNat = n % 64 + 128)
    (wide : 0x7F < n) (small : n ≤ 0x7FF) (rest : Bytes) :
    decode (a :: b :: rest) = some (Char.ofNat n) :: decode rest := by
  have one : ¬ a ≤ 0x7F := by
    rw [leadsOne_iff]
    omega
  have two : (decide (0xC2 ≤ a) && decide (a ≤ 0xDF)) = true := leadsTwo_iff.2 (by omega)
  have continued : isContinuation b = true := isContinuation_iff.2 (by omega)
  have value : a.toNat % 32 * 64 + payload b = n := by
    rw [payload]
    omega
  rw [decode.eq_def]
  simp only [one, two, if_false, if_true, continued, value]

theorem decode_three (first : a.toNat = n / 4096 % 16 + 224) (second : b.toNat = n / 64 % 64 + 128)
    (third : c.toNat = n % 64 + 128) (wide : 0x7FF < n) (small : n ≤ 0xFFFF)
    (valid : n < 0xD800 ∨ 0xDFFF < n) (rest : Bytes) :
    decode (a :: b :: c :: rest) = some (Char.ofNat n) :: decode rest := by
  have one : ¬ a ≤ 0x7F := by
    rw [leadsOne_iff]
    omega
  have two : ¬ (decide (0xC2 ≤ a) && decide (a ≤ 0xDF)) = true := by
    rw [leadsTwo_iff]
    omega
  have three : (decide (0xE0 ≤ a) && decide (a ≤ 0xEF)) = true := leadsThree_iff.2 (by omega)
  have continued : isSecondOfThree a b = true :=
    isSecondOfThree_iff.2 ⟨isContinuation_iff.2 (by omega), by omega, by omega⟩
  have ended : isContinuation c = true := isContinuation_iff.2 (by omega)
  have value : (a.toNat % 16 * 64 + payload b) * 64 + payload c = n := by
    rw [payload, payload]
    omega
  rw [decode.eq_def]
  simp only [one, two, three, Bool.false_eq_true, if_false, if_true, continued, ended, value]

theorem decode_four (first : a.toNat = n / 262144 % 8 + 240)
    (second : b.toNat = n / 4096 % 64 + 128) (third : c.toNat = n / 64 % 64 + 128)
    (fourth : d.toNat = n % 64 + 128) (wide : 0xFFFF < n) (small : n < 0x110000) (rest : Bytes) :
    decode (a :: b :: c :: d :: rest) = some (Char.ofNat n) :: decode rest := by
  have one : ¬ a ≤ 0x7F := by
    rw [leadsOne_iff]
    omega
  have two : ¬ (decide (0xC2 ≤ a) && decide (a ≤ 0xDF)) = true := by
    rw [leadsTwo_iff]
    omega
  have three : ¬ (decide (0xE0 ≤ a) && decide (a ≤ 0xEF)) = true := by
    rw [leadsThree_iff]
    omega
  have four : (decide (0xF0 ≤ a) && decide (a ≤ 0xF4)) = true := leadsFour_iff.2 (by omega)
  have continued : isSecondOfFour a b = true :=
    isSecondOfFour_iff.2 ⟨isContinuation_iff.2 (by omega), by omega, by omega⟩
  have again : isContinuation c = true := isContinuation_iff.2 (by omega)
  have ended : isContinuation d = true := isContinuation_iff.2 (by omega)
  have value : ((a.toNat % 8 * 64 + payload b) * 64 + payload c) * 64 + payload d = n := by
    rw [payload, payload, payload]
    omega
  rw [decode.eq_def]
  simp only [one, two, three, four, Bool.false_eq_true, if_false, if_true, continued, again, ended,
    value]

theorem decode_char (character : Char) (rest : Bytes) :
    decode (String.utf8EncodeChar character ++ rest) = some character :: decode rest := by
  have valid : character.val.toNat < 0xD800 ∨
      0xDFFF < character.val.toNat ∧ character.val.toNat < 0x110000 := character.valid
  have same : Char.ofNat character.val.toNat = character := Char.ofNat_toNat character
  have byte {m : Nat} (small : m < 256) : (UInt8.ofNat m).toNat = m := by
    rw [UInt8.toNat_ofNat']
    omega
  unfold String.utf8EncodeChar
  dsimp only
  split_ifs with one two three
  · have decoded := decode_one (byte (by omega)) one rest
    rw [same] at decoded
    exact decoded
  · have decoded := decode_two (byte (by omega)) (byte (by omega)) (by omega) two rest
    rw [same] at decoded
    exact decoded
  · have decoded := decode_three (byte (by omega)) (byte (by omega)) (byte (by omega)) (by omega)
      three (by omega) rest
    rw [same] at decoded
    exact decoded
  · have wide : 0xFFFF < character.val.toNat := by omega
    have decoded := decode_four (byte (by omega)) (byte (by omega)) (byte (by omega))
      (byte (by omega)) wide (by omega) rest
    rw [same] at decoded
    exact decoded

theorem encodeChars_cons (character : Char) (cs : List Char) :
    encodeChars (character :: cs) = String.utf8EncodeChar character ++ encodeChars cs :=
  List.flatMap_cons

theorem decode_encodeChars (cs : List Char) : decode (encodeChars cs) = cs.map some := by
  induction cs with
  | nil => rw [encodeChars, List.flatMap_nil, decode.eq_def, List.map_nil]
  | cons c cs ih =>
    rw [encodeChars_cons, decode_char, ih, List.map_cons]

theorem decodeLossy_encode (text : String) : decodeLossy (encode text) = text := by
  have all (cs : List Char) : (cs.map some).map (·.getD '\ufffd') = cs := by
    simp [Function.comp_def]
  rw [decodeLossy, encode, decode_encodeChars, all, String.ofList_toList]

theorem val_ofNat {n : Nat} (valid : n < 0xD800 ∨ 0xDFFF < n ∧ n < 0x110000) :
    (Char.ofNat n).val.toNat = n := by
  have value : n.isValidChar := valid
  rw [Char.ofNat, dif_pos value]
  change (UInt32.ofNatLT n _).toNat = n
  exact UInt32.toNat_ofNatLT

theorem encodeChar_one (one : a ≤ 0x7F) : String.utf8EncodeChar (Char.ofNat a.toNat) = [a] := by
  have small := leadsOne_iff.1 one
  have value : (Char.ofNat a.toNat).val.toNat = a.toNat := val_ofNat (by omega)
  simp only [String.utf8EncodeChar, value, small, if_true, UInt8.ofNat_toNat]

theorem encodeChar_two (two : (decide (0xC2 ≤ a) && decide (a ≤ 0xDF)) = true)
    (continued : isContinuation b = true) :
    String.utf8EncodeChar (Char.ofNat (a.toNat % 32 * 64 + payload b)) = [a, b] := by
  have leads := leadsTwo_iff.1 two
  have second := isContinuation_iff.1 continued
  obtain ⟨n, same⟩ : ∃ n, n = a.toNat % 32 * 64 + payload b := ⟨_, rfl⟩
  rw [← same]
  rw [payload] at same
  have value : (Char.ofNat n).val.toNat = n := val_ofNat (by omega)
  have first : n / 64 % 32 + 192 = a.toNat := by omega
  have last : n % 64 + 128 = b.toNat := by omega
  have wide : ¬ n ≤ 0x7F := by omega
  have small : n ≤ 0x7FF := by omega
  simp only [String.utf8EncodeChar, value, wide, small, if_true, if_false, first, last,
    UInt8.ofNat_toNat]

theorem encodeChar_three (three : (decide (0xE0 ≤ a) && decide (a ≤ 0xEF)) = true)
    (continued : isSecondOfThree a b = true) (ended : isContinuation c = true) :
    String.utf8EncodeChar (Char.ofNat ((a.toNat % 16 * 64 + payload b) * 64 + payload c)) =
      [a, b, c] := by
  have leads := leadsThree_iff.1 three
  obtain ⟨continues, low, high⟩ := isSecondOfThree_iff.1 continued
  have second := isContinuation_iff.1 continues
  have third := isContinuation_iff.1 ended
  obtain ⟨n, same⟩ : ∃ n, n = (a.toNat % 16 * 64 + payload b) * 64 + payload c := ⟨_, rfl⟩
  rw [← same]
  rw [payload, payload] at same
  have value : (Char.ofNat n).val.toNat = n := val_ofNat (by omega)
  have first : n / 4096 % 16 + 224 = a.toNat := by omega
  have middle : n / 64 % 64 + 128 = b.toNat := by omega
  have last : n % 64 + 128 = c.toNat := by omega
  have one : ¬ n ≤ 0x7F := by omega
  have wide : ¬ n ≤ 0x7FF := by omega
  have small : n ≤ 0xFFFF := by omega
  simp only [String.utf8EncodeChar, value, one, wide, small, if_true, if_false, first, middle, last,
    UInt8.ofNat_toNat]

theorem encodeChar_four (four : (decide (0xF0 ≤ a) && decide (a ≤ 0xF4)) = true)
    (continued : isSecondOfFour a b = true) (again : isContinuation c = true)
    (ended : isContinuation d = true) :
    String.utf8EncodeChar
        (Char.ofNat (((a.toNat % 8 * 64 + payload b) * 64 + payload c) * 64 + payload d)) =
      [a, b, c, d] := by
  have leads := leadsFour_iff.1 four
  obtain ⟨continues, low, high⟩ := isSecondOfFour_iff.1 continued
  have second := isContinuation_iff.1 continues
  have third := isContinuation_iff.1 again
  have fourth := isContinuation_iff.1 ended
  obtain ⟨n, same⟩ : ∃ n,
    n = ((a.toNat % 8 * 64 + payload b) * 64 + payload c) * 64 + payload d := ⟨_, rfl⟩
  rw [← same]
  rw [payload, payload, payload] at same
  have value : (Char.ofNat n).val.toNat = n := val_ofNat (by omega)
  have first : n / 262144 % 8 + 240 = a.toNat := by omega
  have middle : n / 4096 % 64 + 128 = b.toNat := by omega
  have inner : n / 64 % 64 + 128 = c.toNat := by omega
  have last : n % 64 + 128 = d.toNat := by omega
  have one : ¬ n ≤ 0x7F := by omega
  have two : ¬ n ≤ 0x7FF := by omega
  have wide : ¬ n ≤ 0xFFFF := by omega
  simp only [String.utf8EncodeChar, value, one, two, wide, if_false, first, middle, inner, last,
    UInt8.ofNat_toNat]

theorem encodeChars_of_decode {bytes : Bytes} {cs : List Char}
    (decoded : decode bytes = cs.map some) : encodeChars cs = bytes := by
  have split {character : Char} {others : List (Option Char)} {cs : List Char}
      (whole : some character :: others = cs.map some) :
      ∃ rest, cs = character :: rest ∧ others = rest.map some := by
    obtain ⟨first, rest, rfl, same, others⟩ := List.map_eq_cons_iff.1 whole.symm
    exact ⟨rest, by rw [Option.some.inj same], others.symm⟩
  fun_induction decode bytes generalizing cs with
  | case1 =>
    obtain rfl : cs = [] := List.map_eq_nil_iff.1 decoded.symm
    rfl
  | case2 a rest one ih =>
    obtain ⟨cs, rfl, others⟩ := split decoded
    rw [encodeChars_cons, encodeChar_one one, ih others, List.singleton_append]
  | case3 a one two b rest continued ih =>
    obtain ⟨cs, rfl, others⟩ := split decoded
    rw [encodeChars_cons, encodeChar_two two continued, ih others, List.cons_append,
      List.singleton_append]
  | case6 a one two three b continued c rest ended ih =>
    obtain ⟨cs, rfl, others⟩ := split decoded
    rw [encodeChars_cons, encodeChar_three three continued ended, ih others]
    rfl
  | case11 a one two three four b continued c again d rest ended ih =>
    obtain ⟨cs, rfl, others⟩ := split decoded
    rw [encodeChars_cons, encodeChar_four four continued again ended, ih others]
    rfl
  | _ => cases cs <;> simp at decoded

theorem mapM_id_eq_some_iff {α : Type} {items : List (Option α)} {values : List α} :
    items.mapM id = some values ↔ items = values.map some := by
  induction items generalizing values with
  | nil => cases values <;> simp
  | cons item items ih =>
    rw [List.mapM_cons, Option.bind_eq_bind, Option.bind_eq_some_iff]
    simp only [Option.bind_eq_bind, Option.bind_eq_some_iff, Option.pure_def, Option.some.injEq, ih,
      id]
    constructor
    · rintro ⟨first, rfl, rest, rfl, rfl⟩
      rfl
    · intro whole
      obtain ⟨first, rest, rfl, rfl, rfl⟩ := List.map_eq_cons_iff.1 whole.symm
      exact ⟨first, rfl, rest, rfl, rfl⟩

theorem decode?_eq_some_iff {bytes : Bytes} {text : String} :
    decode? bytes = some text ↔ encode text = bytes := by
  rw [decode?, Option.map_eq_some_iff]
  constructor
  · rintro ⟨cs, whole, rfl⟩
    rw [encode, String.toList_ofList]
    exact encodeChars_of_decode (mapM_id_eq_some_iff.1 whole)
  · rintro rfl
    exact ⟨text.toList, mapM_id_eq_some_iff.2 (decode_encodeChars _), String.ofList_toList⟩

theorem decode?_encode (text : String) : decode? (encode text) = some text :=
  decode?_eq_some_iff.2 rfl

def IsUtf8 (bytes : Bytes) : Prop := ∃ text, encode text = bytes

theorem isUtf8_iff {bytes : Bytes} : IsUtf8 bytes ↔ (decode? bytes).isSome = true := by
  simp only [IsUtf8, ← decode?_eq_some_iff, Option.isSome_iff_exists]

instance (bytes : Bytes) : Decidable (IsUtf8 bytes) := decidable_of_iff' _ isUtf8_iff

-- Only the encoding of a small character ends in a small byte.
theorem encodeChar_of_getLast? {character : Char} {last : UInt8} (small : last ≤ 0x7F)
    (ends : (String.utf8EncodeChar character).getLast? = some last) :
    String.utf8EncodeChar character = [last] := by
  have high (n : Nat) : ¬ UInt8.ofNat (n % 64 + 128) ≤ 0x7F := by
    rw [leadsOne_iff, UInt8.toNat_ofNat']
    omega
  unfold String.utf8EncodeChar at ends ⊢
  dsimp only at ends ⊢
  split_ifs at ends ⊢
  · rw [List.getLast?_singleton] at ends
    rw [Option.some.inj ends]
  all_goals
    simp only [List.getLast?_cons_cons, List.getLast?_singleton, Option.some.injEq] at ends
    exact absurd (ends ▸ small) (high _)

theorem isUtf8_append_return {bytes : Bytes} : IsUtf8 (bytes ++ [13]) ↔ IsUtf8 bytes := by
  constructor
  · rintro ⟨text, encoded⟩
    obtain empty | ⟨front, character, split⟩ := text.toList.eq_nil_or_concat
    · rw [encode, empty] at encoded
      simp [encodeChars] at encoded
    · rw [encode, split, List.concat_eq_append, encodeChars, List.flatMap_append,
        List.flatMap_singleton, ← encodeChars] at encoded
      have some_ : String.utf8EncodeChar character ≠ [] := by
        unfold String.utf8EncodeChar
        dsimp only
        split_ifs <;> simp
      have ends : (String.utf8EncodeChar character).getLast? = some 13 := by
        rw [← List.getLast?_append_of_ne_nil (encodeChars front) some_, encoded,
          List.getLast?_concat]
      rw [encodeChar_of_getLast? (by decide) ends] at encoded
      exact ⟨String.ofList front, by
        rw [encode, String.toList_ofList]
        exact List.append_cancel_right encoded⟩
  · rintro ⟨text, rfl⟩
    refine ⟨text ++ "\r", ?_⟩
    rw [encode, String.toList_append, encodeChars, List.flatMap_append]
    rfl

end BuildGate.Text
