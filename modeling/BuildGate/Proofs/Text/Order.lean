import BuildGate.Proofs.Text.Utf8
import Mathlib.Data.String.Basic
import Mathlib.Tactic.SplitIfs

set_option autoImplicit false

namespace BuildGate.Text

theorem cons_ofNat_lt {m n : Nat} {s t : Bytes} (bound : n < 256) (le : m ≤ n)
    (rest : m = n → s < t) : UInt8.ofNat m :: s < UInt8.ofNat n :: t := by
  rw [List.cons_lt_cons_iff]
  rcases Nat.lt_or_eq_of_le le with less | same
  · left
    rwa [UInt8.lt_iff_toNat_lt, UInt8.toNat_ofNat_of_lt' (less.trans bound),
      UInt8.toNat_ofNat_of_lt' bound]
  · exact .inr ⟨congrArg UInt8.ofNat same, rest same⟩

theorem cons_ofNat_lt_of_lt {m n : Nat} {s t : Bytes} (bound : n < 256) (less : m < n) :
    UInt8.ofNat m :: s < UInt8.ofNat n :: t :=
  cons_ofNat_lt bound less.le fun same => absurd same less.ne

-- A shorter encoding has a lesser first byte, and encodings of one length list digits from the
-- highest on.
theorem encodeChar_lt {c d : Char} (less : c < d) (s t : Bytes) :
    String.utf8EncodeChar c ++ s < String.utf8EncodeChar d ++ t := by
  have below : c.val.toNat < d.val.toNat := less
  have valid : d.val.toNat < 0x110000 := by
    rcases d.valid with low | high <;> omega
  unfold String.utf8EncodeChar
  generalize c.val.toNat = m at below
  generalize d.val.toNat = n at below valid
  dsimp only
  split_ifs <;> try omega
  · exact cons_ofNat_lt_of_lt (by omega) (by omega)
  · exact cons_ofNat_lt_of_lt (by omega) (by omega)
  · exact cons_ofNat_lt_of_lt (by omega) (by omega)
  · exact cons_ofNat_lt_of_lt (by omega) (by omega)
  · exact cons_ofNat_lt (by omega) (by omega) fun first =>
      cons_ofNat_lt_of_lt (by omega) (by omega)
  · exact cons_ofNat_lt_of_lt (by omega) (by omega)
  · exact cons_ofNat_lt_of_lt (by omega) (by omega)
  · exact cons_ofNat_lt (by omega) (by omega) fun first =>
      cons_ofNat_lt (by omega) (by omega) fun middle =>
        cons_ofNat_lt_of_lt (by omega) (by omega)
  · exact cons_ofNat_lt_of_lt (by omega) (by omega)
  · exact cons_ofNat_lt (by omega) (by omega) fun first =>
      cons_ofNat_lt (by omega) (by omega) fun middle =>
        cons_ofNat_lt (by omega) (by omega) fun inner =>
          cons_ofNat_lt_of_lt (by omega) (by omega)

theorem encodeChars_lt {cs ds : List Char} (less : cs < ds) : encodeChars cs < encodeChars ds := by
  induction less with
  | nil =>
    rename_i d ds
    have some_ : String.utf8EncodeChar d ≠ [] := by
      unfold String.utf8EncodeChar
      dsimp only
      split_ifs <;> simp
    obtain ⟨first, rest, split⟩ := List.exists_cons_of_ne_nil some_
    rw [encodeChars_cons, split]
    exact List.nil_lt_cons _ _
  | rel less => exact encodeChar_lt less _ _
  | cons less ih =>
    rw [encodeChars_cons, encodeChars_cons]
    exact List.Lex.append_left _ ih _

theorem encode_lt_encode {a b : String} : encode a < encode b ↔ a < b := by
  constructor
  · intro less
    rcases lt_trichotomy a b with first | rfl | second
    · exact first
    · exact absurd less (List.lt_irrefl _)
    · exact absurd (encodeChars_lt second) (List.lt_asymm less)
  · exact encodeChars_lt

end BuildGate.Text
