import BuildGate.Finding.Kind

set_option autoImplicit false

namespace BuildGate

theorem Word.sum_of_lt {counts : List Nat} (bounded : counts.foldr (· + ·) 0 < size) :
    sum counts = counts.foldr (· + ·) 0 := by
  induction counts with
  | nil => rfl
  | cons count counts ih =>
    rw [List.foldr_cons] at bounded
    rw [sum_cons, ih (by omega), add_eq_of_lt bounded, List.foldr_cons]

namespace Totals

-- Unlike the total, this sum has no bound.
def sum (totals : Totals) : Nat :=
  totals.options + totals.global + totals.syntactic + totals.semantic + totals.lint

theorem total_of_lt {totals : Totals} (bounded : totals.sum < Word.size) :
    totals.total = totals.sum := by
  have counts : (Kind.all.map totals.get).foldr (· + ·) 0 = totals.sum := by
    simp [Kind.all, ByKind.get, sum, Nat.add_assoc]
  rw [total, Word.sum_of_lt (counts ▸ bounded), counts]

end Totals

end BuildGate
