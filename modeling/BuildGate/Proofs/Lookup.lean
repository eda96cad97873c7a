import Mathlib.Data.List.Basic

set_option autoImplicit false

namespace BuildGate

variable {ι α : Type} [BEq ι] [LawfulBEq ι] [DecidableEq ι]

theorem lookup_pair (key other : ι) (value : α) (members : List (ι × α)) :
    ((key, value) :: members).lookup other =
      if other = key then some value else members.lookup other := by
  by_cases same : other = key
  · simp [same]
  · simp [List.lookup_cons, beq_false_of_ne same, same]

theorem lookup_filter (keep : ι → Bool) (members : List (ι × α)) (other : ι) :
    (members.filter (keep ·.1)).lookup other = if keep other then members.lookup other else none := by
  induction members with
  | nil => simp
  | cons member members ih =>
    obtain ⟨name, held⟩ := member
    cases kept : keep name with
    | false =>
      rw [List.filter_cons_of_neg (by simp [kept]), ih, lookup_pair]
      by_cases same : other = name <;> simp [same, kept]
    | true =>
      rw [List.filter_cons_of_pos (by simpa using kept), lookup_pair, ih, lookup_pair]
      by_cases same : other = name <;> simp [same, kept]

theorem lookup_drop (key other : ι) (members : List (ι × α)) :
    (members.filter (·.1 ≠ key)).lookup other =
      if other = key then none else members.lookup other := by
  rw [lookup_filter fun name => decide (name ≠ key)]
  by_cases same : other = key <;> simp [same]

end BuildGate
