import BuildGate.Proofs.Compiler.Chain
import Mathlib.Data.List.TakeWhile

set_option autoImplicit false

namespace BuildGate.Message

open Compiler (Part nest nestAll splitDeeper)

def ranksAfter (rank : Nat) : List Part → List Nat
  | [] => []
  | part :: parts => min part.1 (rank + 1) :: ranksAfter (min part.1 (rank + 1)) parts

/-- The levels of parts: 1 for the first, and for each other one its depth, or one more than the level
before it if that is less. -/
def ranks : List Part → List Nat
  | [] => []
  | _ :: parts => 1 :: ranksAfter 1 parts

def Stepwise (parts : List Part) : Prop :=
  (0 :: parts.map (·.1)).IsChain fun depth next => next ≤ depth + 1

def rankedText (newline : String) (rank : Nat) (part : Part) : String :=
  newline ++ String.ofList (List.replicate (2 * rank) ' ') ++ part.2

@[simp] theorem length_ranksAfter (rank : Nat) (parts : List Part) :
    (ranksAfter rank parts).length = parts.length := by
  induction parts generalizing rank with
  | nil => rfl
  | cons part parts ih => simp [ranksAfter, ih]

@[simp] theorem length_ranks (parts : List Part) : (ranks parts).length = parts.length := by
  cases parts <;> simp [ranks]

theorem ranks_eq_ranksAfter {parts : List Part} (deep : ∀ part ∈ parts, 1 ≤ part.1) :
    ranks parts = ranksAfter 0 parts := by
  cases parts with
  | nil => rfl
  | cons part parts =>
    have one : min part.1 1 = 1 := Nat.min_eq_right (deep part List.mem_cons_self)
    rw [ranks, ranksAfter, Nat.zero_add, one]

theorem ranksAfter_stepwise {rank : Nat} {parts : List Part}
    (steps : (rank :: parts.map (·.1)).IsChain fun depth next => next ≤ depth + 1) :
    ranksAfter rank parts = parts.map (·.1) := by
  induction parts generalizing rank with
  | nil => rfl
  | cons part parts ih =>
    rw [List.map_cons, List.isChain_cons_cons] at steps
    rw [ranksAfter, Nat.min_eq_left steps.1, ih steps.2, List.map_cons]

theorem ranksAfter_append {depth rank : Nat} {inner outer : List Part}
    (deeper : ∀ part ∈ inner, depth + 1 < part.1)
    (back : ∀ part, outer.head? = some part → part.1 ≤ depth + 1) (below : depth < rank) :
    ranksAfter rank (inner ++ outer) = ranksAfter rank inner ++ ranksAfter depth outer := by
  induction inner generalizing rank with
  | nil =>
    cases outer with
    | nil => rfl
    | cons part outer =>
      have level := back part rfl
      have here : min part.1 (rank + 1) = min part.1 (depth + 1) := by omega
      simp only [List.nil_append, ranksAfter, here]
  | cons part inner ih =>
    rw [List.forall_mem_cons] at deeper
    have still : depth < min part.1 (rank + 1) := by omega
    rw [List.cons_append, ranksAfter, ih deeper.2 still, ranksAfter, List.cons_append]

def ranked (ranks : List Nat) (parts : List Part) : List Part :=
  List.zipWith (fun rank part => (rank, part.2)) ranks parts

theorem ranked_cons (rank : Nat) (ranks : List Nat) (part : Part) (parts : List Part) :
    ranked (rank :: ranks) (part :: parts) = (rank, part.2) :: ranked ranks parts := rfl

theorem ranked_append (ranks others : List Nat) {parts rest : List Part}
    (same : ranks.length = parts.length) :
    ranked (ranks ++ others) (parts ++ rest) = ranked ranks parts ++ ranked others rest :=
  List.zipWith_append same

theorem partsAt_assembled (depth : Nat) (text : String) (causes : List Message) :
    partsAt depth (if causes.isEmpty then plain text else chain text causes) =
      (depth, text) :: partsAll (depth + 1) causes := by
  cases causes <;> rfl

theorem splitDeeper_eq {depth : Nat} {parts own others : List Part}
    (split : splitDeeper depth parts = (own, others)) :
    parts = own ++ others ∧ (∀ part ∈ own, depth < part.1) ∧
      ∀ part, others.head? = some part → part.1 ≤ depth := by
  obtain ⟨rfl, rfl⟩ := Prod.mk.inj split
  refine ⟨List.takeWhile_append_dropWhile.symm, ?_, ?_⟩
  · intro part inside
    simpa using List.mem_takeWhile_imp inside
  · intro part first
    have stop := List.head?_dropWhile_not (fun part : Part => decide (depth < part.1)) parts
    simpa [first] using stop

theorem partsAll_nestAll {depth : Nat} {parts : List Part} (deep : ∀ part ∈ parts, depth < part.1) :
    partsAll (depth + 1) (nestAll depth parts) = ranked (ranksAfter depth parts) parts := by
  fun_induction nestAll depth parts with
  | case1 depth => rfl
  | case2 depth level text parts causes inner outer =>
    subst causes
    cases split : splitDeeper (depth + 1) parts with
    | mk own others =>
      obtain ⟨whole, deeper, back⟩ := splitDeeper_eq split
      rw [List.forall_mem_cons, whole, List.forall_mem_append] at deep
      have first : min level (depth + 1) = depth + 1 := Nat.min_eq_right deep.1
      simp only [split] at inner outer ⊢
      rw [partsAll, partsAt_assembled, inner deeper, outer deep.2.2, whole, ranksAfter, first,
        ranked_cons, ranksAfter_append deeper back (Nat.lt_succ_self depth),
        ranked_append _ _ (length_ranksAfter _ own), List.cons_append]

theorem text_nest (head : String) (parts : List Part) : (nest head parts).text = head := by
  unfold nest
  split <;> rfl

theorem causes_nest (head : String) (parts : List Part) :
    (nest head parts).causes = nestAll 0 parts := by
  unfold nest
  split
  next none_ => rw [none_, causes]
  next => rfl

/-- A message made of parts of any depths is flattened to its head and then each of the parts, in order,
on a line that its rank indents. Parts that are printed step by step keep the indents they have. -/
theorem flatten_nest (head newline : String) {parts : List Part}
    (deep : ∀ part ∈ parts, 1 ≤ part.1) :
    (nest head parts).flatten newline =
        head ++ String.join (List.zipWith (rankedText newline) (ranks parts) parts) ∧
      (ranks parts).length = parts.length ∧ (Stepwise parts → ranks parts = parts.map (·.1)) := by
  refine ⟨?_, length_ranks parts, ?_⟩
  · have below : (nest head parts).parts = ranked (ranks parts) parts := by
      rw [Message.parts, causes_nest, ranks_eq_ranksAfter deep, partsAll_nestAll deep]
    rw [flatten_eq, text_nest, below, ranked, List.map_zipWith]
    rfl
  · intro steps
    rw [ranks_eq_ranksAfter deep, ranksAfter_stepwise steps]

def raggedParts : List Part := [(3, "a"), (5, "b"), (2, "c"), (1, "d"), (4, "e")]

theorem ragged_parts_flattened :
    (∀ part ∈ raggedParts, 1 ≤ part.1) ∧ ranks raggedParts = [1, 2, 2, 1, 2] ∧
      (nest "h" raggedParts).flatten "\n" = "h\n  a\n    b\n    c\n  d\n    e" := by
  have deep : ∀ part ∈ raggedParts, 1 ≤ part.1 := by decide
  refine ⟨deep, by decide, ?_⟩
  rw [(flatten_nest "h" "\n" deep).1]
  decide

end BuildGate.Message
