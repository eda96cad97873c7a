import BuildGate.Proofs.Disk.Steps
import BuildGate.Proofs.Text.Lines

set_option autoImplicit false

namespace BuildGate.Path

variable {path : Path} {first : String} {rest : List String}

theorem flat_of_mem_pieces {piece : String} (member : piece ∈ path.pieces) :
    '/' ∉ piece.toList := by
  obtain ⟨inside, held, rfl⟩ := List.mem_map.1 member
  rw [String.toList_ofList]
  exact Text.separator_notMem_splitOn held

theorem pieces_intercalate (flat : ∀ piece ∈ first :: rest, '/' ∉ piece.toList) :
    (⟨"/".intercalate (first :: rest)⟩ : Path).pieces = first :: rest := by
  have slash : "/".toList = ['/'] := by decide
  have split : (['/'].intercalate ((first :: rest).map String.toList)).splitOn '/' =
      (first :: rest).map String.toList :=
    List.splitOn_intercalate '/' (by simpa using flat) (by simp)
  rw [pieces, String.toList_intercalate, slash, split, List.map_map]
  exact List.map_id'' (fun _ => String.ofList_toList) _

theorem isAbsolute_iff_head? (some_ : path.text ≠ "") :
    path.isAbsolute = true ↔ path.pieces.head? = some "" := by
  obtain ⟨text⟩ := path
  cases chars : text.toList with
  | nil => exact absurd (by simpa using chars) some_
  | cons c cs =>
    have present := List.splitOn_ne_nil '/' cs
    rw [isAbsolute, pieces, chars, List.splitOn_cons_eq_if_modifyHead]
    by_cases slash : c = '/'
    · simp [slash]
    · obtain ⟨piece, more, split⟩ := List.exists_cons_of_ne_nil present
      simp [slash, split, String.ext_iff]

theorem stepsOf_singleton (piece : String) :
    stepsOf [piece] = if isIdle piece then [] else [piece] := by
  cases idle : isIdle piece with
  | true => rw [stepsOf_cons_idle idle, if_pos rfl, stepsOf_nil]
  | false => rw [stepsOf_cons idle, if_neg Bool.false_ne_true, stepsOf_nil]

theorem stepsOf_cons_eq (first : String) (rest : List String) :
    stepsOf (first :: rest) = stepsOf [first] ++ stepsOf rest :=
  stepsOf_append [first] rest

theorem steps_of_pieces (split : path.pieces = first :: rest) :
    path.steps = stepsOf [first] ++ stepsOf rest := by
  rw [steps, split, stepsOf_cons_eq]

theorem pieces_ofPieces (flat : ∀ piece ∈ first :: rest, '/' ∉ piece.toList) :
    (ofPieces first rest).pieces =
      if first = "" ∧ rest = [] then ["", ""] else first :: rest := by
  rw [ofPieces]
  split_ifs
  · decide
  · exact pieces_intercalate flat

theorem head?_ofPieces (flat : ∀ piece ∈ first :: rest, '/' ∉ piece.toList) :
    (ofPieces first rest).pieces.head? = some first := by
  rw [pieces_ofPieces flat]
  split_ifs with root
  · rw [root.1]
    rfl
  · rfl

theorem steps_ofPieces (flat : ∀ piece ∈ first :: rest, '/' ∉ piece.toList) :
    (ofPieces first rest).steps = stepsOf (first :: rest) := by
  rw [steps, pieces_ofPieces flat]
  split_ifs with root
  · rw [root.1, root.2]
    decide
  · rfl

theorem ofPieces_text_ne_empty (flat : ∀ piece ∈ first :: rest, '/' ∉ piece.toList) :
    (ofPieces first rest).text ≠ "" := by
  intro empty
  have alone : (ofPieces first rest).pieces = [""] := by
    rw [pieces, empty]
    decide
  rw [pieces_ofPieces flat] at alone
  split_ifs at alone with root
  · exact absurd alone (by decide)
  · obtain ⟨rfl, rfl⟩ := List.cons.inj alone
    exact root ⟨rfl, rfl⟩

theorem dropIdleEnd_cases (pieces : List String) :
    (dropIdleEnd pieces = [] ∧ stepsOf pieces = []) ∨
      ∃ before last, dropIdleEnd pieces = before ++ [last] ∧ before ⊆ pieces ∧
        stepsOf pieces = stepsOf before ++ [last] := by
  have steps := stepsOf_dropIdleEnd pieces
  rcases List.eq_nil_or_concat' (dropIdleEnd pieces) with none_ | ⟨before, last, split⟩
  · rw [none_] at steps
    exact .inl ⟨none_, steps.symm⟩
  · have present : pieces.rdropWhile isIdle ≠ [] := by
      rw [← dropIdleEnd_eq, split]
      simp
    have ending : (pieces.rdropWhile isIdle).getLast present = last := by
      rw [List.getLast_eq_iff_getLast?_eq_some, ← dropIdleEnd_eq, split, List.getLast?_concat]
    have counts := List.rdropWhile_last_not isIdle pieces present
    rw [ending, Bool.not_eq_true] at counts
    refine .inr ⟨before, last, split, fun piece member => ?_, ?_⟩
    · exact (pieces.rdropWhile_prefix isIdle).subset (dropIdleEnd_eq pieces ▸ split ▸
        List.mem_append_left [last] member)
    · rw [← steps, split, stepsOf_append, stepsOf_singleton, counts, if_neg Bool.false_ne_true]

-- How many paths are above a path. A dot that it starts with is one of them, though it is no step.
def height (path : Path) : Nat :=
  path.steps.length + if path.pieces.head? = some "." then 1 else 0

theorem height_of_steps_concat {above : Path} {step : String}
    (head : above.pieces.head? = path.pieces.head?) (steps : path.steps = above.steps ++ [step]) :
    path.height = above.height + 1 := by
  rw [height, height, head, steps, List.length_append, List.length_singleton, Nat.add_right_comm]

theorem height_le (path : Path) : path.height ≤ path.pieces.length := by
  obtain ⟨first, rest, split⟩ := List.exists_cons_of_ne_nil (pieces_ne_nil path)
  have shorter : (stepsOf rest).length ≤ rest.length := List.length_filter_le _ _
  have lead : (stepsOf [first]).length + (if first = "." then 1 else 0) ≤ 1 := by
    by_cases here : first = "."
    · rw [here]
      decide
    · rw [if_neg here]
      exact List.length_filter_le _ _
  rw [height, steps_of_pieces split, split, List.head?_cons, List.length_append, List.length_cons]
  simp only [Option.some.injEq]
  omega

/-- How a path goes on upwards. There is nothing above the root; above a lone dot or a lone name stands
the empty path; and above a longer path stands the one without its last step. -/
inductive Climb (path : Path) : Prop
  | top (parent : path.parent? = none) (absolute : path.isAbsolute = true) (steps : path.steps = [])
  | dot (parent : path.parent? = some ⟨""⟩) (relative : path.isAbsolute = false)
      (head : path.pieces.head? = some ".") (steps : path.steps = [])
  | out (name : String) (parent : path.parent? = some ⟨""⟩) (relative : path.isAbsolute = false)
      (bare : path.pieces.head? ≠ some ".") (steps : path.steps = [name])
  | up (above : Path) (step : String) (parent : path.parent? = some above) (some_ : above.text ≠ "")
      (kept : above.isAbsolute = path.isAbsolute ∧ above.pieces.head? = path.pieces.head?)
      (steps : path.steps = above.steps ++ [step])
      (clean : holdsNul path.text = false → holdsNul above.text = false)

theorem climb (some_ : path.text ≠ "") : Climb path := by
  obtain ⟨first, rest, split⟩ := List.exists_cons_of_ne_nil (pieces_ne_nil path)
  have head : path.pieces.head? = some first := by rw [split, List.head?_cons]
  have absolute := isAbsolute_iff_head? some_
  rw [head, Option.some.injEq] at absolute
  have own := steps_of_pieces split
  rcases dropIdleEnd_cases rest with ⟨none_, idle⟩ | ⟨before, last, ending, inside, steps⟩
  · have parent : path.parent? = if first = "" then none else some ⟨""⟩ := by
      simp [parent?, split, none_]
    rw [idle, List.append_nil, stepsOf_singleton] at own
    by_cases root : first = ""
    · rw [if_pos root] at parent
      exact .top parent (absolute.2 root) (by rw [own, root]; rfl)
    · rw [if_neg root] at parent
      have relative : path.isAbsolute = false := by rwa [← absolute, Bool.not_eq_true] at root
      by_cases here : first = "."
      · exact .dot parent relative (here ▸ head) (by rw [own, here]; rfl)
      · have counts : isIdle first = false := by simp [isIdle, root, here]
        rw [counts, if_neg Bool.false_ne_true] at own
        exact .out first parent relative (by simpa [head] using here) own
  · have parent : path.parent? = some (ofPieces first (dropIdleEnd before)) := by
      simp [parent?, split, ending]
    have kept : dropIdleEnd before ⊆ rest := fun piece member =>
      inside ((before.rdropWhile_prefix isIdle).subset (dropIdleEnd_eq before ▸ member))
    have flat : ∀ piece ∈ first :: dropIdleEnd before, '/' ∉ piece.toList := by
      intro piece member
      have own : piece ∈ path.pieces := split ▸ List.cons_subset_cons first kept member
      exact flat_of_mem_pieces own
    have above := ofPieces_text_ne_empty flat
    refine .up (ofPieces first (dropIdleEnd before)) last parent above ⟨?_, ?_⟩ ?_ ?_
    · rw [Bool.eq_iff_iff, absolute, isAbsolute_iff_head? above, head?_ofPieces flat,
        Option.some.injEq]
    · rw [head?_ofPieces flat, head]
    · rw [own, steps, steps_ofPieces flat, stepsOf_cons_eq first (dropIdleEnd before),
        stepsOf_dropIdleEnd, List.append_assoc]
    · have slash : holdsNul "" = false := by decide
      rw [holdsNul_eq_any, holdsNul_eq_any, split, pieces_ofPieces flat]
      simp only [List.any_eq_false, Bool.not_eq_true, List.forall_mem_cons]
      rintro ⟨clean, others⟩
      split_ifs
      · simp [slash]
      · simp only [List.forall_mem_cons]
        exact ⟨clean, fun piece member => others piece (kept member)⟩

end BuildGate.Path
