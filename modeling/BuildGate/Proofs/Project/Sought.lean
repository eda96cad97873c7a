import BuildGate.Proofs.Glob.Trail
import BuildGate.Proofs.Project.Selection

set_option autoImplicit false

namespace BuildGate

namespace Path

variable {path : Path}

theorem mem_text_iff {c : Char} (other : c ≠ '/') :
    c ∈ path.text.toList ↔ ∃ piece ∈ path.pieces, c ∈ piece.toList := by
  rw [mem_iff_splitOn other, pieces]
  simp

end Path

namespace Glob

theorem squash_literals (texts : List String) (patterns : List Pattern) :
    squash (texts.map (·.toList.map .literal) ++ patterns) =
      texts.map (·.toList.map .literal) ++ squash patterns := by
  induction texts with
  | nil => rfl
  | cons text texts ih =>
    rw [List.map_cons, List.cons_append, squash_cons (isRecursive_literals _), ih, List.cons_append]

theorem read_plain {front back : List String} (plain : ∀ text ∈ front, IsPlainText text)
    {components : List Pattern}
    (read : ReadAs (front ++ back) components) :
    ∃ rest, components = front.map (·.toList.map .literal) ++ rest ∧ ReadAs back rest := by
  obtain ⟨own, rest, rfl, before, after⟩ := read_append read
  have same : List.Forall₂ (· = ·) (front.map (·.toList.map .literal)) own := by
    rw [List.forall₂_map_left_iff]
    refine ((List.forall₂_and_left _ _).2 ⟨plain, before⟩).imp fun text component read => ?_
    exact Except.ok.inj ((parse_plain read.1).symm.trans read.2)
  rw [List.forall₂_eq_eq_eq] at same
  exact ⟨rest, by rw [same], after⟩

theorem isPlainText_of_mem_pieces {path : Path} (plain : IsPlainText path.text) {piece : String}
    (member : piece ∈ path.pieces) : IsPlainText piece := by
  intro c inside
  have other : c ≠ '/' := fun slash => Path.flat_of_mem_pieces member (slash ▸ inside)
  exact plain c ((Path.mem_text_iff other).2 ⟨piece, member, inside⟩)

end Glob

namespace Project

variable {disk : Disk} {base path : Path} {entry : String}

theorem expandDirectory_ends (entry : String) :
    ∃ last, (expandDirectory entry).toList.getLast? = some last ∧ last ≠ '/' := by
  unfold expandDirectory
  split_ifs with wild
  · obtain ⟨c, member, -⟩ := List.any_eq_true.1 wild
    rw [lastSegment, List.mem_reverse] at member
    cases backwards : entry.toList.reverse with
    | nil => simp [backwards] at member
    | cons last before =>
      refine ⟨last, ?_, fun slash => ?_⟩
      · rw [List.getLast?_eq_head?_reverse, backwards]
        rfl
      · rw [backwards, slash, List.takeWhile_cons_of_neg (by simp)] at member
        cases member
  · refine ⟨'*', ?_, by decide⟩
    rw [String.toList_append, List.getLast?_append_of_ne_nil _ (by decide)]
    rfl

theorem expandDirectory_ne_empty (entry : String) : expandDirectory entry ≠ "" := by
  obtain ⟨last, ending, -⟩ := expandDirectory_ends entry
  intro empty
  rw [empty] at ending
  cases ending

theorem sought_ends (base : Path) (entry : String) :
    sought base entry ≠ "" ∧ (sought base entry).toList.getLast? ≠ some '/' := by
  obtain ⟨last, ending, other⟩ := expandDirectory_ends entry
  have some_ := expandDirectory_ne_empty entry
  have present : (expandDirectory entry).toList ≠ [] := by simpa using some_
  have unslashed : (expandDirectory entry).toList.getLast? ≠ some '/' := by
    rw [ending]
    simpa using other
  unfold sought
  cases form : (⟨expandDirectory entry⟩ : Path).isAbsolute with
  | true =>
    rw [Path.join_of_isAbsolute form]
    exact ⟨some_, unslashed⟩
  | false =>
    rcases Path.join_cases form base with ⟨-, joined⟩ | ⟨front, -, joined⟩ | ⟨-, joined⟩
    · rw [joined]
      exact ⟨some_, unslashed⟩
    all_goals
      rw [joined]
      refine ⟨by simp, ?_⟩
      rwa [String.toList_append, List.getLast?_append_of_ne_nil _ present]

theorem trail_of_finds (legal : ∀ entry ∈ disk.entries, ∀ name ∈ entry.1, LegalName name)
    (found : Finds disk base entry path) : ∃ components names,
      Glob.ReadAs (Glob.segments (sought base entry)) components ∧
      Glob.Trail disk (Glob.squash components) (Glob.startOf (sought base entry)) names path := by
  obtain ⟨paths, searched, member⟩ := found
  obtain ⟨named, ending⟩ := sought_ends base entry
  exact Glob.trail_of_search legal named ending searched member

theorem isAbsolute_sought (base : Path) (entry : String) :
    (⟨sought base entry⟩ : Path).isAbsolute =
      ((⟨expandDirectory entry⟩ : Path).isAbsolute || base.isAbsolute) := by
  have joined : (⟨sought base entry⟩ : Path) = base.join (expandDirectory entry) := by
    rw [sought]
  rw [joined]
  cases form : (⟨expandDirectory entry⟩ : Path).isAbsolute with
  | true => rw [Path.join_of_isAbsolute form, form, Bool.true_or]
  | false => rw [Path.isAbsolute_join form base, Bool.false_or]

structure Leading (base : Path) (front : List String) : Prop where
  steps : Path.stepsOf front = base.steps
  inside : front ⊆ base.pieces
  bare : base = ⟨""⟩ → front = []
  head : base.isAbsolute = false → base.steps ≠ [] → front.head? = base.pieces.head?

namespace Leading

variable {front : List String}

theorem of_pieces (some_ : base ≠ ⟨""⟩) (own : base.pieces = front ∨ base.pieces = front ++ [""])
    (filled : front ≠ []) : Leading base (if base.isAbsolute then front.tail else front) := by
  have idle : Path.stepsOf [""] = [] := by decide
  have steps : Path.stepsOf front = base.steps := by
    rcases own with own | own <;> simp [Path.steps, own, Path.stepsOf_append, idle]
  have inside : front ⊆ base.pieces := by
    rcases own with own | own <;> simp [own]
  have head : front.head? = base.pieces.head? := by
    rcases own with own | own
    · rw [own]
    · rw [own, List.head?_append_of_ne_nil _ filled]
  split_ifs with rooted
  · obtain ⟨rest, split⟩ := Path.pieces_of_isAbsolute rooted
    obtain ⟨first, others, rfl⟩ := List.exists_cons_of_ne_nil filled
    obtain rfl : first = "" := by simpa [split] using head
    refine ⟨?_, fun piece member => inside (List.mem_cons_of_mem _ member),
      fun empty => absurd empty some_, ?_⟩
    · rw [List.tail_cons, ← steps, Path.stepsOf_cons_idle (by decide)]
    · simp [rooted]
  · exact ⟨steps, inside, fun empty => absurd empty some_, fun _ _ => head⟩

theorem counts {first : String} (leading : Leading base (first :: front))
    (unrooted : base.isAbsolute = false) (going : base.steps ≠ [])
    (undotted : base.pieces.head? ≠ some ".") : Path.isIdle first = false := by
  have some_ : base.text ≠ "" := fun empty => by
    rw [Path.steps, Path.pieces, empty] at going
    exact going rfl
  have unslashed := mt (Path.isAbsolute_iff_head? some_).2 (by simp [unrooted])
  rw [← leading.head unrooted going] at undotted unslashed
  rw [← Bool.not_eq_true, Path.isIdle_iff]
  simpa [not_or] using And.intro unslashed undotted

end Leading

-- A relative entry is searched for by its own components behind those of the base path.
theorem segments_sought (relative : (⟨expandDirectory entry⟩ : Path).isAbsolute = false) :
    ∃ front, Leading base front ∧
      Glob.segments (sought base entry) = front ++ (⟨expandDirectory entry⟩ : Path).pieces := by
  have absolute := isAbsolute_sought base entry
  rw [relative, Bool.false_or] at absolute
  have behind {front : List String} (filled : front ≠ [])
      (pieces : (⟨sought base entry⟩ : Path).pieces =
        front ++ (⟨expandDirectory entry⟩ : Path).pieces) :
      Glob.segments (sought base entry) = (if base.isAbsolute then front.tail else front) ++
        (⟨expandDirectory entry⟩ : Path).pieces := by
    rw [Glob.segments, absolute, pieces]
    split_ifs
    · exact List.tail_append_of_ne_nil filled
    · rfl
  rcases Path.join_cases relative base with ⟨rfl, joined⟩ | ⟨front, rfl, joined⟩ | ⟨some_, joined⟩
  · refine ⟨[], ⟨rfl, by simp, fun _ => rfl, fun _ present => absurd rfl present⟩, ?_⟩
    rw [Glob.segments, absolute, sought, joined, List.nil_append, if_neg (by decide)]
  · have filled := Path.pieces_ne_nil ⟨front⟩
    refine ⟨_, .of_pieces (by simp) (.inr (Path.pieces_slash front)) filled, behind filled ?_⟩
    rw [sought, joined, Path.pieces_below]
  · have filled := Path.pieces_ne_nil base
    refine ⟨_, .of_pieces (fun empty => some_ (by rw [empty])) (.inl rfl) filled, behind filled ?_⟩
    rw [sought, joined, Path.pieces_below]

theorem enters_of_alike {middle : Path} {place : Place} (there : disk.directoryAt middle = .ok place)
    (steps : middle.steps = base.steps) (form : middle.isAbsolute = base.isAbsolute) :
    disk.Enters base place := by
  obtain ⟨-, clean, walked, standing⟩ := Disk.directoryAt_iff_steps.1 there
  refine ⟨?_, by rw [← steps, Disk.startOf, ← form]; exact walked, standing⟩
  rw [Path.holdsNul_eq_any, List.any_eq_false] at clean ⊢
  intro piece member
  cases idle : Path.isIdle piece with
  | true => rcases Path.isIdle_iff.1 idle with rfl | rfl <;> decide
  | false =>
    have step : piece ∈ middle.steps := steps ▸ Path.mem_steps.2 ⟨member, idle⟩
    exact clean piece (Path.mem_steps.1 step).1

structure Descent (disk : Disk) (base : Path) (components : List Glob.Pattern) (middle : Path)
    (names : List String) (path : Path) : Prop where
  trail : Glob.Trail disk (Glob.squash components) middle names path
  entered : ∃ place, disk.Enters base place
  steps : path.steps = base.steps ++ Path.stepsOf names
  form : path.isAbsolute = base.isAbsolute
  head : base.isAbsolute = false → base.steps ≠ [] → base.pieces.head? ≠ some "." →
    path.pieces.head? = base.pieces.head?
  bare : base = ⟨""⟩ → middle = ⟨"."⟩

theorem exists_descent (legal : ∀ entry ∈ disk.entries, ∀ name ∈ entry.1, LegalName name)
    (relative : (⟨expandDirectory entry⟩ : Path).isAbsolute = false)
    (plain : Glob.IsPlainText base.text) (found : Finds disk base entry path) :
    ∃ components middle names, Glob.ReadAs (⟨expandDirectory entry⟩ : Path).pieces components ∧
      Descent disk base components middle names path := by
  obtain ⟨components, names, read, trail⟩ := trail_of_finds legal found
  obtain ⟨front, leading, segments⟩ := segments_sought relative
  have start : Glob.startOf (sought base entry) = if base.isAbsolute then ⟨"/"⟩ else ⟨"."⟩ := by
    rw [Glob.startOf, isAbsolute_sought, relative, Bool.false_or]
  have rooted : (Glob.startOf (sought base entry)).isAbsolute = base.isAbsolute := by
    rw [start]
    cases base.isAbsolute <;> rfl
  have idle : (Glob.startOf (sought base entry)).steps = [] := by
    rw [start]
    split_ifs <;> decide
  rw [segments] at read
  obtain ⟨rest, rfl, each⟩ := Glob.read_plain
    (fun text listed => Glob.isPlainText_of_mem_pieces plain (leading.inside listed)) read
  have present : rest ≠ [] := by
    rintro rfl
    exact Path.pieces_ne_nil _ (List.forall₂_nil_right_iff.1 each)
  rw [Glob.squash_literals] at trail
  obtain ⟨middle, after, rfl, steps, form, alone, later⟩ := trail.of_literals
  rw [idle, List.nil_append, leading.steps] at steps
  obtain ⟨place, there⟩ := Disk.isDirectory_iff.1 (later.isDirectory (Glob.squash_ne_nil present))
  refine ⟨rest, middle, after, each, later, ⟨place, ?_⟩, ?_, ?_, ?_, ?_⟩
  · exact enters_of_alike there steps (form.trans rooted)
  · rw [later.steps_eq, steps]
  · exact (later.isAbsolute_eq.trans form).trans rooted
  · intro unrooted going undotted
    rw [← leading.head unrooted going]
    cases front with
    | nil => exact absurd leading.steps.symm going
    | cons first others =>
      have here : (Glob.startOf (sought base entry)).parts = [.here] := by
        rw [start, unrooted]
        decide
      exact trail.head?_of_literal here (leading.counts unrooted going undotted)
  · rintro rfl
    rw [alone (leading.bare rfl), start]
    rfl

end Project

end BuildGate
