import BuildGate.Proofs.Disk.Append
import BuildGate.Proofs.Disk.Relative
import BuildGate.Proofs.Glob.Twin
import Mathlib.Data.List.Chain

set_option autoImplicit false

namespace BuildGate

namespace Path

variable {outer : Path} {name : String}

theorem steps_join (flat : '/' ∉ name.toList) (outer : Path) :
    (outer.join name).steps = outer.steps ++ stepsOf [name] := by
  obtain ⟨front, own, -, split⟩ := pieces_join flat outer
  have idle : stepsOf [""] = [] := by decide
  rw [steps, steps, split, stepsOf_append]
  rcases own with own | own
  · rw [own]
  · rw [own, stepsOf_append, idle, List.append_nil]

theorem head?_join (flat : '/' ∉ name.toList) (some_ : outer.text ≠ "") :
    (outer.join name).pieces.head? = outer.pieces.head? := by
  obtain ⟨front, own, filled, split⟩ := pieces_join flat outer
  have present := filled some_
  rw [split, List.head?_append_of_ne_nil _ present]
  rcases own with own | own
  · rw [own]
  · rw [own, List.head?_append_of_ne_nil _ present]

theorem pieces_of_isAbsolute (absolute : outer.isAbsolute = true) :
    ∃ rest, outer.pieces = "" :: rest := by
  have some_ : outer.text ≠ "" := by
    intro empty
    rw [isAbsolute, empty] at absolute
    revert absolute
    decide
  obtain ⟨first, rest, split⟩ := List.exists_cons_of_ne_nil (pieces_ne_nil outer)
  have head := (isAbsolute_iff_head? some_).1 absolute
  rw [split, List.head?_cons, Option.some.injEq] at head
  exact ⟨rest, head ▸ split⟩

theorem intercalate_pieces (path : Path) :
    ['/'].intercalate (path.pieces.map String.toList) = path.text.toList := by
  rw [pieces, List.map_map]
  simp [Function.comp_def]

def Stem (front : List String) (path : Path) : Prop :=
  path = ⟨"/"⟩ ∧ front = [""] ∨ path.isAbsolute = true ∧ path.pieces = front ∧ front.getLast? ≠ some ""

namespace Stem

variable {front : List String} {path : Path}

theorem root : Stem [""] ⟨"/"⟩ := .inl ⟨rfl, rfl⟩

theorem isAbsolute (stem : Stem front path) : path.isAbsolute = true := by
  rcases stem with ⟨rfl, -⟩ | ⟨absolute, -⟩
  · rfl
  · exact absolute

theorem join (stem : Stem front path) (flat : '/' ∉ name.toList) (counts : isIdle name = false) :
    Stem (front ++ [name]) (path.join name) := by
  have relative := isAbsolute_of_flat flat
  have some_ : name ≠ "" := by
    rintro rfl
    cases counts
  refine .inr ⟨(isAbsolute_join relative path).trans stem.isAbsolute, ?_, by simpa using some_⟩
  rcases stem with ⟨rfl, rfl⟩ | ⟨-, rfl, last⟩
  · have joined : (⟨"/"⟩ : Path).join name = ⟨"" ++ "/" ++ name⟩ := by simp [Path.join, relative]
    rw [joined, pieces_below, pieces_of_flat flat]
    rfl
  · obtain ⟨own, kept | ended, -, split⟩ := pieces_join flat path
    · rw [split, kept]
    · rw [ended, List.getLast?_concat] at last
      exact absurd rfl last

end Stem

end Path

namespace Disk

variable {disk : Disk} {path : Path}

theorem isDirectory_iff : disk.isDirectory path = true ↔ ∃ place, disk.directoryAt path = .ok place := by
  simp only [directoryAt_eq_ok]
  unfold isDirectory find
  cases resolved : disk.resolve path with
  | error cause => simp
  | ok place =>
    cases entry : disk.entry? place with
    | none => simp [entry]
    | some found => cases found <;> simp [entry]

theorem text_ne_empty_of_isDirectory (directory : disk.isDirectory path = true) : path.text ≠ "" := by
  obtain ⟨place, there⟩ := isDirectory_iff.1 directory
  exact (directoryAt_iff_steps.1 there).1

end Disk

namespace Glob

variable {disk : Disk} {path found : Path} {name : String}

theorem steps_childOf (flat : '/' ∉ name.toList) :
    (childOf path name).steps = path.steps ++ Path.stepsOf [name] := by
  rw [childOf]
  split_ifs with here
  · rw [(Path.parts_eq_here_iff.1 here).2.2, List.nil_append, Path.steps, Path.pieces_of_flat flat]
  · exact Path.steps_join flat path

theorem isAbsolute_childOf (flat : '/' ∉ name.toList) :
    (childOf path name).isAbsolute = path.isAbsolute := by
  rw [childOf]
  split_ifs with here
  · rw [(Path.parts_eq_here_iff.1 here).1, Path.isAbsolute_of_flat flat]
  · exact Path.isAbsolute_join (Path.isAbsolute_of_flat flat) path

theorem head?_childOf (flat : '/' ∉ name.toList) (some_ : path.text ≠ "") :
    (childOf path name).pieces.head? =
      if path.parts = [.here] then some name else path.pieces.head? := by
  rw [childOf]
  split_ifs with here
  · rw [Path.pieces_of_flat flat, List.head?_cons]
  · exact Path.head?_join flat some_

theorem childOf_of_isAbsolute (absolute : path.isAbsolute = true) :
    childOf path name = path.join name := by
  rw [childOf, if_neg]
  intro here
  rw [(Path.parts_eq_here_iff.1 here).1] at absolute
  cases absolute

theorem fileName?_childOf (legal : LegalName name) (some_ : path.text ≠ "") :
    (childOf path name).fileName? = some name := by
  rw [childOf]
  split_ifs
  · have parts : (⟨name⟩ : Path).parts = [.name name] :=
      Path.parts_of_level legal (by simp) (Path.isAbsolute_of_flat legal.flat)
        (Path.pieces_of_flat legal.flat)
    rw [Path.fileName?, parts, List.getLast?_singleton]
  · exact Path.fileName?_join legal some_

theorem childOf_text_ne_empty (named : name ≠ "") (some_ : path.text ≠ "") :
    (childOf path name).text ≠ "" := by
  rw [childOf]
  split_ifs
  · exact named
  · exact Path.join_text_ne_empty some_ name

theorem isDirectory_of_has_childOf (flat : '/' ∉ name.toList) (some_ : path.text ≠ "")
    (there : disk.has (childOf path name) = true) : disk.isDirectory path = true := by
  have relative := Path.isAbsolute_of_flat flat
  have resolves : ∃ place, disk.resolve (childOf path name) = .ok place := by
    rw [Disk.has_eq, Disk.kind?_eq] at there
    cases resolved : disk.resolve (childOf path name) with
    | ok place => exact ⟨place, rfl⟩
    | error cause => simp [resolved, Except.toOption] at there
  obtain ⟨place, resolved⟩ := resolves
  obtain ⟨-, clean, walked⟩ := Disk.resolve_eq_ok.1 resolved
  rw [Disk.isDirectory_iff]
  rw [childOf] at clean walked
  split_ifs at clean walked with here
  · obtain ⟨own, dotted, idle⟩ := Path.parts_eq_here_iff.1 here
    rw [Disk.startOf, relative, if_neg Bool.false_ne_true, Path.pieces_of_flat flat] at walked
    refine ⟨disk.current, Disk.directoryAt_iff_steps.2 ⟨some_, ?_, ?_, (Disk.walk_singleton walked).1⟩⟩
    · rw [Path.holdsNul_eq_any, List.any_eq_false]
      intro piece member
      have counts : Path.isIdle piece = true := by
        by_contra other
        have step := Path.mem_steps.2 ⟨member, Bool.eq_false_iff.2 other⟩
        rw [idle] at step
        cases step
      rcases Path.isIdle_iff.1 counts with rfl | rfl <;> decide
    · rw [idle, Disk.startOf, own, if_neg Bool.false_ne_true]
      rfl
  · rw [Disk.startOf, Path.isAbsolute_join relative, ← Disk.startOf, Disk.walk_join _ _ _ relative,
      Path.pieces_of_flat flat] at walked
    rw [Path.holdsNul_join relative, Bool.or_eq_false_iff] at clean
    obtain ⟨between, before, step⟩ := Except.bind_eq_ok.1 walked
    exact ⟨between, Disk.directoryAt_iff_steps.2
      ⟨some_, clean.1, Disk.walk_stepsOf before, (Disk.walk_singleton step).1⟩⟩

theorem matchesChars_literals {cs ds : List Char} :
    matchesChars (cs.map .literal) ds = true ↔ ds = cs := by
  induction cs generalizing ds with
  | nil => simp [matchesChars, List.isEmpty_iff]
  | cons c cs ih =>
    cases ds with
    | nil => simp [matchesChars]
    | cons d ds => simp [matchesChars, Token.accepts, ih]

/-- The names that a search takes from a path to another. A component takes one name, which it matches;
`**` takes any number of them. -/
inductive Trail (disk : Disk) : List Pattern → Path → List String → Path → Prop
  | done {path : Path} : Trail disk [] path [] path
  | child {pattern : Pattern} {patterns : List Pattern} {path found : Path} {name : String}
      {names : List String} (inside : disk.isDirectory path = true)
      (single : isRecursive pattern = false) (hit : pattern.matches name = true)
      (flat : '/' ∉ name.toList) (named : literalText? pattern = some name.toList ∨ LegalName name)
      (rest : Trail disk patterns (childOf path name) names found) :
      Trail disk (pattern :: patterns) path (name :: names) found
  | dot {pattern : Pattern} {patterns : List Pattern} {path found : Path} {name : String}
      {names : List String} (inside : disk.isDirectory path = true)
      (single : isRecursive pattern = false) (dotted : pattern.head? = some (.literal '.'))
      (wild : literalText? pattern = none) (hit : pattern.matches name = true)
      (special : name = "." ∨ name = "..") (rest : Trail disk patterns (path.join name) names found) :
      Trail disk (pattern :: patterns) path (name :: names) found
  | deeper {pattern : Pattern} {patterns : List Pattern} {path found : Path} {name : String}
      {names : List String} (inside : disk.isDirectory path = true)
      (recursive : isRecursive pattern = true) (legal : LegalName name)
      (rest : Trail disk (pattern :: patterns) (childOf path name) names found) :
      Trail disk (pattern :: patterns) path (name :: names) found
  | level {pattern : Pattern} {patterns : List Pattern} {path found : Path} {names : List String}
      (inside : disk.isDirectory path = true) (recursive : isRecursive pattern = true)
      (rest : Trail disk patterns path names found) : Trail disk (pattern :: patterns) path names found

theorem mem_children (legal : ∀ entry ∈ disk.entries, ∀ name ∈ entry.1, LegalName name)
    {child : Path} (listed : child ∈ children disk path) :
    disk.isDirectory path = true ∧ ∃ name, LegalName name ∧ child = childOf path name := by
  unfold children at listed
  split at listed
  next place there =>
    obtain ⟨name, member, rfl⟩ := List.mem_map.1 listed
    obtain ⟨entry, held, last⟩ := List.mem_filterMap.1 member
    obtain ⟨-, last⟩ := Option.ite_none_right_eq_some.1 last
    exact ⟨Disk.isDirectory_iff.2 ⟨place, there⟩, name,
      legal entry held name (List.mem_of_getLast? last), rfl⟩
  next => cases listed

theorem trail_of_below (legal : ∀ entry ∈ disk.entries, ∀ name ∈ entry.1, LegalName name)
    {pattern : Pattern} {patterns : List Pattern} (recursive : isRecursive pattern = true)
    {fuel : Nat} {child : Path} (reached : child ∈ below disk fuel path)
    (goes : ∀ parent name, disk.isDirectory parent = true → LegalName name →
      child = childOf parent name → ∃ names, Trail disk (pattern :: patterns) parent names found) :
    ∃ names, Trail disk (pattern :: patterns) path names found := by
  induction fuel generalizing path with
  | zero => cases reached
  | succ fuel ih =>
    obtain ⟨next, listed, inner⟩ := List.mem_flatMap.1 reached
    obtain ⟨inside, name, named, rfl⟩ := mem_children legal listed
    rcases List.mem_cons.1 inner with rfl | deeper
    · exact goes path name inside named rfl
    · obtain ⟨names, rest⟩ := ih deeper
      exact ⟨_, .deeper inside recursive named rest⟩

def Squashed (patterns : List Pattern) : Prop :=
  patterns.IsChain fun p q => isRecursive p = true → isRecursive q = false

theorem of_literalStep {next : Path} (flat : '/' ∉ name.toList) (some_ : path.text ≠ "")
    (taken : next ∈ literalStep disk path name) :
    disk.isDirectory path = true ∧ next = childOf path name ∧ next.text ≠ "" := by
  unfold literalStep at taken
  dsimp only at taken
  split_ifs at taken with special inside there
  · obtain rfl := List.mem_singleton.1 taken
    have named : name ≠ "" := by rcases special with rfl | rfl <;> decide
    exact ⟨inside, rfl, childOf_text_ne_empty named some_⟩
  · cases taken
  · obtain rfl := List.mem_singleton.1 taken
    refine ⟨isDirectory_of_has_childOf flat some_ there, rfl, fun empty => ?_⟩
    rw [Disk.has, Disk.find, Disk.resolve, if_pos empty] at there
    cases there
  · cases taken

theorem of_wildSteps (legal : ∀ entry ∈ disk.entries, ∀ name ∈ entry.1, LegalName name)
    {pattern : Pattern} {next : Path} (some_ : path.text ≠ "")
    (taken : next ∈ (children disk path).filter (matchesName pattern) ++ dotSteps disk pattern path) :
    disk.isDirectory path = true ∧ next.text ≠ "" ∧ ∃ name, pattern.matches name = true ∧
      (LegalName name ∧ next = childOf path name ∨
        pattern.head? = some (.literal '.') ∧ (name = "." ∨ name = "..") ∧ next = path.join name) := by
  rcases List.mem_append.1 taken with listed | dotted
  · obtain ⟨listed, hit⟩ := List.mem_filter.1 listed
    obtain ⟨inside, name, named, rfl⟩ := mem_children legal listed
    rw [matchesName, fileName?_childOf named some_, Option.any_some] at hit
    exact ⟨inside, childOf_text_ne_empty named.some_ some_, name, hit, .inl ⟨named, rfl⟩⟩
  · unfold dotSteps at dotted
    split_ifs at dotted with leads
    · obtain ⟨name, chosen, rfl⟩ := List.mem_map.1 dotted
      obtain ⟨special, hit⟩ := List.mem_filter.1 chosen
      exact ⟨leads.2, Path.join_text_ne_empty some_ name, name, hit,
        .inr ⟨leads.1, by simpa using special, rfl⟩⟩
    · cases dotted

-- The child that a component behind `**` chooses is the last one that the walk comes to.
theorem exists_trail (legal : ∀ entry ∈ disk.entries, ∀ name ∈ entry.1, LegalName name) :
    ∀ {patterns : List Pattern} {path : Path}, (∀ pattern ∈ patterns, .literal '/' ∉ pattern) →
      Squashed patterns → path.text ≠ "" → found ∈ expand disk patterns path →
      ∃ names, Trail disk patterns path names found
  | [], path, _, _, _, member => by
    obtain rfl := List.mem_singleton.1 member
    exact ⟨[], .done⟩
  | pattern :: patterns, path, flat, squashed, some_, member => by
    obtain ⟨first, rest⟩ := List.forall_mem_cons.1 flat
    have later : Squashed patterns := squashed.tail
    rw [expand.eq_def] at member
    dsimp only at member
    split_ifs at member with recursive
    · cases patterns with
      | nil =>
        obtain ⟨reached, directory⟩ := List.mem_filter.1 member
        refine trail_of_below legal recursive reached fun parent name inside named same => ?_
        rw [same] at directory ⊢
        exact ⟨_, .deeper inside recursive named (.level directory recursive .done)⟩
      | cons next patterns =>
        obtain ⟨child, chosen, member⟩ := List.mem_flatMap.1 member
        obtain ⟨reached, hit⟩ := List.mem_filter.1 chosen
        refine trail_of_below legal recursive reached fun parent name inside named same => ?_
        subst same
        have known := Disk.text_ne_empty_of_isDirectory inside
        rw [matchesName, fileName?_childOf named known, Option.any_some] at hit
        obtain ⟨names, trail⟩ := exists_trail legal (List.forall_mem_cons.1 rest).2 later.tail
          (childOf_text_ne_empty named.some_ known) member
        have single := (List.isChain_cons_cons.1 squashed).1 recursive
        exact ⟨_, .level inside recursive (.child inside single hit named.flat (.inr named) trail)⟩
    · have single := Bool.eq_false_iff.2 recursive
      cases read : literalText? pattern with
      | some cs =>
        simp only [read] at member
        obtain ⟨next, taken, member⟩ := List.mem_flatMap.1 member
        obtain rfl := literalText?_eq_some read
        have own : (String.ofList cs).toList = cs := String.toList_ofList
        have flat : '/' ∉ (String.ofList cs).toList := by
          rw [own]
          exact fun slash => first (List.mem_map_of_mem slash)
        obtain ⟨inside, rfl, filled⟩ := of_literalStep flat some_ taken
        obtain ⟨names, trail⟩ := exists_trail legal rest later filled member
        exact ⟨_, .child inside single (matchesChars_literals.2 own) flat (.inl (by rw [own, read])) trail⟩
      | none =>
        simp only [read] at member
        obtain ⟨next, taken, member⟩ := List.mem_flatMap.1 member
        obtain ⟨inside, filled, name, hit, step⟩ := of_wildSteps legal some_ taken
        obtain ⟨names, trail⟩ := exists_trail legal rest later filled member
        rcases step with ⟨named, rfl⟩ | ⟨dotted, special, rfl⟩
        · exact ⟨_, .child inside single hit named.flat (.inr named) trail⟩
        · exact ⟨_, .dot inside single dotted read hit special trail⟩

theorem flat_of_special (special : name = "." ∨ name = "..") : '/' ∉ name.toList := by
  rcases special with rfl | rfl <;> decide

namespace Trail

variable {patterns : List Pattern} {names : List String}

theorem steps_eq (trail : Trail disk patterns path names found) :
    found.steps = path.steps ++ Path.stepsOf names := by
  induction trail with
  | done => rw [Path.stepsOf_nil, List.append_nil]
  | child inside single hit flat named rest ih =>
    rw [ih, steps_childOf flat, List.append_assoc]
    exact congrArg _ (Path.stepsOf_cons_eq _ _).symm
  | dot inside single dotted wild hit special rest ih =>
    rw [ih, Path.steps_join (flat_of_special special), List.append_assoc]
    exact congrArg _ (Path.stepsOf_cons_eq _ _).symm
  | deeper inside recursive legal rest ih =>
    rw [ih, steps_childOf legal.flat, List.append_assoc]
    exact congrArg _ (Path.stepsOf_cons_eq _ _).symm
  | level inside recursive rest ih => exact ih

theorem isAbsolute_eq (trail : Trail disk patterns path names found) :
    found.isAbsolute = path.isAbsolute := by
  induction trail with
  | done => rfl
  | child inside single hit flat named rest ih => rw [ih, isAbsolute_childOf flat]
  | dot inside single dotted wild hit special rest ih =>
    rw [ih, Path.isAbsolute_join (Path.isAbsolute_of_flat (flat_of_special special))]
  | deeper inside recursive legal rest ih => rw [ih, isAbsolute_childOf legal.flat]
  | level inside recursive rest ih => exact ih

theorem parts_ne_here {next : Path} {more : List String} (apart : path.parts ≠ [.here])
    (steps : next.steps = path.steps ++ more) (absolute : next.isAbsolute = path.isAbsolute)
    (head : next.pieces.head? = path.pieces.head?) : next.parts ≠ [.here] := by
  rw [Ne, Path.parts_eq_here_iff] at apart ⊢
  rintro ⟨relative, dotted, idle⟩
  rw [steps, List.append_eq_nil_iff] at idle
  exact apart ⟨absolute ▸ relative, head ▸ dotted, idle.1⟩

theorem head?_eq (trail : Trail disk patterns path names found) (apart : path.parts ≠ [.here]) :
    found.pieces.head? = path.pieces.head? := by
  induction trail with
  | done => rfl
  | child inside single hit flat named rest ih =>
    have head := head?_childOf flat (Disk.text_ne_empty_of_isDirectory inside)
    rw [if_neg apart] at head
    rw [ih (parts_ne_here apart (steps_childOf flat) (isAbsolute_childOf flat) head), head]
  | dot inside single dotted wild hit special rest ih =>
    have flat := flat_of_special special
    have head := Path.head?_join flat (Disk.text_ne_empty_of_isDirectory inside)
    rw [ih (parts_ne_here apart (Path.steps_join flat _)
      (Path.isAbsolute_join (Path.isAbsolute_of_flat flat) _) head), head]
  | deeper inside recursive legal rest ih =>
    have head := head?_childOf legal.flat (Disk.text_ne_empty_of_isDirectory inside)
    rw [if_neg apart] at head
    rw [ih (parts_ne_here apart (steps_childOf legal.flat) (isAbsolute_childOf legal.flat) head),
      head]
  | level inside recursive rest ih => exact ih apart

theorem isDirectory (trail : Trail disk patterns path names found) (present : patterns ≠ []) :
    disk.isDirectory path = true := by
  cases trail with
  | done => exact absurd rfl present
  | child inside | dot inside | deeper inside | level inside => exact inside

theorem of_literal {text : String} (trail : Trail disk (text.toList.map .literal :: patterns) path names
    found) : ∃ rest, names = text :: rest ∧ '/' ∉ text.toList ∧
      Trail disk patterns (childOf path text) rest found := by
  cases trail with
  | child inside single hit flat named rest =>
    obtain rfl := String.toList_injective (matchesChars_literals.1 hit)
    exact ⟨_, rfl, flat, rest⟩
  | dot inside single dotted wild hit special rest =>
    rw [literalText?_literals] at wild
    cases wild
  | deeper inside recursive legal rest =>
    rw [isRecursive_literals] at recursive
    cases recursive
  | level inside recursive rest =>
    rw [isRecursive_literals] at recursive
    cases recursive

theorem of_literals {texts : List String}
    (trail : Trail disk (texts.map (·.toList.map .literal) ++ patterns) path names found) :
    ∃ middle rest, names = texts ++ rest ∧ middle.steps = path.steps ++ Path.stepsOf texts ∧
      middle.isAbsolute = path.isAbsolute ∧ (texts = [] → middle = path) ∧
      Trail disk patterns middle rest found := by
  induction texts generalizing path names with
  | nil => exact ⟨path, names, rfl, by simp, rfl, fun _ => rfl, trail⟩
  | cons text texts ih =>
    obtain ⟨rest, rfl, flat, later⟩ := of_literal trail
    obtain ⟨middle, rest, rfl, steps, absolute, -, trail⟩ := ih later
    refine ⟨middle, rest, rfl, ?_, absolute.trans (isAbsolute_childOf flat), by simp, trail⟩
    rw [steps, steps_childOf flat, List.append_assoc, ← Path.stepsOf_cons_eq]

-- A lone dot goes on as the first name that leads somewhere.
theorem head?_of_child (here : path.parts = [.here]) (counts : Path.isIdle name = false)
    (flat : '/' ∉ name.toList) (trail : Trail disk patterns (childOf path name) names found) :
    found.pieces.head? = some name := by
  rw [childOf, if_pos here] at trail
  have pieces := Path.pieces_of_flat flat
  have apart : (⟨name⟩ : Path).parts ≠ [.here] := by
    rw [Ne, Path.parts_eq_here_iff, pieces]
    rintro ⟨-, dotted, -⟩
    obtain rfl : name = "." := by simpa using dotted
    cases counts
  rw [trail.head?_eq apart, pieces, List.head?_cons]

theorem head?_of_literal {text : String} (here : path.parts = [.here])
    (counts : Path.isIdle text = false)
    (trail : Trail disk (text.toList.map .literal :: patterns) path names found) :
    found.pieces.head? = some text := by
  obtain ⟨rest, rfl, flat, later⟩ := trail.of_literal
  exact later.head?_of_child here counts flat

end Trail

/-- A component that can leave a search where it is: an empty one, or one that starts with a dot and
matches a dot alone. -/
def Pattern.stays (pattern : Pattern) : Bool :=
  pattern.isEmpty || (pattern.head? == some (.literal '.') && pattern.matches ".")

namespace Trail

variable {patterns : List Pattern} {names : List String}

theorem moves (trail : Trail disk patterns path names found)
    (still : ∀ pattern ∈ patterns, pattern.stays = false) :
    ∀ name ∈ names, Path.isIdle name = false := by
  have legal {name : String} (legal : LegalName name) : Path.isIdle name = false := by
    rw [Bool.eq_false_iff, Ne, Path.isIdle_iff]
    exact not_or.2 ⟨legal.some_, legal.here⟩
  induction trail with
  | done => simp
  | child inside single hit flat named rest ih =>
    rw [List.forall_mem_cons] at still ⊢
    refine ⟨named.elim (fun read => ?_) legal, ih still.2⟩
    obtain rfl := literalText?_eq_some read
    rw [Bool.eq_false_iff, Ne, Path.isIdle_iff]
    rintro (rfl | rfl)
    · exact absurd still.1 (by decide)
    · exact absurd still.1 (by decide)
  | dot inside single dotted wild hit special rest ih =>
    rw [List.forall_mem_cons] at still ⊢
    refine ⟨?_, ih still.2⟩
    rcases special with rfl | rfl
    · simp [Pattern.stays, dotted, hit] at still
    · rfl
  | deeper inside recursive named rest ih => exact List.forall_mem_cons.2 ⟨legal named, ih still⟩
  | level inside recursive rest ih => exact ih (List.forall_mem_cons.1 still).2

theorem head?_first (trail : Trail disk patterns path names found) (here : path.parts = [.here])
    (still : ∀ pattern ∈ patterns, pattern.stays = false)
    (level : ∀ pattern ∈ patterns, literalText? pattern = none → Pattern.climbs pattern = false)
    (present : names ≠ []) : found.pieces.head? = names.head? := by
  induction trail with
  | done => exact absurd rfl present
  | child inside single hit flat named rest ih =>
    have counts := (Trail.child inside single hit flat named rest).moves still
    exact rest.head?_of_child here (List.forall_mem_cons.1 counts).1 flat
  | dot inside single dotted wild hit special rest ih =>
    have first := (List.forall_mem_cons.1 still).1
    have down := (List.forall_mem_cons.1 level).1 wild
    rcases special with rfl | rfl
    · simp [Pattern.stays, dotted, hit] at first
    · simp [Pattern.climbs, dotted, hit] at down
  | deeper inside recursive legal rest ih =>
    have counts := (Trail.deeper inside recursive legal rest).moves still
    exact rest.head?_of_child here (List.forall_mem_cons.1 counts).1 legal.flat
  | level inside recursive rest ih =>
    exact ih here (List.forall_mem_cons.1 still).2 (List.forall_mem_cons.1 level).2 present

theorem stem (trail : Trail disk patterns path names found)
    (still : ∀ pattern ∈ patterns, pattern.stays = false) {front : List String}
    (own : Path.Stem front path) : Path.Stem (front ++ names) found := by
  have counts := trail.moves still
  induction trail generalizing front with
  | done => rwa [List.append_nil]
  | @child _ _ path _ name _ inside single hit flat named rest ih =>
    rw [List.forall_mem_cons] at counts
    have next := own.join flat counts.1
    rw [← childOf_of_isAbsolute own.isAbsolute] at next
    rw [List.append_cons]
    exact ih (List.forall_mem_cons.1 still).2 next counts.2
  | dot inside single dotted wild hit special rest ih =>
    rw [List.forall_mem_cons] at counts
    rw [List.append_cons]
    exact ih (List.forall_mem_cons.1 still).2 (own.join (flat_of_special special) counts.1) counts.2
  | deeper inside recursive legal rest ih =>
    rw [List.forall_mem_cons] at counts
    have next := own.join legal.flat counts.1
    rw [← childOf_of_isAbsolute own.isAbsolute] at next
    rw [List.append_cons]
    exact ih still next counts.2
  | level inside recursive rest ih => exact ih (List.forall_mem_cons.1 still).2 own counts

theorem pieces_of_root (trail : Trail disk patterns ⟨"/"⟩ names found)
    (still : ∀ pattern ∈ patterns, pattern.stays = false) (present : names ≠ []) :
    found.pieces = "" :: names := by
  rcases trail.stem still .root with ⟨-, none_⟩ | ⟨-, pieces, -⟩
  · exact absurd (List.cons.inj none_).2 present
  · exact pieces

end Trail

def segments (pattern : String) : List String :=
  if (⟨pattern⟩ : Path).isAbsolute then (⟨pattern⟩ : Path).pieces.tail else (⟨pattern⟩ : Path).pieces

theorem segments_ne_nil (pattern : String) : segments pattern ≠ [] := by
  unfold segments
  split_ifs with absolute
  · obtain ⟨rest, split⟩ := Path.pieces_of_isAbsolute absolute
    have whole := Path.intercalate_pieces ⟨pattern⟩
    rw [split] at whole ⊢
    rintro rfl
    rw [Path.isAbsolute, ← whole] at absolute
    cases absolute
  · exact Path.pieces_ne_nil _

abbrev ReadAs (texts : List String) (components : List Pattern) : Prop :=
  List.Forall₂ (fun text component => parse text = .ok component) texts components

def startOf (pattern : String) : Path := if (⟨pattern⟩ : Path).isAbsolute then ⟨"/"⟩ else ⟨"."⟩

theorem squashed_squash (patterns : List Pattern) : Squashed (squash patterns) ∧
    (squash patterns).head?.map isRecursive = patterns.head?.map isRecursive := by
  fun_induction squash patterns with
  | case1 p q rest both ih =>
    rw [Bool.and_eq_true] at both
    exact ⟨ih.1, by rw [ih.2]; simp [both]⟩
  | case2 p q rest apart ih =>
    refine ⟨?_, rfl⟩
    cases kept : squash (q :: rest) with
    | nil => exact List.isChain_singleton p
    | cons next others =>
      rw [kept] at ih
      refine List.isChain_cons_cons.2 ⟨fun recursive => ?_, ih.1⟩
      have same : isRecursive next = isRecursive q := by simpa using ih.2
      rw [same]
      simpa [recursive] using apart
  | case3 patterns short =>
    refine ⟨?_, rfl⟩
    cases patterns with
    | nil => exact .nil
    | cons p rest =>
      cases rest with
      | nil => exact List.isChain_singleton p
      | cons q rest => exact absurd rfl (short p q rest)

theorem squash_ne_nil {patterns : List Pattern} (present : patterns ≠ []) : squash patterns ≠ [] := by
  have head := (squashed_squash patterns).2
  intro none_
  rw [none_] at head
  exact present (by simpa using head.symm)

def afterRoot (pattern : String) : List Char :=
  if pattern.toList.head? = some '/' then pattern.toList.drop 1 else pattern.toList

theorem getLast?_afterRoot {pattern : String} (named : pattern ≠ "")
    (ending : pattern.toList.getLast? ≠ some '/') :
    afterRoot pattern ≠ [] ∧ (afterRoot pattern).getLast? ≠ some '/' := by
  obtain ⟨first, rest, chars⟩ := List.exists_cons_of_ne_nil (l := pattern.toList) (by simpa using named)
  rw [chars] at ending
  simp only [afterRoot, chars, List.head?_cons, Option.some.injEq]
  split_ifs with slash
  · subst slash
    have some_ : rest ≠ [] := by
      rintro rfl
      exact ending rfl
    rw [← List.singleton_append, List.getLast?_append_of_ne_nil _ some_] at ending
    exact ⟨some_, ending⟩
  · exact ⟨List.cons_ne_nil first rest, ending⟩

theorem componentTexts_afterRoot {pattern : String} (named : pattern ≠ "")
    (ending : pattern.toList.getLast? ≠ some '/') :
    (componentTexts (afterRoot pattern)).map String.ofList = segments pattern := by
  obtain ⟨some_, unslashed⟩ := getLast?_afterRoot named ending
  have whole : componentTexts (afterRoot pattern) = (afterRoot pattern).splitOn '/' := by
    rw [componentTexts, if_neg]
    intro last
    exact (getLast?_splitOn_slash last).elim some_ unslashed
  rw [whole, afterRoot, segments, Path.isAbsolute, Path.pieces]
  cases chars : pattern.toList with
  | nil => rfl
  | cons first rest =>
    by_cases slash : first = '/' <;> simp [slash, List.splitOn_cons_eq_if_modifyHead]

theorem exists_of_read {texts : List String} {components : List Pattern}
    (read : ReadAs texts components) {component : Pattern} (member : component ∈ components) :
    ∃ text ∈ texts, parse text = .ok component := by
  induction read with
  | nil => cases member
  | cons first rest ih =>
    rcases List.mem_cons.1 member with rfl | later
    · exact ⟨_, List.mem_cons_self, first⟩
    · obtain ⟨text, listed, own⟩ := ih later
      exact ⟨text, List.mem_cons_of_mem _ listed, own⟩

theorem read_append {front back : List String} {components : List Pattern}
    (read : ReadAs (front ++ back) components) :
    ∃ own rest, components = own ++ rest ∧ ReadAs front own ∧ ReadAs back rest := by
  induction front generalizing components with
  | nil => exact ⟨[], components, rfl, .nil, read⟩
  | cons text front ih =>
    obtain ⟨component, others, first, later, rfl⟩ := List.forall₂_cons_left_iff.1 read
    obtain ⟨own, rest, rfl, before, after⟩ := ih later
    exact ⟨component :: own, rest, rfl, .cons first before, after⟩

theorem flat_of_mem_segments {pattern text : String} (member : text ∈ segments pattern) :
    '/' ∉ text.toList := by
  rw [segments] at member
  split_ifs at member
  · exact Path.flat_of_mem_pieces (List.mem_of_mem_tail member)
  · exact Path.flat_of_mem_pieces member

theorem trail_of_search (legal : ∀ entry ∈ disk.entries, ∀ name ∈ entry.1, LegalName name)
    {pattern : String} (named : pattern ≠ "") (ending : pattern.toList.getLast? ≠ some '/')
    {paths : List Path} (searched : search disk pattern = .ok paths) (member : found ∈ paths) :
    ∃ components names, ReadAs (segments pattern) components ∧
      Trail disk (squash components) (startOf pattern) names found := by
  have start : startOf pattern = ⟨if pattern.toList.head? = some '/' then "/" else "."⟩ := by
    simp only [startOf, Path.isAbsolute, beq_iff_eq]
    split_ifs <;> rfl
  unfold search at searched
  obtain ⟨tokens, -, searched⟩ := Except.bind_eq_ok.1 searched
  obtain ⟨components, read, searched⟩ := Except.bind_eq_ok.1 searched
  obtain rfl := Except.ok.inj searched
  rw [if_neg ending, ← start] at member
  have read : (componentTexts (afterRoot pattern)).mapM (fun text => parse (String.ofList text)) =
      .ok components := read
  have member : found ∈ expand disk (if afterRoot pattern = [] then [[]] else squash components)
      (startOf pattern) := member
  rw [if_neg (getLast?_afterRoot named ending).1] at member
  have each : ReadAs (segments pattern) components := by
    rw [← componentTexts_afterRoot named ending, ReadAs, List.forall₂_map_left_iff]
    exact Except.mapM_eq_ok.1 read
  have flat : ∀ component ∈ components, .literal '/' ∉ component := by
    intro component member slash
    obtain ⟨text, listed, own⟩ := exists_of_read each member
    exact flat_of_mem_segments listed (literal_mem_parse own slash)
  have some_ : (startOf pattern).text ≠ "" := by
    rw [startOf]
    split_ifs <;> decide
  obtain ⟨names, trail⟩ := exists_trail legal (fun component kept => flat _ (mem_of_mem_squash kept))
    (squashed_squash components).1 some_ member
  exact ⟨components, names, each, trail⟩

end Glob

end BuildGate
