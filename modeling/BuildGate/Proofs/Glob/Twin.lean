import BuildGate.Proofs.Disk.Twin
import BuildGate.Proofs.Glob.Plain
import Mathlib.Data.List.MinMax

set_option autoImplicit false

namespace BuildGate.Glob

open BuildGate.Path (Twin)

theorem literalText?_eq_some {pattern : Pattern} {cs : List Char}
    (plain : literalText? pattern = some cs) : pattern = cs.map .literal := by
  induction pattern generalizing cs with
  | nil =>
    cases plain
    rfl
  | cons token pattern ih =>
    rw [literalText?, List.mapM_cons] at plain
    cases token with
    | literal c =>
      obtain ⟨_, ⟨⟩, more⟩ := Option.bind_eq_some_iff.1 plain
      obtain ⟨rest, read, same⟩ := Option.bind_eq_some_iff.1 more
      obtain rfl : c :: rest = cs := Option.some.inj same
      rw [ih read, List.map_cons]
    | _ => cases plain

def Pattern.climbs (pattern : Pattern) : Bool :=
  pattern.head? == some (.literal '.') && pattern.matches ".."

structure Level (pattern : Pattern) : Prop where
  flat : .literal '/' ∉ pattern
  down : Pattern.climbs pattern = false

theorem Level.literalText? {pattern : Pattern} (level : Level pattern) {cs : List Char}
    (plain : literalText? pattern = some cs) :
    '/' ∉ (String.ofList cs).toList ∧ String.ofList cs ≠ ".." := by
  obtain rfl := literalText?_eq_some plain
  constructor
  · rw [String.toList_ofList]
    exact fun slash => level.flat (List.mem_map_of_mem slash)
  · intro up
    obtain rfl : cs = ['.', '.'] := by
      simpa using congrArg String.toList up
    exact absurd level.down (by decide)

theorem length_lt_depth {disk : Disk} {entry : Place × Entry} (member : entry ∈ disk.entries) :
    entry.1.length < depth disk := by
  rw [depth, Nat.lt_succ_iff]
  exact List.le_max_of_le' 0 (List.mem_map_of_mem member) le_rfl

section

variable {disk : Disk} {path : Path}

theorem children_of_directory {place : Place} (resolved : disk.resolve path = .ok place)
    (directory : disk.kindAt? place = some true) :
    children disk path = (disk.names place).map (childOf path) := by
  obtain ⟨entry, there, kind⟩ := Option.map_eq_some_iff.1 directory
  cases entry with
  | file content modified => cases kind
  | directory modified =>
    rw [children, Disk.directoryAt_eq_ok.2 ⟨resolved, modified, there⟩]

theorem children_of_other (other : disk.kind? path ≠ some true) : children disk path = [] := by
  unfold children
  split
  next place there =>
    obtain ⟨resolved, modified, entry⟩ := Disk.directoryAt_eq_ok.1 there
    refine absurd ?_ other
    simp [Disk.kind?_eq, resolved, Except.toOption, Disk.kindAt?, entry, Entry.isDirectory]
  next => rfl

end

variable {a b : Disk} {one other : String} {tree : Tree} {p q : Path}

def Siblings (p q x y : Path) : Prop :=
  ∃ name, LegalName name ∧ x = p.join name ∧ y = q.join name

def Namesakes (one other : String) (p q : Path) : Prop :=
  Twin one other p q ∧ p.fileName? = q.fileName?

theorem Namesakes.matchesName_iff {x y : Path} (namesakes : Namesakes one other x y)
    (pattern : Pattern) : matchesName pattern x = true ↔ matchesName pattern y = true := by
  rw [matchesName, matchesName, namesakes.2]

theorem enough_depth (held : a.Holds one tree) (n : Nat) {entry : Place × Bool}
    (member : entry ∈ tree.entries) : entry.1.length < n + depth a := by
  rw [← held.entries] at member
  obtain ⟨found, listed, seen⟩ := List.mem_filterMap.1 member
  obtain ⟨-, same⟩ := Option.ite_none_right_eq_some.1 seen
  obtain rfl := Option.some.inj same
  have bound := length_lt_depth listed
  simp only [List.length_drop]
  omega

section

variable (held : a.Holds one tree) (again : b.Holds other tree)

include held again

theorem childOf_eq (twin : Twin one other p q) (name : String) : childOf p name = p.join name := by
  obtain ⟨names, parts, -⟩ := held.parts_eq again twin
  rw [childOf, parts, if_neg (by simp)]

theorem children_cases (twin : Twin one other p q) :
    (children a p = [] ∧ children b q = []) ∨
      ∃ names : List String, p.parts = .name one :: names.map .name ∧
        children a p = (tree.names names).map p.join ∧
        children b q = (tree.names names).map q.join := by
  have same := held.kind?_agrees again twin
  by_cases directory : a.kind? p = some true
  · obtain ⟨reached, left, right⟩ := held.resolve_agrees again twin
    cases reached with
    | error cause =>
      rw [Disk.kind?_eq, left] at directory
      cases directory
    | ok inner =>
      have kind : tree.entries.lookup inner = some true := by
        rw [Disk.kind?_eq, left] at directory
        exact (held.kindAt?_under inner).symm.trans directory
      obtain ⟨names, parts, -, placed⟩ := held.parts_eq again twin
      obtain rfl : inner = names := by simpa [Disk.under] using placed _ left
      refine .inr ⟨inner, parts, ?_, ?_⟩
      · rw [children_of_directory left ((held.kindAt?_under inner).trans kind), held.names_under]
        exact List.map_congr_left fun name _ => childOf_eq held again twin name
      · rw [children_of_directory right ((again.kindAt?_under inner).trans kind), again.names_under]
        exact List.map_congr_left fun name _ => childOf_eq again held twin.symm name
  · exact .inl ⟨children_of_other directory, children_of_other (same ▸ directory)⟩

theorem children_agree (twin : Twin one other p q) :
    List.Forall₂ (Siblings p q) (children a p) (children b q) := by
  rcases children_cases held again twin with ⟨left, right⟩ | ⟨names, -, left, right⟩
  · rw [left, right]
    exact .nil
  · rw [left, right, List.forall₂_map_left_iff, List.forall₂_map_right_iff, List.forall₂_same]
    exact fun name listed => ⟨name, Tree.legal_of_mem_names listed, rfl, rfl⟩

theorem parts_length_eq (twin : Twin one other p q) : p.parts.length = q.parts.length := by
  obtain ⟨names, left, right, -⟩ := held.parts_eq again twin
  rw [left, right, List.length_cons, List.length_cons]

-- The names in a directory make its places longer by one than the path to it.
theorem children_eq_nil (twin : Twin one other p q)
    (short : ∀ entry ∈ tree.entries, entry.1.length < p.parts.length) : children a p = [] := by
  rcases children_cases held again twin with ⟨none_, -⟩ | ⟨names, parts, listed, -⟩
  · exact none_
  · rw [listed, List.map_eq_nil_iff, List.eq_nil_iff_forall_not_mem]
    intro name member
    obtain ⟨⟨place, directory⟩, held, found⟩ := List.mem_filterMap.1 member
    obtain ⟨above, last⟩ := Option.ite_none_right_eq_some.1 found
    obtain ⟨front, rfl⟩ := List.getLast?_eq_some_iff.1 last
    have bound := short _ held
    rw [List.dropLast_concat] at above
    rw [parts, ← above] at bound
    simp at bound

theorem Siblings.namesakes (twin : Twin one other p q) {x y : Path} (siblings : Siblings p q x y) :
    Namesakes one other x y := by
  obtain ⟨name, legal, rfl, rfl⟩ := siblings
  refine ⟨twin.join held.legal again.legal legal.flat legal.up, ?_⟩
  rw [Path.fileName?_join legal (twin.text_ne_empty held.legal),
    Path.fileName?_join legal (twin.symm.text_ne_empty again.legal)]

theorem below_agrees {fuel more : Nat} (twin : Twin one other p q)
    (enough : ∀ entry ∈ tree.entries, entry.1.length < p.parts.length + fuel)
    (enough_ : ∀ entry ∈ tree.entries, entry.1.length < q.parts.length + more) :
    List.Forall₂ (Namesakes one other) (below a fuel p) (below b more q) := by
  induction fuel generalizing p q more with
  | zero =>
    have none_ := children_eq_nil again held twin.symm
      (parts_length_eq held again twin ▸ enough)
    cases more with
    | zero => exact .nil
    | succ more =>
      rw [below, below, none_]
      exact .nil
  | succ fuel ih =>
    cases more with
    | zero =>
      have none_ := children_eq_nil held again twin
        (parts_length_eq held again twin ▸ enough_)
      rw [below, below, none_]
      exact .nil
    | succ more =>
      refine List.rel_flatMap (children_agree held again twin) fun x y siblings => ?_
      have namesakes := siblings.namesakes held again twin
      obtain ⟨name, legal, rfl, rfl⟩ := siblings
      refine .cons namesakes (ih namesakes.1 (fun entry member => ?_) fun entry member => ?_)
      · rw [Path.length_parts_join legal (twin.text_ne_empty held.legal), Nat.succ_add_eq_add_succ]
        exact enough entry member
      · rw [Path.length_parts_join legal (twin.symm.text_ne_empty again.legal),
          Nat.succ_add_eq_add_succ]
        exact enough_ entry member

theorem below_depth_agrees (twin : Twin one other p q) :
    List.Forall₂ (Namesakes one other) (below a (depth a) p) (below b (depth b) q) :=
  below_agrees held again twin (fun _ member => enough_depth held _ member)
    fun _ member => enough_depth again _ member

theorem literalStep_agrees (twin : Twin one other p q) {name : String}
    (flat : '/' ∉ name.toList) (up : name ≠ "..") :
    List.Forall₂ (Twin one other) (literalStep a p name) (literalStep b q name) := by
  have next := twin.join held.legal again.legal flat up
  simp only [literalStep, childOf_eq held again twin, childOf_eq again held twin.symm,
    held.isDirectory_agrees again twin, held.has_agrees again next]
  split_ifs
  all_goals first | exact .nil | exact .cons next .nil

theorem dotSteps_agrees (twin : Twin one other p q) {pattern : Pattern} (level : Level pattern) :
    List.Forall₂ (Twin one other) (dotSteps a pattern p) (dotSteps b pattern q) := by
  simp only [dotSteps, held.isDirectory_agrees again twin]
  split_ifs with dotted
  · rw [List.forall₂_map_left_iff, List.forall₂_map_right_iff, List.forall₂_same]
    intro name listed
    obtain ⟨special, hit⟩ := List.mem_filter.1 listed
    have here : name = "." := by
      rcases List.mem_cons.1 special with here | up
      · exact here
      · obtain rfl := List.mem_singleton.1 up
        have climbs : Pattern.climbs pattern = true := by
          simp [Pattern.climbs, dotted.1, hit]
        rw [level.down] at climbs
        cases climbs
    subst here
    exact twin.join held.legal again.legal (by decide) (by decide)
  · exact .nil

theorem directories_agree {paths others : List Path}
    (twins : List.Forall₂ (Twin one other) paths others) :
    List.Forall₂ (Twin one other) (paths.filter a.isDirectory) (others.filter b.isDirectory) :=
  List.rel_filter (fun _ _ twin => Bool.eq_iff_iff.1 (held.isDirectory_agrees again twin)) twins

theorem expand_agrees :
    ∀ {patterns : List Pattern} {p q : Path}, (∀ pattern ∈ patterns, Level pattern) →
      Twin one other p q →
      List.Forall₂ (Twin one other) (expand a patterns p) (expand b patterns q)
  | [], p, q, _, twin => .cons twin .nil
  | pattern :: patterns, p, q, level, twin => by
    obtain ⟨first, rest⟩ := List.forall_mem_cons.1 level
    have twins {xs ys : List Path} (agree : List.Forall₂ (Namesakes one other) xs ys) :
        List.Forall₂ (Twin one other) xs ys := agree.imp fun _ _ namesakes => namesakes.1
    rw [expand.eq_def a, expand.eq_def b]
    dsimp only
    split_ifs with recursive
    -- Before another component, `**` takes that one along, so the recursion skips two.
    · have found := below_depth_agrees held again twin
      cases patterns with
      | nil => exact directories_agree held again (twins found)
      | cons next patterns =>
        exact List.rel_flatMap
          (List.rel_filter (fun x y namesakes => namesakes.matchesName_iff next) found)
          fun x y namesakes => expand_agrees (List.forall_mem_cons.1 rest).2 namesakes.1
    · cases read : literalText? pattern with
      | some cs =>
        obtain ⟨flat, up⟩ := first.literalText? read
        exact List.rel_flatMap (literalStep_agrees held again twin flat up)
          fun x y same => expand_agrees rest same
      | none =>
        have named : List.Forall₂ (Namesakes one other) (children a p) (children b q) :=
          (children_agree held again twin).imp fun _ _ siblings => siblings.namesakes held again twin
        have matched := List.rel_filter (p := matchesName pattern) (q := matchesName pattern)
          (fun x y namesakes => namesakes.matchesName_iff pattern) named
        exact List.rel_flatMap (List.rel_append (twins matched) (dotSteps_agrees held again twin first))
          fun x y same => expand_agrees rest same

end

end BuildGate.Glob
