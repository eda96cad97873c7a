import BuildGate.Proofs.Disk.Twin
import BuildGate.Proofs.Path.Parent
import BuildGate.Settings.Load

set_option autoImplicit false

namespace BuildGate

namespace Disk

variable {disk : Disk} {path : Path} {place : Place}

def way (disk : Disk) (path : Path) : List Place :=
  path.steps.inits.reverse.map fun front => front.foldl Place.toward (disk.startOf path)

def upward (place : Place) : List Place := place.inits.reverse

def isMarked (disk : Disk) (place : Place) : Bool :=
  ConfigFile.markers.any fun name => (disk.entry? (place ++ [name])).isSome

def nearest (disk : Disk) (place : Place) : Place :=
  ((upward place).find? disk.isMarked).getD place

theorem way_of_steps_nil (stays : path.steps = []) : disk.way path = [disk.startOf path] := by
  rw [way, stays]
  rfl

theorem way_of_steps_concat {front : List String} {step : String}
    (steps : path.steps = front ++ [step]) :
    disk.way path = path.steps.foldl Place.toward (disk.startOf path) ::
      front.inits.reverse.map fun front => front.foldl Place.toward (disk.startOf path) := by
  have inits : (front ++ [step]).inits = front.inits ++ [front ++ [step]] := by
    rw [List.inits_append]
    rfl
  rw [way, steps, inits, List.reverse_append]
  rfl

theorem way_ne_nil (disk : Disk) (path : Path) : disk.way path ≠ [] := by
  have inside : [] ∈ path.steps.inits := (List.mem_inits _ _).2 List.nil_prefix
  exact List.ne_nil_of_mem (List.mem_map_of_mem (List.mem_reverse.2 inside))

theorem way_eq_upward (absolute : path.isAbsolute = true) (level : ".." ∉ path.pieces)
    (there : disk.directoryAt path = .ok place) : disk.way path = upward place := by
  have start : disk.startOf path = [] := by rw [startOf, absolute, if_pos rfl]
  have level : ".." ∉ path.steps := fun climbing => level (List.mem_of_mem_filter climbing)
  have ends := eq_of_directoryAt there
  rw [start, Place.foldl_toward level, List.nil_append] at ends
  rw [way, start, upward, ends, List.map_congr_left, List.map_id]
  intro front inside
  have initial := (List.mem_inits _ _).1 (List.mem_reverse.1 inside)
  rw [Place.foldl_toward fun climbing => level (initial.subset climbing), List.nil_append]
  rfl

theorem kindAt?_startOf (there : disk.directoryAt path = .ok place) :
    disk.kindAt? (disk.startOf path) = some true := by
  obtain ⟨first, rest, split⟩ := List.exists_cons_of_ne_nil (Path.pieces_ne_nil path)
  have walked := (resolve_eq_ok.1 (directoryAt_eq_ok.1 there).1).2.2
  rw [split] at walked
  obtain ⟨next, step, -⟩ := walk_cons_eq_ok.1 walked
  exact (walk_singleton step).1

theorem find_name {name : String} (legal : LegalName name)
    (standing : disk.kindAt? disk.current = some true) :
    (disk.find ⟨name⟩).toOption = disk.entry? (disk.current ++ [name]) := by
  have resolved : disk.resolve ⟨name⟩ = if (disk.kindAt? (disk.current ++ [name])).isSome then
      .ok (disk.current ++ [name]) else .error .missing := by
    rw [resolve, if_neg legal.some_, legal.clean, if_neg Bool.false_ne_true, startOf,
      Path.isAbsolute_of_flat legal.flat, if_neg Bool.false_ne_true, Path.pieces_of_flat legal.flat,
      walk_cons, standing]
    simp [legal.some_, legal.here, legal.up, walk]
  rw [find, resolved, isSome_kindAt?]
  cases held : disk.entry? (disk.current ++ [name]) <;> simp [held, Except.toOption]

theorem find_join {name : String} (legal : LegalName name)
    (there : disk.directoryAt path = .ok place) :
    (disk.find (path.join name)).toOption = disk.entry? (place ++ [name]) := by
  have moved : disk.find (path.join name) = (disk.standingAt place).find ⟨name⟩ := by
    rw [find, find, resolve_join there legal.some_]
    rfl
  rw [moved]
  exact find_name legal (directoryAt_iff_steps.1 there).2.2.2

theorem has_eq_isSome_find (disk : Disk) (path : Path) :
    disk.has path = (disk.find path).toOption.isSome := by
  rw [has]
  cases disk.find path <;> rfl

end Disk

namespace ConfigFile

open Disk (way upward nearest)

variable {disk : Disk} {start path root : Path} {place : Place}

theorem legalName_of_marker : ∀ name ∈ markers, LegalName name := by decide

theorem isRoot_of_directory (there : disk.directoryAt path = .ok place) :
    isRoot disk path = disk.isMarked place := by
  rw [isRoot, Disk.isMarked, Bool.eq_iff_iff, List.any_eq_true, List.any_eq_true]
  refine exists_congr fun name => and_congr_right fun marker => ?_
  rw [Disk.has_eq_isSome_find, Disk.find_join (legalName_of_marker name marker) there]

theorem isRoot_empty (standing : disk.kindAt? disk.current = some true) :
    isRoot disk ⟨""⟩ = disk.isMarked disk.current := by
  rw [isRoot, Disk.isMarked, Bool.eq_iff_iff, List.any_eq_true, List.any_eq_true]
  refine exists_congr fun name => and_congr_right fun marker => ?_
  have legal := legalName_of_marker name marker
  have joined : (⟨""⟩ : Path).join name = ⟨name⟩ := by
    simp [Path.join, Path.isAbsolute_of_flat legal.flat]
  rw [joined, Disk.has_eq_isSome_find, Disk.find_name legal standing]

/-- The search leaves a path: of the places on the way only the current one is marked, and the path has
no name for it. -/
structure RunsOut (disk : Disk) (start : Path) : Prop where
  relative : start.isAbsolute = false
  bare : start.pieces.head? ≠ some "."
  unmarked : ∀ place ∈ (disk.way start).dropLast, disk.isMarked place = false
  marked : disk.isMarked disk.current = true

instance (disk : Disk) (start : Path) : Decidable (RunsOut disk start) :=
  decidable_of_iff
    (start.isAbsolute = false ∧ start.pieces.head? ≠ some "." ∧
      (∀ place ∈ (disk.way start).dropLast, disk.isMarked place = false) ∧
      disk.isMarked disk.current = true)
    ⟨fun ⟨relative, bare, unmarked, marked⟩ => ⟨relative, bare, unmarked, marked⟩,
      fun out => ⟨out.relative, out.bare, out.unmarked, out.marked⟩⟩

inductive Finds (disk : Disk) (start : Path) : Option Path → Prop
  | marked {root : Path} {place : Place} (there : disk.directoryAt root = .ok place)
      (first : (disk.way start).find? disk.isMarked = some place) (stays : ¬ RunsOut disk start) :
      Finds disk start (some root)
  | left (out : RunsOut disk start) : Finds disk start (some ⟨""⟩)
  | nothing (free : (disk.way start).find? disk.isMarked = none) (stays : ¬ RunsOut disk start) :
      Finds disk start none

theorem finds_cons {rest : List Path} (there : disk.directoryAt path = .ok place)
    {others : List Place} (passes : disk.way path = place :: others)
    (alone : others = [] → ¬ RunsOut disk path)
    (above : disk.isMarked place = false → Finds disk path (rest.find? (isRoot disk))) :
    Finds disk path ((path :: rest).find? (isRoot disk)) := by
  rw [List.find?_cons, isRoot_of_directory there]
  cases marked : disk.isMarked place with
  | false => exact above marked
  | true =>
    refine .marked there (by rw [passes, List.find?_cons, marked]) fun out => ?_
    by_cases none_ : others = []
    · exact alone none_ out
    · have free := out.unmarked place (by simp [passes, List.dropLast_cons_of_ne_nil none_])
      rw [marked] at free
      cases free

theorem ancestorsFrom_of_none (none_ : path.parent? = none) (fuel : Nat) :
    path.ancestorsFrom fuel = [path] := by
  cases fuel with
  | zero => rfl
  | succ fuel => rw [Path.ancestorsFrom, none_]

theorem finds_of_top (there : disk.directoryAt path = .ok place) (none_ : path.parent? = none)
    (absolute : path.isAbsolute = true) (stays : path.steps = []) (fuel : Nat) :
    Finds disk path ((path.ancestorsFrom fuel).find? (isRoot disk)) := by
  have passes : disk.way path = [place] := by
    rw [Disk.way_of_steps_nil stays, Disk.eq_of_directoryAt there, stays]
    rfl
  have inside : ¬ RunsOut disk path := fun out => by simpa [absolute] using out.relative
  rw [ancestorsFrom_of_none none_]
  refine finds_cons there passes (fun _ => inside) fun free => .nothing ?_ inside
  rw [passes, List.find?_cons, free, List.find?_nil]

-- Above a lone dot stands the empty path, which asks for the same place once more.
theorem finds_of_dot (there : disk.directoryAt path = .ok place) (parent : path.parent? = some ⟨""⟩)
    (relative : path.isAbsolute = false) (head : path.pieces.head? = some ".")
    (stays : path.steps = []) (fuel : Nat) :
    Finds disk path ((path.ancestorsFrom (fuel + 1)).find? (isRoot disk)) := by
  have start : disk.startOf path = disk.current := by
    rw [Disk.startOf, relative, if_neg Bool.false_ne_true]
  have here : place = disk.current := by
    rw [Disk.eq_of_directoryAt there, stays, ← start]
    rfl
  have passes : disk.way path = [place] := by rw [Disk.way_of_steps_nil stays, start, here]
  have standing := start ▸ Disk.kindAt?_startOf there
  have inside : ¬ RunsOut disk path := fun out => out.bare head
  rw [Path.ancestorsFrom, parent]
  refine finds_cons there passes (fun _ => inside) fun free => ?_
  have empty : isRoot disk ⟨""⟩ = false := by rw [isRoot_empty standing, ← here, free]
  rw [ancestorsFrom_of_none (by decide), List.find?_cons, empty]
  refine .nothing ?_ inside
  rw [passes, List.find?_cons, free, List.find?_nil]

theorem finds_of_out {name : String} (there : disk.directoryAt path = .ok place)
    (parent : path.parent? = some ⟨""⟩) (relative : path.isAbsolute = false)
    (bare : path.pieces.head? ≠ some ".") (steps : path.steps = [name]) (fuel : Nat) :
    Finds disk path ((path.ancestorsFrom (fuel + 1)).find? (isRoot disk)) := by
  have start : disk.startOf path = disk.current := by
    rw [Disk.startOf, relative, if_neg Bool.false_ne_true]
  have passes : disk.way path = [place, disk.current] := by
    have split : path.steps = [] ++ [name] := steps
    rw [Disk.way_of_steps_concat split, ← Disk.eq_of_directoryAt there, start]
    rfl
  have standing := start ▸ Disk.kindAt?_startOf there
  rw [Path.ancestorsFrom, parent]
  refine finds_cons there passes (by simp) fun free => ?_
  rw [ancestorsFrom_of_none (by decide), List.find?_cons, isRoot_empty standing]
  cases marked : disk.isMarked disk.current with
  | true => exact .left ⟨relative, bare, by simpa [passes] using free, marked⟩
  | false =>
    refine .nothing ?_ fun out => ?_
    · rw [passes, List.find?_cons, free, List.find?_cons, marked, List.find?_nil]
    · rw [out.marked] at marked
      cases marked

theorem runsOut_iff {above : Path} (passes : disk.way path = place :: disk.way above)
    (free : disk.isMarked place = false) (kept : above.isAbsolute = path.isAbsolute ∧
      above.pieces.head? = path.pieces.head?) : RunsOut disk path ↔ RunsOut disk above := by
  have present := disk.way_ne_nil above
  have places : (∀ other ∈ (disk.way path).dropLast, disk.isMarked other = false) ↔
      ∀ other ∈ (disk.way above).dropLast, disk.isMarked other = false := by
    rw [passes, List.dropLast_cons_of_ne_nil present, List.forall_mem_cons]
    exact and_iff_right free
  constructor
  · rintro ⟨relative, bare, unmarked, marked⟩
    exact ⟨kept.1.trans relative, kept.2 ▸ bare, places.1 unmarked, marked⟩
  · rintro ⟨relative, bare, unmarked, marked⟩
    exact ⟨kept.1.symm.trans relative, kept.2 ▸ bare, places.2 unmarked, marked⟩

theorem Finds.up {above : Path} {found : Option Path}
    (passes : disk.way path = place :: disk.way above) (free : disk.isMarked place = false)
    (kept : above.isAbsolute = path.isAbsolute ∧ above.pieces.head? = path.pieces.head?)
    (finds : Finds disk above found) : Finds disk path found := by
  have out := runsOut_iff passes free kept
  have find : (disk.way path).find? disk.isMarked = (disk.way above).find? disk.isMarked := by
    rw [passes, List.find?_cons, free]
  cases finds with
  | marked there first stays => exact .marked there (find.trans first) (mt out.1 stays)
  | left left => exact .left (out.2 left)
  | nothing none_ stays => exact .nothing (find.trans none_) (mt out.1 stays)

theorem finds_ancestors {fuel : Nat} (there : disk.directoryAt path = .ok place)
    (enough : path.height ≤ fuel) :
    Finds disk path ((path.ancestorsFrom fuel).find? (isRoot disk)) := by
  have some_ := (Disk.directoryAt_iff_steps.1 there).1
  induction fuel generalizing path place with
  | zero =>
    cases Path.climb some_ with
    | top parent absolute steps => exact finds_of_top there parent absolute steps 0
    | dot _ _ head _ => simp [Path.height, head] at enough
    | out name _ _ _ steps => simp [Path.height, steps] at enough
    | up above step _ _ _ steps _ => simp [Path.height, steps] at enough
  | succ fuel ih =>
    cases Path.climb some_ with
    | top parent absolute steps => exact finds_of_top there parent absolute steps (fuel + 1)
    | dot parent relative head steps => exact finds_of_dot there parent relative head steps fuel
    | out name parent relative bare steps =>
      exact finds_of_out there parent relative bare steps fuel
    | up above step parent present kept steps clean =>
      obtain ⟨-, nul, walked, -⟩ := Disk.directoryAt_iff_steps.1 there
      have start : disk.startOf path = disk.startOf above := by
        rw [Disk.startOf, Disk.startOf, kept.1]
      have passes : disk.way path = place :: disk.way above := by
        rw [Disk.way_of_steps_concat steps, ← Disk.eq_of_directoryAt there, start]
        rfl
      -- The last step was taken from a directory, and that is what the path above denotes.
      rw [steps, Disk.walk_append, start] at walked
      obtain ⟨between, before, last⟩ := Except.bind_eq_ok.1 walked
      have standing : disk.directoryAt above = .ok between := Disk.directoryAt_iff_steps.2
        ⟨present, clean nul, before, (Disk.walk_singleton last).1⟩
      have height : above.height ≤ fuel := by
        rw [Path.height_of_steps_concat kept.2 steps] at enough
        exact Nat.le_of_succ_le_succ enough
      rw [Path.ancestorsFrom, parent]
      refine finds_cons there passes (fun none_ => absurd none_ (disk.way_ne_nil above)) fun free => ?_
      exact (ih standing height present).up passes free kept

theorem detectRoot_cases (there : disk.directoryAt start = .ok place) :
    (RunsOut disk start ∧ detectRoot disk start = ⟨""⟩) ∨
      (¬ RunsOut disk start ∧ disk.directoryAt (detectRoot disk start) =
        .ok (((disk.way start).find? disk.isMarked).getD place)) := by
  have finds := finds_ancestors there start.height_le
  rw [detectRoot, Path.ancestors]
  generalize (Path.ancestorsFrom start.pieces.length start).find? (isRoot disk) = found at finds
  cases finds with
  | marked root first stays => exact .inr ⟨stays, by rw [first, Option.getD_some, Option.getD_some, root]⟩
  | left out => exact .inl ⟨out, rfl⟩
  | nothing free stays => exact .inr ⟨stays, by rw [free, Option.getD_none, Option.getD_none, there]⟩

/-- The search finds the nearest marked directory, the start or one above it, exactly if it does not leave
the path and no other marked place is passed later on the way. So it does from every start that is
absolute and does not step up. -/
theorem detectRoot_nearest_iff (there : disk.directoryAt start = .ok place) :
    (disk.directoryAt (detectRoot disk start) = .ok (disk.nearest place) ↔
      ¬ RunsOut disk start ∧
        ((disk.way start).find? disk.isMarked).getD place = disk.nearest place) ∧
    (start.isAbsolute = true → ".." ∉ start.pieces →
      disk.directoryAt (detectRoot disk start) = .ok (disk.nearest place)) := by
  have exactly : disk.directoryAt (detectRoot disk start) = .ok (disk.nearest place) ↔
      ¬ RunsOut disk start ∧
        ((disk.way start).find? disk.isMarked).getD place = disk.nearest place := by
    rcases detectRoot_cases there with ⟨out, root⟩ | ⟨stays, root⟩
    · rw [root]
      exact iff_of_false (by rintro ⟨⟩) fun ⟨stays, _⟩ => stays out
    · rw [root, Except.ok.injEq]
      exact (and_iff_right stays).symm
  refine ⟨exactly, fun absolute level => exactly.2 ⟨fun out => ?_, ?_⟩⟩
  · rw [out.relative] at absolute
    cases absolute
  · rw [Disk.way_eq_upward absolute level there]
    rfl

def nestedDisk : Disk where
  entries := [(["home"], .directory 0), (["home", "tycheck.toml"], .file [] 0),
    (["home", "src"], .directory 0), (["home", "src", "deep"], .directory 0),
    (["home", "src", "deep", ".git"], .directory 0), (["home", "src", "plain"], .directory 0)]
  current := ["home", "src"]
  clock := 1

theorem absolute_start_nearest :
    nestedDisk.directoryAt ⟨"/home/./src//plain/"⟩ = .ok ["home", "src", "plain"] ∧
      nestedDisk.nearest ["home", "src", "plain"] = ["home"] ∧
      nestedDisk.directoryAt (detectRoot nestedDisk ⟨"/home/./src//plain/"⟩) = .ok ["home"] := by
  have there : nestedDisk.directoryAt ⟨"/home/./src//plain/"⟩ = .ok ["home", "src", "plain"] := rfl
  exact ⟨there, by decide, (detectRoot_nearest_iff there).2 (by decide) (by decide)⟩

/-- A relative start is not followed above the place it starts from, what a step up leaves is searched
all the same, and a name alone is left for the empty path. -/
theorem nearest_root_missed :
    (nestedDisk.directoryAt ⟨"."⟩ = .ok ["home", "src"] ∧
      nestedDisk.nearest ["home", "src"] = ["home"] ∧
      detectRoot nestedDisk ⟨"."⟩ = ⟨"."⟩) ∧
    (nestedDisk.directoryAt ⟨"deep/.."⟩ = .ok ["home", "src"] ∧
      detectRoot nestedDisk ⟨"deep/.."⟩ = ⟨"deep"⟩ ∧
      nestedDisk.directoryAt ⟨"deep"⟩ = .ok ["home", "src", "deep"]) ∧
    ((nestedDisk.standingAt ["home"]).directoryAt ⟨"src"⟩ = .ok ["home", "src"] ∧
      detectRoot (nestedDisk.standingAt ["home"]) ⟨"src"⟩ = ⟨""⟩ ∧
      (nestedDisk.standingAt ["home"]).directoryAt ⟨""⟩ = .error .missing) := by
  refine ⟨⟨rfl, by decide, by decide⟩, ⟨rfl, by decide, rfl⟩, rfl, by decide, rfl⟩

end ConfigFile

end BuildGate
