import BuildGate.Proofs.Disk.Twin
import BuildGate.Proofs.Path.Parent

set_option autoImplicit false

namespace BuildGate

namespace Path

variable {path base : Path}

namespace Part

def ofStep (step : String) : Part := if step = ".." then up else name step

@[simp] theorem text_ofStep (step : String) : (ofStep step).text = step := by
  unfold ofStep
  split_ifs with climbs
  · exact climbs.symm
  · rfl

theorem ofStep_injective : Function.Injective ofStep :=
  Function.LeftInverse.injective text_ofStep

theorem ofStep_ne_up {step : String} (level : step ≠ "..") : ofStep step ≠ up :=
  ofStep_injective.ne level

theorem map_up (steps : List String) :
    (steps.map ofStep).map (fun _ => up) = (List.replicate steps.length "..").map ofStep := by
  induction steps with
  | nil => rfl
  | cons step steps ih =>
    rw [List.map_cons, List.map_cons, ih]
    rfl

theorem ofStep_ne_here (step : String) : ofStep step ≠ here := by
  unfold ofStep
  split_ifs <;> simp

theorem ofStep_ne_root (step : String) : ofStep step ≠ root := by
  unfold ofStep
  split_ifs <;> simp

theorem ofPiece_eq (piece : String) :
    ofPiece piece = if isIdle piece then none else some (ofStep piece) := by
  simp only [ofPiece, ofStep, isIdle_iff]
  split_ifs <;> rfl

theorem filterMap_ofPiece (pieces : List String) :
    pieces.filterMap ofPiece = (stepsOf pieces).map ofStep := by
  induction pieces with
  | nil => rfl
  | cons piece pieces ih =>
    cases idle : isIdle piece with
    | true =>
      rw [stepsOf_cons_idle idle, List.filterMap_cons_none (by rw [ofPiece_eq, idle]; rfl), ih]
    | false =>
      rw [stepsOf_cons idle, List.filterMap_cons_some (by rw [ofPiece_eq, idle]; rfl), ih,
        List.map_cons]

end Part

def lead (path : Path) : List Part :=
  if path.isAbsolute then [.root] else if path.pieces.head? = some "." then [.here] else []

theorem parts_eq_steps (path : Path) : path.parts = path.lead ++ path.steps.map Part.ofStep := by
  obtain ⟨first, rest, split⟩ := List.exists_cons_of_ne_nil (pieces_ne_nil path)
  rw [parts, lead, steps_of_pieces split, split, List.head?_cons]
  simp only [Part.filterMap_ofPiece, List.map_append, Option.some.injEq]
  by_cases absolute : path.isAbsolute = true
  · have some_ : path.text ≠ "" := by
      rintro empty
      rw [isAbsolute, empty] at absolute
      revert absolute
      decide
    have none_ : first = "" := by simpa [split] using (isAbsolute_iff_head? some_).1 absolute
    simp [absolute, none_, stepsOf_singleton, isIdle]
  · by_cases here : first = "."
    · simp [absolute, here, stepsOf_singleton, isIdle]
    · have own : (Part.ofPiece first).toList = (stepsOf [first]).map Part.ofStep := by
        rw [stepsOf_singleton, Part.ofPiece_eq]
        split_ifs <;> rfl
      simp [absolute, here, own]

theorem parts_eq_here_iff : path.parts = [.here] ↔
    path.isAbsolute = false ∧ path.pieces.head? = some "." ∧ path.steps = [] := by
  rw [parts_eq_steps, lead]
  split_ifs with absolute dotted
  · simp [absolute]
  · simp [absolute, dotted]
  · have other : path.steps.map Part.ofStep ≠ [.here] := fun same => by
      obtain ⟨step, -, rest⟩ := List.map_eq_singleton_iff.1 same
      exact Part.ofStep_ne_here step rest
    simp [dotted, other]

theorem mem_steps {step : String} :
    step ∈ path.steps ↔ step ∈ path.pieces ∧ isIdle step = false := by
  rw [steps, stepsOf, List.mem_filter, Bool.not_eq_true']

/-- Steps from where the steps of a base lead to where other steps lead: back over what only the base
has, and on. -/
inductive Retraces : List String → List String → List String → Prop
  | intro (shared : List String) {back : List String} (level : ".." ∉ back) (on : List String) :
      Retraces (shared ++ on) (shared ++ back) (List.replicate back.length ".." ++ on)

namespace Retraces

variable {front own steps : List String}

theorem of_front (shared on : List String) : Retraces (shared ++ on) shared on := by
  have level : ".." ∉ ([] : List String) := List.not_mem_nil
  simpa using Retraces.intro shared level on

theorem of_level (level : ".." ∉ own) (on : List String) :
    Retraces on own (List.replicate own.length ".." ++ on) :=
  .intro [] level on

theorem cons (step : String) (retraces : Retraces front own steps) :
    Retraces (step :: front) (step :: own) steps := by
  obtain ⟨shared, level, on⟩ := retraces
  exact .intro (step :: shared) level on

theorem mem (retraces : Retraces front own steps) {step : String} (member : step ∈ steps) :
    step = ".." ∨ step ∈ front := by
  obtain ⟨shared, level, on⟩ := retraces
  rcases List.mem_append.1 member with back | on
  · exact .inl (List.eq_of_mem_replicate back)
  · exact .inr (List.mem_append_right shared on)

end Retraces

theorem diffParts_steps {front own : List String} (leads : ".." ∉ own ∨ own <+: front) :
    ∃ steps, diffParts (front.map Part.ofStep) (own.map Part.ofStep) = some (steps.map Part.ofStep) ∧
      Retraces front own steps := by
  induction front generalizing own with
  | nil =>
    cases own with
    | nil => exact ⟨[], rfl, .of_front [] []⟩
    | cons step own =>
      have level : ".." ∉ step :: own := leads.resolve_right (by simp)
      have diff : diffParts [] ((step :: own).map Part.ofStep) =
          some (((step :: own).map Part.ofStep).map fun _ => .up) := rfl
      refine ⟨_, ?_, .of_level level []⟩
      rw [List.map_nil, diff, Part.map_up, List.append_nil]
  | cons step front ih =>
    cases own with
    | nil => exact ⟨step :: front, rfl, .of_front [] (step :: front)⟩
    | cons other own =>
      by_cases same : step = other
      · subst same
        have below : ".." ∉ own ∨ own <+: front :=
          leads.imp (mt (List.mem_cons_of_mem step)) fun inside =>
            (List.cons_prefix_cons.1 inside).2
        obtain ⟨steps, diff, retraces⟩ := ih below
        refine ⟨steps, ?_, retraces.cons step⟩
        rw [List.map_cons, List.map_cons, diffParts, if_pos rfl, diff]
      · have level : ".." ∉ other :: own := leads.resolve_right fun inside =>
          same (List.cons_prefix_cons.1 inside).1.symm
        have down : Part.ofStep other ≠ .up :=
          Part.ofStep_ne_up fun climbs => level (climbs ▸ List.mem_cons_self)
        refine ⟨_, ?_, .of_level level (step :: front)⟩
        rw [List.map_cons, List.map_cons, diffParts, if_neg (Part.ofStep_injective.ne same), diffRest,
          if_neg (Part.ofStep_ne_here other), if_neg down, Part.map_up, List.length_cons,
          List.map_append]
        rfl

theorem diffParts_append (front path base : List Part) :
    diffParts (front ++ path) (front ++ base) = diffParts path base := by
  induction front with
  | nil => rfl
  | cons part front ih => rw [List.cons_append, List.cons_append, diffParts, if_pos rfl, ih]

-- A dot that a path starts with stays in front of its steps when the base has steps only.
theorem diffParts_dotted {own : List String} (level : ".." ∉ own) (front : List Part) :
    diffParts (.here :: front) (own.map Part.ofStep) =
      some ((List.replicate own.length "..").map Part.ofStep ++ .here :: front) := by
  cases own with
  | nil => rfl
  | cons step own =>
    have down : Part.ofStep step ≠ .up :=
      Part.ofStep_ne_up fun climbs => level (climbs ▸ List.mem_cons_self)
    rw [List.map_cons, diffParts, if_neg (Part.ofStep_ne_here step).symm, diffRest,
      if_neg (Part.ofStep_ne_here step), if_neg down, Part.map_up]
    rfl

theorem diffParts_here {steps : List String} (present : steps ≠ []) :
    diffParts (steps.map Part.ofStep) [.here] = some (steps.map Part.ofStep) := by
  obtain ⟨step, rest, rfl⟩ := List.exists_cons_of_ne_nil present
  simp [diffParts, diffRest, Part.ofStep_ne_here step]

structure Seen (path base : Path) (parts : List Part) (steps : List String) : Prop where
  diff : diffParts path.parts base.parts = some parts
  retraces : Retraces path.steps base.steps steps
  counted : stepsOf (parts.map Part.text) = steps
  own : ∀ part ∈ parts, part = .up ∨ part ∈ path.parts ∧ part ≠ .root
  ends : ∀ part ∈ parts.getLast?, isIdle part.text = false

theorem stepsOf_steps (path : Path) : stepsOf path.steps = path.steps :=
  List.filter_filter .. |>.trans (by simp [steps, stepsOf])

theorem ofStep_mem_parts {step : String} (member : step ∈ path.steps) :
    Part.ofStep step ∈ path.parts := by
  rw [parts_eq_steps]
  exact List.mem_append_right _ (List.mem_map_of_mem member)

theorem map_text_ofStep (steps : List String) : (steps.map Part.ofStep).map Part.text = steps := by
  simp [Function.comp_def]

theorem stepsOf_replicate_up (n : Nat) :
    stepsOf (List.replicate n "..") = List.replicate n ".." := by
  rw [stepsOf, List.filter_eq_self]
  intro step member
  rw [List.eq_of_mem_replicate member]
  rfl

theorem Retraces.counted {steps own : List String} (retraces : Retraces path.steps own steps)
    {step : String} (member : step ∈ steps) : isIdle step = false := by
  rcases retraces.mem member with rfl | inside
  · rfl
  · exact (mem_steps.1 inside).2

namespace Seen

variable {steps : List String}

theorem of_steps (diff : diffParts path.parts base.parts = some (steps.map Part.ofStep))
    (retraces : Retraces path.steps base.steps steps) :
    Seen path base (steps.map Part.ofStep) steps where
  diff := diff
  retraces := retraces
  counted := by
    rw [map_text_ofStep, stepsOf, List.filter_eq_self]
    intro step member
    rw [retraces.counted member]
    rfl
  own := by
    intro part member
    obtain ⟨step, inside, rfl⟩ := List.mem_map.1 member
    rcases retraces.mem inside with rfl | own
    · exact .inl rfl
    · exact .inr ⟨ofStep_mem_parts own, Part.ofStep_ne_root step⟩
  ends := by
    intro part last
    obtain ⟨step, member, rfl⟩ := List.mem_map.1 (List.mem_of_getLast? last)
    rw [Part.text_ofStep]
    exact retraces.counted member

theorem of_dotted (dotted : path.parts = .here :: path.steps.map Part.ofStep)
    (bare : base.parts = base.steps.map Part.ofStep) (level : ".." ∉ base.steps)
    (present : path.steps ≠ []) :
    Seen path base ((List.replicate base.steps.length "..").map Part.ofStep ++ path.parts)
      (List.replicate base.steps.length ".." ++ path.steps) where
  diff := by
    rw [dotted, bare]
    exact diffParts_dotted level _
  retraces := .of_level level path.steps
  counted := by
    have own : path.parts.map Part.text = "." :: path.steps := by
      rw [dotted, List.map_cons, map_text_ofStep]
      rfl
    rw [List.map_append, map_text_ofStep, own, stepsOf_append, stepsOf_replicate_up,
      stepsOf_cons_idle (by decide), stepsOf_steps]
  own := by
    intro part member
    rcases List.mem_append.1 member with back | own
    · obtain ⟨step, up, rfl⟩ := List.mem_map.1 back
      rw [List.eq_of_mem_replicate up]
      exact .inl rfl
    · refine .inr ⟨own, ?_⟩
      rw [dotted] at own
      rcases List.mem_cons.1 own with rfl | after
      · simp
      · obtain ⟨step, -, rfl⟩ := List.mem_map.1 after
        exact Part.ofStep_ne_root step
  ends := by
    obtain ⟨front, last, split⟩ := List.eq_nil_or_concat' path.steps |>.resolve_left present
    have own : path.parts = (.here :: front.map Part.ofStep) ++ [Part.ofStep last] := by
      rw [dotted, split, List.map_append]
      rfl
    intro part ending
    rw [own, ← List.append_assoc, List.getLast?_concat] at ending
    obtain rfl := Option.mem_some_iff.1 ending
    rw [Part.text_ofStep]
    exact (mem_steps.1 (split ▸ List.mem_append_right front (List.mem_singleton_self last))).2

end Seen

theorem exists_seen (form : path.isAbsolute = base.isAbsolute)
    (bare : base.pieces.head? = some "." → base.steps = [])
    (leads : ".." ∉ base.steps ∨ base.steps <+: path.steps ∧ path.lead = base.lead)
    (present : path.steps ≠ []) : ∃ parts steps, Seen path base parts steps := by
  have plainly (same : diffParts path.parts base.parts =
      diffParts (path.steps.map Part.ofStep) (base.steps.map Part.ofStep)) :
      ∃ parts steps, Seen path base parts steps := by
    obtain ⟨steps, diff, retraces⟩ := diffParts_steps (leads.imp_right And.left)
    exact ⟨_, steps, .of_steps (same.trans diff) retraces⟩
  by_cases alike : path.lead = base.lead
  · refine plainly ?_
    rw [parts_eq_steps path, parts_eq_steps base, alike]
    exact diffParts_append _ _ _
  have relative : base.isAbsolute = false := by
    rw [← Bool.not_eq_true]
    exact fun absolute => alike (by simp [lead, form, absolute])
  rw [lead, lead, form, relative, if_neg Bool.false_ne_true, if_neg Bool.false_ne_true] at alike
  by_cases dotted : base.pieces.head? = some "."
  · have own : path.pieces.head? ≠ some "." := fun own => alike (by rw [own, dotted])
    refine ⟨path.steps.map Part.ofStep, path.steps, .of_steps ?_ ?_⟩
    · rw [parts_eq_steps path, parts_eq_steps base, bare dotted, lead, lead, form, relative,
        if_neg Bool.false_ne_true, if_neg Bool.false_ne_true, if_neg own, if_pos dotted]
      exact diffParts_here present
    · rw [bare dotted]
      exact .of_front [] path.steps
  · have own : path.pieces.head? = some "." := by
      by_contra other
      exact alike (by rw [if_neg other, if_neg dotted])
    have level : ".." ∉ base.steps := by
      refine leads.resolve_right fun inside => ?_
      have same := inside.2
      rw [lead, lead, form, relative] at same
      simp [own, dotted] at same
    refine ⟨_, _, .of_dotted ?_ ?_ level present⟩
    · rw [parts_eq_steps, lead, form, relative, if_neg Bool.false_ne_true, if_pos own]
      rfl
    · rw [parts_eq_steps, lead, relative, if_neg Bool.false_ne_true, if_neg dotted]
      rfl

theorem text_of_mem_parts {part : Part} (member : part ∈ path.parts) (inner : part ≠ .root) :
    part.text ∈ path.pieces ∧ part.text ≠ "" := by
  rw [parts_eq_steps, List.mem_append] at member
  rcases member with leading | step
  · rw [lead] at leading
    split_ifs at leading with absolute dotted
    · exact absurd (List.mem_singleton.1 leading) inner
    · rw [List.mem_singleton.1 leading]
      exact ⟨List.mem_of_mem_head? dotted, by decide⟩
    · cases leading
  · obtain ⟨step, own, rfl⟩ := List.mem_map.1 step
    obtain ⟨member, counts⟩ := mem_steps.1 own
    rw [Part.text_ofStep]
    exact ⟨member, fun none_ => by simp [none_, isIdle] at counts⟩

theorem ofParts_concat (front : List Part) (last : Part) :
    ofParts (front ++ [last]) = (ofParts front).join last.text := by
  rw [ofParts, List.foldl_append]
  rfl

def Told (parts : List Part) : Prop := ∀ part ∈ parts, '/' ∉ part.text.toList ∧ part.text ≠ ""

theorem isAbsolute_ofParts {parts : List Part} (told : Told parts) :
    (ofParts parts).isAbsolute = false := by
  induction parts using List.reverseRecOn with
  | nil => rfl
  | append_singleton front last ih =>
    have flat := (told last (by simp)).1
    rw [ofParts_concat, isAbsolute_join (isAbsolute_of_flat flat)]
    exact ih fun part member => told part (List.mem_append_left _ member)

theorem pieces_ofParts {parts : List Part} (told : Told parts) (present : parts ≠ []) :
    (ofParts parts).pieces = parts.map Part.text := by
  induction parts using List.reverseRecOn with
  | nil => exact absurd rfl present
  | append_singleton front last ih =>
    have flat := (told last (by simp)).1
    rw [ofParts_concat]
    by_cases alone : front = []
    · subst alone
      have joined : (⟨""⟩ : Path).join last.text = ⟨last.text⟩ := by
        simp [join, isAbsolute_of_flat flat]
      exact (congrArg pieces joined).trans (pieces_of_flat flat)
    · have before : Told front := fun part member => told part (List.mem_append_left _ member)
      obtain ⟨own, kept | ended, -, split⟩ := pieces_join flat (ofParts front)
      · rw [split, ← kept, ih before alone, List.map_append]
        rfl
      · -- The text does not end in a slash, since no part is empty.
        rw [ih before alone] at ended
        obtain ⟨part, member, empty⟩ := List.mem_map.1
          (ended.symm ▸ List.mem_append_right own (List.mem_singleton_self ""))
        exact absurd empty (before part member).2

theorem Seen.told {parts : List Part} {steps : List String} (seen : Seen path base parts steps) :
    Told parts := by
  intro part member
  rcases seen.own part member with rfl | ⟨own, inner⟩
  · decide
  · obtain ⟨piece, some_⟩ := text_of_mem_parts own inner
    exact ⟨flat_of_mem_pieces piece, some_⟩

theorem relativeTo?_below {on : List String} (steps : path.steps = base.steps ++ on) (present : on ≠ [])
    (form : path.isAbsolute = base.isAbsolute)
    (leads : path.lead = base.lead ∨ base.parts = [.here]) :
    ∃ relative, path.relativeTo? base = some relative ∧ relative.pieces = on := by
  have diff : diffParts path.parts base.parts = some (on.map Part.ofStep) := by
    by_cases alike : path.lead = base.lead
    · have behind : path.parts = base.parts ++ on.map Part.ofStep := by
        rw [parts_eq_steps path, parts_eq_steps base, alike, steps, List.map_append, List.append_assoc]
      have shared := diffParts_append base.parts (on.map Part.ofStep) []
      rw [List.append_nil] at shared
      rw [behind, shared]
      obtain ⟨step, rest, rfl⟩ := List.exists_cons_of_ne_nil present
      rfl
    · have here := leads.resolve_left alike
      obtain ⟨relative, dotted, idle⟩ := parts_eq_here_iff.1 here
      have own : path.pieces.head? ≠ some "." := fun own =>
        alike (by rw [lead, lead, form, own, dotted])
      rw [here, parts_eq_steps path, lead, form, relative, if_neg Bool.false_ne_true, if_neg own, steps,
        idle]
      exact diffParts_here present
  have seen : Seen path base (on.map Part.ofStep) on :=
    .of_steps diff (steps ▸ .of_front base.steps on)
  refine ⟨ofParts (on.map Part.ofStep), ?_, ?_⟩
  · rw [relativeTo?, if_pos form, diff]
    rfl
  · rw [pieces_ofParts seen.told (by simpa using present), map_text_ofStep]

end Path

namespace Disk

variable {disk : Disk} {path base : Path} {place reached : Place}

/-- A process that goes along a path ends up in a directory. Unlike `directoryAt` this holds of the empty
path as well, which other paths can be put below. -/
structure Enters (disk : Disk) (path : Path) (place : Place) : Prop where
  clean : holdsNul path.text = false
  walked : disk.walk (disk.startOf path) path.steps = .ok place
  standing : disk.kindAt? place = some true

theorem enters_of_directoryAt (there : disk.directoryAt path = .ok place) : disk.Enters path place := by
  obtain ⟨-, clean, walked, standing⟩ := directoryAt_iff_steps.1 there
  exact ⟨clean, walked, standing⟩

theorem walk_back {own : List String} (walked : disk.walk place own = .ok reached)
    (standing : disk.kindAt? reached = some true) (counted : ∀ step ∈ own, Path.isIdle step = false)
    (level : ".." ∉ own) : disk.walk reached (List.replicate own.length "..") = .ok place := by
  induction own using List.reverseRecOn generalizing reached with
  | nil =>
    cases walked
    rfl
  | append_singleton front last ih =>
    rw [walk_append] at walked
    obtain ⟨between, before, step⟩ := Except.bind_eq_ok.1 walked
    obtain ⟨directory, ends⟩ := walk_singleton step
    have down : last ≠ ".." := fun climbs => level (by simp [climbs])
    have counts : Path.isIdle last = false := counted last (by simp)
    have above : reached.dropLast = between := by
      rw [ends, Path.stepsOf_cons counts, Path.stepsOf_nil, List.foldl_cons, List.foldl_nil,
        Place.toward, if_neg down, List.dropLast_concat]
    rw [List.length_append, List.length_singleton, List.replicate_succ, walk_cons, standing]
    have climbs : ¬ (".." = "" ∨ ".." = ".") := by decide
    simp only [climbs, if_false, if_true, above]
    exact ih before directory (fun step member => counted step (List.mem_append_left _ member))
      fun member => level (List.mem_append_left _ member)

theorem walk_retraces {front own steps : List String} {start : Place}
    (retraces : Path.Retraces front own steps) (walked : disk.walk start front = .ok reached)
    (based : disk.walk start own = .ok place) (standing : disk.kindAt? place = some true)
    (counted : ∀ step ∈ own, Path.isIdle step = false) : disk.walk place steps = .ok reached := by
  obtain ⟨shared, level, on⟩ := retraces
  rw [walk_append] at walked based ⊢
  obtain ⟨between, first, ahead⟩ := Except.bind_eq_ok.1 walked
  obtain ⟨_, again, aside⟩ := Except.bind_eq_ok.1 based
  obtain rfl := Except.ok.inj (first.symm.trans again)
  have back := walk_back aside standing
    (fun step member => counted step (List.mem_append_right _ member)) level
  rw [back]
  exact ahead

theorem resolve_join_of_walk {inner : String} (entered : disk.Enters base place) (named : inner ≠ "")
    (relative : (⟨inner⟩ : Path).isAbsolute = false) (clean : holdsNul inner = false)
    (walked : disk.walk place (⟨inner⟩ : Path).pieces = .ok reached) :
    disk.resolve (base.join inner) = .ok reached := by
  have behind : disk.walk (disk.startOf base) base.pieces = .ok place :=
    walk_of_stepsOf entered.walked fun _ _ _ => entered.standing
  refine resolve_eq_ok.2 ⟨?_, ?_, ?_⟩
  · rcases Path.join_cases relative base with ⟨-, joined⟩ | ⟨front, -, joined⟩ | ⟨-, joined⟩ <;>
      simp [joined, named]
  · rw [Path.holdsNul_join relative, entered.clean, clean]
    rfl
  · rw [startOf, Path.isAbsolute_join relative, ← startOf, walk_join _ _ _ relative, behind]
    exact walked

theorem last_of_resolve (resolved : disk.resolve path = .ok reached)
    (other : disk.kindAt? reached ≠ some true) :
    ∃ front last, path.pieces = front ++ [last] ∧ Path.isIdle last = false := by
  obtain ⟨front, last, split⟩ :=
    List.eq_nil_or_concat' path.pieces |>.resolve_left (Path.pieces_ne_nil path)
  refine ⟨front, last, split, ?_⟩
  have walked := (resolve_eq_ok.1 resolved).2.2
  rw [split, walk_append] at walked
  obtain ⟨between, -, step⟩ := Except.bind_eq_ok.1 walked
  obtain ⟨directory, ends⟩ := walk_singleton step
  cases idle : Path.isIdle last with
  | false => rfl
  | true =>
    rw [Path.stepsOf_cons_idle idle] at ends
    exact absurd (ends ▸ directory) other

theorem resolve_seen {parts : List Path.Part} {steps : List String}
    (seen : Path.Seen path base parts steps) (form : path.isAbsolute = base.isAbsolute)
    (entered : disk.Enters base place) (resolved : disk.resolve path = .ok reached)
    (other : disk.kindAt? reached ≠ some true) :
    disk.resolve (base.join (Path.ofParts parts).text) = .ok reached := by
  obtain ⟨-, clean, walked⟩ := resolve_eq_ok.1 resolved
  have start : disk.startOf path = disk.startOf base := by rw [startOf, startOf, form]
  have below : disk.walk place steps = .ok reached := by
    refine walk_retraces seen.retraces (start ▸ walk_stepsOf walked) entered.walked entered.standing ?_
    exact fun step member => (Path.mem_steps.1 member).2
  have present : parts ≠ [] := by
    rintro rfl
    obtain rfl : [] = steps := seen.counted
    obtain rfl : place = reached := Except.ok.inj below
    exact other entered.standing
  have pieces := Path.pieces_ofParts seen.told present
  have relative := Path.isAbsolute_ofParts seen.told
  have inner : disk.walk place (Path.ofParts parts).pieces = .ok reached := by
    refine walk_of_stepsOf ?_ ?_
    · rw [pieces, seen.counted, below]
    · intro piece last idle
      rw [pieces, List.getLast?_map] at last
      obtain ⟨part, ending, rfl⟩ := Option.map_eq_some_iff.1 last
      rw [seen.ends part ending] at idle
      cases idle
  have unnamed : holdsNul (Path.ofParts parts).text = false := by
    rw [Path.holdsNul_eq_any, List.any_eq_false] at clean
    rw [Path.holdsNul_eq_any, pieces, List.any_eq_false]
    intro piece member
    obtain ⟨part, inside, rfl⟩ := List.mem_map.1 member
    rcases seen.own part inside with rfl | ⟨own, below⟩
    · decide
    · exact clean _ (Path.text_of_mem_parts own below).1
  have named : (Path.ofParts parts).text ≠ "" := by
    intro empty
    obtain ⟨part, rest, rfl⟩ := List.exists_cons_of_ne_nil present
    have head : (⟨""⟩ : Path).pieces.head? = some part.text := by
      rw [← empty]
      exact congrArg List.head? pieces
    exact (seen.told part List.mem_cons_self).2 (Option.some.inj head).symm
  exact resolve_join_of_walk entered named relative unnamed inner

end Disk

end BuildGate
