import BuildGate.Proofs.Project
import BuildGate.Proofs.Text.Order
import Mathlib.Data.List.Sort
import Mathlib.Data.Option.Basic

set_option autoImplicit false

namespace BuildGate

namespace Glob

structure Compiles (pattern : String) : Prop where
  whole : ∃ tokens, parse pattern = .ok tokens
  components :
    let rest := if pattern.toList.head? = some '/' then pattern.toList.drop 1 else pattern.toList
    ∀ text ∈ componentTexts rest, ∃ tokens, parse (String.ofList text) = .ok tokens

theorem exists_search (disk : Disk) {pattern : String} :
    (∃ paths, search disk pattern = .ok paths) ↔ Compiles pattern := by
  unfold search
  simp only [Except.bind_eq_ok]
  constructor
  · rintro ⟨paths, tokens, whole, patterns, each, -⟩
    exact ⟨⟨tokens, whole⟩, by simpa using Except.exists_mapM.1 ⟨patterns, each⟩⟩
  · rintro ⟨⟨tokens, whole⟩, components⟩
    obtain ⟨patterns, each⟩ := Except.exists_mapM.2 components
    exact ⟨_, tokens, whole, patterns, by simpa using each, rfl⟩

end Glob

namespace Project

def sought (base : Path) (entry : String) : String := (base.join (expandDirectory entry)).text

def Finds (disk : Disk) (base : Path) (entry : String) (path : Path) : Prop :=
  ∃ paths, Glob.search disk (sought base entry) = .ok paths ∧ path ∈ paths

def Bars (entry name : String) : Prop :=
  ∃ text ∈ exclusionTexts entry, ∃ pattern, Glob.parse text = .ok pattern ∧
    pattern.matches name = true

namespace Selection

variable {disk : Disk} {base : Path} {selection other : Selection}

structure Compiles (base : Path) (selection : Selection) : Prop where
  patterns : ∀ entry ∈ selection.patterns, Glob.Compiles (sought base entry)
  excluded : ∀ entry ∈ selection.excluded, ∀ text ∈ exclusionTexts entry,
    ∃ pattern, Glob.parse text = .ok pattern

def Picks (disk : Disk) (base : Path) (selection : Selection) (name : String) : Prop :=
  ∃ entry ∈ selection.patterns, ∃ path, Finds disk base entry path ∧
    disk.isFile path = true ∧ isSource path = true ∧ nameOf base path = name

/-- The specification of a project's files. -/
def Selects (disk : Disk) (base : Path) (selection : Selection) (name : String) : Prop :=
  name ∈ selection.files ∨
    Picks disk base selection name ∧ ∀ entry ∈ selection.excluded, ¬ Bars entry name

theorem Compiles.of_subset (compiles : selection.Compiles base)
    (patterns : other.patterns ⊆ selection.patterns)
    (excluded : other.excluded ⊆ selection.excluded) : other.Compiles base :=
  ⟨fun entry listed => compiles.patterns entry (patterns listed),
    fun entry listed => compiles.excluded entry (excluded listed)⟩

structure Within (selection other : Selection) : Prop where
  files : selection.files ⊆ other.files
  patterns : selection.patterns ⊆ other.patterns
  excluded : other.excluded ⊆ selection.excluded

theorem Within.selects (within : selection.Within other) {name : String}
    (selected : selection.Selects disk base name) : other.Selects disk base name := by
  rcases selected with listed | ⟨⟨entry, listed, found⟩, free⟩
  · exact .inl (within.files listed)
  · exact .inr ⟨⟨entry, within.patterns listed, found⟩,
      fun entry listed => free entry (within.excluded listed)⟩

end Selection

theorem parsePattern_eq_ok {text : String} {pattern : Glob.Pattern} :
    parsePattern text = .ok pattern ↔ Glob.parse text = .ok pattern := by
  unfold parsePattern
  split <;> simp [*]

theorem exists_exclusions {excluded : List String} :
    (∃ patterns, exclusions excluded = .ok patterns) ↔
      ∀ entry ∈ excluded, ∀ text ∈ exclusionTexts entry, ∃ pattern,
        Glob.parse text = .ok pattern := by
  simp only [exclusions, Except.exists_mapM, parsePattern_eq_ok, List.forall_mem_flatMap]

theorem any_matches_iff {excluded : List String} {patterns : List Glob.Pattern}
    (compiled : exclusions excluded = .ok patterns) (name : String) :
    patterns.any (·.matches name) = true ↔ ∃ entry ∈ excluded, Bars entry name := by
  simp only [List.any_eq_true, Except.mem_of_mapM compiled, parsePattern_eq_ok, List.mem_flatMap, Bars]
  constructor
  · rintro ⟨pattern, ⟨text, ⟨entry, listed, meant⟩, read⟩, hit⟩
    exact ⟨entry, listed, text, meant, pattern, read, hit⟩
  · rintro ⟨entry, listed, text, meant, pattern, read, hit⟩
    exact ⟨pattern, ⟨text, ⟨entry, listed, meant⟩, read⟩, hit⟩

theorem exists_included {disk : Disk} {base : Path} {patterns : List Glob.Pattern} {entry : String} :
    (∃ names, included disk base patterns entry = .ok names) ↔ Glob.Compiles (sought base entry) := by
  simp only [included_eq_ok, ← Glob.exists_search disk, sought]
  constructor
  · rintro ⟨names, paths, found, -⟩
    exact ⟨paths, found⟩
  · rintro ⟨paths, found⟩
    exact ⟨_, paths, found, rfl⟩

theorem mem_included {disk : Disk} {base : Path} {excluded : List String}
    {patterns : List Glob.Pattern} (compiled : exclusions excluded = .ok patterns)
    {entry : String} {names : List String}
    (searched : included disk base patterns entry = .ok names) {name : String} :
    name ∈ names ↔
      (∃ path, Finds disk base entry path ∧ disk.isFile path = true ∧ isSource path = true ∧
        nameOf base path = name) ∧ ∀ other ∈ excluded, ¬ Bars other name := by
  obtain ⟨paths, found, rfl⟩ := included_eq_ok.1 searched
  have barred := any_matches_iff compiled name
  simp only [List.mem_filter, List.mem_map, Bool.and_eq_true, Bool.not_eq_true', and_assoc,
    ← Bool.not_eq_true, barred, not_exists, not_and, Finds, sought, found, Except.ok.injEq,
    exists_eq_left']

namespace Selection

variable {disk : Disk} {base : Path} {members : List (String × Json)} {selection : Selection}

theorem exists_resolve (disk : Disk) (said : selection? members = .ok selection) :
    (∃ project, resolve disk (.object members) base = .ok project) ↔ selection.Compiles base := by
  simp only [resolve_eq_ok]
  constructor
  · rintro ⟨_, _, same, patterns, found, ⟨⟩, again, compiled, searched, -⟩
    obtain rfl : selection = same := Except.ok.inj (said.symm.trans again)
    exact ⟨fun entry listed => exists_included.1 (Except.exists_mapM.1 ⟨found, searched⟩ entry listed),
      exists_exclusions.1 ⟨patterns, compiled⟩⟩
  · rintro ⟨each, excluded⟩
    obtain ⟨patterns, compiled⟩ := exists_exclusions.2 excluded
    obtain ⟨found, searched⟩ := Except.exists_mapM.2 fun entry listed =>
      exists_included.2 (each entry listed)
    exact ⟨_, members, selection, patterns, found, rfl, said, compiled, searched, rfl⟩

theorem mem_files (said : selection? members = .ok selection) {project : Project}
    (resolved : resolve disk (.object members) base = .ok project) {name : String} :
    name ∈ project.files ↔ selection.Selects disk base name := by
  obtain ⟨_, same, patterns, found, ⟨⟩, again, compiled, searched, rfl⟩ := resolve_eq_ok.1 resolved
  obtain rfl : selection = same := Except.ok.inj (said.symm.trans again)
  simp only [mem_sortNames, List.mem_append, List.mem_flatten, Except.mem_of_mapM searched, Selects,
    Picks]
  constructor
  · rintro (listed | ⟨names, ⟨entry, listed, each⟩, member⟩)
    · exact .inl listed
    · obtain ⟨⟨path, held⟩, free⟩ := (mem_included compiled each).1 member
      exact .inr ⟨⟨entry, listed, path, held⟩, free⟩
  · rintro (listed | ⟨⟨entry, listed, path, held⟩, free⟩)
    · exact .inl listed
    · obtain ⟨names, each⟩ := Except.exists_mapM.1 ⟨found, searched⟩ entry listed
      exact .inr ⟨names, ⟨entry, listed, each⟩, (mem_included compiled each).2 ⟨⟨path, held⟩, free⟩⟩

end Selection

theorem files_sorted {disk : Disk} {object : Json} {base : Path} {project : Project}
    (resolved : resolve disk object base = .ok project) : project.files.Pairwise (· < ·) := by
  obtain ⟨_, _, _, _, -, -, -, -, rfl⟩ := resolve_eq_ok.1 resolved
  exact sortNames_sorted _

/-- The lists of a project object, of which any may be left out. -/
structure Lists where
  files : Option (List String)
  patterns : Option (List String)
  excluded : Option (List String)

def SameEntries (texts others : List String) : Prop := ∀ text, text ∈ texts ↔ text ∈ others

namespace Lists

structure Of (lists : Lists) (members : List (String × Json)) : Prop where
  files : members.lookup "files" = lists.files.map .ofTexts
  patterns : members.lookup "include" = lists.patterns.map .ofTexts
  excluded : members.lookup "exclude" = lists.excluded.map .ofTexts

structure Alike (lists others : Lists) : Prop where
  files : Option.Rel SameEntries lists.files others.files
  patterns : Option.Rel SameEntries lists.patterns others.patterns
  excluded : Option.Rel SameEntries lists.excluded others.excluded

def selection (lists : Lists) : Selection where
  files := lists.files.getD []
  patterns := lists.patterns.getD (if lists.files.isSome then [] else ["**/*"])
  excluded := lists.excluded.getD ["node_modules"]

variable {lists others : Lists} {members : List (String × Json)}

theorem Of.selection?_eq (stated : lists.Of members) :
    selection? members = .ok lists.selection := by
  have given : (members.lookup "files").isSome = lists.files.isSome := by
    rw [stated.files, Option.isSome_map]
  unfold selection?
  rw [strings?_eq_ok.2 stated.files, strings?_eq_ok.2 stated.patterns,
    strings?_eq_ok.2 stated.excluded, given]
  rfl

theorem getD_subset {texts others : Option (List String)} (same : Option.Rel SameEntries texts others)
    (default : List String) :
    texts.getD default ⊆ others.getD default ∧ others.getD default ⊆ texts.getD default := by
  cases same with
  | none => exact ⟨List.Subset.refl _, List.Subset.refl _⟩
  | some same => exact ⟨fun text => (same text).1, fun text => (same text).2⟩

theorem Alike.isSome_eq {texts others : Option (List String)}
    (same : Option.Rel SameEntries texts others) : texts.isSome = others.isSome := by
  cases same <;> rfl

theorem Alike.symm (alike : lists.Alike others) : others.Alike lists := by
  have flip {texts others : Option (List String)} (same : Option.Rel SameEntries texts others) :
      Option.Rel SameEntries others texts := by
    cases same with
    | none => exact .none
    | some same => exact .some fun text => (same text).symm
  exact ⟨flip alike.files, flip alike.patterns, flip alike.excluded⟩

theorem Alike.within (alike : lists.Alike others) : lists.selection.Within others.selection where
  files := (getD_subset alike.files []).1
  patterns := by
    simp only [selection, Alike.isSome_eq alike.files]
    exact (getD_subset alike.patterns _).1
  excluded := (getD_subset alike.excluded _).2

theorem within_of_patterns {patterns more : List String} (given : lists.patterns = some patterns)
    (wider : patterns ⊆ more) :
    lists.selection.Within ({ lists with patterns := some more } : Lists).selection where
  files := List.Subset.refl _
  patterns := by simpa only [selection, given, Option.getD_some] using wider
  excluded := List.Subset.refl _

theorem within_of_excluded {excluded more : List String} (given : lists.excluded = some excluded)
    (wider : excluded ⊆ more) :
    ({ lists with excluded := some more } : Lists).selection.Within lists.selection where
  files := List.Subset.refl _
  patterns := List.Subset.refl _
  excluded := by simpa only [selection, given, Option.getD_some] using wider

end Lists

/-- A project resolves when its patterns compile, and then to the names that it selects, sorted by
their bytes. The order of entries and their repetition do not count, a further pattern takes no file
away, and a further exclusion adds none. -/
theorem resolve_selects (disk : Disk) (base : Path) {members : List (String × Json)} {lists : Lists}
    (stated : lists.Of members) :
    ((∃ project, resolve disk (.object members) base = .ok project) ↔
      lists.selection.Compiles base) ∧
    ∀ project, resolve disk (.object members) base = .ok project →
      project.files.Pairwise (fun first second => Text.encode first < Text.encode second) ∧
      (∀ name, name ∈ project.files ↔ lists.selection.Selects disk base name) ∧
      (∀ others again, Lists.Of others again → lists.Alike others →
        optionsOf again = optionsOf members →
        resolve disk (.object again) base = .ok project) ∧
      (∀ patterns more again wider, lists.patterns = some patterns → patterns ⊆ more →
        Lists.Of { lists with patterns := some more } again →
        resolve disk (.object again) base = .ok wider → project.files ⊆ wider.files) ∧
      (∀ excluded more again narrower, lists.excluded = some excluded → excluded ⊆ more →
        Lists.Of { lists with excluded := some more } again →
        resolve disk (.object again) base = .ok narrower → narrower.files ⊆ project.files) := by
  have said := stated.selection?_eq
  refine ⟨Selection.exists_resolve disk said, fun project resolved => ?_⟩
  have selects (name : String) :
      name ∈ project.files ↔ lists.selection.Selects disk base name :=
    Selection.mem_files said resolved
  refine ⟨?_, selects, ?_, ?_, ?_⟩
  · simp only [Text.encode_lt_encode]
    exact files_sorted resolved
  · intro others again restated alike options
    have resaid := restated.selection?_eq
    have compiles := (Selection.exists_resolve disk said).1 ⟨project, resolved⟩
    obtain ⟨other, reresolved⟩ := (Selection.exists_resolve disk resaid).2
      (compiles.of_subset alike.symm.within.patterns alike.within.excluded)
    have files : other.files = project.files := by
      refine (files_sorted reresolved).eq_of_mem_iff (files_sorted resolved) fun name => ?_
      rw [Selection.mem_files resaid reresolved, selects]
      exact ⟨alike.symm.within.selects, alike.within.selects⟩
    rw [reresolved, resolve_form reresolved, resolve_form resolved, files, options]
  · intro patterns more again wider given further restated rewidened name member
    exact (Selection.mem_files restated.selection?_eq rewidened).2
      ((Lists.within_of_patterns given further).selects ((selects name).1 member))
  · intro excluded more again narrower given further restated narrowed name member
    exact (selects name).2 ((Lists.within_of_excluded given further).selects
      ((Selection.mem_files restated.selection?_eq narrowed).1 member))

def Lists.members (lists : Lists) : List (String × Json) :=
  [("files", lists.files), ("include", lists.patterns), ("exclude", lists.excluded)].filterMap
    fun (key, texts) => texts.map fun texts => (key, .ofTexts texts)

def sourceDisk : Disk where
  entries := [(["src"], .directory 0), (["src", "a.ts"], .file [] 0),
    (["src", "gen"], .directory 0), (["src", "gen", "b.ts"], .file [] 0),
    (["test"], .directory 0), (["test", "c.ts"], .file [] 0)]
  current := []
  clock := 1

def sourceLists (patterns excluded : List String) : Lists where
  files := some ["z.ts"]
  patterns := some patterns
  excluded := some excluded

theorem sourceLists_of (patterns excluded : List String) :
    (sourceLists patterns excluded).Of (sourceLists patterns excluded).members :=
  ⟨rfl, rfl, rfl⟩

theorem sourceLists_resolved (patterns excluded files : List String)
    (found : (resolve sourceDisk (.object (sourceLists patterns excluded).members) ⟨"."⟩).toOption.map
      (·.files) = some files) :
    ∃ project, resolve sourceDisk (.object (sourceLists patterns excluded).members) ⟨"."⟩ =
      .ok project ∧ project.files = files :=
  resolved_of_files found

theorem source_folder_selected : ∃ project wider narrower,
    resolve sourceDisk (.object (sourceLists ["src"] ["src/gen/"]).members) ⟨"."⟩ = .ok project ∧
      project.files = ["src/a.ts", "z.ts"] ∧
      (∀ name, name ∈ project.files ↔
        (sourceLists ["src"] ["src/gen/"]).selection.Selects sourceDisk ⟨"."⟩ name) ∧
      resolve sourceDisk (.object (sourceLists ["src", "src"] ["src/gen/"]).members) ⟨"."⟩ =
        .ok project ∧
      resolve sourceDisk (.object (sourceLists ["test", "src"] ["src/gen/"]).members) ⟨"."⟩ =
        .ok wider ∧ wider.files = ["src/a.ts", "test/c.ts", "z.ts"] ∧
      project.files ⊆ wider.files ∧
      resolve sourceDisk (.object (sourceLists ["src"] ["src/gen/", "src"]).members) ⟨"."⟩ =
        .ok narrower ∧ narrower.files = ["z.ts"] ∧ narrower.files ⊆ project.files := by
  obtain ⟨project, resolved, files⟩ := sourceLists_resolved ["src"] ["src/gen/"]
    ["src/a.ts", "z.ts"] (by decide +kernel)
  obtain ⟨wider, widened, more⟩ := sourceLists_resolved ["test", "src"] ["src/gen/"]
    ["src/a.ts", "test/c.ts", "z.ts"] (by decide +kernel)
  obtain ⟨narrower, narrowed, fewer⟩ := sourceLists_resolved ["src"] ["src/gen/", "src"]
    ["z.ts"] (by decide +kernel)
  obtain ⟨-, each⟩ := resolve_selects sourceDisk ⟨"."⟩ (sourceLists_of ["src"] ["src/gen/"])
  obtain ⟨-, selects, alike, further, excluding⟩ := each project resolved
  have twice : (sourceLists ["src"] ["src/gen/"]).Alike (sourceLists ["src", "src"] ["src/gen/"]) := by
    refine ⟨.some ?_, .some ?_, .some ?_⟩ <;> simp [SameEntries]
  refine ⟨project, wider, narrower, resolved, files, selects,
    alike _ _ (sourceLists_of ["src", "src"] ["src/gen/"]) twice rfl, widened, more, ?_, narrowed,
    fewer, ?_⟩
  · exact further ["src"] ["test", "src"] _ wider rfl (by simp)
      (sourceLists_of ["test", "src"] ["src/gen/"]) widened
  · exact excluding ["src/gen/"] ["src/gen/", "src"] _ narrower rfl (by simp)
      (sourceLists_of ["src"] ["src/gen/", "src"]) narrowed

end Project

end BuildGate
