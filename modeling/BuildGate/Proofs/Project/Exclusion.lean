import BuildGate.Proofs.Glob.Glue
import BuildGate.Proofs.Project.Names

set_option autoImplicit false

namespace BuildGate.Project

variable {disk : Disk} {base path : Path} {entry : String}

/-- An entry that means the same included and excluded. It is searched for behind a plain base path or has
nothing to do with it, no component can stay where it is, and what puts up with a backslash puts up with
the slash that is written for it. -/
structure ReadsAlike (base : Path) (entry : String) : Prop where
  place : ((⟨expandDirectory entry⟩ : Path).isAbsolute = true ∧ base.isAbsolute = false) ∨
    (⟨expandDirectory entry⟩ : Path).isAbsolute = false ∧ Glob.IsPlainText base.text ∧
      (base.pieces.head? = some "." → base.steps = [])
  still : ∀ text ∈ Glob.segments (expandDirectory entry),
    (Glob.parse text).toOption.any Glob.Pattern.stays = false
  level : base = ⟨""⟩ → (⟨expandDirectory entry⟩ : Path).isAbsolute = false →
    ∀ text ∈ Glob.segments (expandDirectory entry), (Glob.parse text).toOption.any
      (fun pattern => (Glob.literalText? pattern).isNone && Glob.Pattern.climbs pattern) = false
  even : ∀ text ∈ exclusionTexts entry, (Glob.parse text).toOption.all
    (fun pattern => pattern.all fun token => !token.accepts '\\' || token.accepts '/') = true

def rewritten (c : Char) : Char := if c = '\\' then '/' else c

def rootOf (text : String) : List Char := if (⟨text⟩ : Path).isAbsolute then ['/'] else []

theorem nameOf_of_relative {relative : Path} (seen : path.relativeTo? base = some relative) :
    (nameOf base path).toList = relative.text.toList.map rewritten := by
  rw [nameOf, seen, String.toList_ofList]
  rfl

theorem text_of_pieces {names : List String} (pieces : path.pieces = names) :
    path.text.toList = Glob.spelling names := by
  rw [← Path.intercalate_pieces path, pieces]
  rfl

theorem eq_of_bare (relative : base.isAbsolute = false) (idle : base.steps = [])
    (undotted : base.pieces.head? ≠ some ".") : base = ⟨""⟩ := by
  by_contra other
  have some_ : base.text ≠ "" := fun empty => other (congrArg Path.mk empty)
  obtain ⟨first, rest, split⟩ := List.exists_cons_of_ne_nil (Path.pieces_ne_nil base)
  have counts : Path.isIdle first = true := by
    by_contra counts
    have step := Path.mem_steps.2 ⟨split ▸ List.mem_cons_self, Bool.eq_false_iff.2 counts⟩
    rw [idle] at step
    cases step
  rw [split, List.head?_cons] at undotted
  rcases Path.isIdle_iff.1 counts with rfl | rfl
  · rw [(Path.isAbsolute_iff_head? some_).2 (by rw [split]; rfl)] at relative
    cases relative
  · exact undotted rfl

namespace ReadsAlike

variable {components : List Glob.Pattern}

theorem moves (alike : ReadsAlike base entry)
    (read : Glob.ReadAs (Glob.segments (expandDirectory entry)) components) :
    ∀ pattern ∈ Glob.squash components, pattern.stays = false := by
  intro pattern kept
  obtain ⟨text, listed, own⟩ := Glob.exists_of_read read (Glob.mem_of_mem_squash kept)
  have still := alike.still text listed
  rwa [own] at still

theorem down (alike : ReadsAlike base entry) (bare : base = ⟨""⟩)
    (relative : (⟨expandDirectory entry⟩ : Path).isAbsolute = false)
    (read : Glob.ReadAs (Glob.segments (expandDirectory entry)) components) :
    ∀ pattern ∈ Glob.squash components, Glob.literalText? pattern = none →
      Glob.Pattern.climbs pattern = false := by
  intro pattern kept wild
  obtain ⟨text, listed, own⟩ := Glob.exists_of_read read (Glob.mem_of_mem_squash kept)
  have level := alike.level bare relative text listed
  rw [own] at level
  simpa [Except.toOption, wild] using level

end ReadsAlike

theorem hits_of_trail {components : List Glob.Pattern} {middle : Path} {names : List String}
    (read : Glob.ReadAs (Glob.segments (expandDirectory entry)) components)
    (trail : Glob.Trail disk (Glob.squash components) middle names path)
    (other : disk.isDirectory path = false) : names ≠ [] ∧
      Glob.matchesChars (Glob.glue (Glob.squash components)) (Glob.spelling names) = true := by
  refine Glob.matches_of_trail trail (Glob.squash_ne_nil ?_) ?_ other
  · rintro rfl
    exact Glob.segments_ne_nil _ (List.forall₂_nil_right_iff.1 read)
  · intro pattern kept
    obtain ⟨text, listed, own⟩ := Glob.exists_of_read read (Glob.mem_of_mem_squash kept)
    exact (Glob.component_of_parse (Glob.flat_of_mem_segments listed) own).eq_of_isRecursive

theorem leads_of_descent {components : List Glob.Pattern} {middle : Path} {names : List String}
    (alike : ReadsAlike base entry) (relative : (⟨expandDirectory entry⟩ : Path).isAbsolute = false)
    (read : Glob.ReadAs (Glob.segments (expandDirectory entry)) components)
    (descent : Descent disk base components middle names path) (present : names ≠ []) :
    path.lead = base.lead ∨ base.parts = [.here] := by
  have bare : base.pieces.head? = some "." → base.steps = [] := by
    rcases alike.place with ⟨absolute, -⟩ | ⟨-, -, bare⟩
    · rw [relative] at absolute
      cases absolute
    · exact bare
  by_cases rooted : base.isAbsolute = true
  · left
    rw [Path.lead, Path.lead, descent.form, rooted]
    rfl
  rw [Bool.not_eq_true] at rooted
  by_cases dotted : base.pieces.head? = some "."
  · exact .inr (Path.parts_eq_here_iff.2 ⟨rooted, dotted, bare dotted⟩)
  left
  rcases lead_of_descent descent bare with idle | lead
  · obtain rfl := eq_of_bare rooted idle dotted
    have still := alike.moves read
    have trail := descent.trail
    rw [descent.bare rfl] at trail
    have head := trail.head?_first (by decide) still (alike.down rfl relative read) present
    have own : path.pieces.head? ≠ some "." := by
      intro own
      rw [head] at own
      have counts := trail.moves still "." (List.mem_of_mem_head? own)
      cases counts
    rw [Path.lead, Path.lead, descent.form, if_neg own]
    rfl
  · exact lead

structure Named (base : Path) (entry : String) (path : Path) (components : List Glob.Pattern)
    (names : List String) : Prop where
  read : Glob.ReadAs (Glob.segments (expandDirectory entry)) components
  hit : Glob.matchesChars (Glob.glue (Glob.squash components)) (Glob.spelling names) = true
  spelt : (nameOf base path).toList =
    (rootOf (expandDirectory entry) ++ Glob.spelling names).map rewritten

theorem named_of_absolute (legal : ∀ entry ∈ disk.entries, ∀ name ∈ entry.1, LegalName name)
    (alike : ReadsAlike base entry) (absolute : (⟨expandDirectory entry⟩ : Path).isAbsolute = true)
    (relative : base.isAbsolute = false) (found : Finds disk base entry path)
    (other : disk.isDirectory path = false) :
    ∃ components names, Named base entry path components names := by
  obtain ⟨components, names, read, trail⟩ := trail_of_finds legal found
  have own : sought base entry = expandDirectory entry := by
    rw [sought, Path.join_of_isAbsolute absolute]
  rw [own] at read trail
  rw [Glob.startOf, if_pos absolute] at trail
  obtain ⟨present, hit⟩ := hits_of_trail read trail other
  have whole : path.relativeTo? base = some path := by
    have form : path.isAbsolute = true := trail.isAbsolute_eq
    rw [Path.relativeTo?, form, relative]
    rfl
  have pieces := trail.pieces_of_root (alike.moves read) present
  refine ⟨components, names, read, hit, ?_⟩
  rw [nameOf_of_relative whole, text_of_pieces pieces, Glob.spelling_cons present, rootOf,
    if_pos absolute]
  rfl

theorem named_of_relative (legal : ∀ entry ∈ disk.entries, ∀ name ∈ entry.1, LegalName name)
    (alike : ReadsAlike base entry) (relative : (⟨expandDirectory entry⟩ : Path).isAbsolute = false)
    (plain : Glob.IsPlainText base.text) (found : Finds disk base entry path)
    (other : disk.isDirectory path = false) :
    ∃ components names, Named base entry path components names := by
  obtain ⟨components, middle, names, read, descent⟩ := exists_descent legal relative plain found
  have segments : Glob.segments (expandDirectory entry) =
      (⟨expandDirectory entry⟩ : Path).pieces := by
    rw [Glob.segments, relative, if_neg Bool.false_ne_true]
  rw [← segments] at read
  obtain ⟨present, hit⟩ := hits_of_trail read descent.trail other
  have steps : path.steps = base.steps ++ names := by
    rw [descent.steps, Path.stepsOf, List.filter_eq_self.2]
    intro name member
    rw [descent.trail.moves (alike.moves read) name member]
    rfl
  have leads := leads_of_descent alike relative read descent present
  obtain ⟨seen, relativeTo, pieces⟩ := Path.relativeTo?_below steps present descent.form leads
  refine ⟨components, names, read, hit, ?_⟩
  rw [nameOf_of_relative relativeTo, text_of_pieces pieces, rootOf, relative]
  rfl

theorem named_of_finds (legal : ∀ entry ∈ disk.entries, ∀ name ∈ entry.1, LegalName name)
    (alike : ReadsAlike base entry) (found : Finds disk base entry path)
    (other : disk.isDirectory path = false) :
    ∃ components names, Named base entry path components names := by
  rcases alike.place with ⟨absolute, unrooted⟩ | ⟨relative, plain, -⟩
  · exact named_of_absolute legal alike absolute unrooted found other
  · exact named_of_relative legal alike relative plain found other

theorem dropSlashes_of_ends {text : String} {last : Char} (ending : text.toList.getLast? = some last)
    (unslashed : last ≠ '/') : dropSlashes text = text := by
  obtain ⟨front, chars⟩ := List.getLast?_eq_some_iff.1 ending
  rw [dropSlashes, chars, List.reverse_concat, List.dropWhile_cons_of_neg (by simpa using unslashed),
    ← List.reverse_concat, List.reverse_reverse, ← chars, String.ofList_toList]

theorem segments_behind (front : String) : ∃ own absolute, ∀ back : String,
    Glob.segments (front ++ "/" ++ back) = own ++ (⟨back⟩ : Path).pieces ∧
      (⟨front ++ "/" ++ back⟩ : Path).isAbsolute = absolute := by
  have rooted (back : String) : (⟨front ++ "/" ++ back⟩ : Path).isAbsolute =
      (front.toList.head?.getD '/' == '/') := by
    rw [Path.isAbsolute, String.toList_append, String.toList_append]
    cases front.toList <;> simp
  cases absolute : front.toList.head?.getD '/' == '/' with
  | true =>
    refine ⟨(⟨front⟩ : Path).pieces.tail, true, fun back => ⟨?_, (rooted back).trans absolute⟩⟩
    rw [Glob.segments, if_pos ((rooted back).trans absolute), Path.pieces_below,
      List.tail_append_of_ne_nil (Path.pieces_ne_nil _)]
  | false =>
    refine ⟨(⟨front⟩ : Path).pieces, false, fun back => ⟨?_, (rooted back).trans absolute⟩⟩
    rw [Glob.segments, (rooted back).trans absolute, if_neg Bool.false_ne_true, Path.pieces_below]

theorem read_directory {front : String} {components : List Glob.Pattern}
    (read : Glob.ReadAs (Glob.segments (front ++ "/" ++ "**/*")) components) :
    ∃ before, components = before ++ [[.anyDirectories], [.anySequence]] ∧
      Glob.ReadAs (Glob.segments (front ++ "/" ++ "**")) (before ++ [[.anyDirectories]]) := by
  obtain ⟨own, absolute, split⟩ := segments_behind front
  have pieces : (⟨"**/*"⟩ : Path).pieces = ["**", "*"] := by decide
  rw [(split "**/*").1, pieces] at read
  obtain ⟨before, back, rfl, outer, inner⟩ := Glob.read_append read
  obtain rfl : back = [[.anyDirectories], [.anySequence]] := by
    cases inner with
    | cons below rest =>
      cases rest with
      | cons each none_ =>
        cases none_
        cases below
        cases each
        rfl
  refine ⟨before, rfl, ?_⟩
  rw [(split "**").1]
  exact List.rel_append outer (.cons rfl .nil)

theorem matches_rooted {text : String} {components : List Glob.Pattern} {cs : List Char}
    (hit : Glob.matchesChars (Glob.glue (Glob.squash components)) cs = true) :
    Glob.matchesChars ((if (⟨text⟩ : Path).isAbsolute then [.literal '/'] else []) ++
      Glob.glue (Glob.squash components)) (rootOf text ++ cs) = true := by
  unfold rootOf
  split_ifs
  · exact Glob.matchesChars_cons.2 ⟨cs, ⟨'/', rfl, rfl⟩, hit⟩
  · exact hit

-- One of the excluded texts is read as a pattern that matches whatever the components of the included
-- one match.
theorem exists_exclusion (entry : String) {components : List Glob.Pattern}
    (read : Glob.ReadAs (Glob.segments (expandDirectory entry)) components) :
    ∃ text ∈ exclusionTexts entry, ∃ pattern, Glob.parse text = .ok pattern ∧
      ∀ cs, Glob.matchesChars (Glob.glue (Glob.squash components)) cs = true →
        Glob.matchesChars pattern (rootOf (expandDirectory entry) ++ cs) = true := by
  by_cases wild : (lastSegment entry).any fun c => c == '*' || c == '?' || c == '.'
  · have own : expandDirectory entry = entry := if_pos wild
    obtain ⟨last, ending, unslashed⟩ := expandDirectory_ends entry
    rw [own] at read ending ⊢
    refine ⟨entry, ?_, _, Glob.parse_of_segments read, fun cs => matches_rooted⟩
    rw [exclusionTexts, dropSlashes_of_ends ending unslashed]
    exact List.mem_cons_self
  · have own : expandDirectory entry = dropSlashes entry ++ "/" ++ "**/*" := by
      rw [String.append_assoc]
      exact if_neg wild
    have listed : dropSlashes entry ++ "/" ++ "**" ∈ exclusionTexts entry := by
      rw [String.append_assoc]
      exact List.mem_cons_of_mem _ List.mem_cons_self
    have same : rootOf (expandDirectory entry) = rootOf (dropSlashes entry ++ "/" ++ "**") := by
      obtain ⟨_, absolute, split⟩ := segments_behind (dropSlashes entry)
      rw [own, rootOf, rootOf, (split "**/*").2, (split "**").2]
    rw [own] at read
    obtain ⟨before, rfl, whole⟩ := read_directory read
    refine ⟨_, listed, _, Glob.parse_of_segments whole, fun cs hit => ?_⟩
    rw [same]
    exact matches_rooted (Glob.matches_everything_below (by decide) hit)

theorem barred_of_finds (legal : ∀ entry ∈ disk.entries, ∀ name ∈ entry.1, LegalName name)
    (alike : ReadsAlike base entry) (found : Finds disk base entry path)
    (other : disk.isDirectory path = false) : Bars entry (nameOf base path) := by
  obtain ⟨components, names, named⟩ := named_of_finds legal alike found other
  obtain ⟨text, listed, pattern, own, covers⟩ := exists_exclusion entry named.read
  refine ⟨text, listed, pattern, own, ?_⟩
  have even := alike.even text listed
  rw [own] at even
  rw [Glob.Pattern.matches, named.spelt]
  apply Glob.matchesChars_map rfl
  · intro token member c accepted
    unfold rewritten
    split_ifs with backslash
    · subst backslash
      have slash := List.all_eq_true.1 even token member
      simpa [accepted] using slash
    · exact accepted
  · exact covers _ named.hit

def bothWays (entry : String) : Lists where
  files := none
  patterns := some [entry]
  excluded := some [entry]

/-- Excluding undoes including: an entry that is a pattern both ways and reads alike bars the name of every
file that it finds, so a project that includes and excludes it resolves to no file. -/
theorem exclude_undoes_include (legal : ∀ entry ∈ disk.entries, ∀ name ∈ entry.1, LegalName name)
    {members : List (String × Json)} (stated : (bothWays entry).Of members)
    (alike : ReadsAlike base entry) (compiles : (bothWays entry).selection.Compiles base) :
    (∀ path, Finds disk base entry path → disk.isFile path = true → Bars entry (nameOf base path)) ∧
      ∃ project, resolve disk (.object members) base = .ok project ∧ project.files = [] := by
  have bars (path : Path) (found : Finds disk base entry path) (file : disk.isFile path = true) :
      Bars entry (nameOf base path) := by
    apply barred_of_finds legal alike found
    obtain ⟨place, content, modified, reached, held⟩ := Disk.isFile_iff.1 file
    simp [Disk.isDirectory, Disk.find, reached, held]
  have said := stated.selection?_eq
  obtain ⟨project, resolved⟩ := (Selection.exists_resolve disk said).2 compiles
  refine ⟨bars, project, resolved, List.eq_nil_iff_forall_not_mem.2 fun name listed => ?_⟩
  rcases (Selection.mem_files said resolved).1 listed with given | ⟨picked, free⟩
  · cases given
  · obtain ⟨same, only, path, found, file, -, rfl⟩ := picked
    obtain rfl : same = entry := List.mem_singleton.1 only
    exact free same (List.mem_singleton_self same) (bars path found file)

theorem sources_excluded_again :
    namesFound sourceDisk "." (includingAll ["s[!x]c/"]) = some ["src/a.ts", "src/gen/b.ts"] ∧
    (∀ path, Finds sourceDisk ⟨"."⟩ "s[!x]c/" path → sourceDisk.isFile path = true →
      Bars "s[!x]c/" (nameOf ⟨"."⟩ path)) ∧
    ∃ project, resolve sourceDisk (.object (bothWays "s[!x]c/").members) ⟨"."⟩ = .ok project ∧
      project.files = [] := by
  have legal : ∀ entry ∈ sourceDisk.entries, ∀ name ∈ entry.1, LegalName name := by decide
  have alike : ReadsAlike ⟨"."⟩ "s[!x]c/" := by
    refine ⟨.inr ⟨by decide, by decide, by decide⟩, ?_, by decide, ?_⟩ <;> decide +kernel
  have read {text : String} (accepted : (Glob.parse text).isOk = true) :
      ∃ pattern, Glob.parse text = .ok pattern := by
    cases own : Glob.parse text with
    | ok pattern => exact ⟨pattern, rfl⟩
    | error fault =>
      rw [own] at accepted
      cases accepted
  have components : ∀ text ∈ Glob.componentTexts (Glob.afterRoot (sought ⟨"."⟩ "s[!x]c/")),
      (Glob.parse (String.ofList text)).isOk = true := by decide +kernel
  have excluded : ∀ text ∈ exclusionTexts "s[!x]c/", (Glob.parse text).isOk = true := by decide +kernel
  have compiles : (bothWays "s[!x]c/").selection.Compiles ⟨"."⟩ := by
    refine ⟨fun entry only => ?_, fun entry only text member => ?_⟩
    · obtain rfl := List.mem_singleton.1 only
      exact ⟨read (by decide +kernel), fun text member => read (components text member)⟩
    · obtain rfl := List.mem_singleton.1 only
      exact read (excluded text member)
  exact ⟨by decide +kernel, exclude_undoes_include legal ⟨rfl, rfl, rfl⟩ alike compiles⟩

def leftOver (disk : Disk) (base entry : String) : Option (List String) :=
  namesFound disk base (bothWays entry).members

/-- Each condition counts. A component that stays where it is leaves no trace in the names; behind a base
path that is not left behind, names are longer than the entry; and a backslash in an entry is none in the
names. -/
theorem excluded_source_stays :
    (∀ name ∈ ["src", "p", "px"], ∀ entry ∈ (soleSource name).entries, ∀ part ∈ entry.1,
      LegalName part) ∧
    (∀ entry ∈ lookalikeDisk.entries, ∀ part ∈ entry.1, LegalName part) ∧
    (∀ entry ∈ ["./src", "src//*.ts", ".*/src/*.ts"],
      leftOver (soleSource "src") "." entry = some ["src/q.ts"]) ∧
    leftOver (soleSource "p") "./p" "q.ts" = some ["p/../q.ts"] ∧
    leftOver (soleSource "px") "p?" "q.ts" = some ["../px/q.ts"] ∧
    leftOver (soleSource "src") "/" "/src/*.ts" = some ["src/q.ts"] ∧
    leftOver (soleSource "src") "" ".?/src/*.ts" = some ["./../src/q.ts"] ∧
    (∀ entry ∈ ["a\\b.ts", "a[\\]b.ts"], leftOver lookalikeDisk "." entry = some ["a/b.ts"]) := by
  refine ⟨by decide, by decide, ?_, ?_, ?_, ?_, ?_, ?_⟩ <;> decide +kernel

end BuildGate.Project
