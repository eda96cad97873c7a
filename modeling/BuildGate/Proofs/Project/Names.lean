import BuildGate.Proofs.Host.Refusal
import BuildGate.Proofs.Project.Renamed
import BuildGate.Proofs.Project.Sought

set_option autoImplicit false

namespace BuildGate.Project

variable {disk : Disk} {base path : Path} {entry : String}

/-- An entry that is searched for in places which the base path does not hide: it has nothing to do with
the base path, or it goes on behind it, or the base path is a directory. A dot in front of a base path
that goes on hides all of them. -/
inductive Visible (disk : Disk) (base : Path) (entry : String) : Prop
  | elsewhere (absolute : (⟨expandDirectory entry⟩ : Path).isAbsolute = true)
      (relative : base.isAbsolute = false)
  | behind (relative : (⟨expandDirectory entry⟩ : Path).isAbsolute = false)
      (plain : Glob.IsPlainText base.text) (bare : base.pieces.head? = some "." → base.steps = [])
  | around (there : disk.isDirectory base = true) (level : ".." ∉ base.steps)
      (bare : base.pieces.head? = some "." → base.steps = [])

theorem isAbsolute_of_finds (legal : ∀ entry ∈ disk.entries, ∀ name ∈ entry.1, LegalName name)
    (found : Finds disk base entry path) :
    path.isAbsolute = ((⟨expandDirectory entry⟩ : Path).isAbsolute || base.isAbsolute) := by
  obtain ⟨components, names, read, trail⟩ := trail_of_finds legal found
  rw [trail.isAbsolute_eq, Glob.startOf, ← isAbsolute_sought]
  cases (⟨sought base entry⟩ : Path).isAbsolute <;> rfl

theorem lead_of_descent {components : List Glob.Pattern} {middle : Path} {names : List String}
    (descent : Descent disk base components middle names path)
    (bare : base.pieces.head? = some "." → base.steps = []) :
    base.steps = [] ∨ path.lead = base.lead := by
  by_cases going : base.steps = []
  · exact .inl going
  refine .inr ?_
  have undotted : base.pieces.head? ≠ some "." := mt bare going
  rw [Path.lead, Path.lead, descent.form]
  split_ifs with rooted dotted
  · rfl
  · rw [descent.head (Bool.eq_false_iff.2 rooted) going undotted] at dotted
    exact absurd dotted undotted
  · rfl

theorem exists_seen_of_visible
    (legal : ∀ entry ∈ disk.entries, ∀ name ∈ entry.1, LegalName name)
    (visible : Visible disk base entry) (found : Finds disk base entry path)
    (form : path.isAbsolute = base.isAbsolute) (present : path.steps ≠ []) :
    (∃ place, disk.Enters base place) ∧ ∃ parts steps, Path.Seen path base parts steps := by
  cases visible with
  | elsewhere absolute relative =>
    rw [isAbsolute_of_finds legal found, absolute, relative] at form
    cases form
  | behind relative plain bare =>
    obtain ⟨components, middle, names, -, descent⟩ := exists_descent legal relative plain found
    refine ⟨descent.entered, Path.exists_seen form bare ?_ present⟩
    rcases lead_of_descent descent bare with idle | lead
    · exact .inl (by simp [idle])
    · exact .inr ⟨⟨_, descent.steps.symm⟩, lead⟩
  | around there level bare =>
    obtain ⟨place, entered⟩ := Disk.isDirectory_iff.1 there
    exact ⟨⟨place, Disk.enters_of_directoryAt entered⟩,
      Path.exists_seen form bare (.inl level) present⟩

theorem backslash_notMem_ofParts {parts : List Path.Part} {steps : List String}
    (seen : Path.Seen path base parts steps) (clean : '\\' ∉ path.text.toList) :
    '\\' ∉ (Path.ofParts parts).text.toList := by
  have other : '\\' ≠ '/' := by decide
  by_cases none_ : parts = []
  · subst none_
    decide
  rw [Path.mem_text_iff other] at clean ⊢
  rw [Path.pieces_ofParts seen.told none_]
  rintro ⟨piece, member, backslash⟩
  obtain ⟨part, inside, rfl⟩ := List.mem_map.1 member
  rcases seen.own part inside with rfl | ⟨own, below⟩
  · revert backslash
    decide
  · exact clean ⟨_, (Path.text_of_mem_parts own below).1, backslash⟩

theorem nameOf_eq {relative : Path} (seen : path.relativeTo? base = some relative)
    (clean : '\\' ∉ relative.text.toList) : nameOf base path = relative.text := by
  have kept : relative.text.toList.map (fun c => if c = '\\' then '/' else c) =
      relative.text.toList := by
    refine (List.map_congr_left fun c member => if_neg ?_).trans (List.map_id _)
    rintro rfl
    exact clean member
  simp only [nameOf, seen, Option.getD_some, kept, String.ofList_toList]

theorem resolve_nameOf (legal : ∀ entry ∈ disk.entries, ∀ name ∈ entry.1, LegalName name)
    (visible : Visible disk base entry) (found : Finds disk base entry path)
    (file : disk.isFile path = true) (clean : '\\' ∉ path.text.toList) :
    disk.resolve (base.join (nameOf base path)) = disk.resolve path := by
  obtain ⟨reached, content, modified, resolved, held⟩ := Disk.isFile_iff.1 file
  have other : disk.kindAt? reached ≠ some true := by simp [Disk.kindAt?, held, Entry.isDirectory]
  by_cases form : path.isAbsolute = base.isAbsolute
  · obtain ⟨front, last, split, counts⟩ := Disk.last_of_resolve resolved other
    have present : path.steps ≠ [] := by
      refine List.ne_nil_of_mem (Path.mem_steps.2 ⟨?_, counts⟩)
      rw [split]
      exact List.mem_append_right _ (List.mem_singleton_self last)
    obtain ⟨⟨place, entered⟩, parts, steps, seen⟩ :=
      exists_seen_of_visible legal visible found form present
    have relative : path.relativeTo? base = some (Path.ofParts parts) := by
      rw [Path.relativeTo?, if_pos form, seen.diff, Option.map_some]
    rw [nameOf_eq relative (backslash_notMem_ofParts seen clean), resolved]
    exact Disk.resolve_seen seen form entered resolved other
  · have absolute : path.isAbsolute = true := by
      have own := isAbsolute_of_finds legal found
      cases rooted : base.isAbsolute with
      | true => rw [own, rooted, Bool.or_true]
      | false =>
        rw [rooted] at form
        exact Bool.eq_true_of_not_eq_false form
    have whole : path.relativeTo? base = some path := by
      rw [Path.relativeTo?, if_neg form, if_pos absolute]
    rw [nameOf_eq whole clean, Path.join_of_isAbsolute absolute]

theorem exists_readText
    (texts : ∀ entry ∈ disk.entries, ∀ content modified, entry.2 = .file content modified →
      (Text.decode? content).isSome = true) {place : Place}
    (resolved : disk.resolve path = .ok place) (file : disk.kindAt? place = some false) :
    ∃ text, disk.readText path = .ok text := by
  obtain ⟨entry, held, kind⟩ := Option.map_eq_some_iff.1 file
  cases entry with
  | directory modified => cases kind
  | file content modified =>
    have listed : (place, .file content modified) ∈ disk.entries := by
      cases place with
      | nil => cases held
      | cons name names =>
        obtain ⟨before, after, split, -⟩ := List.lookup_eq_some_iff.1 held
        rw [split]
        exact List.mem_append_right _ List.mem_cons_self
    obtain ⟨text, decoded⟩ := Option.isSome_iff_exists.1 (texts _ listed content modified rfl)
    exact ⟨text, by simp only [Disk.readText, Disk.find, resolved, held, decoded]⟩

namespace Selection

def Takes (disk : Disk) (base : Path) (selection : Selection) (path : Path) : Prop :=
  ∃ entry ∈ selection.patterns, Finds disk base entry path ∧ disk.isFile path = true ∧
    isSource path = true

end Selection

/-- Every name of a project that its object does not list is that of a source which a pattern has found:
joined to the base path it leads to that very file, so different files have different names, and if all
files are texts, none of them is one that a build cannot read. This needs the base path not to hide the
places in which is searched, and no backslash in what is found. -/
theorem found_again_by_name {members : List (String × Json)} {selection : Selection}
    {project : Project} (legal : ∀ entry ∈ disk.entries, ∀ name ∈ entry.1, LegalName name)
    (said : selection? members = .ok selection)
    (resolved : resolve disk (.object members) base = .ok project)
    (visible : ∀ entry ∈ selection.patterns, Visible disk base entry)
    (clean : ∀ path, selection.Takes disk base path → '\\' ∉ path.text.toList) :
    (∀ name ∈ project.files, name ∉ selection.files →
      ∃ path place, selection.Takes disk base path ∧ nameOf base path = name ∧
        disk.resolve path = .ok place ∧ disk.resolve (base.join name) = .ok place ∧
        disk.kindAt? place = some false) ∧
    (∀ path other, selection.Takes disk base path → selection.Takes disk base other →
      nameOf base path = nameOf base other → disk.resolve path = disk.resolve other) ∧
    ((∀ entry ∈ disk.entries, ∀ content modified, entry.2 = .file content modified →
        (Text.decode? content).isSome = true) →
      ∀ host command seed path cause, host.disk = disk →
        (Compiler.build command project seed host).1 = .error (.read path cause) →
        ∃ name ∈ selection.files, path = base.join name) := by
  have leads {path : Path} (taken : selection.Takes disk base path) :
      disk.resolve (base.join (nameOf base path)) = disk.resolve path := by
    have backslash := clean path taken
    obtain ⟨entry, listed, found, file, -⟩ := taken
    exact resolve_nameOf legal (visible entry listed) found file backslash
  have named : ∀ name ∈ project.files, name ∉ selection.files →
      ∃ path place, selection.Takes disk base path ∧ nameOf base path = name ∧
        disk.resolve path = .ok place ∧ disk.resolve (base.join name) = .ok place ∧
        disk.kindAt? place = some false := by
    intro name listed other
    rcases (Selection.mem_files said resolved).1 listed with given | ⟨picked, -⟩
    · exact absurd given other
    obtain ⟨entry, sought, path, found, file, source, rfl⟩ := picked
    obtain ⟨place, content, modified, there, held⟩ := Disk.isFile_iff.1 file
    have taken : selection.Takes disk base path := ⟨entry, sought, found, file, source⟩
    refine ⟨path, place, taken, rfl, there, (leads taken).trans there, ?_⟩
    rw [Disk.kindAt?, held]
    rfl
  refine ⟨named, fun path other taken again same => ?_, ?_⟩
  · rw [← leads taken, same, leads again]
  · intro texts host command seed path cause own failed
    subst own
    obtain ⟨name, listed, rfl, unread⟩ := Compiler.unread_of_build failed
    obtain ⟨_, _, _, _, -, -, -, -, made⟩ := resolve_eq_ok.1 resolved
    rw [made] at unread ⊢
    refine ⟨name, ?_, rfl⟩
    by_contra other
    obtain ⟨_, place, -, -, -, reached, kind⟩ := named name listed other
    obtain ⟨text, read⟩ := exists_readText texts reached kind
    rw [read] at unread
    cases unread

def includingAll (entries : List String) : List (String × Json) := [("include", .ofTexts entries)]

def neighboursDisk : Disk where
  entries := [(["proj"], .directory 0), (["proj", "a.ts"], .file [] 0), (["lib"], .directory 0),
    (["lib", "b.ts"], .file [] 0)]
  current := []
  clock := 1

theorem neighbours_found_again : ∃ project,
    resolve neighboursDisk (.object (includingAll ["*.ts", "../lib"])) ⟨"proj"⟩ = .ok project ∧
      project.files = ["../lib/b.ts", "a.ts"] ∧
      (∀ name ∈ project.files, ∃ path place, nameOf ⟨"proj"⟩ path = name ∧
        neighboursDisk.resolve path = .ok place ∧
        neighboursDisk.resolve ((⟨"proj"⟩ : Path).join name) = .ok place ∧
        neighboursDisk.kindAt? place = some false) ∧
      ∀ host command seed path cause, host.disk = neighboursDisk →
        (Compiler.build command project seed host).1 ≠ .error (.read path cause) := by
  have found : (resolve neighboursDisk (.object (includingAll ["*.ts", "../lib"]))
      ⟨"proj"⟩).toOption.map (·.files) = some ["../lib/b.ts", "a.ts"] := by decide +kernel
  obtain ⟨project, resolved, files⟩ := resolved_of_files found
  have said : selection? (includingAll ["*.ts", "../lib"]) =
      .ok ⟨[], ["*.ts", "../lib"], ["node_modules"]⟩ := rfl
  have legal : ∀ entry ∈ neighboursDisk.entries, ∀ name ∈ entry.1, LegalName name := by decide
  have visible : ∀ entry ∈ ["*.ts", "../lib"], Visible neighboursDisk ⟨"proj"⟩ entry := by
    have relative : ∀ entry ∈ ["*.ts", "../lib"],
        (⟨expandDirectory entry⟩ : Path).isAbsolute = false := by decide
    exact fun entry listed => .behind (relative entry listed) (by decide) (by decide)
  have clean : ∀ path, Selection.Takes neighboursDisk ⟨"proj"⟩
      ⟨[], ["*.ts", "../lib"], ["node_modules"]⟩ path → '\\' ∉ path.text.toList := by
    have searched : ∀ entry ∈ ["*.ts", "../lib"], ∀ paths ∈
        (Glob.search neighboursDisk (sought ⟨"proj"⟩ entry)).toOption, ∀ path ∈ paths,
        '\\' ∉ path.text.toList := by decide +kernel
    rintro path ⟨entry, listed, ⟨paths, own, member⟩, -⟩
    exact searched entry listed paths (by rw [own]; rfl) path member
  obtain ⟨named, -, reads⟩ := found_again_by_name legal said resolved visible clean
  refine ⟨project, resolved, files, fun name listed => ?_, ?_⟩
  · obtain ⟨path, place, -, leads⟩ := named name listed (by simp)
    exact ⟨path, place, leads⟩
  · intro host command seed path cause own failed
    have texts : ∀ entry ∈ neighboursDisk.entries, ∀ content modified,
        entry.2 = .file content modified → (Text.decode? content).isSome = true := by
      have blank : (Text.decode? []).isSome = true := by simp [Text.decode?, Text.decode]
      intro entry listed content modified same
      simp only [neighboursDisk, List.mem_cons, List.not_mem_nil, or_false] at listed
      rcases listed with rfl | rfl | rfl | rfl <;> cases same <;> exact blank
    obtain ⟨name, none_, -⟩ := reads texts host command seed path cause own failed
    cases none_

def lookalikeDisk : Disk where
  entries := [(["a"], .directory 0), (["a", "b.ts"], .file [] 0), (["a\\b.ts"], .file [] 0)]
  current := []
  clock := 1

def namesFound (disk : Disk) (base : String) (members : List (String × Json)) :
    Option (List String) :=
  (resolve disk (.object members) ⟨base⟩).toOption.map (·.files)

/-- Each condition counts. Behind a base path that goes on after a dot no name leads anywhere; two files
have one name if a backslash tells them apart; and neither a base path that is read as a pattern nor one
that leads nowhere can be gone back over. -/
theorem name_leads_elsewhere :
    (∀ name ∈ ["p", "px", "src"], ∀ entry ∈ (soleSource name).entries, ∀ part ∈ entry.1,
      LegalName part) ∧
    (∀ entry ∈ lookalikeDisk.entries, ∀ part ∈ entry.1, LegalName part) ∧
    (namesFound (soleSource "p") "./p" [] = some ["p/../q.ts"] ∧
      (soleSource "p").resolve ((⟨"./p"⟩ : Path).join "p/../q.ts") = .error .missing ∧
      ∀ options respond, (Compiler.build ["tsc"] ⟨["p/../q.ts"], options, ⟨"./p"⟩⟩ none
        ⟨soleSource "p", fun _ => none, respond, []⟩).1 =
          .error (.read ⟨"./p/p/../q.ts"⟩ .missing)) ∧
    (namesFound lookalikeDisk "." (includingAll ["a\\b.ts"]) = some ["a/b.ts"] ∧
      namesFound lookalikeDisk "." [] = some ["a/b.ts"] ∧
      lookalikeDisk.resolve ((⟨"."⟩ : Path).join "a\\b.ts") = .ok ["a\\b.ts"] ∧
      lookalikeDisk.resolve ((⟨"."⟩ : Path).join "a/b.ts") = .ok ["a", "b.ts"]) ∧
    (namesFound (soleSource "px") "p?" [] = some ["../px/q.ts"] ∧
      (soleSource "px").resolve ((⟨"p?"⟩ : Path).join "../px/q.ts") = .error .missing) ∧
    (namesFound (soleSource "src") "/none" (includingAll ["/src/*.ts"]) = some ["../src/q.ts"] ∧
      (soleSource "src").resolve ((⟨"/none"⟩ : Path).join "../src/q.ts") = .error .missing) := by
  have lost : (soleSource "p").resolve ((⟨"./p"⟩ : Path).join "p/../q.ts") = .error .missing := rfl
  refine ⟨by decide, by decide, ⟨by decide +kernel, lost, fun options respond => ?_⟩,
    ⟨by decide +kernel, by decide +kernel, rfl, rfl⟩, ⟨by decide +kernel, rfl⟩,
    ⟨by decide +kernel, rfl⟩⟩
  rw [Compiler.build_apply]
  simp only [Compiler.loadSources, Compiler.loadSource, Compiler.sourcesOf, Disk.readText, Disk.find,
    lost]
  rfl

end BuildGate.Project
