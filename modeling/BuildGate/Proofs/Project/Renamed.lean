import BuildGate.Proofs.Glob.Twin
import BuildGate.Proofs.Project
import BuildGate.Proofs.Text.Lines
import Mathlib.Data.List.DropRight

set_option autoImplicit false

namespace BuildGate

namespace Project

/-- An included entry that leads nowhere but down from the directory of its project. -/
structure LevelEntry (entry : String) : Prop where
  some_ : entry ≠ ""
  relative : (⟨entry⟩ : Path).isAbsolute = false
  down : ∀ segment ∈ (⟨entry⟩ : Path).pieces,
    (Glob.parse segment).toOption.any Glob.Pattern.climbs = false

instance (entry : String) : Decidable (LevelEntry entry) :=
  decidable_of_iff
    (entry ≠ "" ∧ (⟨entry⟩ : Path).isAbsolute = false ∧ ∀ segment ∈ (⟨entry⟩ : Path).pieces,
      (Glob.parse segment).toOption.any Glob.Pattern.climbs = false)
    ⟨fun ⟨some_, relative, down⟩ => ⟨some_, relative, down⟩,
      fun level => ⟨level.some_, level.relative, level.down⟩⟩

def includes : Json → List String
  | .object members =>
    match strings? members "include" with
    | .ok (some texts) => texts
    | _ => []
  | _ => []

theorem levelEntry_everything : LevelEntry "**/*" := by decide

theorem dropSlashes_cases (text : String) :
    text = dropSlashes text ∨ ∃ rest, text = dropSlashes text ++ "/" ++ rest := by
  have split : (dropSlashes text).toList ++ text.toList.rtakeWhile (· == '/') = text.toList := by
    rw [dropSlashes, String.toList_ofList]
    exact List.rdropWhile_append_rtakeWhile
  cases slashes : text.toList.rtakeWhile (· == '/') with
  | nil =>
    rw [slashes, List.append_nil] at split
    exact .inl (String.toList_injective split.symm)
  | cons c rest =>
    have member : c ∈ text.toList.rtakeWhile (· == '/') := by
      rw [slashes]
      exact List.mem_cons_self
    have slash : c = '/' := eq_of_beq (List.mem_rtakeWhile_imp (p := (· == '/')) member)
    refine .inr ⟨String.ofList rest, String.toList_injective ?_⟩
    rw [← split, slashes, slash]
    simp

namespace LevelEntry

variable {entry : String}

theorem dropSlashes (level : LevelEntry entry) : LevelEntry (dropSlashes entry) := by
  rcases dropSlashes_cases entry with same | ⟨rest, split⟩
  · exact same ▸ level
  · have some_ : Project.dropSlashes entry ≠ "" := fun empty => by
      have relative := level.relative
      rw [split, empty] at relative
      simp [Path.isAbsolute] at relative
    have whole := Path.isAbsolute_append some_ ("/" ++ rest)
    rw [← String.append_assoc, ← split, level.relative] at whole
    refine ⟨some_, whole.symm, fun segment member => level.down segment ?_⟩
    rw [split, Path.pieces_below]
    exact List.mem_append_left _ member

theorem expandDirectory (level : LevelEntry entry) : LevelEntry (expandDirectory entry) := by
  unfold Project.expandDirectory
  split
  · exact level
  · have bare := level.dropSlashes
    refine ⟨by simp, ?_, ?_⟩
    · rw [Path.isAbsolute_append bare.some_, bare.relative]
    · have added : Project.dropSlashes entry ++ "/**/*" =
          Project.dropSlashes entry ++ "/" ++ "**/*" := by
        rw [String.append_assoc]
        rfl
      rw [added, Path.pieces_below]
      intro segment member
      rcases List.mem_append.1 member with own | wild
      · exact bare.down segment own
      · exact levelEntry_everything.down segment wild

theorem components (level : LevelEntry entry) {patterns : List Glob.Pattern}
    (read : (Glob.componentTexts entry.toList).mapM (fun text => Glob.parse (String.ofList text)) =
      .ok patterns) : ∀ pattern ∈ patterns, Glob.Level pattern := by
  intro pattern member
  obtain ⟨text, listed, parsed⟩ := (Except.mem_of_mapM read).1 member
  have piece : text ∈ entry.toList.splitOn '/' := by
    unfold Glob.componentTexts at listed
    dsimp only at listed
    split at listed
    · exact List.mem_of_mem_dropLast listed
    · exact listed
  constructor
  · intro slash
    have inside := Glob.literal_mem_parse parsed slash
    rw [String.toList_ofList] at inside
    exact Text.separator_notMem_splitOn piece inside
  · have down := level.down (String.ofList text) (List.mem_map_of_mem piece)
    rw [parsed] at down
    exact down

end LevelEntry

theorem level_patterns {members : List (String × Json)} {selection : Selection}
    (said : selection? members = .ok selection)
    (level : ∀ entry ∈ includes (.object members), LevelEntry entry) :
    ∀ entry ∈ selection.patterns, LevelEntry entry := by
  obtain ⟨files, listed, rest⟩ := Except.bind_eq_ok.1 said
  obtain ⟨patterns, included, rest⟩ := Except.bind_eq_ok.1 rest
  obtain ⟨excluded, barred, made⟩ := Except.bind_eq_ok.1 rest
  cases made
  rw [includes, included] at level
  cases patterns with
  | some texts => exact level
  | none =>
    intro entry listed
    rw [Option.getD_none] at listed
    split at listed
    · cases listed
    · obtain rfl := List.mem_singleton.1 listed
      exact levelEntry_everything

section

open BuildGate.Path (Twin)

variable {a b : Disk} {one other : String} {tree : Tree} {p q : Path}
variable (held : a.Holds one tree) (again : b.Holds other tree)

include held again

theorem isSource_agrees (twin : Twin one other p q) :
    (a.isFile p && isSource p) = (b.isFile q && isSource q) := by
  rw [← held.isFile_agrees again twin]
  cases file : a.isFile p with
  | false => rfl
  | true =>
    rw [isSource, isSource, Path.extension?, Path.extension?,
      held.fileName?_agrees again twin file]

theorem nameOf_agrees (twin : Twin one other p q) : nameOf ⟨one⟩ p = nameOf ⟨other⟩ q := by
  obtain ⟨relative, left, right⟩ := held.relativeTo?_agrees again twin
  rw [nameOf, nameOf, left, right]
  rfl

theorem names_agree {paths others : List Path}
    (twins : List.Forall₂ (Twin one other) paths others) :
    (paths.filter fun path => a.isFile path && isSource path).map (nameOf ⟨one⟩) =
      (others.filter fun path => b.isFile path && isSource path).map (nameOf ⟨other⟩) := by
  have sources := List.rel_filter
    (fun x y twin => Bool.eq_iff_iff.1 (isSource_agrees held again twin)) twins
  rw [← List.forall₂_eq_eq_eq]
  exact List.rel_map (fun x y twin => nameOf_agrees held again twin) sources

theorem search_agrees (plain : Glob.IsPlainText one) (plain_ : Glob.IsPlainText other)
    {entry : String} (level : LevelEntry entry) {paths : List Path}
    (found : Glob.search a ((⟨one⟩ : Path).join entry).text = .ok paths) :
    ∃ others, Glob.search b ((⟨other⟩ : Path).join entry).text = .ok others ∧
      List.Forall₂ (Twin one other) paths others := by
  rw [Path.join_top held.legal level.relative,
    Glob.search_below held.legal plain held.has_top] at found
  obtain ⟨compiles, patterns, read, rfl⟩ := found
  rw [Path.join_top again.legal level.relative]
  refine ⟨_, (Glob.search_below again.legal plain_ again.has_top _).2
    ⟨compiles, patterns, read, rfl⟩, ?_⟩
  have twins := Glob.expand_agrees held again
    (fun pattern kept => level.components read pattern (Glob.mem_of_mem_squash kept)) .top
  split
  · exact Glob.directories_agree held again twins
  · exact twins

theorem included_agrees (plain : Glob.IsPlainText one) (plain_ : Glob.IsPlainText other)
    {entry : String} (level : LevelEntry entry) {excluded : List Glob.Pattern}
    {names : List String} (found : included a ⟨one⟩ excluded entry = .ok names) :
    included b ⟨other⟩ excluded entry = .ok names := by
  obtain ⟨paths, searched, rfl⟩ := included_eq_ok.1 found
  obtain ⟨others, researched, twins⟩ :=
    search_agrees held again plain plain_ level.expandDirectory searched
  exact included_eq_ok.2 ⟨others, researched, congrArg _ (names_agree held again twins)⟩

theorem resolve_twin (plain : Glob.IsPlainText one) (plain_ : Glob.IsPlainText other)
    {object : Json} (level : ∀ entry ∈ includes object, LevelEntry entry) {project : Project}
    (resolved : resolve a object ⟨one⟩ = .ok project) :
    resolve b object ⟨other⟩ = .ok { project with basePath := ⟨other⟩ } := by
  obtain ⟨members, selection, excluded, found, rfl, said, compiled, searched, rfl⟩ :=
    resolve_eq_ok.1 resolved
  have each : List.Forall₂ (fun entry names => included b ⟨other⟩ excluded entry = .ok names)
      selection.patterns found :=
    ((List.forall₂_and_left _ _).2
      ⟨level_patterns said level, Except.mapM_eq_ok.1 searched⟩).imp
      fun entry names ⟨level, listed⟩ => included_agrees held again plain plain_ level listed
  exact resolve_eq_ok.2 ⟨members, selection, excluded, found, rfl, said, compiled,
    Except.mapM_eq_ok.2 each, rfl⟩

end

variable {a b : Disk} {one other : String} {tree : Tree}

/-- Resolving does not depend on what the directory of a project is called, if the name has no pattern
syntax and the included entries only lead down: it succeeds for both names or for neither, and with the
same files and options. -/
theorem resolve_renamed (held : a.Holds one tree) (again : b.Holds other tree)
    (plain : Glob.IsPlainText one) (plain_ : Glob.IsPlainText other)
    {object : Json} (level : ∀ entry ∈ includes object, LevelEntry entry) :
    ((∃ project, resolve a object ⟨one⟩ = .ok project) ↔
      ∃ project, resolve b object ⟨other⟩ = .ok project) ∧
    ∀ project renamed, resolve a object ⟨one⟩ = .ok project →
      resolve b object ⟨other⟩ = .ok renamed →
      renamed.files = project.files ∧ renamed.options = project.options := by
  refine ⟨⟨?_, ?_⟩, ?_⟩
  · rintro ⟨project, resolved⟩
    exact ⟨_, resolve_twin held again plain plain_ level resolved⟩
  · rintro ⟨project, resolved⟩
    exact ⟨_, resolve_twin again held plain_ plain level resolved⟩
  · intro project renamed resolved reresolved
    rw [resolve_twin held again plain plain_ level resolved] at reresolved
    cases reresolved
    exact ⟨rfl, rfl⟩

def soleSource (name : String) : Disk where
  entries := [([name], .directory 0), ([name, "q.ts"], .file [] 0)]
  current := []
  clock := 1

def movedSource : Disk where
  entries := [(["home"], .directory 1), (["home", "other.ts"], .file [] 2),
    (["home", "new"], .directory 3), (["home", "new", "q.ts"], .file [65] 4)]
  current := ["home"]
  clock := 5

def soleTree : Tree where
  entries := [([], true), (["q.ts"], false)]
  top := rfl
  legal := by decide

theorem soleSource_holds {name : String} (legal : LegalName name) :
    (soleSource name).Holds name soleTree := by
  refine ⟨legal, rfl, ?_⟩
  simp [soleSource, soleTree, Disk.entriesFrom, Disk.under, Entry.isDirectory]

theorem movedSource_holds : movedSource.Holds "new" soleTree :=
  ⟨by decide, rfl, by decide⟩

def including (entry : String) : Json := .object [("include", .ofTexts [entry])]

theorem source_moved : ∃ project renamed,
    resolve (soleSource "old") (including "./q*") ⟨"old"⟩ = .ok project ∧ project.files = ["q.ts"] ∧
      resolve movedSource (including "./q*") ⟨"new"⟩ = .ok renamed ∧ renamed.files = ["q.ts"] ∧
      renamed.options = project.options := by
  have found : (resolve (soleSource "old") (including "./q*") ⟨"old"⟩).toOption.map (·.files) =
      some ["q.ts"] := by decide +kernel
  obtain ⟨project, resolved, files⟩ := resolved_of_files found
  obtain ⟨succeeds, same⟩ := resolve_renamed (soleSource_holds (by decide : LegalName "old"))
    movedSource_holds (by decide) (by decide)
    (by decide : ∀ entry ∈ includes (including "./q*"), LevelEntry entry)
  obtain ⟨renamed, reresolved⟩ := succeeds.1 ⟨project, resolved⟩
  obtain ⟨alike, options⟩ := same project renamed resolved reresolved
  exact ⟨project, renamed, resolved, files, reresolved, alike.trans files, options⟩

def filesFound (object : Json) (name : String) : Option (List String) :=
  (resolve (soleSource name) object ⟨name⟩).toOption.map (·.files)

/-- Each condition counts. A bracket in the name is read as a set of characters; a component that
matches the directory above leads out of the project and back in by its name; and the empty entry
stands for everything below the root. -/
theorem renamed_source_differs :
    (∀ name ∈ ["old", "new", "p[x]"], (soleSource name).Holds name soleTree) ∧
      (filesFound .emptyObject "old" = some ["q.ts"] ∧
        filesFound .emptyObject "p[x]" = some []) ∧
      (filesFound (including ".*/*/*") "old" = some ["../old/q.ts"] ∧
        filesFound (including ".*/*/*") "new" = some ["../new/q.ts"]) ∧
      (filesFound (including "") "old" = some ["/old/q.ts"] ∧
        filesFound (including "") "new" = some ["/new/q.ts"]) := by
  refine ⟨?_, by decide +kernel, by decide +kernel, by decide +kernel⟩
  intro name listed
  apply soleSource_holds
  revert name listed
  decide

end Project

end BuildGate
