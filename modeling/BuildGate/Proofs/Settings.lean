import BuildGate.Proofs.Settings.Document
import BuildGate.Settings.Load
import Mathlib.Data.List.Find

set_option autoImplicit false

namespace BuildGate

namespace ConfigFile

variable {α : Type} {disk other : Disk} {root path : Path} {parse : String → Option α}

def ReadBy (parse : String → Option α) (text : String) (value : α) : Prop := parse text = some value

def Loads (disk : Disk) (path : Path) (Reads : String → α → Prop) (value : α) : Prop :=
  ∃ text, disk.readText path = .ok text ∧ Reads text value

inductive Fails (disk : Disk) (path : Path) (Reads : String → α → Prop) : ConfigFault → Prop
  | unread {cause : IoError} (broken : disk.readText path = .error cause) :
      Fails disk path Reads (.io cause)
  | unparsed {text : String} (read : disk.readText path = .ok text)
      (broken : ∀ value, ¬ Reads text value) : Fails disk path Reads .unreadable

theorem readFile_eq_ok_iff {value : α} :
    readFile disk path parse = .ok value ↔ Loads disk path (ReadBy parse) value := by
  unfold readFile Loads ReadBy
  cases read : disk.readText path with
  | error cause => simp
  | ok text => cases parsed : parse text <;> simp [parsed]

theorem readFile_eq_error_iff {error : GateError} :
    readFile disk path parse = .error error ↔
      ∃ fault, Fails disk path (ReadBy parse) fault ∧ error = .config path fault := by
  unfold readFile
  constructor
  · intro failed
    cases read : disk.readText path with
    | error cause =>
      simp only [read, Except.error.injEq] at failed
      exact ⟨_, .unread read, failed.symm⟩
    | ok text =>
      cases parsed : parse text with
      | some value => simp [read, parsed] at failed
      | none =>
        simp only [read, parsed, Except.error.injEq] at failed
        exact ⟨_, .unparsed read (by simp [ReadBy, parsed]), failed.symm⟩
  · rintro ⟨fault, broken | ⟨read, broken⟩, rfl⟩
    · rw [broken]
    · rw [read]
      simp only [Option.eq_none_iff_forall_ne_some.2 broken]

theorem readFile_congr (same : other.readText path = disk.readText path) :
    readFile other path parse = readFile disk path parse := by
  unfold readFile
  rw [same]

/-- The configuration file of a directory, by name and format: the first of three that is there. -/
inductive Chosen (disk : Disk) (root : Path) : Option (String × (String → ConfigFile → Prop)) → Prop
  | toml (there : disk.has (root.join "tycheck.toml") = true) :
      Chosen disk root (some ("tycheck.toml", OfToml))
  | yaml (noToml : disk.has (root.join "tycheck.toml") = false)
      (there : disk.has (root.join "tycheck.yaml") = true) :
      Chosen disk root (some ("tycheck.yaml", OfYaml))
  | yml (noToml : disk.has (root.join "tycheck.toml") = false)
      (noYaml : disk.has (root.join "tycheck.yaml") = false)
      (there : disk.has (root.join "tycheck.yml") = true) :
      Chosen disk root (some ("tycheck.yml", OfYaml))
  | nothing (noToml : disk.has (root.join "tycheck.toml") = false)
      (noYaml : disk.has (root.join "tycheck.yaml") = false)
      (noYml : disk.has (root.join "tycheck.yml") = false) : Chosen disk root none

def first? (disk : Disk) (root : Path) : Option (String × (String → Option ConfigFile)) :=
  names.find? fun (name, _) => disk.has (root.join name)

theorem readBy_ofToml : ReadBy ofToml? = OfToml :=
  funext fun _ => funext fun _ => propext ofToml?_eq_some

theorem readBy_ofYaml : ReadBy ofYaml? = OfYaml :=
  funext fun _ => funext fun _ => propext ofYaml?_eq_some

theorem chosen_iff {choice : Option (String × (String → ConfigFile → Prop))} :
    Chosen disk root choice ↔ (first? disk root).map (Prod.map id ReadBy) = choice := by
  unfold first?
  constructor
  · rintro (there | ⟨noToml, there⟩ | ⟨noToml, noYaml, there⟩ | ⟨noToml, noYaml, noYml⟩) <;>
      simp [names, readBy_ofToml, readBy_ofYaml, *]
  · rintro rfl
    cases toml : disk.has (root.join "tycheck.toml") with
    | true => simpa [names, List.find?_cons, readBy_ofToml, toml] using Chosen.toml toml
    | false =>
      cases yaml : disk.has (root.join "tycheck.yaml") with
      | true =>
        simpa [names, List.find?_cons, readBy_ofYaml, toml, yaml] using Chosen.yaml toml yaml
      | false =>
        cases yml : disk.has (root.join "tycheck.yml") with
        | true =>
          simpa [names, List.find?_cons, readBy_ofYaml, toml, yaml, yml] using Chosen.yml toml yaml yml
        | false =>
          simpa [names, List.find?_cons, toml, yaml, yml] using Chosen.nothing toml yaml yml

theorem chosen_none_iff : Chosen disk root none ↔ first? disk root = none := by
  rw [chosen_iff, Option.map_eq_none_iff]

theorem chosen_some_iff {name : String} {Reads : String → ConfigFile → Prop} :
    Chosen disk root (some (name, Reads)) ↔
      ∃ parse, first? disk root = some (name, parse) ∧ ReadBy parse = Reads := by
  simp [chosen_iff, Option.map_eq_some_iff]

/-- What the configuration file of a directory says. Where there is none, nothing is said. -/
inductive Tells (disk : Disk) (root : Path) : ConfigFile → Prop
  | nothing (free : Chosen disk root none) : Tells disk root .empty
  | file {name : String} {Reads : String → ConfigFile → Prop} {file : ConfigFile}
      (chosen : Chosen disk root (some (name, Reads)))
      (loads : Loads disk (root.join name) Reads file) : Tells disk root file

theorem load_eq_none (none_ : first? disk root = none) : load disk root = .ok none := by
  unfold first? at none_
  rw [load, none_]

theorem load_eq_readFile {name : String} {parse : String → Option ConfigFile}
    (first : first? disk root = some (name, parse)) :
    load disk root = (readFile disk (root.join name) parse).map some := by
  unfold first? at first
  rw [load, first]

theorem tells_iff {file : ConfigFile} :
    Tells disk root file ↔ ∃ found, load disk root = .ok found ∧ found.getD .empty = file := by
  constructor
  · rintro (free | ⟨chosen, loads⟩)
    · exact ⟨none, load_eq_none (chosen_none_iff.1 free), rfl⟩
    · obtain ⟨parse, first, rfl⟩ := chosen_some_iff.1 chosen
      refine ⟨some file, ?_, rfl⟩
      rw [load_eq_readFile first, readFile_eq_ok_iff.2 loads]
      rfl
  · rintro ⟨found, loaded, rfl⟩
    cases first : first? disk root with
    | none =>
      rw [load_eq_none first] at loaded
      obtain rfl := Except.ok.inj loaded
      exact .nothing (chosen_none_iff.2 first)
    | some chosen =>
      obtain ⟨name, parse⟩ := chosen
      rw [load_eq_readFile first, Except.map_eq_ok] at loaded
      obtain ⟨file, read, rfl⟩ := loaded
      exact .file (chosen_some_iff.2 ⟨parse, first, rfl⟩) (readFile_eq_ok_iff.1 read)

theorem load_eq_error_iff {error : GateError} :
    load disk root = .error error ↔ ∃ name Reads fault,
      Chosen disk root (some (name, Reads)) ∧ Fails disk (root.join name) Reads fault ∧
        error = .config (root.join name) fault := by
  constructor
  · intro failed
    cases first : first? disk root with
    | none =>
      rw [load_eq_none first] at failed
      cases failed
    | some chosen =>
      obtain ⟨name, parse⟩ := chosen
      rw [load_eq_readFile first, Except.map_eq_error] at failed
      obtain ⟨fault, fails, rfl⟩ := readFile_eq_error_iff.1 failed
      exact ⟨name, _, fault, chosen_some_iff.2 ⟨parse, first, rfl⟩, fails, rfl⟩
  · rintro ⟨name, Reads, fault, chosen, fails, rfl⟩
    obtain ⟨parse, first, rfl⟩ := chosen_some_iff.1 chosen
    rw [load_eq_readFile first, readFile_eq_error_iff.2 ⟨fault, fails, rfl⟩]
    rfl

/-- A disk on which the search for a configuration goes as on another and ends at the same text. -/
structure Alike (disk other : Disk) (start : Path) : Prop where
  marked : ∀ path ∈ start.ancestors, ∀ marker ∈ markers,
    other.has (path.join marker) = disk.has (path.join marker)
  configured : ∀ name Reads, Chosen disk (detectRoot disk start) (some (name, Reads)) →
    other.readText ((detectRoot disk start).join name) =
      disk.readText ((detectRoot disk start).join name)

theorem start_mem_ancestors (start : Path) : start ∈ start.ancestors := by
  unfold Path.ancestors
  cases start.pieces.length with
  | zero => exact List.mem_singleton_self start
  | succ fuel =>
    unfold Path.ancestorsFrom
    split <;> exact List.mem_cons_self

theorem detectRoot_mem_ancestors (disk : Disk) (start : Path) :
    detectRoot disk start ∈ start.ancestors := by
  unfold detectRoot
  cases found : start.ancestors.find? (isRoot disk) with
  | none => exact start_mem_ancestors start
  | some root => exact List.mem_of_find?_eq_some found

theorem Alike.detectRoot_eq {start : Path} (alike : Alike disk other start) :
    detectRoot other start = detectRoot disk start := by
  have same : start.ancestors.find? (isRoot other) = start.ancestors.find? (isRoot disk) := by
    apply List.find?_congr
    intro path above
    rw [Bool.eq_iff_iff, isRoot, isRoot, List.any_eq_true, List.any_eq_true]
    constructor
    · rintro ⟨marker, listed, there⟩
      exact ⟨marker, listed, alike.marked path above marker listed ▸ there⟩
    · rintro ⟨marker, listed, there⟩
      exact ⟨marker, listed, (alike.marked path above marker listed).trans there⟩
  rw [detectRoot, detectRoot, same]

theorem Alike.load_eq {start : Path} (alike : Alike disk other start) :
    load other (detectRoot disk start) = load disk (detectRoot disk start) := by
  have same : first? other (detectRoot disk start) = first? disk (detectRoot disk start) := by
    apply List.find?_congr
    intro format listed
    apply alike.marked _ (detectRoot_mem_ancestors disk start)
    exact List.mem_append_left _ (List.mem_map_of_mem listed)
  cases first : first? disk (detectRoot disk start) with
  | none =>
    rw [load_eq_none first, load_eq_none (same.trans first)]
  | some chosen =>
    obtain ⟨name, parse⟩ := chosen
    rw [load_eq_readFile first, load_eq_readFile (same.trans first),
      readFile_congr (alike.configured name _ (chosen_some_iff.2 ⟨parse, first, rfl⟩))]

end ConfigFile

end BuildGate
