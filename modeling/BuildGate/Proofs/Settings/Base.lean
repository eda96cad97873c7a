import BuildGate.Proofs.Host.Refusal
import BuildGate.Proofs.Settings
import BuildGate.Proofs.Settings.Root
import Mathlib.Data.List.Find

set_option autoImplicit false

namespace BuildGate

theorem Disk.readText_eq_ok {disk : Disk} {path : Path} {text : String}
    (taken : disk.readText path = .ok text) :
    ∃ content modified, disk.find path = .ok (.file content modified) ∧
      Text.decode? content = some text := by
  unfold readText at taken
  split at taken
  next => cases taken
  next => cases taken
  next content modified held =>
    split at taken
    next decoded =>
      cases taken
      exact ⟨content, modified, held, decoded⟩
    next => cases taken

namespace ConfigFile

variable {disk : Disk} {root : Path} {place : Place} {found : Option ConfigFile}

inductive Configures (disk : Disk) (place : Place) : Option ConfigFile → Prop
  | nothing (free : ∀ format ∈ names, disk.entry? (place ++ [format.1]) = none) :
      Configures disk place none
  | file {format : String × (String → Option ConfigFile)} {content : Text.Bytes} {modified : Int}
      {text : String} {said : ConfigFile}
      (first : names.find? (fun format => (disk.entry? (place ++ [format.1])).isSome) = some format)
      (held : disk.entry? (place ++ [format.1]) = some (.file content modified))
      (decoded : Text.decode? content = some text) (parsed : format.2 text = some said) :
      Configures disk place (some said)

theorem legalName_of_format {format : String × (String → Option ConfigFile)}
    (listed : format ∈ names) : LegalName format.1 :=
  legalName_of_marker _ (List.mem_append_left _ (List.mem_map_of_mem listed))

theorem configures_of_load (there : disk.directoryAt root = .ok place)
    (loaded : load disk root = .ok found) : Configures disk place found := by
  have present : names.find? (fun format => disk.has (root.join format.1)) =
      names.find? fun format => (disk.entry? (place ++ [format.1])).isSome := by
    apply List.find?_congr
    intro format listed
    rw [Disk.has_eq_isSome_find, Disk.find_join (legalName_of_format listed) there]
  unfold load at loaded
  split at loaded
  next none_ =>
    cases loaded
    rw [present, List.find?_eq_none] at none_
    exact .nothing fun format listed => by simpa using none_ format listed
  next name parse first =>
    rw [present] at first
    have listed := List.mem_of_find?_eq_some first
    cases read : readFile disk (root.join name) parse with
    | error error =>
      rw [read] at loaded
      cases loaded
    | ok said =>
      rw [read] at loaded
      cases loaded
      obtain ⟨text, taken, parsed⟩ := readFile_eq_ok_iff.1 read
      obtain ⟨content, modified, held, decoded⟩ := Disk.readText_eq_ok taken
      have entry := Disk.find_join (legalName_of_format listed) there
      rw [held] at entry
      exact .file first entry.symm decoded parsed

end ConfigFile

namespace Settings

open ConfigFile (RunsOut Configures detectRoot)

variable {disk : Disk} {start : Option String} {overrides : Overrides} {settings : Settings}
  {place : Place} {found : Option ConfigFile}

theorem basePath_of_resolve (resolved : resolve disk start overrides = .ok settings)
    (loaded : ConfigFile.load disk (detectRoot disk ⟨start.getD "."⟩) = .ok found)
    (free : overrides.basePath = none) (unset : (found.getD .empty).basePath = none) :
    settings.basePath = detectRoot disk ⟨start.getD "."⟩ := by
  unfold resolve at resolved
  simp only [loaded] at resolved
  cases read : loadProject disk (detectRoot disk ⟨start.getD "."⟩) overrides
      (found.getD .empty) with
  | error error =>
    simp only [read] at resolved
    cases resolved
  | ok project =>
    simp only [read] at resolved
    obtain rfl := Except.ok.inj resolved
    rw [merge, basePathOf, free, unset]
    rfl

/-- Settings to which nobody gave a base path get the directory whose configuration was loaded, exactly
if the search for that did not leave the path of the start. In that directory nothing keeps a tool from
being started that would not keep it anywhere; where the search left the path no program is built from
any file. -/
theorem basePath_usable_iff (there : disk.directoryAt ⟨start.getD "."⟩ = .ok place)
    (resolved : resolve disk start overrides = .ok settings)
    (loaded : ConfigFile.load disk (detectRoot disk ⟨start.getD "."⟩) = .ok found)
    (free : overrides.basePath = none) (unset : (found.getD .empty).basePath = none) :
    ((∃ root, disk.directoryAt settings.basePath = .ok root ∧ Configures disk root found) ↔
      ¬ RunsOut disk ⟨start.getD "."⟩) ∧
    ∀ host : Host, host.disk = disk →
      (¬ RunsOut disk ⟨start.getD "."⟩ → ∀ command shown cause,
        (∀ project seed, project.basePath = settings.basePath →
          (Compiler.build command project seed host).1 = .error (.spawn shown cause) →
          host.Refuses command (Compiler.fixedArguments ++ Compiler.arguments project.options ++
            project.files) cause) ∧
        (∀ file configuration options, configuration.basePath = settings.basePath →
          (Lint.lintFile command file configuration options host).1 = .error (.spawn shown cause) →
          host.Refuses command (Lint.arguments configuration options file) cause)) ∧
      (RunsOut disk ⟨start.getD "."⟩ → ∀ command project seed, project.files ≠ [] →
        project.basePath = settings.basePath →
        ∃ error, (Compiler.build command project seed host).1 = .error error) := by
  have base := basePath_of_resolve resolved loaded free unset
  have nowhere (disk : Disk) (root : Place) : disk.directoryAt ⟨""⟩ ≠ .ok root := by rintro ⟨⟩
  rcases ConfigFile.detectRoot_cases there with ⟨out, root⟩ | ⟨stays, root⟩
  · rw [root] at base
    refine ⟨iff_of_false ?_ fun stays => stays out, fun host same => ⟨fun stays => absurd out stays, ?_⟩⟩
    · rintro ⟨root, entered, -⟩
      exact nowhere disk root (base ▸ entered)
    · intro _ command project seed present fits
      cases built : Compiler.build command project seed host with
      | mk result after =>
        cases result with
        | error error => exact ⟨error, rfl⟩
        | ok program =>
          obtain ⟨root, entered⟩ := Compiler.directoryAt_of_build built present
          rw [fits, base] at entered
          exact absurd entered (nowhere _ root)
  · have loads := ConfigFile.configures_of_load root loaded
    rw [← base] at root
    refine ⟨iff_of_true ⟨_, root, loads⟩ stays, ?_⟩
    rintro host rfl
    refine ⟨fun _ command shown cause => ⟨?_, ?_⟩, fun out => absurd out stays⟩
    · intro project seed fits failed
      exact Compiler.refuses_of_build (fits ▸ root) failed
    · intro file configuration options fits failed
      exact Lint.refuses_of_lintFile (fits ▸ root) failed

theorem load_blank {disk : Disk} {root : Path} {modified : Int}
    (held : disk.find (root.join "tycheck.toml") = .ok (.file [] modified)) :
    ConfigFile.load disk root = .ok (some .empty) := by
  have read : disk.readText (root.join "tycheck.toml") = .ok "" := by
    simp only [Disk.readText, held, Text.decode?, Text.decode]
    rfl
  have parsed : ConfigFile.ofToml? "" = some .empty := by rfl
  have first : disk.has (root.join "tycheck.toml") = true := by rw [Disk.has, held]; rfl
  simp only [ConfigFile.load, ConfigFile.names, List.find?_cons, first, ConfigFile.readFile, read,
    parsed]
  rfl

theorem resolve_blank {disk : Disk} {start : Option String} {root : Path} {modified : Int}
    (detected : detectRoot disk ⟨start.getD "."⟩ = root)
    (held : disk.find (root.join "tycheck.toml") = .ok (.file [] modified)) :
    resolve disk start .empty = .ok { Settings.default with basePath := root } := by
  unfold resolve
  simp only [detected, load_blank held]
  rfl

theorem configured_base_usable :
    ∃ settings, resolve ConfigFile.nestedDisk (some "/home/src/plain") .empty = .ok settings ∧
      ConfigFile.load ConfigFile.nestedDisk
        (detectRoot ConfigFile.nestedDisk ⟨"/home/src/plain"⟩) = .ok (some .empty) ∧
      ConfigFile.nestedDisk.directoryAt ⟨"/home/src/plain"⟩ = .ok ["home", "src", "plain"] ∧
      ∃ root, ConfigFile.nestedDisk.directoryAt settings.basePath = .ok root ∧
        Configures ConfigFile.nestedDisk root (some .empty) := by
  have detected : detectRoot ConfigFile.nestedDisk ⟨"/home/src/plain"⟩ = ⟨"/home"⟩ := by decide
  have held : ConfigFile.nestedDisk.find (Path.join ⟨"/home"⟩ "tycheck.toml") = .ok (.file [] 0) :=
    rfl
  have there : ConfigFile.nestedDisk.directoryAt ⟨"/home/src/plain"⟩ =
      .ok ["home", "src", "plain"] := rfl
  have stays : ¬ RunsOut ConfigFile.nestedDisk ⟨"/home/src/plain"⟩ := by decide
  have resolved : resolve ConfigFile.nestedDisk (some "/home/src/plain") .empty = _ :=
    resolve_blank detected held
  have loaded := load_blank held
  rw [← detected] at loaded
  have usable := (basePath_usable_iff there resolved loaded rfl rfl).1
  exact ⟨_, resolved, loaded, there, usable.2 stays⟩

def besideDisk : Disk where
  entries := [(["tycheck.toml"], .file [] 1), (["sub"], .directory 1), (["sub", "a.ts"], .file [] 1)]
  current := []
  clock := 2

theorem empty_base_path_refused :
    besideDisk.directoryAt ⟨"sub"⟩ = .ok ["sub"] ∧
      besideDisk.directoryAt ⟨"."⟩ = .ok [] ∧
      Configures besideDisk [] (some .empty) ∧
      ∃ settings, resolve besideDisk (some "sub") .empty = .ok settings ∧
        ConfigFile.load besideDisk (detectRoot besideDisk ⟨"sub"⟩) = .ok (some .empty) ∧
        besideDisk.directoryAt settings.basePath = .error .missing ∧
        ∀ respond,
          (Compiler.build ["tsc"] ⟨["sub/a.ts"], .emptyObject, settings.basePath⟩ none
            ⟨besideDisk, fun _ => none, respond, []⟩).1 = .error (.spawn "tsc" .missing) ∧
          (Lint.lintFile ["tslint"] "sub/a.ts" ⟨⟨"tslint.json"⟩, settings.basePath⟩ .default
            ⟨besideDisk, fun _ => none, respond, []⟩).1 = .error (.spawn "tslint" .missing) := by
  have detected : detectRoot besideDisk ⟨(some "sub").getD "."⟩ = ⟨""⟩ := by decide
  have held : besideDisk.find (Path.join ⟨""⟩ "tycheck.toml") = .ok (.file [] 1) := rfl
  have here : besideDisk.directoryAt ⟨"."⟩ = .ok [] := rfl
  have beside : besideDisk.find (Path.join ⟨"."⟩ "tycheck.toml") = .ok (.file [] 1) := rfl
  have configures := ConfigFile.configures_of_load here (load_blank beside)
  refine ⟨rfl, here, configures, _, resolve_blank detected held, ?_, rfl, fun respond => ⟨?_, rfl⟩⟩
  · exact detected ▸ load_blank held
  · have read : besideDisk.readText (Path.join ⟨""⟩ "sub/a.ts") = .ok "" := by
      have file : besideDisk.find (Path.join ⟨""⟩ "sub/a.ts") = .ok (.file [] 1) := rfl
      simp only [Disk.readText, file, Text.decode?, Text.decode]
      rfl
    have loaded := Compiler.loadSources_singleton read
    rw [Compiler.build_apply]
    simp only [loaded]
    rfl

end Settings

end BuildGate
