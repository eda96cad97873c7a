import BuildGate.Proofs.Settings
import BuildGate.Proofs.Settings.Equality
import BuildGate.Proofs.Text.Utf8

set_option autoImplicit false

namespace BuildGate

/-- What is asked for wins over what is said, and that over a default. -/
inductive Wins {α : Type} (asked said : Option α) (default : α) : α → Prop
  | asked {value : α} (given : asked = some value) : Wins asked said default value
  | said {value : α} (free : asked = none) (given : said = some value) :
      Wins asked said default value
  | default (free : asked = none) (unset : said = none) : Wins asked said default default

theorem wins_iff {α : Type} {asked said : Option α} {default value : α} :
    Wins asked said default value ↔ value = (asked.or said).getD default := by
  constructor
  · rintro (given | ⟨free, given⟩ | ⟨free, unset⟩)
    · rw [given, Option.some_or, Option.getD_some]
    · rw [free, given, Option.none_or, Option.getD_some]
    · rw [free, unset, Option.none_or, Option.getD_none]
  · rintro rfl
    cases asked with
    | some value => exact .asked rfl
    | none =>
      cases said with
      | some value => exact .said rfl rfl
      | none => exact .default rfl rfl

theorem ByKind.ext_get {α : Type} {values others : ByKind α}
    (same : ∀ kind, values.get kind = others.get kind) : values = others := by
  obtain ⟨options, global, syntactic, semantic, lint⟩ := values
  obtain ⟨options', global', syntactic', semantic', lint'⟩ := others
  obtain rfl : options = options' := same .options
  obtain rfl : global = global' := same .global
  obtain rfl : syntactic = syntactic' := same .syntactic
  obtain rfl : semantic = semantic' := same .semantic
  obtain rfl : lint = lint' := same .lint
  rfl

namespace Settings

open ConfigFile (Alike Chosen Fails Loads ReadBy Tells detectRoot)

variable {disk other : Disk} {root : Path} {overrides : Overrides} {file : ConfigFile}
  {settings : Settings} {error : GateError} {start : Option String}

inductive ProjectSource
  | file (name : String)
  | object (project : Json)

inductive Provides (overrides : Overrides) (file : ConfigFile) : ProjectSource → Prop
  | asked {name : String} (given : overrides.projectFile = some name) :
      Provides overrides file (.file name)
  | written {project : Json} (free : overrides.projectFile = none)
      (given : file.project = some project) : Provides overrides file (.object project)
  | named {name : String} (free : overrides.projectFile = none) (unwritten : file.project = none)
      (given : file.projectFile = some name) : Provides overrides file (.file name)
  | nothing (free : overrides.projectFile = none) (unwritten : file.project = none)
      (unnamed : file.projectFile = none) : Provides overrides file (.object .emptyObject)

def ProjectSource.Gives (disk : Disk) (base : Path) : ProjectSource → Json → Prop
  | .file name, project => Loads disk (base.join name) (ReadBy Json.parse) project
  | .object written, project => project = written

theorem provides_file_iff {name : String} :
    Provides overrides file (.file name) ↔ projectFile? overrides file = some name := by
  unfold projectFile?
  constructor
  · rintro (given | _ | ⟨free, unwritten, given⟩)
    · rw [given, Option.some_or]
    · simp [free, unwritten, given]
  · intro wins
    cases asked : overrides.projectFile with
    | some other =>
      rw [asked, Option.some_or] at wins
      exact .asked (asked.trans wins)
    | none =>
      cases written : file.project with
      | some project => simp [asked, written] at wins
      | none =>
        simp only [asked, written, Option.isSome_none, Bool.false_eq_true, if_false,
          Option.none_or] at wins
        exact .named asked written wins

theorem provides_object_iff {project : Json} :
    Provides overrides file (.object project) ↔
      projectFile? overrides file = none ∧ project = file.project.getD default.project := by
  unfold projectFile?
  constructor
  · rintro (_ | ⟨free, given⟩ | _ | ⟨free, unwritten, unnamed⟩)
    · simp [free, given]
    · simp [free, unwritten, unnamed, default]
  · rintro ⟨wins, rfl⟩
    rw [Option.or_eq_none_iff] at wins
    obtain ⟨free, wins⟩ := wins
    cases written : file.project with
    | some project => exact .written free written
    | none =>
      rw [written] at wins
      exact .nothing free written wins

theorem loadProject_eq_ok_iff {project : Json} :
    loadProject disk root overrides file = .ok project ↔ ∃ source,
      Provides overrides file source ∧
        source.Gives disk (basePathOf root overrides file) project := by
  unfold loadProject
  constructor
  · intro loaded
    split at loaded
    next name wins =>
      exact ⟨.file name, provides_file_iff.2 wins, ConfigFile.readFile_eq_ok_iff.1 loaded⟩
    next wins =>
      obtain rfl := Except.ok.inj loaded
      exact ⟨_, provides_object_iff.2 ⟨wins, rfl⟩, rfl⟩
  · rintro ⟨source, provides, gives⟩
    cases source with
    | file name =>
      rw [provides_file_iff.1 provides]
      exact ConfigFile.readFile_eq_ok_iff.2 gives
    | object written =>
      obtain ⟨wins, rfl⟩ := provides_object_iff.1 provides
      rw [wins, gives]

theorem loadProject_eq_error_iff :
    loadProject disk root overrides file = .error error ↔ ∃ name fault,
      Provides overrides file (.file name) ∧
        Fails disk ((basePathOf root overrides file).join name) (ReadBy Json.parse) fault ∧
          error = .config ((basePathOf root overrides file).join name) fault := by
  simp only [provides_file_iff]
  unfold loadProject
  constructor
  · intro failed
    split at failed
    next name wins =>
      obtain ⟨fault, fails, rfl⟩ := ConfigFile.readFile_eq_error_iff.1 failed
      exact ⟨name, fault, wins, fails, rfl⟩
    next wins => cases failed
  · rintro ⟨name, fault, wins, fails, rfl⟩
    rw [wins]
    exact ConfigFile.readFile_eq_error_iff.2 ⟨fault, fails, rfl⟩

def BasePath (root : Path) (overrides : Overrides) (file : ConfigFile) (base : Path) : Prop :=
  Wins (overrides.basePath.map root.join) (file.basePath.map root.join) root base

theorem basePath_iff {base : Path} :
    BasePath root overrides file base ↔ base = basePathOf root overrides file := by
  rw [BasePath, wins_iff, basePathOf, ← Option.map_or]
  cases overrides.basePath.or file.basePath <;> rfl

-- The command of a section counts only if it names a program.
def spoken (section? : Option (Option (List String))) : Option (List String) :=
  (section?.bind id).filter (· ≠ [])

theorem commandOr_eq (section? : Option (Option (List String))) (default : List String) :
    commandOr section? default = (spoken section?).getD default := by
  rcases section? with _ | _ | _ | ⟨program, arguments⟩ <;> rfl

theorem flagsOf_get (values : ByKind (Option Bool)) (kind : Kind) :
    (flagsOf values).get kind = (values.get kind).getD false := by
  cases kind <;> rfl

structure Merged (root : Path) (overrides : Overrides) (file : ConfigFile) (settings : Settings) :
    Prop where
  basePath : BasePath root overrides file settings.basePath
  lintFile : Wins (overrides.lintFile.map some) (file.lintFile.map some) none settings.lintFile
  name : Wins overrides.name file.name "tycheck" settings.name
  quit : Wins overrides.quit file.quit false settings.quit
  finished : Wins overrides.finished file.finished false settings.finished
  lintUnit : Wins overrides.lintUnit file.lintUnit .files settings.lintUnit
  runType : Wins none file.runType "sync" settings.runType
  lintOptions : settings.lintOptions = file.lintOptions
  yellow : ∀ kind, Wins none (file.yellow.get kind) false (settings.yellow.get kind)
  throws : ∀ kind, Wins none (file.throws.get kind) false (settings.throws.get kind)
  compiler : Wins none (spoken file.compiler) ["tsc"] settings.compiler
  linter : Wins none (spoken file.linter) ["tslint"] settings.linter

theorem map_some_or (asked said : Option String) :
    ((asked.map some).or (said.map some)).getD none = asked.or said := by
  cases asked <;> cases said <;> rfl

theorem merged_iff {project : Json} :
    Merged root overrides file settings ∧ settings.project = project ↔
      settings = merge root overrides file project := by
  constructor
  · rintro ⟨merged, same⟩
    have yellow : settings.yellow = flagsOf file.yellow :=
      ByKind.ext_get fun kind => (wins_iff.1 (merged.yellow kind)).trans (flagsOf_get _ _).symm
    have throws : settings.throws = flagsOf file.throws :=
      ByKind.ext_get fun kind => (wins_iff.1 (merged.throws kind)).trans (flagsOf_get _ _).symm
    have lintFile := (wins_iff.1 merged.lintFile).trans (map_some_or _ _)
    have basePath := basePath_iff.1 merged.basePath
    have name := wins_iff.1 merged.name
    have quit := wins_iff.1 merged.quit
    have finished := wins_iff.1 merged.finished
    have lintUnit := wins_iff.1 merged.lintUnit
    have runType := wins_iff.1 merged.runType
    have compiler := (wins_iff.1 merged.compiler).trans (commandOr_eq _ _).symm
    have linter := (wins_iff.1 merged.linter).trans (commandOr_eq _ _).symm
    have lintOptions := merged.lintOptions
    obtain ⟨⟩ := settings
    simp only at *
    subst_vars
    rfl
  · rintro rfl
    refine ⟨{
      basePath := basePath_iff.2 rfl
      lintFile := wins_iff.2 (map_some_or _ _).symm
      name := wins_iff.2 rfl
      quit := wins_iff.2 rfl
      finished := wins_iff.2 rfl
      lintUnit := wins_iff.2 rfl
      runType := wins_iff.2 rfl
      lintOptions := rfl
      yellow := fun kind => wins_iff.2 (flagsOf_get _ kind)
      throws := fun kind => wins_iff.2 (flagsOf_get _ kind)
      compiler := wins_iff.2 (commandOr_eq _ _)
      linter := wins_iff.2 (commandOr_eq _ _) }, rfl⟩

theorem resolve_of_tells (detected : detectRoot disk ⟨start.getD "."⟩ = root)
    (tells : Tells disk root file) :
    resolve disk start overrides =
      (loadProject disk root overrides file).map (merge root overrides file) := by
  obtain ⟨found, loaded, rfl⟩ := ConfigFile.tells_iff.1 tells
  unfold resolve
  simp only [detected, loaded]
  cases loadProject disk root overrides (found.getD .empty) <;> rfl

theorem resolve_cases (overrides : Overrides)
    (detected : detectRoot disk ⟨start.getD "."⟩ = root) :
    (∃ file, Tells disk root file) ∨ ∃ error, ConfigFile.load disk root = .error error ∧
      resolve disk start overrides = .error error := by
  cases loaded : ConfigFile.load disk root with
  | ok found => exact .inl ⟨_, ConfigFile.tells_iff.2 ⟨found, loaded, rfl⟩⟩
  | error error =>
    refine .inr ⟨error, rfl, ?_⟩
    unfold resolve
    simp only [detected, loaded]

theorem resolve_eq_ok_iff (detected : detectRoot disk ⟨start.getD "."⟩ = root) :
    resolve disk start overrides = .ok settings ↔ ∃ file,
      Tells disk root file ∧ Merged root overrides file settings ∧ ∃ source,
        Provides overrides file source ∧
          source.Gives disk settings.basePath settings.project := by
  constructor
  · intro resolved
    rcases resolve_cases overrides detected with ⟨file, tells⟩ | ⟨error, -, failed⟩
    · rw [resolve_of_tells detected tells, Except.map_eq_ok] at resolved
      obtain ⟨project, loaded, made⟩ := resolved
      obtain ⟨source, provides, gives⟩ := loadProject_eq_ok_iff.1 loaded
      obtain ⟨merged, rfl⟩ := merged_iff.2 made.symm
      rw [← basePath_iff.1 merged.basePath] at gives
      exact ⟨file, tells, merged, source, provides, gives⟩
    · rw [failed] at resolved
      cases resolved
  · rintro ⟨file, tells, merged, source, provides, gives⟩
    rw [basePath_iff.1 merged.basePath] at gives
    rw [resolve_of_tells detected tells, loadProject_eq_ok_iff.2 ⟨source, provides, gives⟩]
    exact congrArg Except.ok (merged_iff.1 ⟨merged, rfl⟩).symm

theorem resolve_eq_error_iff (detected : detectRoot disk ⟨start.getD "."⟩ = root) :
    resolve disk start overrides = .error error ↔
      (∃ name Reads fault, Chosen disk root (some (name, Reads)) ∧
        Fails disk (root.join name) Reads fault ∧ error = .config (root.join name) fault) ∨
      ∃ file base name fault, Tells disk root file ∧ BasePath root overrides file base ∧
        Provides overrides file (.file name) ∧ Fails disk (base.join name) (ReadBy Json.parse) fault ∧
          error = .config (base.join name) fault := by
  rw [← ConfigFile.load_eq_error_iff]
  constructor
  · intro failed
    rcases resolve_cases overrides detected with ⟨file, tells⟩ | ⟨other, unsaid, broken⟩
    · rw [resolve_of_tells detected tells, Except.map_eq_error] at failed
      obtain ⟨name, fault, provides, fails, rfl⟩ := loadProject_eq_error_iff.1 failed
      exact .inr ⟨file, _, name, fault, tells, basePath_iff.2 rfl, provides, fails, rfl⟩
    · rw [failed] at broken
      cases broken
      exact .inl unsaid
  · rintro (unsaid | ⟨file, base, name, fault, tells, placed, provides, fails, rfl⟩)
    · unfold resolve
      simp only [detected, unsaid]
    · obtain rfl := basePath_iff.1 placed
      rw [resolve_of_tells detected tells,
        loadProject_eq_error_iff.2 ⟨name, fault, provides, fails, rfl⟩]
      rfl

theorem resolve_error (failed : resolve disk start overrides = .error error) :
    ∃ path fault, error = .config path fault := by
  rcases (resolve_eq_error_iff rfl).1 failed with
    ⟨name, _, fault, _, _, rfl⟩ | ⟨_, base, name, fault, _, _, _, _, rfl⟩
  · exact ⟨_, fault, rfl⟩
  · exact ⟨_, fault, rfl⟩

/-- Settings made with two command lines differ only in what the command lines ask for. A base path
counts for the project only where that is read from a file. -/
structure Follows (file : ConfigFile) (overrides others : Overrides) (settings changed : Settings) :
    Prop where
  basePath : overrides.basePath = others.basePath → settings.basePath = changed.basePath
  lintFile : overrides.lintFile = others.lintFile → settings.lintFile = changed.lintFile
  name : overrides.name = others.name → settings.name = changed.name
  quit : overrides.quit = others.quit → settings.quit = changed.quit
  finished : overrides.finished = others.finished → settings.finished = changed.finished
  lintUnit : overrides.lintUnit = others.lintUnit → settings.lintUnit = changed.lintUnit
  project : overrides.projectFile = others.projectFile →
    overrides.basePath = others.basePath ∨ (∃ object, Provides overrides file (.object object)) →
      settings.project = changed.project
  unasked : settings.lintOptions = changed.lintOptions ∧ settings.runType = changed.runType ∧
    settings.yellow = changed.yellow ∧ settings.throws = changed.throws ∧
      settings.compiler = changed.compiler ∧ settings.linter = changed.linter

theorem loadProject_congr {others : Overrides}
    (asked : overrides.projectFile = others.projectFile)
    (placed : overrides.basePath = others.basePath ∨
      ∃ object, Provides overrides file (.object object)) :
    loadProject disk root overrides file = loadProject disk root others file := by
  have wins : projectFile? overrides file = projectFile? others file := by
    rw [projectFile?, projectFile?, asked]
  rcases placed with same | ⟨object, provides⟩
  · have base : basePathOf root overrides file = basePathOf root others file := by
      rw [basePathOf, basePathOf, same]
    rw [loadProject, loadProject, wins, base]
  · have none_ := (provides_object_iff.1 provides).1
    simp only [loadProject, ← wins, none_]

theorem tells_unique {others : ConfigFile} (tells : Tells disk root file)
    (tells' : Tells disk root others) : file = others := by
  obtain ⟨found, loaded, rfl⟩ := ConfigFile.tells_iff.1 tells
  obtain ⟨found', loaded', rfl⟩ := ConfigFile.tells_iff.1 tells'
  rw [loaded] at loaded'
  rw [Except.ok.inj loaded']

theorem follows {others : Overrides} {changed : Settings}
    (detected : detectRoot disk ⟨start.getD "."⟩ = root) (tells : Tells disk root file)
    (resolved : resolve disk start overrides = .ok settings)
    (again : resolve disk start others = .ok changed) :
    Follows file overrides others settings changed := by
  rw [resolve_of_tells detected tells, Except.map_eq_ok] at resolved again
  obtain ⟨project, loaded, rfl⟩ := resolved
  obtain ⟨project', loaded', rfl⟩ := again
  refine ⟨?_, ?_, ?_, ?_, ?_, ?_, ?_, ⟨rfl, rfl, rfl, rfl, rfl, rfl⟩⟩
  · intro same
    simp only [merge, basePathOf, same]
  · intro same
    simp only [merge, same]
  · intro same
    simp only [merge, same]
  · intro same
    simp only [merge, same]
  · intro same
    simp only [merge, same]
  · intro same
    simp only [merge, same]
  · intro asked placed
    rw [loadProject_congr asked placed, loaded'] at loaded
    exact (Except.ok.inj loaded).symm

theorem resolve_of_alike (detected : detectRoot disk ⟨start.getD "."⟩ = root)
    (alike : Alike disk other ⟨start.getD "."⟩)
    (provided : ∀ file name base, Tells disk root file → Provides overrides file (.file name) →
      BasePath root overrides file base →
        other.readText (base.join name) = disk.readText (base.join name)) :
    resolve other start overrides = resolve disk start overrides := by
  have root_eq := alike.detectRoot_eq.trans detected
  have same := alike.load_eq
  rw [detected] at same
  rcases resolve_cases overrides detected with ⟨file, tells⟩ | ⟨error, unsaid, failed⟩
  · have tells' : Tells other root file := by
      rw [ConfigFile.tells_iff, same]
      exact ConfigFile.tells_iff.1 tells
    have project : loadProject other root overrides file = loadProject disk root overrides file := by
      unfold loadProject
      split
      next name wins =>
        apply ConfigFile.readFile_congr
        exact provided file name _ tells (provides_file_iff.2 wins) (basePath_iff.2 rfl)
      next wins => rfl
    rw [resolve_of_tells detected tells, resolve_of_tells root_eq tells', project]
  · rw [failed]
    unfold resolve
    simp only [root_eq, same, unsaid]

/-- Field by field settings come from the command line, else from the configuration file, else from the
defaults, and the project from the first of its places. They cannot be resolved exactly if the
configuration file or the project file that wins cannot be loaded. What one field is asked to be changes
no other field, and a project file that only the configuration names is not read if the command line
names another or the configuration holds an object. -/
theorem resolve_by_precedence (disk : Disk) (start : Option String) (overrides : Overrides) :
    let root := detectRoot disk ⟨start.getD "."⟩
    (∀ settings, resolve disk start overrides = .ok settings ↔ ∃ file,
      Tells disk root file ∧ Merged root overrides file settings ∧ ∃ source,
        Provides overrides file source ∧
          source.Gives disk settings.basePath settings.project) ∧
    (∀ error, resolve disk start overrides = .error error ↔
      (∃ name Reads fault, Chosen disk root (some (name, Reads)) ∧
        Fails disk (root.join name) Reads fault ∧ error = .config (root.join name) fault) ∨
      ∃ file base name fault, Tells disk root file ∧ BasePath root overrides file base ∧
        Provides overrides file (.file name) ∧ Fails disk (base.join name) (ReadBy Json.parse) fault ∧
          error = .config (base.join name) fault) ∧
    ∀ file, Tells disk root file →
      (∀ others settings changed, resolve disk start overrides = .ok settings →
        resolve disk start others = .ok changed →
          Follows file overrides others settings changed) ∧
      (overrides.projectFile.isSome ∨ file.project.isSome →
        ∀ other, Alike disk other ⟨start.getD "."⟩ →
          (∀ name base, overrides.projectFile = some name → BasePath root overrides file base →
            other.readText (base.join name) = disk.readText (base.join name)) →
          resolve other start overrides = resolve disk start overrides) := by
  intro root
  refine ⟨fun settings => resolve_eq_ok_iff rfl, fun error => resolve_eq_error_iff rfl, ?_⟩
  intro file tells
  refine ⟨fun others settings changed resolved again => follows rfl tells resolved again, ?_⟩
  intro present other alike asked
  apply resolve_of_alike rfl alike
  intro file' name base tells' provides placed
  obtain rfl := tells_unique tells tells'
  cases provides with
  | asked given => exact asked name base given placed
  | named free unwritten given => simp [free, unwritten] at present

def askedToml : String :=
  "name = \"web\"\ntsLint = \"l.json\"\ntsConfig = \"unread.json\"\nthrowOnSemantic = true\n" ++
    "yellowOnLint = true\n[tsConfigObj]\nfiles = []\n[engine]\ncommand = [\"npx\", \"tsc\"]\n"

def askedYaml : String :=
  "name: web\ntsLint: l.json\ntsConfig: unread.json\nthrowOnSemantic: true\nyellowOnLint: true\n" ++
    "tsConfigObj: \x7bfiles: []\x7d\nengine:\n  command: [npx, tsc]\n"

def askedFile : ConfigFile :=
  { ConfigFile.empty with
    name := some "web"
    lintFile := some "l.json"
    projectFile := some "unread.json"
    project := some (.object [("files", .array [])])
    throws := ⟨none, none, none, some true, none⟩
    yellow := ⟨none, none, none, none, some true⟩
    compiler := some (some ["npx", "tsc"]) }

def writtenDisk (name text : String) : Disk where
  entries := [([name], .file (Text.encode text) 0),
    (["given.json"], .file (Text.encode "\x7b\x7d") 1)]
  current := []
  clock := 2

def fullerDisk : Disk :=
  let disk := writtenDisk "tycheck.toml" askedToml
  { disk with entries := disk.entries ++ [(["unread.json"], .file [] 1)] }

def askedOverrides : Overrides :=
  { Overrides.empty with projectFile := some "given.json", name := some "nightly" }

def webSettings : Settings :=
  { Settings.default with
    name := "web"
    lintFile := some "l.json"
    project := .object [("files", .array [])]
    throws := ⟨false, false, false, true, false⟩
    yellow := ⟨false, false, false, false, true⟩
    compiler := ["npx", "tsc"] }

def nightlySettings : Settings := { webSettings with name := "nightly", project := .emptyObject }

theorem asked_settings_resolved :
    let disk := writtenDisk "tycheck.toml" askedToml
    Tells disk ⟨"."⟩ askedFile ∧
      resolve disk none askedOverrides = .ok nightlySettings ∧
        resolve disk none .empty = .ok webSettings ∧
          Follows askedFile askedOverrides .empty nightlySettings webSettings ∧
            Alike disk fullerDisk ⟨"."⟩ ∧
              resolve fullerDisk none askedOverrides = .ok nightlySettings ∧
                resolve (writtenDisk "tycheck.yaml" askedYaml) none askedOverrides =
                  .ok nightlySettings := by
  intro disk
  have dot : detectRoot disk ⟨Option.getD none "."⟩ = ⟨"."⟩ := by decide
  have plain : detectRoot (writtenDisk "tycheck.yaml" askedYaml) ⟨Option.getD none "."⟩ = ⟨"."⟩ := by
    decide
  have held (name text file : String) (present : (writtenDisk name text).find
      (Path.join ⟨"."⟩ file) = .ok (.file (Text.encode text) 0)) :
      (writtenDisk name text).readText (Path.join ⟨"."⟩ file) = .ok text := by
    simp only [Disk.readText, present, Text.decode?_encode]
  have given (name text : String) (present : (writtenDisk name text).find
      (Path.join ⟨"."⟩ "given.json") = .ok (.file (Text.encode "\x7b\x7d") 1)) :
      Loads (writtenDisk name text) (Path.join ⟨"."⟩ "given.json") (ReadBy Json.parse)
        .emptyObject := by
    refine ⟨"\x7b\x7d", ?_, rfl⟩
    simp only [Disk.readText, present, Text.decode?_encode]
  have toml : ConfigFile.OfToml askedToml askedFile :=
    ConfigFile.ofToml?_eq_some.1 (by decide +kernel)
  have yaml : ConfigFile.OfYaml askedYaml askedFile :=
    ConfigFile.ofYaml?_eq_some.1 (by decide +kernel)
  have tells : Tells disk ⟨"."⟩ askedFile :=
    .file (.toml rfl) ⟨askedToml, held _ _ "tycheck.toml" rfl, toml⟩
  have tells' : Tells (writtenDisk "tycheck.yaml" askedYaml) ⟨"."⟩ askedFile :=
    .file (.yaml rfl rfl) ⟨askedYaml, held _ _ "tycheck.yaml" rfl, yaml⟩
  obtain ⟨resolves, -, each⟩ := resolve_by_precedence disk none askedOverrides
  have unasked := (resolve_by_precedence disk none .empty).1
  have others := (resolve_by_precedence (writtenDisk "tycheck.yaml" askedYaml) none askedOverrides).1
  rw [dot] at resolves each unasked
  rw [plain] at others
  have nightly := (resolves nightlySettings).2
    ⟨askedFile, tells, (merged_iff.2 rfl).1, .file "given.json", .asked rfl, given _ _ rfl⟩
  have web := (unasked webSettings).2
    ⟨askedFile, tells, (merged_iff.2 rfl).1, .object _, .written rfl rfl, rfl⟩
  have again := (others nightlySettings).2
    ⟨askedFile, tells', (merged_iff.2 rfl).1, .file "given.json", .asked rfl, given _ _ rfl⟩
  obtain ⟨follows, unread⟩ := each askedFile tells
  have alike : Alike disk fullerDisk ⟨"."⟩ := by
    refine ⟨by decide, ?_⟩
    intro name Reads chosen
    rw [show detectRoot disk ⟨"."⟩ = ⟨"."⟩ from dot] at chosen ⊢
    have there : disk.has (Path.join ⟨"."⟩ "tycheck.toml") = true := rfl
    cases chosen with
    | toml => rfl
    | yaml noToml | yml noToml =>
      rw [there] at noToml
      cases noToml
  refine ⟨tells, nightly, web, follows _ _ _ nightly web, alike, ?_, again⟩
  rw [← nightly]
  apply unread (.inl rfl) fullerDisk alike
  rintro name base ⟨⟩ placed
  obtain rfl := basePath_iff.1 placed
  rfl

end Settings

end BuildGate
