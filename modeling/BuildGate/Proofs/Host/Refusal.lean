import BuildGate.Proofs.Gate.Contract
import BuildGate.Proofs.Disk.Steps

set_option autoImplicit false

namespace BuildGate

namespace Host

variable {ε α : Type} {host : Host} {command arguments : List String} {directory : Path}
  {cause : IoError}

/-- What can keep a command from being started with some arguments, wherever that is tried. -/
def Refuses (host : Host) (command arguments : List String) (cause : IoError) : Prop :=
  ∃ program own, command = program :: own ∧
    (cause = .nulInArgument ∧ (command ++ arguments).any holdsNul = true ∨
      host.obstacle program = some cause)

theorem refuses_of_place {program : String} {own : List String} {place : Place}
    (there : host.disk.directoryAt directory = .ok place)
    (refused : host.place program (own ++ arguments) directory = .error cause) :
    host.Refuses (program :: own) arguments cause := by
  have clean : holdsNul directory.text = false := (Disk.directoryAt_iff_steps.1 there).2.1
  simp only [Host.place, there] at refused
  refine ⟨program, own, rfl, ?_⟩
  split at refused
  next nul =>
    cases refused
    exact .inl ⟨rfl, by simpa [clean] using nul⟩
  next =>
    split at refused
    next obstacle =>
      cases refused
      exact .inr obstacle
    next => cases refused

theorem consult_eq_error {wrap : IoError → ε} {check : Response → Except ε α} {error : ε}
    {program : String}
    (failed : (((start program arguments directory).mapError wrap >>= fun response =>
      Action.ofExcept (check response) : Action Host ε α) host).1 = .error error) :
    (∃ cause, wrap cause = error ∧ host.place program arguments directory = .error cause) ∨
      ∃ response, check response = .error error := by
  rcases Action.bind_eq_error.1 (Prod.ext failed rfl) with refused | ⟨response, between, -, read⟩
  · obtain ⟨cause, refused, wrapped⟩ := Action.mapError_eq_error.1 refused
    refine .inl ⟨cause, wrapped, ?_⟩
    have result := congrArg Prod.fst refused
    unfold start at result
    split at result
    next placed =>
      cases result
      exact placed
    next => cases result
  · exact .inr ⟨response, congrArg Prod.fst read⟩

end Host

namespace Compiler

variable {command : List String} {project : Project} {seed : Option Program} {host : Host}
  {place : Place} {shown : String} {cause : IoError}

theorem runCompiler_eq_error {error : EngineError}
    (failed : (runCompiler command project host).1 = .error error) :
    error = .project .emptyCompiler ∨
      (∃ program own cause, command = program :: own ∧ error = .spawn (Compiler.shown command) cause ∧
        host.place program (own ++ (fixedArguments ++ arguments project.options ++ project.files))
          project.basePath = .error cause) ∨
      ∃ status complaint, error = .failed (Compiler.shown command) status complaint := by
  cases command with
  | nil =>
    cases failed
    exact .inl rfl
  | cons program own =>
    rcases Host.consult_eq_error failed with ⟨cause, rfl, placed⟩ | ⟨response, read⟩
    · simp only [List.append_assoc] at placed ⊢
      exact .inr (.inl ⟨program, own, cause, rfl, rfl, placed⟩)
    · unfold checkResponse at read
      split at read <;> cases read
      exact .inr (.inr ⟨_, _, rfl⟩)

theorem build_eq_error {error : EngineError}
    (failed : (build command project seed host).1 = .error error) :
    (∃ file ∈ project.files, ∃ cause, error = .read (project.basePath.join file) cause ∧
        host.disk.readText (project.basePath.join file) = .error cause) ∨
      (runCompiler command project host).1 = .error error := by
  rw [build_apply] at failed
  split at failed
  next unread =>
    cases failed
    exact .inl (loadSources_error unread)
  next =>
    split at failed
    next => cases failed
    next =>
      rcases Action.bind_eq_error.1 (Prod.ext failed rfl) with refused | ⟨_, _, _, done⟩
      · exact .inr (congrArg Prod.fst refused)
      · cases done

theorem refuses_of_build (there : host.disk.directoryAt project.basePath = .ok place)
    (failed : (build command project seed host).1 = .error (.spawn shown cause)) :
    host.Refuses command (fixedArguments ++ arguments project.options ++ project.files) cause := by
  rcases build_eq_error failed with ⟨_, -, _, read, -⟩ | refused
  · cases read
  rcases runCompiler_eq_error refused with none_ | ⟨program, own, cause, rfl, spawned, placed⟩ |
    ⟨_, _, ran⟩
  · cases none_
  · cases spawned
    exact Host.refuses_of_place there placed
  · cases ran

theorem unread_of_build {path : Path}
    (failed : (build command project seed host).1 = .error (.read path cause)) :
    ∃ file ∈ project.files, path = project.basePath.join file ∧
      host.disk.readText path = .error cause := by
  rcases build_eq_error failed with ⟨file, listed, _, read, unread⟩ | refused
  · cases read
    exact ⟨file, listed, rfl, unread⟩
  rcases runCompiler_eq_error refused with none_ | ⟨_, _, _, -, spawned, -⟩ | ⟨_, _, ran⟩
  · cases none_
  · cases spawned
  · cases ran

theorem directoryAt_of_build {after : Host} {program : Program}
    (built : build command project seed host = (.ok program, after)) (present : project.files ≠ []) :
    ∃ place, host.disk.directoryAt project.basePath = .ok place := by
  rw [build_apply] at built
  split at built
  next => cases built
  next =>
    rw [if_neg present] at built
    obtain ⟨output, between, ran, -⟩ := Action.bind_eq_ok.1 built
    cases command with
    | nil => cases ran
    | cons name own =>
      obtain ⟨response, entered, started, -⟩ := Action.bind_eq_ok.1 ran
      obtain ⟨place, placed, -⟩ := Host.start_eq_ok.1 (Action.mapError_eq_ok.1 started)
      exact ⟨place, Host.directoryAt_of_place placed⟩

end Compiler

namespace Lint

theorem refuses_of_lintFile {command : List String} {file : String} {configuration : Configuration}
    {options : LintOptions} {host : Host} {place : Place} {shown : String} {cause : IoError}
    (there : host.disk.directoryAt configuration.basePath = .ok place)
    (failed : (lintFile command file configuration options host).1 = .error (.spawn shown cause)) :
    host.Refuses command (arguments configuration options file) cause := by
  cases command with
  | nil => cases failed
  | cons program own =>
    rcases Host.consult_eq_error failed with ⟨_, wrapped, placed⟩ | ⟨response, read⟩
    · cases wrapped
      exact Host.refuses_of_place there placed
    · unfold readResponse at read
      split at read
      · cases read
      · split at read <;> cases read

end Lint

end BuildGate
