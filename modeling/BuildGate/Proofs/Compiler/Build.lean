import BuildGate.Compiler.Program
import BuildGate.Proofs.Host

set_option autoImplicit false

namespace BuildGate.Compiler

def sourcesOf (seed : Option Program) : Sources := (seed.map (·.sources)).getD []

def programOf (files : List String) (sources : Sources) (output : String) : Program where
  files := files
  sources := sources
  diagnostics := (parseOutput output).map fun printed => categorize (noticeOf sources printed)

theorem checkResponse_eq_ok {command : List String} {response : Response} {output : String}
    (passed : checkResponse command response = .ok output) : output = response.output := by
  unfold checkResponse at passed
  split at passed
  · cases passed
  · exact (Except.ok.inj passed).symm

theorem runCompiler_eq_ok {command : List String} {project : Project} {before after : Host}
    {output : String} (ran : runCompiler command project before = (.ok output, after)) :
    ∃ call response, before.Ran after call response ∧ output = response.output := by
  cases command with
  | nil => cases ran
  | cons program own =>
    obtain ⟨response, between, started, checked⟩ := Action.bind_eq_ok.1 ran
    obtain ⟨place, -, process⟩ := Host.start_eq_ok.1 (Action.mapError_eq_ok.1 started)
    obtain ⟨passed, rfl⟩ := Prod.mk.inj checked
    exact ⟨_, response, process, checkResponse_eq_ok passed⟩

theorem build_apply (command : List String) (project : Project) (seed : Option Program)
    (host : Host) :
    build command project seed host =
      match loadSources host.disk project.basePath (sourcesOf seed) [] project.files with
      | .error error => (.error error, host)
      | .ok sources =>
        if project.files = [] then (.ok ⟨[], sources, []⟩, host)
        else
          ((runCompiler command project).andThen fun output =>
            .done (programOf project.files sources output)) host := by
  change (Action.andThen (.ofExcept _) _ : Action Host EngineError Program) host = _
  unfold Action.andThen Action.ofExcept sourcesOf
  cases loadSources host.disk project.basePath ((seed.map (·.sources)).getD []) []
    project.files with
  | error error => rfl
  | ok sources =>
    by_cases empty : project.files = [] <;> simp only [empty, if_true, if_false] <;> rfl

theorem build_eq_ok {command : List String} {project : Project} {seed : Option Program}
    {before after : Host} {program : Program}
    (built : build command project seed before = (.ok program, after)) :
    ∃ sources,
      loadSources before.disk project.basePath (sourcesOf seed) [] project.files = .ok sources ∧
        ((project.files = [] ∧ program = ⟨[], sources, []⟩ ∧ after = before) ∨
          (project.files ≠ [] ∧ ∃ call response, before.Ran after call response ∧
            program = programOf project.files sources response.output)) := by
  rw [build_apply] at built
  cases loaded : loadSources before.disk project.basePath (sourcesOf seed) [] project.files with
  | error error => simp [loaded] at built
  | ok sources =>
    refine ⟨sources, rfl, ?_⟩
    rw [loaded] at built
    by_cases empty : project.files = []
    · simp only [empty, if_true] at built
      obtain ⟨made, same⟩ := Prod.mk.inj built
      exact .inl ⟨empty, (Except.ok.inj made).symm, same.symm⟩
    · simp only [empty, if_false] at built
      obtain ⟨output, between, ran, done⟩ := Action.bind_eq_ok.1 built
      obtain ⟨call, response, process, rfl⟩ := runCompiler_eq_ok ran
      obtain ⟨made, rfl⟩ := Prod.mk.inj done
      exact .inr ⟨empty, call, response, process, (Except.ok.inj made).symm⟩

theorem loadSources_singleton {disk : Disk} {base : Path} {file text : String}
    (read : disk.readText (base.join file) = .ok text) :
    loadSources disk base (sourcesOf none) [] [file] =
      .ok [(file, ⟨text, disk.modified? (base.join file)⟩)] := by
  simp only [loadSources, loadSource, read]
  rfl

theorem build_of_runCompiler {command : List String} {project : Project} {seed : Option Program}
    {before after : Host} {sources : Sources} {output : String}
    (loaded : loadSources before.disk project.basePath (sourcesOf seed) [] project.files =
      .ok sources)
    (present : project.files ≠ [])
    (ran : runCompiler command project before = (.ok output, after)) :
    build command project seed before =
      (.ok (programOf project.files sources output), after) := by
  rw [build_apply, loaded]
  simp only [present, if_false, Action.andThen, ran]
  rfl

theorem runCompiler_of_ran {command : List String} {project : Project} {before : Host} {call : Call}
    {response : Response} (ran : before.Ran (runCompiler command project before).2 call response) :
    (runCompiler command project before).1 = checkResponse command response := by
  cases command with
  | nil => exact absurd ran Host.not_ran_self
  | cons program own => exact Host.read_of_ran ran

theorem build_of_ran {command : List String} {project : Project} {seed : Option Program}
    {before : Host} {call : Call} {response : Response}
    (ran : before.Ran (build command project seed before).2 call response) :
    ∃ sources, (build command project seed before).1 =
      (checkResponse command response).map (programOf project.files sources) := by
  rw [build_apply] at ran ⊢
  cases loaded : loadSources before.disk project.basePath (sourcesOf seed) [] project.files with
  | error error =>
    rw [loaded] at ran
    exact absurd ran Host.not_ran_self
  | ok sources =>
    rw [loaded] at ran
    by_cases empty : project.files = []
    · simp only [empty, if_true] at ran
      exact absurd ran Host.not_ran_self
    · simp only [empty, if_false, Action.andThen] at ran ⊢
      refine ⟨sources, ?_⟩
      cases result : runCompiler command project before with
      | mk output after =>
        have same : (runCompiler command project before).2 = after := by rw [result]
        rw [result] at ran
        cases output with
        | error error =>
          rw [← runCompiler_of_ran (same.symm ▸ ran), result]
          rfl
        | ok output =>
          rw [← runCompiler_of_ran (same.symm ▸ ran), result]
          rfl

theorem files_of_build {command : List String} {project : Project} {seed : Option Program}
    {before after : Host} {program : Program}
    (built : build command project seed before = (.ok program, after)) :
    program.files = project.files := by
  obtain ⟨sources, -, ⟨empty, rfl, -⟩ | ⟨-, call, response, -, rfl⟩⟩ := build_eq_ok built
  · exact empty.symm
  · rfl

end BuildGate.Compiler
