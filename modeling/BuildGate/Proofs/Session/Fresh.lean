import BuildGate.Proofs.Compiler.Fresh
import BuildGate.Proofs.Lint.Each

set_option autoImplicit false

namespace BuildGate.Session

open Compiler (Program)

structure Forgetful (compiler linter : List String) (settings : Settings) (options : Json)
    (host : Host) : Prop where
  compiler : ∀ files,
    host.Forgets (Compiler.callOf host compiler ⟨files, options, settings.basePath⟩)
  linter : ∀ file,
    host.Forgets (Lint.callOf host linter (Lint.rules settings) settings.lintOptions file)

variable {compiler linter : List String} {settings : Settings} {options : Json}
  {host after : Host} {clock : Clock Host} {files : List String} {output : String}
  {session : Session Program} {object : Json}

theorem collect_world (command : List String) (program : Program) (categories : List Category)
    (host : Host) : (collect (Compiler.checker command) program categories host).2 = host := by
  induction categories with
  | nil => rfl
  | cons category categories ih => exact ih

theorem lint_fresh_iff {sources : Compiler.Sources} {results : List FileFailures}
    {calls : List Call} (forgetful : Forgetful compiler linter settings options host)
    (loaded : Compiler.loadSources host.disk settings.basePath [] [] files = .ok sources) :
    lint (Compiler.checker compiler) (Lint.tool linter Program.files) settings
        (Compiler.programOf files sources output) (host.logged calls) = (.ok results, after) ↔
      (settings.lintFile.isSome → Lint.Lintable host linter settings files) ∧
        results = Lint.resultsOf (Lint.linted settings files)
          (Lint.found host linter (Lint.rules settings) settings.lintOptions) ∧
        after = host.logged (calls ++ (Lint.linted settings files).map
          (Lint.callOf host linter (Lint.rules settings) settings.lintOptions)) := by
  have texts : ∀ file ∈ Program.files (Compiler.programOf files sources output),
      ((Compiler.checker compiler).text? (Compiler.programOf files sources output)
        file).isSome = true := by
    intro file listed
    have held := (Compiler.loadSources_lookup_isSome loaded file).2 (.inl listed)
    simpa [Compiler.checker, Program.text?, Compiler.programOf] using held
  have forgets (file : String) : (host.logged calls).Forgets (Lint.callOf (host.logged calls) linter
      (Lint.rules settings) settings.lintOptions file) := forgetful.linter file
  rw [Lint.lint_iff texts forgets, Lint.lintable_logged, Host.logged_logged]
  rfl

structure Ready (compiler linter : List String) (settings : Settings) (options : Json)
    (host : Host) (files : List String) (output : String) : Prop where
  readable : ∀ file ∈ files, ∃ text, host.disk.readText (settings.basePath.join file) = .ok text
  said : Compiler.Says host compiler ⟨files, options, settings.basePath⟩ output
  lintable : settings.lintFile.isSome → Lint.Lintable host linter settings files

structure Holds (compiler linter : List String) (settings : Settings) (options : Json)
    (host : Host) (files : List String) (output : String) (session : Session Program)
    (after : Host) : Prop where
  listed : session.program.files = files
  diagnostics : session.diagnostics =
    (Compiler.findings host.disk settings.basePath output).map (·.keeping files)
  results : session.lintResults = Lint.resultsOf (Lint.linted settings files)
    (Lint.found host linter (Lint.rules settings) settings.lintOptions)
  started : after = host.logged
    (Compiler.calls host compiler ⟨files, options, settings.basePath⟩ ++
      (Lint.linted settings files).map
        (Lint.callOf host linter (Lint.rules settings) settings.lintOptions))

theorem ready_of_configure (idle : ∀ world, (clock.nanoseconds world).2 = world)
    (forgetful : Forgetful compiler linter settings options host)
    (resolved : Project.resolve host.disk object settings.basePath =
      .ok ⟨files, options, settings.basePath⟩)
    (configured : configure (Compiler.checker compiler) (Lint.tool linter Program.files) clock
      { settings with project := object } none host = (.ok session, after)) :
    ∃ output, Ready compiler linter settings options host files output ∧
      Holds compiler linter settings options host files output session after := by
  obtain ⟨project, between, built, linted, resolving, building, collected, linting, -, rfl⟩ :=
    configure_iff.1 configured
  rw [idle] at resolving
  obtain ⟨again, rfl⟩ := Prod.mk.inj resolving
  obtain rfl : _ = project := Except.ok.inj (resolved.symm.trans again)
  obtain ⟨sources, output, loaded, said, made, rfl⟩ :=
    (Compiler.build_fresh_iff (forgetful.compiler files)).1 building
  rw [made, collect_world] at linting
  obtain ⟨lintable, results, rfl⟩ := (lint_fresh_iff forgetful loaded).1 linting
  rw [made, Compiler.collect_fresh loaded] at collected
  rw [idle]
  exact ⟨output, ⟨Compiler.exists_loadSources.1 ⟨sources, loaded⟩, said, lintable⟩,
    by rw [made]; rfl, collected, results, rfl⟩

theorem configure_of_ready (idle : ∀ world, (clock.nanoseconds world).2 = world)
    (forgetful : Forgetful compiler linter settings options host)
    (resolved : Project.resolve host.disk object settings.basePath =
      .ok ⟨files, options, settings.basePath⟩)
    (ready : Ready compiler linter settings options host files output) :
    ∃ session after, configure (Compiler.checker compiler) (Lint.tool linter Program.files) clock
        { settings with project := object } none host = (.ok session, after) ∧
      Holds compiler linter settings options host files output session after := by
  obtain ⟨sources, loaded⟩ := Compiler.exists_loadSources.2 ready.readable
  let program := Compiler.programOf files sources output
  let calls := Compiler.calls host compiler ⟨files, options, settings.basePath⟩
  have building : (Compiler.checker compiler).build ⟨files, options, settings.basePath⟩ none host =
      (.ok program, host.logged calls) :=
    (Compiler.build_fresh_iff (forgetful.compiler files)).2
      ⟨sources, output, loaded, ready.said, rfl, rfl⟩
  let diagnostics := (collect (Compiler.checker compiler) program Category.all
    (host.logged calls)).1
  let results := Lint.resultsOf (Lint.linted settings files)
    (Lint.found host linter (Lint.rules settings) settings.lintOptions)
  let after := host.logged (calls ++ (Lint.linted settings files).map
    (Lint.callOf host linter (Lint.rules settings) settings.lintOptions))
  let elapsed := Elapsed.ofNanoseconds
    ((clock.nanoseconds after).1 - (clock.nanoseconds host).1)
  refine ⟨⟨program, diagnostics, results, elapsed⟩, after, configure_iff.2
    ⟨_, host, _, after, ?_, building, rfl, ?_, rfl, (idle after).symm⟩,
    rfl, Compiler.collect_fresh loaded compiler output (host.logged calls), rfl, rfl⟩
  · rw [idle]
    exact Prod.ext resolved rfl
  · rw [collect_world]
    exact (lint_fresh_iff forgetful loaded).2 ⟨ready.lintable, rfl, rfl⟩

end BuildGate.Session
