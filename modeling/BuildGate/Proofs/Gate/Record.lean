import BuildGate.Proofs.Gate.Matches
import BuildGate.Proofs.Gate.Turns

set_option autoImplicit false

namespace BuildGate

variable {ω π κ τ ε δ α β : Type}

def failure? : Except ε α → Option ε
  | .ok _ => none
  | .error error => some error

inductive Request (π : Type)
  | project (failure : Option EngineError)
  | program (seed : Option π) (result : Except EngineError π)
  | rules (failure : Option EngineError)
  | lint (file : String) (failure : Option EngineError)

namespace Request

def failure? : Request π → Option EngineError
  | project failure | rules failure | lint _ failure => failure
  | program _ result => BuildGate.failure? result

def isProject : Request π → Bool
  | project _ => true
  | _ => false

def building? : Request π → Option (Option π × Option π)
  | program seed result => some (seed, result.toOption)
  | _ => none

end Request

abbrev Recorded (ω π : Type) : Type := ω × List (Request π)

def beside (step : ω → α × ω) : ω × τ → α × (ω × τ) := fun (world, rest) =>
  let (value, world) := step world
  (value, (world, rest))

def Action.noted (note : Except ε α → Request π) (action : Action ω ε α) :
    Action (Recorded ω π) ε α := fun (world, requests) =>
  let (result, world) := action world
  (result, (world, requests ++ [note result]))

theorem Action.noted_apply (note : Except ε α → Request π) (action : Action ω ε α) (world : ω)
    (requests : List (Request π)) :
    action.noted note (world, requests) =
      ((action world).1, ((action world).2, requests ++ [note (action world).1])) := rfl

def Checker.recorded (checker : Checker ω π) : Checker (Recorded ω π) π where
  resolve project base := (checker.resolve project base).noted fun result =>
    .project (failure? result)
  build project seed := (checker.build project seed).noted (.program seed)
  diagnostics program category := beside (checker.diagnostics program category)
  files := checker.files
  text? := checker.text?

@[simp] theorem Checker.recorded_resolve (checker : Checker ω π) (project : Json) (base : Path) :
    checker.recorded.resolve project base =
      (checker.resolve project base).noted fun result => .project (failure? result) := rfl

@[simp] theorem Checker.recorded_build (checker : Checker ω π) (project : Project)
    (seed : Option π) :
    checker.recorded.build project seed = (checker.build project seed).noted (.program seed) := rfl

def Linter.recorded (linter : Linter ω π κ) : Linter (Recorded ω π) π κ where
  configuration path base := (linter.configuration path base).noted fun result =>
    .rules (failure? result)
  files := linter.files
  lint file text configuration options :=
    (linter.lint file text configuration options).noted fun result =>
      .lint file (failure? result)

@[simp] theorem Linter.recorded_configuration (linter : Linter ω π κ) (path base : Path) :
    linter.recorded.configuration path base =
      (linter.configuration path base).noted fun result => .rules (failure? result) := rfl

@[simp] theorem Linter.recorded_lint (linter : Linter ω π κ) (file text : String)
    (configuration : κ) (options : LintOptions) :
    linter.recorded.lint file text configuration options =
      (linter.lint file text configuration options).noted fun result =>
        .lint file (failure? result) := rfl

def Clock.recorded (clock : Clock ω) : Clock (Recorded ω π) where
  nanoseconds := beside clock.nanoseconds
  localTime := beside clock.localTime

def Parent.recorded (parent : Parent ω) : Parent (Recorded ω π) := fun indicator =>
  beside (parent indicator)

/-- A gate that keeps a record beside the world. -/
def Gate.recorded (gate : Gate ω π κ) : Gate (Recorded ω π) π κ where
  checker := gate.checker.recorded
  linter := gate.linter.recorded
  clock := gate.clock.recorded
  parent := gate.parent.map Parent.recorded
  color := gate.color

def Unrecorded (recorded : Recorded ω π) (world : ω) : Prop := recorded.1 = world

theorem beside_inStep (step : ω → α × ω) :
    InStep (Unrecorded (π := π)) (beside step) step := by
  rintro ⟨world, requests⟩ _ rfl
  exact ⟨rfl, rfl⟩

theorem Action.noted_inStep (note : Except ε α → Request π) (action : Action ω ε α) :
    InStep Unrecorded (action.noted note) action := by
  rintro ⟨world, requests⟩ _ rfl
  exact ⟨rfl, rfl⟩

theorem Gate.recorded_matches (gate : Gate ω π κ) : gate.recorded.Matches Unrecorded gate where
  checker := {
    resolve := fun _ _ => Action.noted_inStep _ _
    build := fun _ _ => Action.noted_inStep _ _
    diagnostics := fun _ _ => beside_inStep _
    text? := rfl }
  linter := {
    configuration := fun _ _ => Action.noted_inStep _ _
    files := rfl
    lint := fun _ _ _ _ => Action.noted_inStep _ _ }
  clock := {
    nanoseconds := beside_inStep _
    localTime := beside_inStep _ }
  parent := by
    unfold recorded
    cases gate.parent with
    | none => exact .none
    | some parent => exact .some fun indicator => beside_inStep _

def Action.Asks (what : Except ε α → List (Request π) → Prop) (action : Action (Recorded ω π) ε α) :
    Prop :=
  ∀ world requests, ∃ asked, (action (world, requests)).2.2 = requests ++ asked ∧
    what (action (world, requests)).1 asked

namespace Action.Asks

variable {what : Except δ β → List (Request π) → Prop}

theorem pure {value : β} (settled : what (.ok value) []) :
    Asks what (pure value : Action (Recorded ω π) δ β) :=
  fun _ requests => ⟨[], (List.append_nil requests).symm, settled⟩

theorem fail {error : δ} (settled : what (.error error) []) :
    Asks what (.fail error : Action (Recorded ω π) δ β) :=
  fun _ requests => ⟨[], (List.append_nil requests).symm, settled⟩

theorem step_bind {step : ω → α × ω} {next : α → Action (Recorded ω π) δ β}
    (rest : ∀ value, (next value).Asks what) : (.step (beside step) >>= next).Asks what :=
  fun world requests => rest (step world).1 (step world).2 requests

theorem noted_bind {note : Except ε α → Request π} {wrap : ε → δ} {action : Action ω ε α}
    {next : α → Action (Recorded ω π) δ β}
    (stopped : ∀ error, what (.error (wrap error)) [note (.error error)])
    (rest : ∀ value, (next value).Asks fun result asked =>
      what result (note (.ok value) :: asked)) :
    ((action.noted note).mapError wrap >>= next).Asks what := by
  intro world requests
  have noted : ((action.noted note).mapError wrap) (world, requests) =
      ((action world).1.mapError wrap,
        ((action world).2, requests ++ [note (action world).1])) := by
    unfold Action.mapError
    rw [Action.noted_apply]
    rcases action world with ⟨_ | _, _⟩ <;> rfl
  rw [Action.bind_apply, noted]
  rcases action world with ⟨error | value, between⟩
  · exact ⟨[note (.error error)], rfl, stopped error⟩
  · obtain ⟨asked, added, settled⟩ := rest value between (requests ++ [note (.ok value)])
    exact ⟨note (.ok value) :: asked, added.trans (List.append_assoc _ _ _), settled⟩

theorem bind {once : Except δ α → List (Request π) → Prop} {first : Action (Recorded ω π) δ α}
    {next : α → Action (Recorded ω π) δ β} (before : first.Asks once)
    (stopped : ∀ error asked, once (.error error) asked → what (.error error) asked)
    (rest : ∀ value early, once (.ok value) early →
      (next value).Asks fun result late => what result (early ++ late)) :
    (first >>= next).Asks what := by
  intro world requests
  obtain ⟨early, begun, settled⟩ := before world requests
  rw [Action.bind_apply]
  revert begun settled
  rcases first (world, requests) with ⟨error | value, between, _⟩
  · rintro rfl settled
    exact ⟨early, rfl, stopped error early settled⟩
  · rintro rfl settled
    obtain ⟨late, added, settled⟩ := rest value early settled between (requests ++ early)
    exact ⟨early ++ late, by rw [added, List.append_assoc], settled⟩

end Action.Asks

def GateError.tool? : GateError → Option EngineError
  | engine error => some error
  | _ => none

def toolFailure? (result : Except GateError α) : Option EngineError :=
  (failure? result).bind GateError.tool?

/-- Linting asks for no program. At most the last request fails, and that is the error. -/
structure LintAsks (result : Except GateError α) (asked : List (Request π)) : Prop where
  projects : asked.countP Request.isProject = 0
  buildings : asked.filterMap Request.building? = []
  failures : asked.filterMap Request.failure? = (toolFailure? result).toList

structure SessionAsks (seed : Option π) (result : Except GateError (Session π))
    (asked : List (Request π)) : Prop where
  projects : asked.countP Request.isProject = 1
  buildings : asked.filterMap Request.building? = [] ∨
    ∃ built, asked.filterMap Request.building? = [(seed, built)]
  built : ∀ session, result = .ok session →
    asked.filterMap Request.building? = [(seed, some session.program)]
  failures : asked.filterMap Request.failure? = (toolFailure? result).toList

theorem LintAsks.session {once : Except GateError α} {result : Except GateError (Session π)}
    {asked : List (Request π)} (linted : LintAsks once asked) (seed : Option π) {program : π}
    (same : toolFailure? once = toolFailure? result)
    (kept : ∀ session, result = .ok session → session.program = program) :
    SessionAsks seed result (.project none :: .program seed (.ok program) :: asked) := by
  have only : (Request.project none :: .program seed (.ok program) :: asked).filterMap
      Request.building? = [(seed, some program)] :=
    congrArg ((seed, some program) :: ·) linted.buildings
  refine ⟨?_, .inr ⟨some program, only⟩, ?_, ?_⟩
  · rw [List.countP_cons_of_pos rfl, List.countP_cons_of_neg Bool.false_ne_true, linted.projects]
  · intro session built
    rw [only, kept session built]
  · exact linted.failures.trans (congrArg Option.toList same)

namespace Session

variable (checker : Checker ω π) (linter : Linter ω π κ)

theorem collect_recorded (program : π) (categories : List Category) :
    collect checker.recorded program categories = beside (collect checker program categories) := by
  induction categories with
  | nil => rfl
  | cons category categories ih =>
    funext recorded
    simp only [collect, ih]
    rfl

theorem lintFiles_asks (text? : String → Option String) (configuration : κ)
    (options : LintOptions) (files : List String) :
    (lintFiles linter.recorded text? configuration options files).Asks (π := π) LintAsks := by
  induction files with
  | nil => exact .pure ⟨rfl, rfl, rfl⟩
  | cons file files ih =>
    unfold lintFiles
    cases text? file with
    | none => exact .fail ⟨rfl, rfl, rfl⟩
    | some text =>
      simp only [Linter.recorded_lint]
      refine .noted_bind (fun error => ⟨rfl, rfl, rfl⟩) fun failures => ?_
      refine .bind ih (fun error asked linted => ?_) fun rest early linted => .pure ?_
      · exact ⟨linted.projects, linted.buildings, linted.failures⟩
      · rw [List.append_nil]
        exact ⟨linted.projects, linted.buildings, linted.failures⟩

theorem lint_asks (settings : Settings) (program : π) :
    (lint checker.recorded linter.recorded settings program).Asks LintAsks := by
  unfold lint
  cases settings.lintFile with
  | none => exact .pure ⟨rfl, rfl, rfl⟩
  | some file =>
    simp only [Linter.recorded_configuration]
    refine .noted_bind (fun error => ⟨rfl, rfl, rfl⟩) fun configuration => ?_
    intro world requests
    obtain ⟨asked, added, linted⟩ := lintFiles_asks linter (checker.recorded.text? program)
      configuration settings.lintOptions (linter.recorded.files program) world requests
    exact ⟨asked, added, linted.projects, linted.buildings, linted.failures⟩

theorem configure_asks (clock : Clock ω) (settings : Settings) (seed : Option π) :
    (configure checker.recorded linter.recorded clock.recorded settings seed).Asks
      (SessionAsks seed) := by
  unfold configure
  simp only [Checker.recorded_resolve, Checker.recorded_build, collect_recorded]
  refine .step_bind fun started => ?_
  refine .noted_bind (fun error => ⟨rfl, .inl rfl, nofun, rfl⟩) fun project => ?_
  refine .noted_bind (fun error => ⟨rfl, .inr ⟨none, rfl⟩, nofun, rfl⟩) fun program => ?_
  refine .step_bind fun diagnostics => ?_
  refine .bind (lint_asks checker linter settings program) (fun error asked linted => ?_)
    fun results early linted => .step_bind fun ended => .pure ?_
  · exact linted.session seed rfl nofun
  · rw [List.append_nil]
    refine linted.session seed rfl ?_
    rintro _ ⟨⟩
    rfl

end Session

namespace Scene

def recording (scene : Scene ω π) : Scene (Recorded ω π) π :=
  { scene with world := (scene.world, []) }

def unrecorded (scene : Scene (Recorded ω π) π) : Scene ω π := { scene with world := scene.world.1 }

theorem unrecorded_alike (scene : Scene (Recorded ω π) π) :
    Alike Unrecorded Eq scene scene.unrecorded := ⟨rfl, rfl, rfl, rfl⟩

theorem Alike.unrecorded_eq {scene : Scene (Recorded ω π) π} {plain : Scene ω π}
    (alike : Alike Unrecorded Eq scene plain) : scene.unrecorded = plain := by
  obtain ⟨world, console, signals, previous⟩ := alike
  cases plain
  cases world
  cases console
  cases signals
  cases previous
  rfl

theorem unrecorded_of_inStep {action : Action (Scene (Recorded ω π) π) ε α}
    {plain : Action (Scene ω π) ε α} (steps : InStep (Alike Unrecorded Eq) action plain)
    (scene : Scene (Recorded ω π) π) :
    plain scene.unrecorded = ((action scene).1, (action scene).2.unrecorded) := by
  obtain ⟨ends, alike⟩ := steps scene scene.unrecorded scene.unrecorded_alike
  rw [alike.unrecorded_eq, ends]

end Scene

namespace Gate

variable (gate : Gate ω π κ)

theorem serve_unrecorded (settings : Settings) (listen : Bool) (triggers : Text.Bytes)
    (scene : Scene (Recorded ω π) π) :
    gate.serve settings listen triggers scene.unrecorded =
      ((gate.recorded.serve settings listen triggers scene).1,
        (gate.recorded.serve settings listen triggers scene).2.unrecorded) :=
  Scene.unrecorded_of_inStep (serve_inStep gate.recorded_matches rfl settings listen triggers) scene

theorem configure_asked (settings : Settings) (scene : Scene (Recorded ω π) π) :
    ∃ asked, (gate.recorded.configure settings scene).2.world.2 = scene.world.2 ++ asked ∧
      SessionAsks scene.previous (gate.recorded.configure settings scene).1 asked :=
  Session.configure_asks gate.checker gate.linter gate.clock settings scene.previous scene.world.1
    scene.world.2

theorem typecheck_unasked (settings : Settings) (session : Session π) (time : String) :
    (gate.recorded.typecheck settings session time).Leads (Same fun scene => scene.world.2) := by
  refine typecheck_leads (fun scene => rfl) (fun text scene => ?_) (fun scene => rfl)
    fun told indicator attached scene => ?_
  · rw [Same, Scene.print_apply]
    rcases Console.print text scene.console with ⟨_ | _, _⟩ <;> rfl
  · obtain ⟨parent, -, rfl⟩ := Option.map_eq_some_iff.1 attached
    rw [Same, Scene.notify_world]
    rfl

def turn (settings : Settings) : Turn ω := ⟨id, id, settings, gate.clock.localTime⟩

def check (turn : Turn ω) (shown : Settings) : Action (Scene ω π) GateError Verdict :=
  gate.configure turn.settings >>= fun session =>
    Scene.onWorld (.step turn.stamp) >>= fun time => gate.typecheck shown session time

theorem run_eq_check (settings : Settings) :
    gate.run settings = gate.check (gate.turn settings) settings := rfl

theorem check_asked (turn : Turn (Recorded ω π))
    (stamped : ∀ recorded, (turn.stamp recorded).2.2 = recorded.2) (shown : Settings)
    (scene : Scene (Recorded ω π) π) :
    ∃ asked, (gate.recorded.check turn shown scene).2.world.2 = scene.world.2 ++ asked ∧
      SessionAsks scene.previous (gate.recorded.configure turn.settings scene).1 asked := by
  have rest (session : Session π) : (Scene.onWorld (.step turn.stamp) >>= fun time =>
      gate.recorded.typecheck shown session time).Leads (Same fun scene => scene.world.2) :=
    .bind (fun scene => stamped scene.world) fun time => gate.typecheck_unasked shown session time
  obtain ⟨asked, added, settled⟩ := gate.configure_asked turn.settings scene
  refine ⟨asked, ?_, settled⟩
  rw [← added]
  exact Action.Leads.bind_next _ rest scene

end Gate

end BuildGate
