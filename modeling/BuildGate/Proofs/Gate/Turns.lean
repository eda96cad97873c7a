import BuildGate.Proofs.Disk.Append
import BuildGate.Proofs.Gate.Conduct
import BuildGate.Proofs.Machine

set_option autoImplicit false

namespace BuildGate

open Text (Bytes)

variable {ω π κ : Type}

/-- What an invocation is given. The world may have changed before it, and it may be given another
output. -/
structure Turn (ω : Type) where
  change : ω → ω
  output : Console → Console
  settings : Settings
  stamp : ω → String × ω

def Turn.enter (turn : Turn ω) (scene : Scene ω π) : Scene ω π :=
  { scene with world := turn.change scene.world, console := turn.output scene.console }

structure Invoked (ω π : Type) where
  turn : Turn ω
  before : Scene ω π
  result : Except GateError Verdict
  after : Scene ω π

namespace Gate

variable (gate : Gate ω π κ)

def invoke (turn : Turn ω) : Action (Scene ω π) GateError Verdict := do
  let session ← gate.configure turn.settings
  let time ← Scene.onWorld (.step turn.stamp)
  gate.typecheck turn.settings session time

def invocations : List (Turn ω) → Scene ω π → List (Invoked ω π) × Scene ω π
  | [], scene => ([], scene)
  | turn :: turns, scene =>
    let before := turn.enter scene
    let (result, after) := gate.invoke turn before
    let (others, last) := invocations turns after
    (⟨turn, before, result, after⟩ :: others, last)

/-- What becomes of an invocation. Without a session it writes nothing and tells nothing. -/
inductive Conducts (step : Invoked ω π) : Prop
  | unconfigured {error : GateError} {configured : Scene ω π}
      (refused : gate.configure step.turn.settings step.before = (.error error, configured))
      (result : step.result = .error error)
      (console : step.after.console = step.before.console)
      (signals : step.after.signals = step.before.signals)
  | settled {session : Session π} {configured : Scene ω π} {totals : Totals}
      (built : gate.configure step.turn.settings step.before = (.ok session, configured))
      (counted : (session.totals gate.checker step.turn.settings.lintUnit
        (step.turn.stamp configured.world).2).1 = totals)
      (conduct : Conduct gate.color gate.parent
        (Outcome.decide step.turn.settings.throws step.turn.settings.quit
          step.turn.settings.finished totals)
        (gate.report step.turn.settings session (step.turn.stamp configured.world).1 totals)
        step.before.console step.before.signals step.after)
      (verdict : ∀ verdict, step.result = .ok verdict → verdict =
        ⟨Outcome.decide step.turn.settings.throws step.turn.settings.quit
          step.turn.settings.finished totals, totals.total⟩)

theorem configure_quiet (settings : Settings) :
    (gate.configure settings).Leads (Same fun scene => (scene.console, scene.signals)) := by
  intro scene
  rfl

theorem invoke_of_error {turn : Turn ω} {before configured : Scene ω π} {error : GateError}
    (refused : gate.configure turn.settings before = (.error error, configured)) :
    gate.invoke turn before = (.error error, configured) := by
  rw [invoke, Action.bind_apply, refused]

theorem invoke_of_ok {turn : Turn ω} {before configured : Scene ω π} {session : Session π}
    (built : gate.configure turn.settings before = (.ok session, configured)) :
    gate.invoke turn before =
      gate.typecheck turn.settings session (turn.stamp configured.world).1
        { configured with world := (turn.stamp configured.world).2 } := by
  rw [invoke, Action.bind_apply, built]
  rfl

theorem invoke_conducts (turn : Turn ω) (before : Scene ω π) :
    gate.Conducts ⟨turn, before, (gate.invoke turn before).1, (gate.invoke turn before).2⟩ := by
  have quiet := gate.configure_quiet turn.settings before
  cases configuring : gate.configure turn.settings before with
  | mk result configured =>
    rw [configuring] at quiet
    obtain ⟨console, signals⟩ : configured.console = before.console ∧
        configured.signals = before.signals := Prod.mk.inj quiet
    cases result with
    | error error =>
      rw [gate.invoke_of_error configuring]
      exact .unconfigured configuring rfl console signals
    | ok session =>
      rw [gate.invoke_of_ok configuring]
      have ends := gate.typecheck_ends turn.settings session (turn.stamp configured.world).1
        { configured with world := (turn.stamp configured.world).2 }
      refine .settled configuring rfl ?_ fun verdict ended => ?_
      · change Conduct _ _ _ _ before.console before.signals _
        rw [← console, ← signals]
        exact ends.conduct
      · exact gate.typecheck_verdict turn.settings session _ (Prod.ext ended rfl)

theorem invocations_conduct (turns : List (Turn ω)) (scene : Scene ω π) :
    ∀ step ∈ (gate.invocations turns scene).1, gate.Conducts step := by
  induction turns generalizing scene with
  | nil => simp [invocations]
  | cons turn turns ih =>
    simp only [invocations, List.forall_mem_cons]
    exact ⟨gate.invoke_conducts turn (turn.enter scene), ih _⟩

end Gate

def channelText (disk : ω → Disk) (path : Path) (world : ω) : Bytes := (disk world).content path

-- The line that a signal leaves in a channel. One that failed leaves none.
def Signal.line (signal : Signal) : Bytes :=
  if signal.failure.isNone then Text.encode (signal.indicator.word ++ "\n") else []

def Invoked.sent (step : Invoked ω π) : Bytes :=
  (step.after.signals.drop step.before.signals.length).flatMap Signal.line

section Channel

variable {disk : ω → Disk} {setDisk : Disk → ω → ω} {path : Path}

theorem notify_channel (written : ∀ tree world, disk (setDisk tree world) = tree) (path : Path)
    (indicator : Indicator) (scene : Scene ω π) :
    ∃ signal : Signal,
      (Scene.notify (.channel disk setDisk path) indicator scene).2.signals =
        scene.signals ++ [signal] ∧
      channelText disk path (Scene.notify (.channel disk setDisk path) indicator scene).2.world =
        channelText disk path scene.world ++ signal.line := by
  unfold Scene.notify Parent.channel
  cases appended : (disk scene.world).append path (Text.encode (indicator.word ++ "\n")) with
  | error cause =>
    exact ⟨⟨indicator, some cause⟩, rfl, (List.append_nil _).symm⟩
  | ok tree =>
    refine ⟨⟨indicator, none⟩, rfl, ?_⟩
    simp only [channelText, written]
    exact Disk.content_append appended

theorem Ends.channel (written : ∀ tree world, disk (setDisk tree world) = tree)
    {outcome : Outcome} {texts : List String} {before after : Scene ω π}
    (ends : Ends (some (.channel disk setDisk path)) outcome texts before after) :
    channelText disk path after.world = channelText disk path before.world ++
      (after.signals.drop before.signals.length).flatMap Signal.line := by
  obtain ⟨spoken, spoke, all, refused⟩ := ends
  have quiet : channelText disk path spoken.world = channelText disk path before.world ++
      (spoken.signals.drop before.signals.length).flatMap Signal.line := by
    simp [spoke.signals, spoke.world]
  by_cases accepted : before.console.Writes texts
  · rw [all accepted]
    cases due : outcome.indicator? with
    | none =>
      simp only [tell, due]
      exact quiet
    | some indicator =>
      simp only [tell, due]
      obtain ⟨signal, signals, world⟩ := notify_channel written path indicator spoken
      rw [world, signals, spoke.signals, spoke.world]
      simp
  · rw [refused accepted]
    exact quiet

variable {gate : Gate ω π κ}

theorem Gate.configure_world {β : Type} {view : ω → β} (spares : gate.Spares view)
    (settings : Settings) (scene : Scene ω π) :
    view (gate.configure settings scene).2.world = view scene.world :=
  Session.configure_leads spares.checker spares.linter spares.clock settings scene.previous
    scene.world

theorem invoke_channel (written : ∀ tree world, disk (setDisk tree world) = tree)
    (attached : gate.parent = some (.channel disk setDisk path))
    (spares : gate.Spares (channelText disk path)) {turn : Turn ω}
    (stamped : ∀ world, channelText disk path (turn.stamp world).2 = channelText disk path world)
    (before : Scene ω π) :
    channelText disk path (gate.invoke turn before).2.world =
      channelText disk path before.world ++
        ((gate.invoke turn before).2.signals.drop before.signals.length).flatMap Signal.line := by
  have configuredWorld := Gate.configure_world spares turn.settings before
  have quiet := gate.configure_quiet turn.settings before
  cases configuring : gate.configure turn.settings before with
  | mk result configured =>
    rw [configuring] at configuredWorld quiet
    obtain ⟨console, signals⟩ : configured.console = before.console ∧
        configured.signals = before.signals := Prod.mk.inj quiet
    cases result with
    | error error =>
      rw [gate.invoke_of_error configuring, configuredWorld, signals]
      simp
    | ok session =>
      rw [gate.invoke_of_ok configuring]
      have ends := gate.typecheck_ends turn.settings session (turn.stamp configured.world).1
        { configured with world := (turn.stamp configured.world).2 }
      rw [attached] at ends
      have asked : channelText disk path (session.totals gate.checker turn.settings.lintUnit
          (turn.stamp configured.world).2).2 = channelText disk path before.world :=
        (Session.totals_same spares.checker session turn.settings.lintUnit _).trans
          ((stamped configured.world).trans configuredWorld)
      rw [← asked, ← signals]
      exact ends.channel written

theorem invocations_send (written : ∀ tree world, disk (setDisk tree world) = tree)
    (attached : gate.parent = some (.channel disk setDisk path))
    (spares : gate.Spares (channelText disk path)) {turns : List (Turn ω)}
    (stamped : ∀ turn ∈ turns, ∀ world,
      channelText disk path (turn.stamp world).2 = channelText disk path world)
    (scene : Scene ω π) :
    ∀ step ∈ (gate.invocations turns scene).1,
      channelText disk path step.after.world =
        channelText disk path step.before.world ++ step.sent := by
  induction turns generalizing scene with
  | nil => simp [Gate.invocations]
  | cons turn turns ih =>
    rw [List.forall_mem_cons] at stamped
    simp only [Gate.invocations, List.forall_mem_cons]
    exact ⟨invoke_channel written attached spares stamped.1 (turn.enter scene), ih stamped.2 _⟩

theorem invocations_channel {turns : List (Turn ω)} {scene : Scene ω π}
    (sends : ∀ step ∈ (gate.invocations turns scene).1,
      channelText disk path step.after.world =
        channelText disk path step.before.world ++ step.sent)
    (changed : ∀ turn ∈ turns, ∀ world,
      channelText disk path (turn.change world) = channelText disk path world) :
    channelText disk path (gate.invocations turns scene).2.world =
      channelText disk path scene.world ++ (gate.invocations turns scene).1.flatMap Invoked.sent := by
  induction turns generalizing scene with
  | nil => simp [Gate.invocations]
  | cons turn turns ih =>
    rw [List.forall_mem_cons] at changed
    simp only [Gate.invocations, List.forall_mem_cons, List.flatMap_cons] at sends ⊢
    have entered : channelText disk path (turn.enter scene).world =
        channelText disk path scene.world := changed.1 scene.world
    rw [ih sends.2 changed.2, sends.1, entered, List.append_assoc]

end Channel

theorem Invoked.sent_cases {gate : Gate ω π κ} {step : Invoked ω π} (conducts : gate.Conducts step) :
    step.sent = [] ∨ ∃ indicator : Indicator,
      step.after.toldSince step.before.signals = [indicator] ∧
        step.sent = Text.encode (indicator.word ++ "\n") := by
  have unsent (same : step.after.signals = step.before.signals) : step.sent = [] := by
    simp [sent, same]
  have said (indicator : Indicator)
      (told : step.after.toldSince step.before.signals = [indicator]) :
      step.sent = [] ∨ step.sent = Text.encode (indicator.word ++ "\n") := by
    obtain ⟨signal, one, rfl⟩ := List.map_eq_singleton_iff.1 told
    rw [sent, one, List.flatMap_singleton, Signal.line]
    split
    · exact .inr rfl
    · exact .inl rfl
  cases conducts with
  | unconfigured refused result console signals => exact .inl (unsent signals)
  | settled built counted conduct verdict =>
    by_cases done : step.after.toldSince step.before.signals = [.done]
    · exact (said _ done).imp_right fun line => ⟨_, done, line⟩
    by_cases error : step.after.toldSince step.before.signals = [.error]
    · exact (said _ error).imp_right fun line => ⟨_, error, line⟩
    · exact .inl (unsent (conduct.silent done error))

/-- Every invocation conducts itself, and a run is one. If the parent listens to a file that the tools
and the clock leave alone, each adds to it what it sends, and if nobody else changes the file in
between, it grows by all that is sent, in order. -/
theorem invocations_in_order (gate : Gate ω π κ) (turns : List (Turn ω)) (scene : Scene ω π) :
    (∀ settings, gate.run settings = gate.invoke ⟨id, id, settings, gate.clock.localTime⟩) ∧
    (∀ step ∈ (gate.invocations turns scene).1, gate.Conducts step ∧
      (step.sent = [] ∨ ∃ indicator : Indicator,
        step.after.toldSince step.before.signals = [indicator] ∧
          step.sent = Text.encode (indicator.word ++ "\n"))) ∧
    ∀ (disk : ω → Disk) (setDisk : Disk → ω → ω) (path : Path),
      (∀ tree world, disk (setDisk tree world) = tree) →
      gate.parent = some (.channel disk setDisk path) →
      gate.Spares (channelText disk path) →
      (∀ turn ∈ turns, ∀ world,
        channelText disk path (turn.stamp world).2 = channelText disk path world) →
      (∀ step ∈ (gate.invocations turns scene).1,
        channelText disk path step.after.world =
          channelText disk path step.before.world ++ step.sent) ∧
      ((∀ turn ∈ turns, ∀ world,
          channelText disk path (turn.change world) = channelText disk path world) →
        channelText disk path (gate.invocations turns scene).2.world =
          channelText disk path scene.world ++
            (gate.invocations turns scene).1.flatMap Invoked.sent) := by
  refine ⟨fun _ => rfl, ?_, ?_⟩
  · intro step member
    have conducts := gate.invocations_conduct turns scene step member
    exact ⟨conducts, Invoked.sent_cases conducts⟩
  · intro disk setDisk path written attached spares stamped
    have each := invocations_send written attached spares stamped scene
    exact ⟨each, fun changed => invocations_channel each changed⟩

def quietSettings : Settings :=
  { Settings.default with project := .object [("files", .array [])], quit := true }

def quietGate : Gate Machine Compiler.Program Lint.Configuration :=
  Machine.gate quietSettings (some (Machine.channel ⟨"parent"⟩)) false

def quietTurn : Turn Machine := ⟨id, fun _ => .accepting, quietSettings, Machine.clock.localTime⟩

def refusingTurn : Turn Machine :=
  { quietTurn with output := fun _ => ⟨fun _ _ => some .denied, []⟩ }

def fatalTurn : Turn Machine :=
  { quietTurn with settings :=
      { quietSettings with
        project := .object [("files", .array [.text "a.ts"])]
        throws := ⟨false, false, false, true, false⟩ } }

def faultyMachine : Machine where
  host :=
    { disk := ⟨[(["a.ts"], .file (Text.encode "x") 0)], [], 1⟩
      obstacle := fun _ => none
      respond := fun _ _ => ⟨Text.encode "a.ts(1,1): error TS2322: m\n", [], some 2⟩
      calls := [] }
  nanoseconds := 0
  localTime := "now"

def quietText : String :=
  "\nTypechecker plugin(sync) tycheck.\nTime:now \n\n\nErrors:0\nTypechecking time: 0ms\n" ++
    "Quitting typechecker\n\n"

def fatalText : String :=
  "\nTypechecker plugin(sync) tycheck.\nTime:now \n\nFile errors:\n└── a.ts (1,1) (Error:TS2322) m\n\n" ++
    "Errors:1\n└── Options: 0\n└── Global: 0\n└── Syntactic: 0\n└── Semantic: 1\n" ++
      "└── TsLint: 0\n\nTypechecking time: 0ms\n"

theorem turns_sent :
    let scene := Scene.start faultyMachine .accepting
    let ended := quietGate.invocations [quietTurn, refusingTurn, fatalTurn] scene
    ended.1.map (·.result) =
        [.ok ⟨.quit, 0⟩, .error (.output .denied), .ok ⟨.fatal .semantic, 1⟩] ∧
      ended.1.map (·.after.console.text) = [quietText, "", fatalText] ∧
        channelText (·.host.disk) ⟨"parent"⟩ ended.2.world = Text.encode "done\nerror\n" := by
  intro scene ended
  have inOrder := (invocations_in_order quietGate [quietTurn, refusingTurn, fatalTurn] scene).2.2
    (·.host.disk) (fun disk machine => { machine with host := { machine.host with disk } })
    ⟨"parent"⟩ (fun _ _ => rfl) rfl (Machine.gate_spares _ _ _ (·.content ⟨"parent"⟩))
    (by simp [quietTurn, refusingTurn, fatalTurn, Machine.clock])
  have grown := inOrder.2 (by simp [quietTurn, refusingTurn, fatalTurn])
  have sent : ended.1.flatMap Invoked.sent = Text.encode "done\nerror\n" := by decide +kernel
  refine ⟨by decide +kernel, by decide +kernel, ?_⟩
  rw [grown]
  exact sent

end BuildGate
