import BuildGate.Proofs.Gate.Serve

set_option autoImplicit false

namespace BuildGate

open Text (Bytes)

variable {ω π κ : Type}

/-- What is done with a gate. A session may be dropped, reported right away, or built again and
again. -/
inductive Operation (ω : Type)
  | drop (turn : Turn ω)
  | check (turn : Turn ω) (shown : Settings)
  | serve (turn : Turn ω) (listen : Bool) (triggers : Bytes)

structure Passage (ω π : Type) where
  before : Scene ω π
  after : Scene ω π

def Turn.recorded (turn : Turn ω) : Turn (Recorded ω π) where
  change := fun (world, requests) => (turn.change world, requests)
  output := turn.output
  settings := turn.settings
  stamp := beside turn.stamp

def Operation.recorded : Operation ω → Operation (Recorded ω π)
  | drop turn => .drop turn.recorded
  | check turn shown => .check turn.recorded shown
  | serve turn listen triggers => .serve turn.recorded listen triggers

def Invoked.passage (step : Invoked ω π) : Passage ω π := ⟨step.before, step.after⟩

namespace Gate

variable (gate : Gate ω π κ)

def perform : Operation ω → Scene ω π → Scene ω π
  | .drop turn, scene => (gate.configure turn.settings (turn.enter scene)).2
  | .check turn shown, scene => (gate.check turn shown (turn.enter scene)).2
  | .serve turn listen triggers, scene =>
    (gate.serve turn.settings listen triggers (turn.enter scene)).2

def passages : Operation ω → Scene ω π → List (Passage ω π)
  | .serve turn listen triggers, scene =>
    (gate.served turn.settings listen triggers (turn.enter scene)).map Invoked.passage
  | .drop turn, scene => [⟨turn.enter scene, gate.perform (.drop turn) scene⟩]
  | .check turn shown, scene => [⟨turn.enter scene, gate.perform (.check turn shown) scene⟩]

def history : List (Operation ω) → Scene ω π → List (Passage ω π) × Scene ω π
  | [], scene => ([], scene)
  | operation :: operations, scene =>
    let (later, last) := history operations (gate.perform operation scene)
    (gate.passages operation scene ++ later, last)

end Gate

namespace Passage

def reported (step : Passage ω π) : Bool :=
  tookReport (step.after.console.events.drop step.before.console.events.length)

def asked (step : Passage (Recorded ω π) π) : List (Request π) :=
  step.after.world.2.drop step.before.world.2.length

def buildings (step : Passage (Recorded ω π) π) : List (Option π × Option π) :=
  step.asked.filterMap Request.building?

def handsOn (step : Passage (Recorded ω π) π) : Option π :=
  if step.reported then step.buildings.getLast?.bind Prod.snd else none

/-- What a session does with the program it finds and the one it leaves behind. -/
structure Hands (step : Passage (Recorded ω π) π) : Prop where
  record : step.after.world.2 = step.before.world.2 ++ step.asked
  seeded : step.buildings = [] ∨ ∃ built, step.buildings = [(step.before.previous, built)]
  kept : step.after.previous = step.handsOn

end Passage

theorem Gate.carryOut_keeps (gate : Gate ω π κ) (settings : Settings) (session : Session π)
    (totals : Totals) (scene : Scene ω π) :
    (gate.carryOut settings session totals scene).2.previous = some session.program := by
  have prints (text : String) :
      (Scene.print text : Action (Scene ω π) GateError Unit).Leads (Same Scene.previous) := by
    intro scene
    rw [Same, Scene.print_apply]
    rcases Console.print text scene.console with ⟨_ | _, _⟩ <;> rfl
  have notifies (told : Parent ω) (indicator : Indicator) :
      (Scene.notify told indicator : Action (Scene ω π) GateError Unit).Leads
        (Same Scene.previous) := by
    intro scene
    unfold Scene.notify
    rcases told indicator scene.world with ⟨_ | _, _⟩ <;> rfl
  exact Action.Leads.bind_next (Scene.keep session.program)
    (fun _ => (conclude_leads prints fun told indicator _ => notifies told indicator).bind
      fun _ => .pure _) scene

theorem Gate.typecheck_keeps (gate : Gate ω π κ) (settings : Settings) (session : Session π)
    (time : String) (scene : Scene ω π) :
    ∃ added, (gate.typecheck settings session time scene).2.console.events =
        scene.console.events ++ added ∧
      (gate.typecheck settings session time scene).2.previous =
        if tookReport added then some session.program else scene.previous := by
  rcases gate.typecheck_cases settings session time scene with
    ⟨cause, refused, untaken, failed⟩ | ⟨entered, console, carried⟩
  · refine ⟨refused, ?_, ?_⟩
    · rw [failed, Console.after_events]
    · rw [failed, untaken]
      rfl
  · obtain ⟨rest, grown⟩ := gate.carryOut_grows settings session _ entered
    rw [console, Console.after_events, List.append_assoc] at grown
    rw [carried]
    refine ⟨_, grown.symm, ?_⟩
    rw [gate.carryOut_keeps]
    rfl

section Hands

variable (gate : Gate ω π κ)

theorem reported_of_added {before after : Scene ω π} {added : List ConsoleEvent}
    (whole : after.console.events = before.console.events ++ added) :
    (Passage.mk before after).reported = tookReport added := by
  rw [Passage.reported, whole, List.drop_left]

variable {before after : Scene (Recorded ω π) π} {result : Except GateError (Session π)}
  {asked : List (Request π)}

theorem hands_of_asked (added : after.world.2 = before.world.2 ++ asked)
    (settled : SessionAsks before.previous result asked)
    (kept : after.previous = if (Passage.mk before after).reported then
      (asked.filterMap Request.building?).getLast?.bind Prod.snd else none) :
    Passage.Hands ⟨before, after⟩ := by
  have same : (Passage.mk before after).asked = asked := by
    rw [Passage.asked, added, List.drop_left]
  refine ⟨?_, ?_, ?_⟩
  · rw [same, added]
  · rw [Passage.buildings, same]
    exact settled.buildings
  · rw [kept, Passage.handsOn, Passage.buildings, same]

theorem hands_of_unreported (added : after.world.2 = before.world.2 ++ asked)
    (settled : SessionAsks before.previous result asked) {refused : List ConsoleEvent}
    (console : after.console.events = before.console.events ++ refused)
    (untaken : tookReport refused = false) (lost : after.previous = none) :
    Passage.Hands ⟨before, after⟩ := by
  refine hands_of_asked added settled ?_
  rw [reported_of_added console, untaken, lost]
  rfl

theorem drop_hands (settings : Settings) (before : Scene (Recorded ω π) π) :
    Passage.Hands ⟨before, (gate.recorded.configure settings before).2⟩ := by
  obtain ⟨asked, added, settled⟩ := gate.configure_asked settings before
  exact hands_of_unreported added settled (List.append_nil _).symm rfl rfl

theorem check_hands (turn : Turn (Recorded ω π))
    (stamped : ∀ recorded, (turn.stamp recorded).2.2 = recorded.2) (shown : Settings)
    (before : Scene (Recorded ω π) π) :
    Passage.Hands ⟨before, (gate.recorded.check turn shown before).2⟩ := by
  obtain ⟨asked, added, settled⟩ := gate.check_asked turn stamped shown before
  have console : (gate.recorded.configure turn.settings before).2.console = before.console := rfl
  have previous : (gate.recorded.configure turn.settings before).2.previous = none := rfl
  cases configuring : gate.recorded.configure turn.settings before with
  | mk result configured =>
    rw [configuring] at console previous settled
    cases result with
    | error error =>
      have ended : gate.recorded.check turn shown before = (.error error, configured) :=
        Action.bind_of_error configuring
      rw [ended] at added ⊢
      have quiet : configured.console.events = before.console.events ++ [] := by
        rw [console, List.append_nil]
      exact hands_of_unreported added settled quiet rfl previous
    | ok session =>
      have ended : gate.recorded.check turn shown before =
          gate.recorded.typecheck shown session (turn.stamp configured.world).1
            { configured with world := (turn.stamp configured.world).2 } :=
        Action.bind_of_ok configuring
      obtain ⟨written, grown, kept⟩ := gate.recorded.typecheck_keeps shown session
        (turn.stamp configured.world).1 { configured with world := (turn.stamp configured.world).2 }
      rw [ended] at added ⊢
      refine hands_of_asked added settled ?_
      rw [reported_of_added (grown.trans (by rw [console])), kept, previous,
        settled.built session rfl]
      rfl

end Hands

/-- Sessions one after another. Whatever happens in between leaves the record and the program
alone. -/
inductive Threads : Scene (Recorded ω π) π → List (Passage (Recorded ω π) π) →
    Scene (Recorded ω π) π → Prop
  | nil (scene : Scene (Recorded ω π) π) : Threads scene [] scene
  | cons {scene last : Scene (Recorded ω π) π} {step : Passage (Recorded ω π) π}
      {steps : List (Passage (Recorded ω π) π)} (record : step.before.world.2 = scene.world.2)
      (previous : step.before.previous = scene.previous) (hands : step.Hands)
      (rest : Threads step.after steps last) : Threads scene (step :: steps) last

namespace Threads

variable {first middle last : Scene (Recorded ω π) π}
  {steps later : List (Passage (Recorded ω π) π)}

theorem append (front : Threads first steps middle) (back : Threads middle later last) :
    Threads first (steps ++ later) last := by
  induction front with
  | nil => exact back
  | cons record previous hands rest ih => exact .cons record previous hands (ih back)

theorem buildings_eq (threads : Threads first steps last) :
    last.world.2.filterMap Request.building? =
      first.world.2.filterMap Request.building? ++ steps.flatMap Passage.buildings := by
  induction threads with
  | nil => rw [List.flatMap_nil, List.append_nil]
  | cons record previous hands rest ih =>
    rw [ih, hands.record, record, List.filterMap_append, List.flatMap_cons, List.append_assoc]
    rfl

theorem seeded (threads : Threads first steps last) (n : Nat) {step : Passage (Recorded ω π) π}
    (there : steps[n]? = some step) :
    step.buildings = [] ∨ ∃ built, step.buildings =
      [((steps.take n).getLast?.elim first.previous Passage.handsOn, built)] := by
  induction threads generalizing n with
  | nil => cases there
  | @cons scene last first steps record previous hands rest ih =>
    cases n with
    | zero =>
      cases there
      rw [List.take_zero, List.getLast?_nil, Option.elim_none, ← previous]
      exact hands.seeded
    | succ n =>
      have inside := ih n there
      rw [hands.kept] at inside
      rw [List.take_succ_cons, List.getLast?_cons]
      cases ended : (steps.take n).getLast? <;> rwa [ended] at inside

theorem seeds_sublist (threads : Threads first steps last) (n : Nat) :
    (((steps.flatMap Passage.buildings).take (n + 1)).filterMap Prod.fst).Sublist
      (first.previous.toList ++ ((steps.flatMap Passage.buildings).take n).filterMap Prod.snd) := by
  induction threads generalizing n with
  | nil => simp
  | @cons scene last step steps record previous hands rest ih =>
    have fst_cons (building : Option π × Option π) (others : List (Option π × Option π)) :
        (building :: others).filterMap Prod.fst =
          building.1.toList ++ others.filterMap Prod.fst := by
      rcases building with ⟨_ | _, _⟩ <;> rfl
    have snd_cons (building : Option π × Option π) (others : List (Option π × Option π)) :
        (building :: others).filterMap Prod.snd =
          building.2.toList ++ others.filterMap Prod.snd := by
      rcases building with ⟨_, _ | _⟩ <;> rfl
    rw [List.flatMap_cons]
    rw [hands.kept] at ih
    rcases hands.seeded with unbuilt | ⟨built, one⟩
    · have lost : step.handsOn = none := by
        simp [Passage.handsOn, unbuilt]
      rw [unbuilt, List.nil_append]
      rw [lost] at ih
      exact (ih n).trans (List.sublist_append_right _ _)
    · have handed : step.handsOn.toList.Sublist built.toList := by
        rw [Passage.handsOn, one]
        split
        · exact .refl _
        · exact List.nil_sublist _
      rw [one, List.singleton_append, List.take_succ_cons, fst_cons, ← previous]
      refine List.Sublist.append (.refl _) ?_
      cases n with
      | zero => exact List.nil_sublist _
      | succ n =>
        rw [List.take_succ_cons, snd_cons]
        exact (ih n).trans (handed.append (.refl _))

end Threads

namespace Gate

variable (gate : Gate ω π κ)

theorem runLines_threads (settings : Settings) (lines : List (Option String))
    {begun scene : Scene (Recorded ω π) π} (record : scene.world.2 = begun.world.2)
    (previous : scene.previous = begun.previous) :
    Threads begun ((gate.recorded.runsFor settings lines scene).map Invoked.passage)
      (gate.recorded.runLines settings lines scene).2 := by
  have once (scene : Scene (Recorded ω π) π) :
      Passage.Hands ⟨scene, (gate.recorded.ran settings scene).after⟩ :=
    check_hands gate (gate.recorded.turn settings) (fun _ => rfl) settings scene
  induction lines generalizing begun scene with
  | nil => exact .cons record previous (once scene) (.nil _)
  | cons line lines ih =>
    rcases gate.recorded.runLines_cases settings line lines scene with
      ⟨-, made, ended⟩ | ⟨-, -, made, ended⟩ | ⟨text, -, -, made, ended⟩
    · rw [made, ended]
      exact .cons record previous (once scene) (.nil _)
    · rw [made, ended]
      exact .cons record previous (once scene) (.nil _)
    · rw [made, ended]
      exact .cons record previous (once scene) (ih rfl rfl)

theorem passages_thread (operation : Operation ω) (scene : Scene (Recorded ω π) π) :
    Threads scene (gate.recorded.passages operation.recorded scene)
      (gate.recorded.perform operation.recorded scene) := by
  cases operation with
  | drop turn => exact .cons rfl rfl (drop_hands gate turn.settings _) (.nil _)
  | check turn shown =>
    exact .cons rfl rfl (check_hands gate turn.recorded (fun _ => rfl) shown _) (.nil _)
  | serve turn listen triggers =>
    have runs : Threads scene _ (gate.recorded.runLines turn.settings
        (triggerLines listen triggers) (turn.recorded.enter scene)).2 :=
      gate.runLines_threads turn.settings _ rfl rfl
    rw [← gate.recorded.serve_eq] at runs
    exact runs

theorem history_threads (operations : List (Operation ω)) (scene : Scene (Recorded ω π) π) :
    let ended := gate.recorded.history (operations.map Operation.recorded) scene
    Threads scene ended.1 ended.2 := by
  induction operations generalizing scene with
  | nil => exact .nil scene
  | cons operation operations ih => exact (gate.passages_thread operation scene).append (ih _)

theorem check_inStep (turn : Turn ω) (shown : Settings) :
    InStep (Scene.Alike Unrecorded Eq) (gate.recorded.check turn.recorded shown)
      (gate.check turn shown) := by
  refine .bind (configure_inStep gate.recorded_matches turn.settings) fun session => ?_
  refine .bind (Scene.onWorld_inStep (.step (beside_inStep turn.stamp))) fun time => ?_
  exact typecheck_inStep_of_color gate.recorded_matches rfl shown session time

theorem perform_unrecorded (operation : Operation ω) (scene : Scene (Recorded ω π) π) :
    gate.perform operation scene.unrecorded =
      (gate.recorded.perform operation.recorded scene).unrecorded := by
  cases operation with
  | drop turn =>
    exact congrArg Prod.snd (Scene.unrecorded_of_inStep
      (configure_inStep gate.recorded_matches turn.settings) (turn.recorded.enter scene))
  | check turn shown =>
    exact congrArg Prod.snd
      (Scene.unrecorded_of_inStep (gate.check_inStep turn shown) (turn.recorded.enter scene))
  | serve turn listen triggers =>
    exact congrArg Prod.snd
      (gate.serve_unrecorded turn.settings listen triggers (turn.recorded.enter scene))

theorem history_unrecorded (operations : List (Operation ω)) (scene : Scene (Recorded ω π) π) :
    (gate.history operations scene.unrecorded).2 =
      (gate.recorded.history (operations.map Operation.recorded) scene).2.unrecorded := by
  induction operations generalizing scene with
  | nil => rfl
  | cons operation operations ih =>
    simp only [history, List.map_cons, gate.perform_unrecorded, ih]

/-- Whatever is done with a gate, and whatever its tools, outputs and parent do: a session asks for
at most one program, and the seed of that one is the program of the session just before if that
session was reported and the report was taken, and nothing otherwise. So no program seeds two. -/
theorem seeds_threaded (operations : List (Operation ω)) (world : ω) (console : Console) :
    let start : Scene ω π := .start world console
    let ended := gate.recorded.history (operations.map Operation.recorded) start.recording
    let sessions := ended.1
    let buildings := sessions.flatMap Passage.buildings
    ended.2.unrecorded = (gate.history operations start).2 ∧
      ended.2.world.2.filterMap Request.building? = buildings ∧
      (∀ n session, sessions[n]? = some session → session.buildings = [] ∨
        ∃ built, session.buildings =
          [((sessions.take n).getLast?.bind Passage.handsOn, built)]) ∧
      ∀ n, ((buildings.take (n + 1)).filterMap Prod.fst).Sublist
        ((buildings.take n).filterMap Prod.snd) := by
  intro start ended sessions buildings
  have threads : Threads start.recording sessions ended.2 :=
    gate.history_threads operations start.recording
  have unseeded : start.recording.previous = none := rfl
  refine ⟨(gate.history_unrecorded operations start.recording).symm, threads.buildings_eq, ?_, ?_⟩
  · intro n session there
    have seeded := threads.seeded n there
    rw [unseeded] at seeded
    cases before : (sessions.take n).getLast? <;> rwa [before] at seeded
  · intro n
    exact threads.seeds_sublist n

end Gate

def numberingGate : Gate Nat Nat Unit where
  checker :=
    { resolve := fun _ base => .done ⟨[], .emptyObject, base⟩
      build := fun _ _ => .step fun built => (built, built + 1)
      diagnostics := fun _ _ built => ([], built)
      files := fun _ => []
      text? := fun _ _ => none }
  linter :=
    { configuration := fun _ _ => .done ()
      files := fun _ => []
      lint := fun _ _ _ _ => .done [] }
  clock := { nanoseconds := fun built => (0, built), localTime := fun built => ("now", built) }
  parent := none
  color := false

def numberingTurn : Turn Nat := ⟨id, id, Settings.default, numberingGate.clock.localTime⟩

def deafTurn : Turn Nat :=
  { numberingTurn with output := fun _ => ⟨fun _ _ => some .denied, []⟩ }

theorem numbering_threaded :
    let operations : List (Operation Nat) :=
      [.serve numberingTurn false [], .check numberingTurn .default, .drop numberingTurn,
        .check deafTurn .default, .check numberingTurn .default]
    let sessions := (numberingGate.recorded.history (operations.map Operation.recorded)
      (Scene.start 0 .accepting).recording).1
    sessions.map Passage.buildings = [[(none, some 0)], [(some 0, some 1)], [(some 1, some 2)],
        [(none, some 3)], [(none, some 4)]] ∧
      ∃ session, sessions[2]? = some session ∧ (session.buildings = [] ∨
        ∃ built, session.buildings =
          [((sessions.take 2).getLast?.bind Passage.handsOn, built)]) := by
  intro operations sessions
  obtain ⟨-, -, seeded, -⟩ := numberingGate.seeds_threaded operations 0 .accepting
  exact ⟨by decide, _, rfl, seeded 2 _ rfl⟩

end BuildGate
