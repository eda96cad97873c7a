import BuildGate.Proofs.Gate.Seed
import BuildGate.Proofs.Report.Agreement

set_option autoImplicit false

namespace BuildGate

variable {ω π κ α β : Type}

def Gate.Sourced (gate : Gate ω π κ) : Prop :=
  ∀ project seed program before after,
    gate.checker.build project seed before = (.ok program, after) →
      ∀ file ∈ gate.linter.files program, (gate.checker.text? program file).isSome = true

theorem Gate.Sourced.recorded {gate : Gate ω π κ} (sourced : gate.Sourced) :
    gate.recorded.Sourced := by
  intro project seed program before after built
  have plain : gate.checker.build project seed before.1 = (.ok program, after.1) :=
    congrArg (fun ended => (ended.1, ended.2.1)) built
  exact sourced project seed program before.1 after.1 plain

def Scene.faults (scene : Scene (Recorded ω π) π) : Nat :=
  (scene.world.2.filterMap Request.failure?).length +
    (scene.console.events.filterMap ConsoleEvent.refusal).length +
    (scene.signals.filterMap Signal.failure).length

theorem Scene.faults_pos_iff (scene : Scene (Recorded ω π) π) :
    0 < scene.faults ↔
      (∃ request ∈ scene.world.2, request.failure?.isSome) ∨
        (∃ event ∈ scene.console.events, event.refusal.isSome) ∨
        ∃ signal ∈ scene.signals, signal.failure.isSome := by
  have some {ι ε : Type} (failure : ι → Option ε) (items : List ι) :
      0 < (items.filterMap failure).length ↔ ∃ item ∈ items, (failure item).isSome := by
    simp [List.length_pos_iff, Option.isSome_iff_exists, Option.eq_none_iff_forall_ne_some]
  rw [faults, Nat.add_pos_iff_pos_or_pos, Nat.add_pos_iff_pos_or_pos, some, some, some, or_assoc]

theorem Scene.faults_of_added (before after : Scene (Recorded ω π) π) {asked : List (Request π)}
    {written : List ConsoleEvent} {told : List Signal}
    (requests : after.world.2 = before.world.2 ++ asked)
    (events : after.console.events = before.console.events ++ written)
    (signals : after.signals = before.signals ++ told) :
    after.faults = before.faults + ((asked.filterMap Request.failure?).length +
      (written.filterMap ConsoleEvent.refusal).length +
      (told.filterMap Signal.failure).length) := by
  simp only [faults, requests, events, signals, List.filterMap_append, List.length_append]
  omega

theorem Scene.faults_after (scene : Scene (Recorded ω π) π) (written : List ConsoleEvent) :
    { scene with console := scene.console.after written }.faults =
      scene.faults + (written.filterMap ConsoleEvent.refusal).length := by
  rw [scene.faults_of_added { scene with console := scene.console.after written }
    (List.append_nil _).symm rfl (List.append_nil _).symm]
  simp

-- An error is a fault unless it is a policy.
def broke (result : Except GateError α) : Bool :=
  (failure? result).any fun error => error.exitStatus == 2

def Tallies (action : Action (Scene (Recorded ω π) π) GateError α) : Prop :=
  ∀ scene, (action scene).2.faults = scene.faults + (broke (action scene).1).toNat

namespace Tallies

theorem pure (value : α) : Tallies (pure value : Action (Scene (Recorded ω π) π) GateError α) :=
  fun _ => rfl

theorem bind {first : Action (Scene (Recorded ω π) π) GateError α}
    {next : α → Action (Scene (Recorded ω π) π) GateError β} (before : Tallies first)
    (after : ∀ value, Tallies (next value)) : Tallies (first >>= next) := by
  intro scene
  have begun := before scene
  rw [Action.bind_apply]
  cases ended : first scene with
  | mk result between =>
    rw [ended] at begun
    cases result with
    | error error => exact begun
    | ok value =>
      have unbroken : between.faults = scene.faults := begun
      rw [← unbroken]
      exact after value between

end Tallies

theorem print_tallies (text : String) :
    Tallies (Scene.print text : Action (Scene (Recorded ω π) π) GateError Unit) := by
  intro scene
  rw [Scene.print_apply]
  rcases Console.print_cases text scene.console with
    ⟨cause, -, printed⟩ | ⟨cause, -, -, printed⟩ | ⟨-, -, printed⟩
  all_goals
    rw [printed]
    exact scene.faults_after _

theorem notify_tallies (parent : Parent ω) (indicator : Indicator) :
    Tallies (Scene.notify parent.recorded indicator :
      Action (Scene (Recorded ω π) π) GateError Unit) := by
  intro scene
  have same := congrArg Prod.snd (Scene.notify_world parent.recorded indicator scene)
  change _ = scene.world.2 at same
  unfold Scene.notify at same ⊢
  revert same
  rcases parent.recorded indicator scene.world with ⟨cause | done, world⟩
  all_goals
    intro same
    exact scene.faults_of_added _ (same.trans (List.append_nil _).symm)
      (List.append_nil _).symm rfl

theorem conclude_tallies (color : Bool) (parent : Option (Parent ω)) (outcome : Outcome)
    (totals : Totals) :
    Tallies (conclude color (parent.map Parent.recorded) outcome totals :
      Action (Scene (Recorded ω π) π) GateError Nat) := by
  have footer : Tallies (printFooter color outcome : Action (Scene (Recorded ω π) π) _ _) := by
    unfold printFooter
    split
    · exact print_tallies _
    · exact .pure _
  have told : Tallies (signal (parent.map Parent.recorded) outcome totals :
      Action (Scene (Recorded ω π) π) _ _) := by
    cases outcome <;> cases parent
    case fatal.none => exact fun _ => rfl
    case fatal.some => exact notify_tallies _ _
    case quit.some => exact notify_tallies _ _
    all_goals exact .pure _
  rw [conclude_eq]
  exact footer.bind fun _ => told.bind fun _ => .pure _

section Run

variable (gate : Gate ω π κ) (settings : Settings)

theorem typecheck_tallies (session : Session π) (time : String) :
    Tallies (gate.recorded.typecheck settings session time) := by
  have counts : Tallies (Scene.onWorld (.step (session.totals gate.recorded.checker
      settings.lintUnit)) : Action (Scene (Recorded ω π) π) GateError Totals) := fun _ => rfl
  have keeps : Tallies
      (Scene.keep session.program : Action (Scene (Recorded ω π) π) GateError Unit) := fun _ => rfl
  exact counts.bind fun totals => (print_tallies _).bind fun _ => keeps.bind fun _ =>
    (conclude_tallies gate.color gate.parent _ totals).bind fun _ => .pure _

theorem configure_tallies (sourced : gate.Sourced) :
    Tallies (gate.recorded.configure settings) := by
  intro scene
  obtain ⟨asked, added, settled⟩ := gate.configure_asked settings scene
  have tallied := scene.faults_of_added (gate.recorded.configure settings scene).2 added
    (List.append_nil _).symm (List.append_nil _).symm
  rw [tallied, settled.failures]
  cases result : (gate.recorded.configure settings scene).1 with
  | ok session => rfl
  | error error =>
    have failed : Session.configure gate.recorded.checker gate.recorded.linter
        gate.recorded.clock settings scene.previous scene.world = (.error error, _) :=
      Prod.ext result rfl
    rcases Session.configure_error failed with
      ⟨cause, rfl⟩ | ⟨project, program, early, late, file, built, inside, absent, -⟩
    · rfl
    · have present := sourced.recorded project _ program early late built file inside
      rw [absent] at present
      cases present

theorem run_tallies (sourced : gate.Sourced) : Tallies (gate.recorded.run settings) := by
  have stamps : Tallies (Scene.onWorld (.step gate.recorded.clock.localTime) :
      Action (Scene (Recorded ω π) π) GateError String) := fun _ => rfl
  exact (configure_tallies gate settings sourced).bind fun session => stamps.bind fun time =>
    typecheck_tallies gate settings session time

end Run

theorem Outcome.decide_fatal_iff (throws : Flags) (quit finished : Bool) (totals : Totals) :
    (∃ kind, Outcome.decide throws quit finished totals = .fatal kind) ↔
      ∃ kind, throws.get kind = true ∧ 0 < totals.get kind := by
  have all (kind : Kind) : kind ∈ fatalOrder := by
    cases kind <;> decide
  unfold Outcome.decide
  cases found : fatalOrder.find? fun kind => throws.get kind && 0 < totals.get kind with
  | some kind =>
    have matched := List.find?_some found
    simp only [Bool.and_eq_true, decide_eq_true_eq] at matched
    exact iff_of_true ⟨kind, rfl⟩ ⟨kind, matched⟩
  | none =>
    have unmatched := List.find?_eq_none.1 found
    refine iff_of_false ?_ ?_
    · rintro ⟨kind, fatal⟩
      dsimp only at fatal
      split_ifs at fatal
    · rintro ⟨kind, thrown, positive⟩
      exact unmatched kind (all kind) (by simp [thrown, positive])

namespace Gate

variable (gate : Gate ω π κ) (settings : Settings)

theorem typecheck_fatal_iff (session : Session π) (time : String) (scene : Scene ω π) :
    let ended := gate.typecheck settings session time scene
    let totals := (session.totals gate.checker settings.lintUnit scene.world).1
    (∃ total, ended.1 = .error (.fatalPolicy total)) ↔
      (Passage.mk scene ended.2).reported = true ∧ gate.parent = none ∧
        ∃ kind, settings.throws.get kind = true ∧ 0 < totals.get kind := by
  intro ended totals
  rcases gate.typecheck_cases settings session time scene with
    ⟨cause, refused, untaken, failed⟩ | ⟨entered, console, carried⟩
  · have same : ended = _ := failed
    have unreported : (Passage.mk scene ended.2).reported = false := by
      rw [same]
      exact (reported_of_added rfl).trans untaken
    rw [unreported, same]
    simp
  · have same : ended = gate.carryOut settings session totals entered := carried
    obtain ⟨rest, grown⟩ := gate.carryOut_grows settings session totals entered
    rw [← same, console, Console.after_events, List.append_assoc] at grown
    have reported : (Passage.mk scene ended.2).reported = true := reported_of_added grown.symm
    rw [reported, same, carryOut_fatal_iff, Outcome.decide_fatal_iff, and_comm]
    simp

theorem configure_ne_fatal {scene after : Scene ω π} {total : Nat} :
    gate.configure settings scene ≠ (.error (.fatalPolicy total), after) := by
  intro failed
  have result : (Session.configure gate.checker gate.linter gate.clock settings scene.previous
      scene.world).1 = .error (.fatalPolicy total) := congrArg Prod.fst failed
  rcases Session.configure_error (Prod.ext result rfl) with
    ⟨cause, other⟩ | ⟨_, _, _, _, file, -, -, -, other⟩
  · cases other
  · cases other

/-- The report of a run was taken, something of a kind that is fatal was found, and nobody can be
told. -/
def Condemns (step : Invoked ω π) : Prop :=
  step.passage.reported = true ∧ gate.parent = none ∧ ∃ session configured kind,
    gate.configure settings step.before = (.ok session, configured) ∧
      settings.throws.get kind = true ∧ session.Finds kind

variable (steady : ∀ program, gate.checker.Steady program)

include steady

theorem ran_fatal_iff (scene : Scene ω π) :
    (∃ total, (gate.ran settings scene).result = .error (.fatalPolicy total)) ↔
      gate.Condemns settings (gate.ran settings scene) := by
  have before : gate.configure settings (gate.ran settings scene).before =
      gate.configure (gate.turn settings).settings scene := rfl
  rw [Condemns, before]
  cases configuring : gate.configure (gate.turn settings).settings scene with
  | mk result configured =>
    cases result with
    | error error =>
      have ended : (gate.ran settings scene).result = .error error :=
        congrArg Prod.fst (gate.invoke_of_error configuring)
      rw [ended]
      refine iff_of_false ?_ ?_
      · rintro ⟨total, ⟨⟩⟩
        exact gate.configure_ne_fatal settings configuring
      · rintro ⟨-, -, session, _, kind, ⟨⟩, -⟩
    | ok session =>
      have quiet : configured.console = scene.console :=
        congrArg (fun ended => ended.2.console) configuring.symm
      have ended : gate.run settings scene =
          gate.typecheck settings session (gate.clock.localTime configured.world).1
            { configured with world := (gate.clock.localTime configured.world).2 } :=
        gate.invoke_of_ok configuring
      have same : (gate.ran settings scene).passage.reported = (Passage.mk
          { configured with world := (gate.clock.localTime configured.world).2 }
          (gate.run settings scene).2).reported := by
        unfold Passage.reported
        rw [quiet]
        rfl
      have result : (gate.ran settings scene).result = (gate.run settings scene).1 := rfl
      have built : (Session.configure gate.checker gate.linter gate.clock settings scene.previous
          scene.world).1 = .ok session := congrArg Prod.fst configuring
      have finds (kind : Kind) := finds_iff (Prod.ext built rfl) (steady _) settings.lintUnit
        (gate.clock.localTime configured.world).2 kind
      rw [same, result, ended]
      refine (gate.typecheck_fatal_iff settings session _ _).trans ?_
      simp [finds]

theorem not_condemns_of_keepsAlive {scene : Scene ω π}
    (keeps : (gate.ran settings scene).keepsAlive = true) :
    ¬ gate.Condemns settings (gate.ran settings scene) := by
  intro condemned
  obtain ⟨total, fatal⟩ := (gate.ran_fatal_iff settings steady scene).2 condemned
  rw [Invoked.keepsAlive, fatal] at keeps
  cases keeps

omit steady in
theorem runsFor_ne_nil (lines : List (Option String)) (scene : Scene ω π) :
    gate.runsFor settings lines scene ≠ [] := by
  obtain ⟨front, last, split, -⟩ := gate.runLines_ends settings lines scene
  simp [split]

theorem runLines_fatal_iff (lines : List (Option String)) (scene : Scene ω π) :
    (∃ total, (gate.runLines settings lines scene).1 = .error (.fatalPolicy total)) ↔
      ∃ last, (gate.runsFor settings lines scene).getLast? = some last ∧
        gate.Condemns settings last := by
  induction lines generalizing scene with
  | nil =>
    refine (gate.ran_fatal_iff settings steady scene).trans ?_
    simp [runsFor]
  | cons line lines ih =>
    rcases gate.runLines_cases settings line lines scene with
      ⟨-, made, ended⟩ | ⟨keeps, -, made, ended⟩ | ⟨text, -, -, made, ended⟩
    · rw [made, ended]
      refine (gate.ran_fatal_iff settings steady scene).trans ?_
      simp
    · have spared := gate.not_condemns_of_keepsAlive settings steady keeps
      rw [made, ended]
      simp [spared]
    · rw [made, ended, ih,
        List.getLast?_cons_of_ne_nil (gate.runsFor_ne_nil settings lines _)]

omit steady in
theorem ran_unbroken {scene : Scene (Recorded ω π) π} (sourced : gate.Sourced)
    (keeps : (gate.recorded.ran settings scene).keepsAlive = true) :
    (gate.recorded.ran settings scene).after.faults = scene.faults := by
  have tallied := run_tallies gate settings sourced scene
  change (gate.recorded.ran settings scene).after.faults =
    _ + (broke (gate.recorded.ran settings scene).result).toNat at tallied
  rw [tallied]
  revert keeps
  unfold Invoked.keepsAlive
  cases (gate.recorded.ran settings scene).result with
  | ok verdict => exact fun _ => rfl
  | error error => nofun

omit steady in
theorem runLines_broke_iff (sourced : gate.Sourced) (lines : List (Option String))
    (scene : Scene (Recorded ω π) π) :
    broke (gate.recorded.runLines settings lines scene).1 = true ↔
      scene.faults < (gate.recorded.runLines settings lines scene).2.faults ∨
        gate.recorded.Stalls settings lines scene := by
  have alone (scene : Scene (Recorded ω π) π) : broke (gate.recorded.run settings scene).1 = true ↔
      scene.faults < (gate.recorded.run settings scene).2.faults := by
    rw [run_tallies gate settings sourced scene]
    cases broke (gate.recorded.run settings scene).1 <;> simp
  induction lines generalizing scene with
  | nil =>
    rw [or_iff_left (gate.recorded.not_stalls_nil settings scene)]
    exact alone scene
  | cons line lines ih =>
    rcases gate.recorded.runLines_cases settings line lines scene with
      ⟨ends, -, ended⟩ | ⟨keeps, rfl, -, ended⟩ | ⟨text, keeps, rfl, -, ended⟩
    · rw [ended, or_iff_left (gate.recorded.not_stalls_of_ends settings ends _)]
      exact alone scene
    · rw [ended]
      exact iff_of_true rfl (.inr (gate.recorded.stalls_none settings keeps lines))
    · rw [ended, gate.recorded.stalls_some_iff settings keeps,
        ← gate.ran_unbroken settings sourced keeps]
      exact ih _

end Gate

end BuildGate
