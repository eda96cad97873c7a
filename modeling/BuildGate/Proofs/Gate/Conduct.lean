import BuildGate.Proofs.Gate

set_option autoImplicit false

namespace BuildGate

variable {ω π κ : Type}

namespace Outcome

def indicator? : Outcome → Option Indicator
  | fatal _ => some .error
  | quit => some .done
  | finished => none
  | keepAlive => none

def footers (color : Bool) : Outcome → List String
  | fatal _ => []
  | quit | finished => [paint color .muted "Quitting typechecker\n\n"]
  | keepAlive => [paint color .muted "Keeping typechecker alive\n\n"]

def texts (color : Bool) (outcome : Outcome) (report : String) : List String :=
  report :: outcome.footers color

theorem footers_eq (color : Bool) (outcome : Outcome) :
    outcome.footers color = (outcome.footer?.map (footerText color)).toList := by
  cases outcome <;> rfl

theorem indicator?_eq_done {outcome : Outcome} : outcome.indicator? = some .done ↔ outcome = .quit := by
  cases outcome <;> simp [indicator?]

theorem indicator?_eq_error {outcome : Outcome} :
    outcome.indicator? = some .error ↔ ∃ kind, outcome = .fatal kind := by
  cases outcome <;> simp [indicator?]

end Outcome

namespace Scene

theorem print_apply (text : String) (scene : Scene ω π) :
    print text scene =
      match Console.print text scene.console with
      | (.ok (), console) => (.ok (), { scene with console })
      | (.error cause, console) => (.error (.output cause), { scene with console }) := by
  unfold print Action.mapError Action.within
  rcases Console.print text scene.console with ⟨_ | _, console⟩ <;> rfl

theorem notify_apply (parent : Parent ω) (indicator : Indicator) (scene : Scene ω π) :
    ∃ failure, (notify parent indicator scene).2 =
        { scene with
          world := (parent indicator scene.world).2
          signals := scene.signals ++ [⟨indicator, failure⟩] } ∧
      (failure = none ↔ (parent indicator scene.world).1 = .ok ()) := by
  unfold notify
  rcases parent indicator scene.world with ⟨cause | done, world⟩
  · exact ⟨some cause, rfl, by simp⟩
  · exact ⟨none, rfl, by simp⟩

end Scene

def tell (parent : Option (Parent ω)) (outcome : Outcome) (scene : Scene ω π) : Scene ω π :=
  match parent, outcome.indicator? with
  | some parent, some indicator => (Scene.notify parent indicator scene).2
  | _, _ => scene

theorem signal_scene (parent : Option (Parent ω)) (outcome : Outcome) (totals : Totals)
    (scene : Scene ω π) : (signal parent outcome totals scene).2 = tell parent outcome scene := by
  cases outcome <;> cases parent <;> rfl

structure Spoken (texts : List String) (before spoken : Scene ω π) : Prop where
  console : spoken.console = (Console.printAll texts before.console).2
  signals : spoken.signals = before.signals
  world : spoken.world = before.world

/-- The parent is told after all texts are written, and not at all if one of them is refused. -/
def Ends (parent : Option (Parent ω)) (outcome : Outcome) (texts : List String)
    (before after : Scene ω π) : Prop :=
  ∃ spoken, Spoken texts before spoken ∧
    (before.console.Writes texts → after = tell parent outcome spoken) ∧
    (¬ before.console.Writes texts → after = spoken)

theorem ends_of_refused {parent : Option (Parent ω)} {outcome : Outcome} {text : String}
    {scene : Scene ω π} {console : Console} {cause : IoError}
    (refused : Console.print text scene.console = (.error cause, console)) (texts : List String) :
    Ends parent outcome (text :: texts) scene { scene with console } := by
  have stopped := Console.printAll_of_error refused texts
  refine ⟨{ scene with console }, ⟨by rw [stopped], rfl, rfl⟩, ?_, fun _ => rfl⟩
  intro written
  rw [Console.Writes, stopped] at written
  cases written

theorem Ends.cons {parent : Option (Parent ω)} {outcome : Outcome} {text : String}
    {texts : List String} {scene next after : Scene ω π} (ends : Ends parent outcome texts next after)
    (printed : Console.print text scene.console = (.ok (), next.console))
    (signals : next.signals = scene.signals) (world : next.world = scene.world) :
    Ends parent outcome (text :: texts) scene after := by
  obtain ⟨spoken, spoke, written, refused⟩ := ends
  have rest := Console.printAll_of_ok printed texts
  refine ⟨spoken, ⟨?_, ?_, ?_⟩, ?_, ?_⟩
  · rw [rest, spoke.console]
  · rw [spoke.signals, signals]
  · rw [spoke.world, world]
  · rwa [Console.Writes, rest]
  · rwa [Console.Writes, rest]

theorem ends_nil (parent : Option (Parent ω)) (outcome : Outcome) (scene : Scene ω π) :
    Ends parent outcome [] scene (tell parent outcome scene) :=
  ⟨scene, ⟨rfl, rfl, rfl⟩, fun _ => rfl, fun refused => absurd (Console.writes_nil _) refused⟩

theorem conclude_ends (color : Bool) (parent : Option (Parent ω)) (outcome : Outcome)
    (totals : Totals) (scene : Scene ω π) :
    Ends parent outcome (outcome.footers color) scene
      (conclude color parent outcome totals scene).2 := by
  have signalled (spoken : Scene ω π) : ((signal parent outcome totals >>= fun _ =>
      (pure totals.total : Action (Scene ω π) GateError Nat)) spoken).2 =
        tell parent outcome spoken := by
    rw [Action.bind_pure_state, signal_scene]
  rw [conclude_eq, Action.bind_apply, Outcome.footers_eq]
  cases footer : outcome.footer? with
  | none =>
    simp only [printFooter, footer, Action.pure_apply, signalled]
    exact ends_nil parent outcome scene
  | some text =>
    simp only [printFooter, footer, Scene.print_apply]
    cases printed : Console.print (footerText color text) scene.console with
    | mk result console =>
      cases result with
      | error cause => exact ends_of_refused printed []
      | ok done =>
        simp only [signalled]
        have rest := ends_nil parent outcome { scene with console }
        exact rest.cons printed rfl rfl

theorem Gate.typecheck_ends (gate : Gate ω π κ) (settings : Settings) (session : Session π)
    (time : String) (scene : Scene ω π) :
    let counted := session.totals gate.checker settings.lintUnit scene.world
    let outcome := Outcome.decide settings.throws settings.quit settings.finished counted.1
    Ends gate.parent outcome
      (outcome.texts gate.color (gate.report settings session time counted.1))
      { scene with world := counted.2 } (gate.typecheck settings session time scene).2 := by
  rw [typecheck_apply]
  rcases session.totals gate.checker settings.lintUnit scene.world with ⟨totals, world⟩
  let entered : Scene ω π := { scene with world }
  let report := gate.report settings session time totals
  change Ends _ _ (report :: _) entered
    ((Scene.print report >>= fun _ => gate.carryOut settings session totals) entered).2
  rw [Action.bind_apply, Scene.print_apply]
  cases printed : Console.print report entered.console with
  | mk result console =>
    cases result with
    | error cause => exact ends_of_refused printed _
    | ok done =>
      let next : Scene ω π := { entered with console, previous := some session.program }
      have concluded := conclude_ends gate.color gate.parent
        (Outcome.decide settings.throws settings.quit settings.finished totals) totals next
      have carried : (gate.carryOut settings session totals { entered with console }).2 =
          (conclude gate.color gate.parent
            (Outcome.decide settings.throws settings.quit settings.finished totals) totals next).2 :=
        Action.bind_pure_state _ _ next
      rw [← carried] at concluded
      exact concluded.cons printed rfl rfl

def tookReport : List ConsoleEvent → Bool
  | ⟨.write _, none⟩ :: ⟨.flush, none⟩ :: _ => true
  | _ => false

theorem Gate.typecheck_cases (gate : Gate ω π κ) (settings : Settings) (session : Session π)
    (time : String) (scene : Scene ω π) :
    let counted := session.totals gate.checker settings.lintUnit scene.world
    let asked : Scene ω π := { scene with world := counted.2 }
    let report := gate.report settings session time counted.1
    (∃ cause refused, tookReport refused = false ∧
        gate.typecheck settings session time scene =
          (.error (.output cause), { asked with console := scene.console.after refused })) ∨
      ∃ entered : Scene ω π,
        entered.console = scene.console.after [⟨.write report, none⟩, ⟨.flush, none⟩] ∧
          gate.typecheck settings session time scene =
            gate.carryOut settings session counted.1 entered := by
  intro counted asked report
  have begun : gate.typecheck settings session time scene =
      (Scene.print report >>= fun _ => gate.carryOut settings session counted.1) asked := rfl
  rw [begun, Action.bind_apply, Scene.print_apply]
  rcases Console.print_cases report asked.console with
    ⟨cause, -, printed⟩ | ⟨cause, -, -, printed⟩ | ⟨-, -, printed⟩
  · exact .inl ⟨cause, _, rfl, by rw [printed]⟩
  · exact .inl ⟨cause, _, rfl, by rw [printed]⟩
  · refine .inr ⟨{ asked with console := _ }, rfl, ?_⟩
    rw [printed]
    rfl

namespace Scene

def toldSince (signals : List Signal) (scene : Scene ω π) : List Indicator :=
  (scene.signals.drop signals.length).map (·.indicator)

end Scene

theorem Ends.told_cases {parent : Option (Parent ω)} {outcome : Outcome} {texts : List String}
    {before after : Scene ω π} (ends : Ends parent outcome texts before after) :
    (after.signals = before.signals ∧ ¬ (before.console.Writes texts ∧ parent.isSome ∧
        outcome.indicator?.isSome)) ∨
      ∃ told spoken indicator failure, before.console.Writes texts ∧ parent = some told ∧
        outcome.indicator? = some indicator ∧ Spoken texts before spoken ∧
        (Scene.notify told indicator spoken).2 = after ∧
        after.signals = before.signals ++ [⟨indicator, failure⟩] := by
  obtain ⟨spoken, spoke, written, refused⟩ := ends
  by_cases all : before.console.Writes texts
  · have ended := written all
    cases there : parent with
    | none =>
      simp only [there, tell] at ended
      exact .inl ⟨by rw [ended, spoke.signals], by simp⟩
    | some parent =>
      cases due : outcome.indicator? with
      | none =>
        simp only [there, tell, due] at ended
        exact .inl ⟨by rw [ended, spoke.signals], by simp⟩
      | some indicator =>
        simp only [there, tell, due] at ended
        obtain ⟨failure, notified, -⟩ := Scene.notify_apply parent indicator spoken
        refine .inr ⟨parent, spoken, indicator, failure, all, rfl, rfl, spoke, ended.symm, ?_⟩
        rw [ended, notified, spoke.signals]
  · exact .inl ⟨by rw [refused all, spoke.signals], fun told => all told.1⟩

theorem Ends.toldSince_eq_iff {parent : Option (Parent ω)} {outcome : Outcome} {texts : List String}
    {before after : Scene ω π} (ends : Ends parent outcome texts before after)
    (indicator : Indicator) : after.toldSince before.signals = [indicator] ↔
      outcome.indicator? = some indicator ∧ parent.isSome ∧ before.console.Writes texts := by
  rcases ends.told_cases with ⟨same, untold⟩ |
    ⟨told, spoken, said, failure, all, there, due, -, -, added⟩
  · have nothing : after.toldSince before.signals = [] := by
      simp [Scene.toldSince, same]
    rw [nothing]
    constructor
    · intro one
      cases one
    · rintro ⟨due, attached, all⟩
      exact absurd ⟨all, attached, by rw [due]; rfl⟩ untold
  · have one : after.toldSince before.signals = [said] := by
      simp [Scene.toldSince, added]
    simp [one, due, there, all]

theorem Ends.console_eq {parent : Option (Parent ω)} {outcome : Outcome} {texts : List String}
    {before after : Scene ω π} (ends : Ends parent outcome texts before after) :
    after.console = (Console.printAll texts before.console).2 := by
  obtain ⟨spoken, spoke, written, refused⟩ := ends
  have kept : (tell parent outcome spoken).console = spoken.console := by
    unfold tell
    split
    next => exact Scene.notify_console _ _ _
    next => rfl
  by_cases all : before.console.Writes texts
  · rw [written all, kept, spoke.console]
  · rw [refused all, spoke.console]

theorem Outcome.taken_cases {color : Bool} {outcome : Outcome} {report : String}
    {taken : List String} (first : taken <+: outcome.texts color report) :
    taken = [] ∨ taken = [report] ∨ taken = outcome.texts color report := by
  cases outcome <;>
    simp only [texts, footers, List.prefix_cons_iff, List.prefix_nil] at first ⊢ <;> grind

/-- How an invocation conducts itself from a console and signals on: it writes the report, then the
footer of its outcome, and tells its parent once all is written. -/
structure Conduct (color : Bool) (parent : Option (Parent ω)) (outcome : Outcome) (report : String)
    (console : Console) (signals : List Signal) (after : Scene ω π) : Prop where
  written : Console.Tries console (outcome.texts color report) after.console
  accepted : after.console.text = console.text ∨ after.console.text = console.text ++ report ∨
    after.console.text = console.text ++ String.join (outcome.texts color report)
  done : after.toldSince signals = [.done] ↔ outcome = .quit ∧ parent.isSome ∧
    after.console = console.after
      (Console.taking [report, paint color .muted "Quitting typechecker\n\n"])
  error : after.toldSince signals = [.error] ↔ (∃ kind, outcome = .fatal kind) ∧ parent.isSome ∧
    after.console = console.after (Console.taking [report])
  silent : after.toldSince signals ≠ [.done] → after.toldSince signals ≠ [.error] →
    after.signals = signals
  told : after.signals ≠ signals →
    after.console.text = console.text ++ String.join (outcome.texts color report)
  last : after.signals = signals ∨ ∃ (told : Parent ω) (indicator : Indicator) (spoken : Scene ω π)
    (failure : Option IoError), parent = some told ∧ spoken.console = after.console ∧
      after = { spoken with
        world := (told indicator spoken.world).2
        signals := signals ++ [⟨indicator, failure⟩] } ∧
      (failure = none ↔ (told indicator spoken.world).1 = .ok ())

theorem Ends.conduct {color : Bool} {parent : Option (Parent ω)} {outcome : Outcome}
    {report : String} {before after : Scene ω π}
    (ends : Ends parent outcome (outcome.texts color report) before after) :
    Conduct color parent outcome report before.console before.signals after := by
  have written : Console.Tries before.console (outcome.texts color report) after.console :=
    ends.console_eq ▸ Console.printAll_tries _ _
  have all (texts : List String) : outcome.texts color report = texts →
      (before.console.Writes (outcome.texts color report) ↔
        after.console = before.console.after (Console.taking texts)) := by
    rintro rfl
    rw [ends.console_eq, Console.writes_iff]
  obtain ⟨taken, first, text⟩ := written.text
  refine ⟨written, ?_, ?_, ?_, ?_, ?_, ?_⟩
  · rcases Outcome.taken_cases first with rfl | rfl | rfl
    · exact .inl (by simpa using text)
    · exact .inr (.inl (by simpa using text))
    · exact .inr (.inr text)
  · rw [ends.toldSince_eq_iff, Outcome.indicator?_eq_done]
    refine and_congr_right fun quit => and_congr_right fun _ => all _ ?_
    rw [quit]
    rfl
  · rw [ends.toldSince_eq_iff, Outcome.indicator?_eq_error]
    refine and_congr_right fun fatal => and_congr_right fun _ => all _ ?_
    obtain ⟨kind, rfl⟩ := fatal
    rfl
  · intro undone unfailed
    rcases ends.told_cases with ⟨same, -⟩ | ⟨_, _, indicator, _, all, there, due, _, _, _⟩
    · exact same
    · have one := (ends.toldSince_eq_iff indicator).2 ⟨due, by simp [there], all⟩
      cases indicator
      · exact absurd one undone
      · exact absurd one unfailed
  · intro told
    rcases ends.told_cases with ⟨same, -⟩ | ⟨_, _, _, _, whole, _⟩
    · exact absurd same told
    · rw [(all _ rfl).1 whole, Console.after_text, Console.text_taking]
  · rcases ends.told_cases with ⟨same, -⟩ | ⟨parent, spoken, indicator, _, _, there, _, spoke, told, _⟩
    · exact .inl same
    · obtain ⟨failure, notified, failed⟩ := Scene.notify_apply parent indicator spoken
      refine .inr ⟨parent, indicator, spoken, failure, there, ?_, ?_, failed⟩
      · rw [spoke.console, ends.console_eq]
      · rw [← told, notified, spoke.signals]

end BuildGate
