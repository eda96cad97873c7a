import BuildGate.Proofs.Gate.Matches
import BuildGate.Proofs.Gate.Turns
import BuildGate.Proofs.Report.Agreement
import BuildGate.Proofs.Report.Color

set_option autoImplicit false

namespace BuildGate

variable {ω π κ : Type}

namespace Console

def Accepting (console : Console) : Prop := ∀ events step, console.refuses events step = none

def accepted (texts : List String) : List ConsoleEvent :=
  texts.flatMap fun text => [⟨.write text, none⟩, ⟨.flush, none⟩]

theorem Accepting.after {console : Console} (accepting : console.Accepting)
    (events : List ConsoleEvent) : (console.after events).Accepting := accepting

theorem take_of_accepting {console : Console} (accepting : console.Accepting)
    (step : ConsoleStep) : take step console = (.ok (), console.after [⟨step, none⟩]) := by
  simp only [take, accepting console.events step, after]

theorem print_of_accepting {console : Console} (accepting : console.Accepting) (text : String) :
    print text console = (.ok (), console.after (accepted [text])) := by
  have flushed := take_of_accepting (accepting.after [⟨.write text, none⟩]) .flush
  rw [after_after] at flushed
  rw [print, Action.bind_apply, take_of_accepting accepting]
  exact flushed

/-- Two outputs that have accepted texts which are similar one by one, each since a start of its
own. -/
def Paired (similar : String → String → Prop) (start origin one other : Console) : Prop :=
  ∃ texts images, List.Forall₂ similar texts images ∧ one = start.after (accepted texts) ∧
    other = origin.after (accepted images)

theorem print_paired {similar : String → String → Prop} {start origin : Console}
    (accepting : start.Accepting) (taking : origin.Accepting) {text image : String}
    (alike : similar text image) :
    InStep (Paired similar start origin) (print text) (print image) := by
  rintro one other ⟨texts, images, each, rfl, rfl⟩
  rw [print_of_accepting (accepting.after _), print_of_accepting (taking.after _)]
  refine ⟨rfl, texts ++ [text], images ++ [image], ?_, ?_, ?_⟩
  · exact List.rel_append each (.cons alike .nil)
  · rw [after_after, accepted, accepted, accepted, List.flatMap_append]
  · rw [after_after, accepted, accepted, accepted, List.flatMap_append]

theorem text_accepted (texts : List String) :
    String.join ((accepted texts).map ConsoleEvent.text) = String.join texts := by
  induction texts with
  | nil => rfl
  | cons text texts ih =>
    rw [accepted, List.flatMap_cons, ← accepted, List.map_append, String.join_append, ih,
      String.join_cons]
    simp [ConsoleEvent.text, String.join]

def textSince (start console : Console) : String :=
  String.join ((console.events.drop start.events.length).map ConsoleEvent.text)

theorem textSince_after (start : Console) (events : List ConsoleEvent) :
    start.textSince (start.after events) = String.join (events.map ConsoleEvent.text) := by
  rw [textSince, after_events, List.drop_left]

theorem Paired.nil {similar : String → String → Prop} (start origin : Console) :
    Paired similar start origin start origin :=
  ⟨[], [], .nil, by simp [after, accepted], by simp [after, accepted]⟩

theorem Paired.texts {similar : String → String → Prop} {start origin one other : Console}
    (paired : Paired similar start origin one other) :
    ∃ texts images, List.Forall₂ similar texts images ∧
      start.textSince one = String.join texts ∧ origin.textSince other = String.join images := by
  obtain ⟨texts, images, each, rfl, rfl⟩ := paired
  exact ⟨texts, images, each, by rw [textSince_after, text_accepted],
    by rw [textSince_after, text_accepted]⟩

end Console

theorem Clock.Matches.refl (clock : Clock ω) : clock.Matches Eq clock := ⟨.refl _, .refl _⟩

theorem Gate.matches_recolored (gate : Gate ω π κ) (color : Bool) :
    gate.Matches Eq { gate with color } where
  checker := ⟨fun _ _ => .refl _, fun _ _ => .refl _, fun _ _ => .refl _, rfl⟩
  linter := ⟨fun _ _ => .refl _, rfl, fun _ _ _ _ => .refl _⟩
  clock := .refl _
  parent := by
    cases gate.parent with
    | none => exact .none
    | some parent => exact .some fun _ => .refl _

theorem Gate.invoke_paired (gate : Gate ω π κ) (color : Bool) (turn : Turn ω) (yellow : Flags)
    {scene : Scene ω π} {screen : Console} (accepting : scene.console.Accepting)
    (taking : screen.Accepting) (similar : String → String → Prop)
    (reports : ∀ session configured totals,
      gate.configure turn.settings scene = (.ok session, configured) →
      similar (gate.report turn.settings session (turn.stamp configured.world).1 totals)
        ({ gate with color }.report { turn.settings with yellow } session
          (turn.stamp configured.world).1 totals))
    (footers : ∀ (outcome : Outcome) text, outcome.footer? = some text →
      similar (footerText gate.color text) (footerText color text)) :
    let one := gate.invoke turn scene
    let other := { gate with color }.invoke { turn with settings := { turn.settings with yellow } }
      { scene with console := screen }
    one.1 = other.1 ∧
      Scene.Alike Eq (Console.Paired similar scene.console screen) one.2 other.2 := by
  intro one other
  let recolored : Gate ω π κ := { gate with color }
  let shown : Turn ω := { turn with settings := { turn.settings with yellow } }
  have print {text image : String} (alike : similar text image) :=
    Console.print_paired accepting taking alike
  have alike : Scene.Alike Eq (Console.Paired similar scene.console screen)
      (gate.configure turn.settings scene).2
      (recolored.configure shown.settings { scene with console := screen }).2 :=
    ⟨rfl, .nil _ _, rfl, rfl⟩
  have same : (gate.configure turn.settings scene).1 =
      (recolored.configure shown.settings { scene with console := screen }).1 := rfl
  cases configuring : gate.configure turn.settings scene with
  | mk result configured =>
    cases mirroring : recolored.configure shown.settings { scene with console := screen } with
    | mk answer mirrored =>
      rw [configuring, mirroring] at alike same
      obtain rfl : result = answer := same
      cases result with
      | error error =>
        have failed : one = (.error error, configured) := gate.invoke_of_error configuring
        have refused : other = (.error error, mirrored) :=
          invoke_of_error recolored (mirroring : recolored.configure shown.settings _ = _)
        rw [failed, refused]
        exact ⟨rfl, alike⟩
      | ok session =>
        have checked := gate.invoke_of_ok configuring
        have mirror : other =
            recolored.typecheck shown.settings session (shown.stamp mirrored.world).1
              { mirrored with world := (shown.stamp mirrored.world).2 } :=
          recolored.invoke_of_ok mirroring
        rw [← alike.world] at mirror
        have steps := Gate.typecheck_inStep (gate.matches_recolored color) turn.settings yellow
          session (turn.stamp configured.world).1
          (fun totals => print (reports session configured totals configuring))
          (fun outcome text named => print (footers outcome text named))
        have ended := steps { configured with world := (turn.stamp configured.world).2 }
          { mirrored with world := (turn.stamp configured.world).2 } { alike with world := rfl }
        rw [← checked, ← mirror] at ended
        exact ended

theorem Gate.report_colorless (gate : Gate ω π κ) (settings : Settings) (yellow : Flags)
    (session : Session π) (time : String) (totals : Totals) :
    { gate with color := false }.report { settings with yellow } session time totals =
      { gate with color := false }.report settings session time totals := by
  simp only [Gate.report, ReportLine.all_restyle settings.yellow yellow, Report.compose_restyle _ _
    totals settings.yellow]

theorem footerText_shows (color : Bool) {outcome : Outcome} {text : String}
    (named : outcome.footer? = some text) :
    Paint.Shows (footerText color text) (text ++ "\n\n") := by
  refine .paint _ _ ?_
  cases outcome <;> cases named <;> decide

/-- The texts that others choose begin no escape sequence. -/
structure Gate.Plain (gate : Gate ω π κ) (turn : Turn ω) (scene : Scene ω π) : Prop where
  runType : Paint.Unescaped turn.settings.runType
  name : Paint.Unescaped turn.settings.name
  time : ∀ session configured, gate.configure turn.settings scene = (.ok session, configured) →
    Paint.Unescaped (turn.stamp configured.world).1
  findings : ∀ session configured, gate.configure turn.settings scene = (.ok session, configured) →
    ∀ finding ∈ ReportLine.all turn.settings.yellow session.diagnostics session.lintResults,
      finding.Plain

theorem Gate.Plain.shows {gate : Gate ω π κ} {turn : Turn ω} {scene configured : Scene ω π}
    {session : Session π} (plain : gate.Plain turn scene)
    (built : gate.configure turn.settings scene = (.ok session, configured)) (color : Bool)
    (yellow : Flags) (totals : Totals) :
    Paint.Shows ({ gate with color }.report { turn.settings with yellow } session
        (turn.stamp configured.world).1 totals)
      ({ gate with color := false }.report turn.settings session (turn.stamp configured.world).1
        totals) := by
  rw [← Gate.report_colorless gate turn.settings yellow]
  refine Report.compose_shows color plain.runType plain.name (plain.time session configured built)
    ?_ totals yellow session.elapsed
  simp only [ReportLine.all_restyle turn.settings.yellow yellow, List.forall_mem_map]
  intro finding inside
  exact (plain.findings session configured built finding inside).restyle yellow

/-- An invocation with other colours and yellow flags ends the same and leaves the same behind,
signals and the seed of the next one among it. Its output differs in escape sequences only, and not
at all without colour. -/
theorem colors_only_present (gate : Gate ω π κ) (color : Bool) (turn : Turn ω) (yellow : Flags)
    (scene : Scene ω π) (screen : Console) (accepting : scene.console.Accepting)
    (taking : screen.Accepting) :
    let one := gate.invoke turn scene
    let other := { gate with color }.invoke { turn with settings := { turn.settings with yellow } }
      { scene with console := screen }
    let output := scene.console.textSince one.2.console
    let image := screen.textSince other.2.console
    one.1 = other.1 ∧ one.2.signals = other.2.signals ∧ one.2.previous = other.2.previous ∧
      one.2.world = other.2.world ∧
      (gate.Plain turn scene → Paint.strip output = Paint.strip image) ∧
      (gate.color = false → color = false → output = image) := by
  intro one other output image
  have paired := gate.invoke_paired color turn yellow accepting taking
  obtain ⟨result, alike⟩ := paired (fun _ _ => True) (fun _ _ _ _ => trivial) fun _ _ _ => trivial
  refine ⟨result, alike.signals, alike.previous, alike.world, ?_, ?_⟩
  · intro plain
    obtain ⟨-, same⟩ := paired
      (fun text image => ∃ shown, Paint.Shows text shown ∧ Paint.Shows image shown)
      (fun session configured totals built =>
        ⟨_, plain.shows built gate.color turn.settings.yellow totals,
          plain.shows built color yellow totals⟩)
      (fun _ _ named => ⟨_, footerText_shows _ named, footerText_shows _ named⟩)
    obtain ⟨texts, images, each, written, mirrored⟩ := same.console.texts
    change Paint.strip (scene.console.textSince one.2.console) =
      Paint.strip (screen.textSince other.2.console)
    rw [written, mirrored]
    exact Paint.strip_join each
  · intro before after
    subst after
    have uncolored : gate = { gate with color := false } := by rw [← before]
    obtain ⟨-, same⟩ := paired Eq
      (fun session configured totals _ => by
        rw [gate.report_colorless turn.settings yellow, ← uncolored])
      (fun _ _ _ => by rw [before])
    obtain ⟨texts, images, each, written, mirrored⟩ := same.console.texts
    rw [List.forall₂_eq_eq_eq] at each
    change scene.console.textSince one.2.console = screen.textSince other.2.console
    rw [written, mirrored, each]

def sampleTurn : Turn Unit := ⟨id, id, sampleSettings, sampleGate.clock.localTime⟩

theorem sample_plain : sampleGate.Plain sampleTurn (.start () .accepting) where
  runType := by decide
  name := by decide
  time := by
    intro session configured _
    change Paint.Unescaped "now"
    decide
  findings := by
    intro session configured built
    have made : sampleGate.configure sampleTurn.settings (.start () .accepting) =
        (.ok sampleSession, .start () .accepting) := rfl
    rw [made] at built
    cases built
    decide

theorem sample_colors_only_present :
    let one := sampleGate.invoke sampleTurn (.start () .accepting)
    let other := { sampleGate with color := true }.invoke
      { sampleTurn with settings := { sampleSettings with yellow := .const true } }
      (.start () .accepting)
    sampleGate.Plain sampleTurn (.start () .accepting) ∧ one.1 = .ok ⟨.keepAlive, 2⟩ ∧
      one.1 = other.1 ∧ one.2.console.text ≠ other.2.console.text ∧
      Paint.strip (Console.accepting.textSince one.2.console) =
        Paint.strip (Console.accepting.textSince other.2.console) := by
  intro one other
  have accepting : Console.accepting.Accepting := fun _ _ => rfl
  obtain ⟨result, -, -, -, same, -⟩ := colors_only_present sampleGate true sampleTurn (.const true)
    (.start () .accepting) .accepting accepting accepting
  exact ⟨sample_plain, rfl, result, by decide, same sample_plain⟩

end BuildGate
