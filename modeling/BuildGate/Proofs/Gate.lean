import BuildGate.Gate
import BuildGate.Proofs.Console

set_option autoImplicit false

namespace BuildGate

variable {ω π κ : Type}

namespace Scene

theorem print_console (text : String) (scene : Scene ω π) :
    (print text scene).2.console = (Console.print text scene.console).2 := by
  unfold print Action.mapError Action.within
  rcases Console.print text scene.console with ⟨_ | _, console⟩ <;> rfl

theorem notify_console (parent : Parent ω) (indicator : Indicator) (scene : Scene ω π) :
    (notify parent indicator scene).2.console = scene.console := by
  unfold notify
  rcases parent indicator scene.world with ⟨_ | _, world⟩ <;> rfl

theorem notify_world (parent : Parent ω) (indicator : Indicator) (scene : Scene ω π) :
    (notify parent indicator scene).2.world = (parent indicator scene.world).2 := by
  unfold notify
  rcases parent indicator scene.world with ⟨_ | _, world⟩ <;> rfl

theorem print_ne_fatal {text : String} {scene after : Scene ω π} {total : Nat} :
    print text scene ≠ (.error (.fatalPolicy total), after) := by
  unfold print Action.mapError
  rcases (Console.print text).within console _ scene with ⟨_ | _, later⟩ <;> simp

theorem notify_ne_fatal {parent : Parent ω} {indicator : Indicator} {scene after : Scene ω π}
    {total : Nat} : notify parent indicator scene ≠ (.error (.fatalPolicy total), after) := by
  unfold notify
  rcases parent indicator scene.world with ⟨_ | _, world⟩ <;> simp

end Scene

def Grown (before after : Scene ω π) : Prop := before.console.events <+: after.console.events

instance : IsPreorder (Scene ω π) Grown where
  refl _ := List.prefix_rfl
  trans _ _ _ := List.IsPrefix.trans

theorem print_grows (text : String) :
    (Scene.print text : Action (Scene ω π) GateError Unit).Leads Grown := by
  intro scene
  obtain ⟨refusal, rest, printed⟩ := Console.print_events text scene.console
  rw [Grown, Scene.print_console, printed]
  exact List.prefix_append _ _

theorem notify_grows (parent : Parent ω) (indicator : Indicator) :
    (Scene.notify parent indicator : Action (Scene ω π) GateError Unit).Leads Grown := by
  intro scene
  unfold Grown
  exact (Scene.notify_console parent indicator scene).symm ▸ List.prefix_rfl

def printFooter (color : Bool) (outcome : Outcome) : Action (Scene ω π) GateError Unit :=
  match outcome.footer? with
  | some text => Scene.print (footerText color text)
  | none => pure ()

def signal (parent : Option (Parent ω)) (outcome : Outcome) (totals : Totals) :
    Action (Scene ω π) GateError Unit :=
  match outcome, parent with
  | .fatal _, some parent => Scene.notify parent .error
  | .fatal _, none => .fail (.fatalPolicy totals.total)
  | .quit, some parent => Scene.notify parent .done
  | _, _ => pure ()

theorem conclude_eq (color : Bool) (parent : Option (Parent ω)) (outcome : Outcome)
    (totals : Totals) :
    (conclude color parent outcome totals : Action (Scene ω π) GateError Nat) =
      printFooter color outcome >>= fun _ => signal parent outcome totals >>= fun _ =>
        pure totals.total := by
  cases outcome <;> cases parent <;> rfl

section Leads

variable {related : Scene ω π → Scene ω π → Prop} [IsPreorder (Scene ω π) related]

theorem conclude_leads {color : Bool} {parent : Option (Parent ω)} {outcome : Outcome}
    {totals : Totals}
    (prints : ∀ text, (Scene.print text : Action (Scene ω π) GateError Unit).Leads related)
    (notifies : ∀ told indicator, parent = some told →
      (Scene.notify told indicator : Action (Scene ω π) GateError Unit).Leads related) :
    (conclude color parent outcome totals : Action (Scene ω π) GateError Nat).Leads related := by
  rw [conclude_eq]
  have footer : (printFooter color outcome : Action (Scene ω π) _ _).Leads related := by
    unfold printFooter
    split
    · exact prints _
    · exact .pure _
  have told : (signal parent outcome totals : Action (Scene ω π) _ _).Leads related := by
    unfold signal
    split
    · exact notifies _ _ rfl
    · exact .fail _
    · exact notifies _ _ rfl
    · exact .pure _
  exact footer.bind fun _ => told.bind fun _ => .pure _

theorem Gate.typecheck_leads {gate : Gate ω π κ} {settings : Settings} {session : Session π}
    {time : String}
    (counts : (Scene.onWorld (.step (session.totals gate.checker settings.lintUnit)) :
      Action (Scene ω π) GateError Totals).Leads related)
    (prints : ∀ text, (Scene.print text : Action (Scene ω π) GateError Unit).Leads related)
    (keeps : (Scene.keep session.program : Action (Scene ω π) GateError Unit).Leads related)
    (notifies : ∀ told indicator, gate.parent = some told →
      (Scene.notify told indicator : Action (Scene ω π) GateError Unit).Leads related) :
    (gate.typecheck settings session time).Leads related := by
  refine counts.bind fun totals => (prints _).bind fun _ => keeps.bind fun _ => ?_
  exact (conclude_leads prints notifies).bind fun _ => .pure _

end Leads

theorem total_of_conclude {color : Bool} {parent : Option (Parent ω)} {outcome : Outcome}
    {totals : Totals} {scene after : Scene ω π} {total : Nat}
    (concluded : conclude color parent outcome totals scene = (.ok total, after)) :
    total = totals.total := by
  rw [conclude_eq] at concluded
  simp only [Action.bind_eq_ok] at concluded
  obtain ⟨_, _, _, _, _, _, done⟩ := concluded
  exact (Except.ok.inj (Prod.mk.inj done).1).symm

theorem conclude_fatal {color : Bool} {parent : Option (Parent ω)} {outcome : Outcome}
    {totals : Totals} {scene after : Scene ω π} {total : Nat}
    (failed : conclude color parent outcome totals scene = (.error (.fatalPolicy total), after)) :
    (∃ kind, outcome = .fatal kind) ∧ parent = none ∧ total = totals.total := by
  rw [conclude_eq] at failed
  rcases Action.bind_eq_error.1 failed with footer | ⟨_, between, -, later⟩
  · cases written : outcome.footer? with
    | some text =>
      simp only [printFooter, written] at footer
      exact absurd footer Scene.print_ne_fatal
    | none =>
      simp only [printFooter, written] at footer
      cases footer
  · rcases Action.bind_eq_error.1 later with told | ⟨_, _, -, done⟩
    · cases outcome <;> cases parent
      case fatal.none kind =>
        cases told
        exact ⟨⟨kind, rfl⟩, rfl, rfl⟩
      case fatal.some => exact absurd told Scene.notify_ne_fatal
      case quit.some => exact absurd told Scene.notify_ne_fatal
      all_goals cases told
    · cases done

namespace Gate

variable (gate : Gate ω π κ) (settings : Settings) (session : Session π) (time : String)

def carryOut (totals : Totals) : Action (Scene ω π) GateError Verdict :=
  Scene.keep session.program >>= fun _ =>
    let outcome := Outcome.decide settings.throws settings.quit settings.finished totals
    conclude gate.color gate.parent outcome totals >>= fun total => pure ⟨outcome, total⟩

theorem typecheck_apply (scene : Scene ω π) :
    gate.typecheck settings session time scene =
      let (totals, world) := session.totals gate.checker settings.lintUnit scene.world
      (Scene.print (gate.report settings session time totals) >>= fun _ =>
        gate.carryOut settings session totals) { scene with world } := rfl

theorem carryOut_fatal_iff (totals : Totals) (scene : Scene ω π) :
    (∃ total, (gate.carryOut settings session totals scene).1 = .error (.fatalPolicy total)) ↔
      (∃ kind, Outcome.decide settings.throws settings.quit settings.finished totals =
        .fatal kind) ∧ gate.parent = none := by
  constructor
  · rintro ⟨total, failed⟩
    have ended : gate.carryOut settings session totals scene = (.error (.fatalPolicy total), _) :=
      Prod.ext failed rfl
    rcases Action.bind_eq_error.1 ended with kept | ⟨_, _, -, settled⟩
    · cases kept
    · rcases Action.bind_eq_error.1 settled with concluded | ⟨_, _, -, done⟩
      · exact ⟨(conclude_fatal concluded).1, (conclude_fatal concluded).2.1⟩
      · cases done
  · rintro ⟨⟨kind, fatal⟩, alone⟩
    refine ⟨totals.total, ?_⟩
    unfold carryOut
    simp only [fatal, alone]
    rfl

theorem carryOut_grows (totals : Totals) :
    (gate.carryOut settings session totals).Leads Grown := by
  have kept : (Scene.keep session.program : Action (Scene ω π) GateError Unit).Leads Grown :=
    fun _ => List.prefix_rfl
  refine kept.bind fun _ => (conclude_leads print_grows ?_).bind fun _ => .pure _
  exact fun told indicator _ => notify_grows told indicator

theorem typecheck_writes (scene : Scene ω π) :
    let totals := (session.totals gate.checker settings.lintUnit scene.world).1
    ∃ refusal rest, (gate.typecheck settings session time scene).2.console.events =
      scene.console.events ++
        ⟨.write (gate.report settings session time totals), refusal⟩ :: rest := by
  intro totals
  let asked : Scene ω π :=
    { scene with world := (session.totals gate.checker settings.lintUnit scene.world).2 }
  let report := gate.report settings session time totals
  obtain ⟨refusal, early, written⟩ := Console.print_events report scene.console
  have printed : (Scene.print report asked).2.console = (Console.print report scene.console).2 :=
    Scene.print_console report asked
  have grown := Action.Leads.bind_next (Scene.print report)
    (fun _ => carryOut_grows gate settings session totals) asked
  rw [Grown, printed, written] at grown
  obtain ⟨rest, ended⟩ := grown
  refine ⟨refusal, early ++ rest, ?_⟩
  rw [Console.after_events, List.append_assoc, List.cons_append] at ended
  exact ended.symm

theorem typecheck_verdict {scene after : Scene ω π} {verdict : Verdict}
    (ended : gate.typecheck settings session time scene = (.ok verdict, after)) :
    let totals := (session.totals gate.checker settings.lintUnit scene.world).1
    verdict =
      ⟨Outcome.decide settings.throws settings.quit settings.finished totals, totals.total⟩ := by
  simp only [typecheck_apply, carryOut, Action.bind_eq_ok] at ended
  obtain ⟨_, _, -, _, _, -, total, _, concluded, done⟩ := ended
  cases done
  rw [total_of_conclude concluded]

theorem typecheck_total {scene after : Scene ω π} {verdict : Verdict}
    (ended : gate.typecheck settings session time scene = (.ok verdict, after)) :
    verdict.total = (session.totals gate.checker settings.lintUnit scene.world).1.total := by
  rw [gate.typecheck_verdict settings session time ended]

theorem typecheck_fatal {scene after : Scene ω π} {total : Nat}
    (ended : gate.typecheck settings session time scene = (.error (.fatalPolicy total), after)) :
    total = (session.totals gate.checker settings.lintUnit scene.world).1.total := by
  rw [typecheck_apply] at ended
  rcases Action.bind_eq_error.1 ended with printed | ⟨_, _, -, carried⟩
  · exact absurd printed Scene.print_ne_fatal
  · rcases Action.bind_eq_error.1 carried with kept | ⟨_, _, -, settled⟩
    · cases kept
    · rcases Action.bind_eq_error.1 settled with failed | ⟨_, _, -, done⟩
      · exact (conclude_fatal failed).2.2
      · cases done

end Gate

end BuildGate
