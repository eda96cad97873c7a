import BuildGate.Proofs.Gate.Record
import BuildGate.Proofs.Gate.Turns
import BuildGate.Proofs.Text.Lines
import Mathlib.Data.ENat.Lattice

set_option autoImplicit false

namespace BuildGate

open Text (Bytes IsUtf8)

variable {ω π κ : Type}

namespace Invoked

def keepsAlive (step : Invoked ω π) : Bool :=
  match step.result with
  | .ok verdict => verdict.outcome == .keepAlive
  | .error _ => false

def written (step : Invoked ω π) : List ConsoleEvent :=
  step.after.console.events.drop step.before.console.events.length

def told (step : Invoked ω π) : List Signal := step.after.signals.drop step.before.signals.length

end Invoked

namespace Gate

variable (gate : Gate ω π κ) (settings : Settings)

def ran (scene : Scene ω π) : Invoked ω π :=
  ⟨gate.turn settings, scene, (gate.run settings scene).1, (gate.run settings scene).2⟩

def nth : Nat → Scene ω π → Invoked ω π
  | 0, scene => gate.ran settings scene
  | n + 1, scene => nth n (gate.ran settings scene).after

/-- The number of the first run that does not keep the gate alive, where the run 0 is the first. -/
noncomputable def firstEnding (scene : Scene ω π) : ℕ∞ :=
  ⨅ (n : ℕ) (_ : (gate.nth settings n scene).keepsAlive = false), (n : ℕ∞) + 1

def runsFor : List (Option String) → Scene ω π → List (Invoked ω π)
  | [], scene => [gate.ran settings scene]
  | line :: lines, scene =>
    let step := gate.ran settings scene
    if step.keepsAlive && line.isSome then step :: runsFor lines step.after else [step]

def triggerLines (listen : Bool) (triggers : Bytes) : List (Option String) :=
  if listen then Text.byteLines triggers else []

def served (listen : Bool) (triggers : Bytes) (scene : Scene ω π) : List (Invoked ω π) :=
  gate.runsFor settings (triggerLines listen triggers) scene

theorem serve_eq (listen : Bool) (triggers : Bytes) :
    gate.serve settings listen triggers =
      gate.runLines settings (triggerLines listen triggers) := by
  cases listen <;> rfl

theorem one_le_firstEnding (scene : Scene ω π) : 1 ≤ gate.firstEnding settings scene :=
  le_iInf₂ fun _ _ => le_add_self

theorem firstEnding_of_ends {scene : Scene ω π}
    (ends : (gate.ran settings scene).keepsAlive = false) :
    gate.firstEnding settings scene = 1 := by
  apply le_antisymm
  · exact (iInf₂_le 0 ends).trans_eq (zero_add 1)
  · exact gate.one_le_firstEnding settings scene

theorem firstEnding_of_keepsAlive {scene : Scene ω π}
    (keeps : (gate.ran settings scene).keepsAlive = true) :
    gate.firstEnding settings scene =
      gate.firstEnding settings (gate.ran settings scene).after + 1 := by
  have first : (gate.nth settings 0 scene).keepsAlive ≠ false := by
    rw [nth, keeps]
    nofun
  unfold firstEnding
  rw [← inf_iInf_nat_succ, iInf_neg first, top_inf_eq, ENat.iInf_add]
  simp only [ENat.iInf_add, Nat.cast_add, Nat.cast_one, nth]

theorem runLines_cases (line : Option String) (lines : List (Option String)) (scene : Scene ω π) :
    let step := gate.ran settings scene
    (step.keepsAlive = false ∧ gate.runsFor settings (line :: lines) scene = [step] ∧
        gate.runLines settings (line :: lines) scene = (step.result, step.after)) ∨
      (step.keepsAlive = true ∧ line = none ∧
        gate.runsFor settings (line :: lines) scene = [step] ∧
        gate.runLines settings (line :: lines) scene = (.error (.output .notText), step.after)) ∨
      ∃ text, step.keepsAlive = true ∧ line = some text ∧
        gate.runsFor settings (line :: lines) scene =
          step :: gate.runsFor settings lines step.after ∧
        gate.runLines settings (line :: lines) scene =
          gate.runLines settings lines step.after := by
  obtain ⟨result, after, ended⟩ : ∃ result after, gate.run settings scene = (result, after) :=
    ⟨_, _, rfl⟩
  have same : gate.ran settings scene = ⟨gate.turn settings, scene, result, after⟩ := by
    rw [ran, ended]
  simp only [same, runsFor, runLines, Action.bind_apply, ended, Invoked.keepsAlive]
  cases result with
  | error error => exact .inl (by simp)
  | ok verdict =>
    by_cases keeps : verdict.outcome = .keepAlive
    · cases line with
      | none => exact .inr (.inl (by simp [keeps]))
      | some text => exact .inr (.inr ⟨text, by simp [keeps]⟩)
    · exact .inl (by simp [keeps])

def readable (lines : List (Option String)) : Nat := (lines.takeWhile Option.isSome).length

theorem runsFor_length (lines : List (Option String)) (scene : Scene ω π) :
    ((gate.runsFor settings lines scene).length : ℕ∞) =
      min ((readable lines : ℕ∞) + 1) (gate.firstEnding settings scene) := by
  induction lines generalizing scene with
  | nil =>
    simp [runsFor, readable, gate.one_le_firstEnding settings scene]
  | cons line lines ih =>
    rcases gate.runLines_cases settings line lines scene with
      ⟨ends, made, -⟩ | ⟨keeps, rfl, made, -⟩ | ⟨text, keeps, rfl, made, -⟩
    · rw [made, gate.firstEnding_of_ends settings ends, min_eq_right le_add_self]
      rfl
    · simp [made, readable, gate.one_le_firstEnding settings scene]
    · rw [made, gate.firstEnding_of_keepsAlive settings keeps, List.length_cons, Nat.cast_add, ih,
        Nat.cast_one, min_add_add_right]
      rfl

theorem runsFor_eq_nth (lines : List (Option String)) (scene : Scene ω π) :
    gate.runsFor settings lines scene =
      (List.range (gate.runsFor settings lines scene).length).map fun n =>
        gate.nth settings n scene := by
  induction lines generalizing scene with
  | nil => rfl
  | cons line lines ih =>
    rcases gate.runLines_cases settings line lines scene with
      ⟨-, made, -⟩ | ⟨-, -, made, -⟩ | ⟨text, -, -, made, -⟩
    · rw [made]
      rfl
    · rw [made]
      rfl
    · rw [made, List.length_cons, List.range_succ_eq_map, List.map_cons, List.map_map]
      exact congrArg _ (ih _)

/-- A line that is no text is read: it is there, and every run before it keeps the gate alive. -/
def Stalls (lines : List (Option String)) (scene : Scene ω π) : Prop :=
  (readable lines : ℕ∞) + 1 < gate.firstEnding settings scene ∧ readable lines < lines.length

noncomputable instance (lines : List (Option String)) (scene : Scene ω π) :
    Decidable (gate.Stalls settings lines scene) := inferInstanceAs (Decidable (_ ∧ _))

theorem not_stalls_nil (scene : Scene ω π) : ¬ gate.Stalls settings [] scene :=
  fun stalls => absurd stalls.2 (Nat.lt_irrefl 0)

theorem not_stalls_of_ends {scene : Scene ω π} (ends : (gate.ran settings scene).keepsAlive = false)
    (lines : List (Option String)) : ¬ gate.Stalls settings lines scene := by
  rintro ⟨early, -⟩
  rw [gate.firstEnding_of_ends settings ends] at early
  exact absurd early le_add_self.not_gt

theorem stalls_none {scene : Scene ω π} (keeps : (gate.ran settings scene).keepsAlive = true)
    (lines : List (Option String)) : gate.Stalls settings (none :: lines) scene := by
  refine ⟨?_, Nat.succ_pos _⟩
  rw [gate.firstEnding_of_keepsAlive settings keeps]
  change (0 : ℕ∞) + 1 < _
  rw [ENat.add_lt_add_iff_right ENat.one_ne_top]
  exact zero_lt_one.trans_le (gate.one_le_firstEnding settings _)

theorem stalls_some_iff {scene : Scene ω π} (keeps : (gate.ran settings scene).keepsAlive = true)
    (text : String) (lines : List (Option String)) :
    gate.Stalls settings (some text :: lines) scene ↔
      gate.Stalls settings lines (gate.ran settings scene).after := by
  have next : readable (some text :: lines) = readable lines + 1 := rfl
  rw [Stalls, Stalls, gate.firstEnding_of_keepsAlive settings keeps, next, Nat.cast_add,
    Nat.cast_one, ENat.add_lt_add_iff_right ENat.one_ne_top, List.length_cons,
    Nat.add_lt_add_iff_right]

theorem runLines_ends (lines : List (Option String)) (scene : Scene ω π) :
    ∃ front last, gate.runsFor settings lines scene = front ++ [last] ∧
      (∀ step ∈ front, step.keepsAlive = true) ∧
      (gate.Stalls settings lines scene → last.keepsAlive = true) ∧
      gate.runLines settings lines scene =
        (if gate.Stalls settings lines scene then .error (.output .notText) else last.result,
          last.after) := by
  induction lines generalizing scene with
  | nil =>
    refine ⟨[], _, rfl, by simp, fun stalls => ?_, ?_⟩
    · exact absurd stalls (gate.not_stalls_nil settings scene)
    · rw [if_neg (gate.not_stalls_nil settings scene)]
      rfl
  | cons line lines ih =>
    rcases gate.runLines_cases settings line lines scene with
      ⟨ends, made, ended⟩ | ⟨keeps, rfl, made, ended⟩ | ⟨text, keeps, rfl, made, ended⟩
    · have never := gate.not_stalls_of_ends settings ends (line :: lines)
      refine ⟨[], _, made, by simp, fun stalls => absurd stalls never, ?_⟩
      rw [ended, if_neg never]
    · refine ⟨[], _, made, by simp, fun _ => keeps, ?_⟩
      rw [ended, if_pos (gate.stalls_none settings keeps lines)]
    · obtain ⟨front, last, split, kept, alive, rest⟩ := ih (gate.ran settings scene).after
      have same := gate.stalls_some_iff settings keeps text lines
      refine ⟨gate.ran settings scene :: front, last, by rw [made, split]; rfl, ?_, ?_, ?_⟩
      · simpa [keeps] using kept
      · exact fun stalls => alive (same.1 stalls)
      · simp only [ended, rest, same]

theorem runLines_appends {α : Type} {view : Scene ω π → List α}
    (appends : (gate.run settings).Leads fun before after => view before <+: view after)
    (lines : List (Option String)) (scene : Scene ω π) :
    view (gate.runLines settings lines scene).2 =
      view scene ++ (gate.runsFor settings lines scene).flatMap fun step =>
        (view step.after).drop (view step.before).length := by
  have once (scene : Scene ω π) : view (gate.ran settings scene).after =
      view scene ++ (view (gate.ran settings scene).after).drop (view scene).length := by
    obtain ⟨added, whole⟩ := appends scene
    change view (gate.run settings scene).2 = _ ++ (view (gate.run settings scene).2).drop _
    rw [← whole, List.drop_left]
  have alone (scene : Scene ω π) : view (gate.ran settings scene).after =
      view scene ++ [gate.ran settings scene].flatMap fun step =>
        (view step.after).drop (view step.before).length := by
    rw [List.flatMap_singleton]
    exact once scene
  induction lines generalizing scene with
  | nil => exact alone scene
  | cons line lines ih =>
    rcases gate.runLines_cases settings line lines scene with
      ⟨-, made, ended⟩ | ⟨-, -, made, ended⟩ | ⟨text, -, -, made, ended⟩
    · rw [made, ended]
      exact alone scene
    · rw [made, ended]
      exact alone scene
    · rw [made, ended, ih, once scene, List.append_assoc, List.flatMap_cons]
      rfl

theorem run_grows : (gate.run settings).Leads Grown := by
  refine .bind ?_ fun session => .bind (fun _ => List.prefix_rfl) fun time => ?_
  · intro scene
    exact List.prefix_rfl
  · exact typecheck_leads (fun _ => List.prefix_rfl) print_grows (fun _ => List.prefix_rfl)
      fun told indicator _ => notify_grows told indicator

end Gate

def Heard (before after : Scene ω π) : Prop := before.signals <+: after.signals

instance : IsPreorder (Scene ω π) Heard where
  refl _ := List.prefix_rfl
  trans _ _ _ := List.IsPrefix.trans

namespace Gate

theorem run_heard (gate : Gate ω π κ) (settings : Settings) : (gate.run settings).Leads Heard := by
  have prints (text : String) :
      (Scene.print text : Action (Scene ω π) GateError Unit).Leads Heard := by
    intro scene
    rw [Heard, Scene.print_apply]
    rcases Console.print text scene.console with ⟨_ | _, _⟩ <;> exact List.prefix_rfl
  refine .bind ?_ fun session => .bind (fun _ => List.prefix_rfl) fun time => ?_
  · intro scene
    exact List.prefix_rfl
  · refine typecheck_leads (fun _ => List.prefix_rfl) prints (fun _ => List.prefix_rfl) ?_
    intro told indicator _ scene
    obtain ⟨failure, notified, -⟩ := Scene.notify_apply told indicator scene
    rw [Heard, notified]
    exact List.prefix_append _ _

variable (gate : Gate ω π κ) (settings : Settings)

theorem ran_unrecorded (scene : Scene (Recorded ω π) π) :
    (gate.ran settings scene.unrecorded).keepsAlive =
        (gate.recorded.ran settings scene).keepsAlive ∧
      (gate.ran settings scene.unrecorded).after =
        (gate.recorded.ran settings scene).after.unrecorded := by
  have same := Scene.unrecorded_of_inStep (run_inStep gate.recorded_matches rfl settings) scene
  simp [ran, Invoked.keepsAlive, same]

theorem nth_unrecorded (n : Nat) (scene : Scene (Recorded ω π) π) :
    (gate.nth settings n scene.unrecorded).keepsAlive =
      (gate.recorded.nth settings n scene).keepsAlive := by
  induction n generalizing scene with
  | zero => exact (gate.ran_unrecorded settings scene).1
  | succ n ih =>
    rw [nth, (gate.ran_unrecorded settings scene).2]
    exact ih _

theorem firstEnding_unrecorded (scene : Scene (Recorded ω π) π) :
    gate.firstEnding settings scene.unrecorded = gate.recorded.firstEnding settings scene := by
  simp only [firstEnding, nth_unrecorded]

theorem stalls_unrecorded (lines : List (Option String)) (scene : Scene (Recorded ω π) π) :
    gate.Stalls settings lines scene.unrecorded ↔ gate.recorded.Stalls settings lines scene := by
  rw [Stalls, Stalls, firstEnding_unrecorded]

theorem runsFor_length_unrecorded (lines : List (Option String)) (scene : Scene (Recorded ω π) π) :
    (gate.runsFor settings lines scene.unrecorded).length =
      (gate.recorded.runsFor settings lines scene).length := by
  apply ENat.natCast_inj.1
  rw [runsFor_length, runsFor_length, firstEnding_unrecorded]

theorem run_projects (scene : Scene (Recorded ω π) π) :
    (gate.recorded.run settings scene).2.world.2.countP Request.isProject =
      scene.world.2.countP Request.isProject + 1 := by
  obtain ⟨asked, added, settled⟩ :=
    gate.check_asked (gate.recorded.turn settings) (fun _ => rfl) settings scene
  rw [run_eq_check, added, List.countP_append, settled.projects]

theorem runLines_projects (lines : List (Option String)) (scene : Scene (Recorded ω π) π) :
    (gate.recorded.runLines settings lines scene).2.world.2.countP Request.isProject =
      scene.world.2.countP Request.isProject +
        (gate.recorded.runsFor settings lines scene).length := by
  induction lines generalizing scene with
  | nil => exact gate.run_projects settings scene
  | cons line lines ih =>
    rcases gate.recorded.runLines_cases settings line lines scene with
      ⟨-, made, ended⟩ | ⟨-, -, made, ended⟩ | ⟨text, -, -, made, ended⟩
    · rw [made, ended]
      exact gate.run_projects settings scene
    · rw [made, ended]
      exact gate.run_projects settings scene
    · have once := gate.run_projects settings scene
      change (gate.recorded.ran settings scene).after.world.2.countP _ = _ at once
      rw [made, ended, ih, once, List.length_cons, Nat.add_assoc, Nat.add_comm 1]

theorem readable_byteLines (triggers : Bytes) :
    readable (Text.byteLines triggers) =
      ((Text.pieces triggers).takeWhile fun piece => decide (IsUtf8 piece)).length := by
  have same := congrArg (fun flags => (flags.takeWhile id).length)
    (Text.byteLines_isSome triggers)
  simp only [List.takeWhile_map, List.length_map, Function.id_comp] at same
  exact same

theorem stalls_iff (listen : Bool) (triggers : Bytes) (scene : Scene ω π) :
    let pieces := Text.pieces triggers
    let texts := (pieces.takeWhile fun piece => decide (IsUtf8 piece)).length
    gate.Stalls settings (triggerLines listen triggers) scene ↔
      listen ∧ (texts : ℕ∞) + 1 < gate.firstEnding settings scene ∧ texts < pieces.length := by
  have read : (Text.byteLines triggers).length = (Text.pieces triggers).length := by
    simpa using congrArg List.length (Text.byteLines_isSome triggers)
  cases listen with
  | false => simp [triggerLines, not_stalls_nil]
  | true => simp [triggerLines, Stalls, readable_byteLines, read]

/-- Serving runs once; when listening, once more for each line that is a text, as long as every run
keeps the gate alive. What its runs do is all that is done, in order. It ends as the last run does,
unless that run kept the gate alive and a line follows that is no text. -/
theorem serve_runs (listen : Bool) (triggers : Bytes) (scene : Scene ω π) :
    let runs := gate.served settings listen triggers scene
    let pieces := Text.pieces triggers
    let texts := (pieces.takeWhile fun piece => decide (IsUtf8 piece)).length
    let ending := gate.firstEnding settings scene
    let ended := gate.serve settings listen triggers scene
    runs = (List.range runs.length).map (fun n => gate.nth settings n scene) ∧
      (runs.length : ℕ∞) = (if listen then min ((texts : ℕ∞) + 1) ending else 1) ∧
      (gate.recorded.serve settings listen triggers scene.recording).2.world.2.countP
        Request.isProject = runs.length ∧
      ∃ last, runs.getLast? = some last ∧
        ended = (if listen ∧ (texts : ℕ∞) + 1 < ending ∧ texts < pieces.length then
          .error (.output .notText) else last.result, last.after) ∧
        ended.2.console.events = scene.console.events ++ runs.flatMap Invoked.written ∧
        ended.2.signals = scene.signals ++ runs.flatMap Invoked.told := by
  intro runs pieces texts ending ended
  have same : ended = gate.runLines settings (triggerLines listen triggers) scene :=
    congrFun (gate.serve_eq settings listen triggers) scene
  have made : (runs.length : ℕ∞) = if listen then min ((texts : ℕ∞) + 1) ending else 1 := by
    refine (gate.runsFor_length settings (triggerLines listen triggers) scene).trans ?_
    cases listen with
    | false => simp [triggerLines, readable, gate.one_le_firstEnding settings scene]
    | true => rw [triggerLines, if_pos rfl, readable_byteLines, if_pos rfl]
  have counted := gate.runLines_projects settings (triggerLines listen triggers) scene.recording
  rw [← gate.recorded.serve_eq, ← runsFor_length_unrecorded] at counted
  obtain ⟨front, last, split, -, -, whole⟩ :=
    gate.runLines_ends settings (triggerLines listen triggers) scene
  refine ⟨gate.runsFor_eq_nth settings _ scene, made, counted.trans (Nat.zero_add _), last, ?_,
    ?_, ?_, ?_⟩
  · rw [show runs = front ++ [last] from split, List.getLast?_concat]
  · rw [same, whole]
    simp only [stalls_iff]
    rfl
  · rw [same]
    exact gate.runLines_appends settings (gate.run_grows settings) _ scene
  · rw [same]
    exact gate.runLines_appends settings (gate.run_heard settings) _ scene

end Gate

end BuildGate
