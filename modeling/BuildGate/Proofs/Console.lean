import BuildGate.Console
import BuildGate.Proofs.Action
import Mathlib.Data.List.Basic

set_option autoImplicit false

namespace BuildGate.Console

def after (console : Console) (events : List ConsoleEvent) : Console :=
  { console with events := console.events ++ events }

@[simp] theorem after_events (console : Console) (events : List ConsoleEvent) :
    (console.after events).events = console.events ++ events := rfl

@[simp] theorem after_text (console : Console) (events : List ConsoleEvent) :
    (console.after events).text = console.text ++ String.join (events.map ConsoleEvent.text) := by
  simp [text, String.join_append]

theorem after_after (console : Console) (early late : List ConsoleEvent) :
    (console.after early).after late = console.after (early ++ late) := by
  simp [after]

theorem after_inj {console : Console} {events others : List ConsoleEvent} :
    console.after events = console.after others ↔ events = others := by
  simp [after]

theorem print_cases (text : String) (console : Console) :
    (∃ cause, console.refuses console.events (.write text) = some cause ∧
      print text console = (.error cause, console.after [⟨.write text, some cause⟩])) ∨
    (∃ cause, console.refuses console.events (.write text) = none ∧
      console.refuses (console.events ++ [⟨.write text, none⟩]) .flush = some cause ∧
        print text console =
          (.error cause, console.after [⟨.write text, none⟩, ⟨.flush, some cause⟩])) ∨
    (console.refuses console.events (.write text) = none ∧
      console.refuses (console.events ++ [⟨.write text, none⟩]) .flush = none ∧
        print text console = (.ok (), console.after [⟨.write text, none⟩, ⟨.flush, none⟩])) := by
  rw [print, Action.bind_apply]
  unfold take
  cases written : console.refuses console.events (.write text) with
  | some cause => exact .inl ⟨cause, rfl, rfl⟩
  | none =>
    cases flushed : console.refuses (console.events ++ [⟨.write text, none⟩]) .flush with
    | some cause =>
      simp only [flushed]
      exact .inr (.inl ⟨cause, by simp [after]⟩)
    | none =>
      simp only [flushed]
      exact .inr (.inr (by simp [after]))

theorem print_events (text : String) (console : Console) :
    ∃ refusal rest, (print text console).2 = console.after (⟨.write text, refusal⟩ :: rest) := by
  rcases print_cases text console with ⟨cause, -, printed⟩ | ⟨cause, -, -, printed⟩ | ⟨-, -, printed⟩
  · exact ⟨some cause, [], by rw [printed]⟩
  · exact ⟨none, _, by rw [printed]⟩
  · exact ⟨none, _, by rw [printed]⟩

/-- Texts are tried one after another. Each is written as a whole and flushed, and after a refusal
nothing more is tried. -/
inductive Tries : Console → List String → Console → Prop
  | nothing (console : Console) : Tries console [] console
  | unwritten {console : Console} {text : String} {cause : IoError} (texts : List String)
      (refused : console.refuses console.events (.write text) = some cause) :
      Tries console (text :: texts) (console.after [⟨.write text, some cause⟩])
  | unflushed {console : Console} {text : String} {cause : IoError} (texts : List String)
      (written : console.refuses console.events (.write text) = none)
      (refused : console.refuses (console.events ++ [⟨.write text, none⟩]) .flush = some cause) :
      Tries console (text :: texts) (console.after [⟨.write text, none⟩, ⟨.flush, some cause⟩])
  | taken {console last : Console} {text : String} {texts : List String}
      (written : console.refuses console.events (.write text) = none)
      (flushed : console.refuses (console.events ++ [⟨.write text, none⟩]) .flush = none)
      (later : Tries (console.after [⟨.write text, none⟩, ⟨.flush, none⟩]) texts last) :
      Tries console (text :: texts) last

def taking (texts : List String) : List ConsoleEvent :=
  texts.flatMap fun text => [⟨.write text, none⟩, ⟨.flush, none⟩]

theorem text_taking (texts : List String) :
    String.join ((taking texts).map ConsoleEvent.text) = String.join texts := by
  induction texts with
  | nil => rfl
  | cons text texts ih =>
    have split : taking (text :: texts) = ⟨.write text, none⟩ :: ⟨.flush, none⟩ :: taking texts := rfl
    simp [split, ConsoleEvent.text, String.join_cons, ih]

theorem Tries.text {console last : Console} {texts : List String} (tries : Tries console texts last) :
    ∃ taken, taken <+: texts ∧ last.text = console.text ++ String.join taken := by
  induction tries with
  | nothing console => exact ⟨[], List.prefix_rfl, by simp⟩
  | unwritten texts refused => exact ⟨[], List.nil_prefix, by simp [ConsoleEvent.text]⟩
  | @unflushed console text cause texts written refused =>
    exact ⟨[text], by simp, by simp [ConsoleEvent.text]⟩
  | @taken console last text texts written flushed later ih =>
    obtain ⟨taken, first, same⟩ := ih
    refine ⟨text :: taken, by simpa using first, ?_⟩
    simp [same, ConsoleEvent.text, String.join_cons, String.append_assoc]

def printAll : List String → Action Console IoError Unit
  | [] => pure ()
  | text :: texts => do
    print text
    printAll texts

def Writes (texts : List String) (console : Console) : Prop := (printAll texts console).1 = .ok ()

theorem writes_nil (console : Console) : Writes [] console := rfl

theorem printAll_of_ok {text : String} {console between : Console}
    (printed : print text console = (.ok (), between)) (texts : List String) :
    printAll (text :: texts) console = printAll texts between := by
  rw [printAll, Action.bind_apply, printed]

theorem printAll_of_error {text : String} {console after : Console} {cause : IoError}
    (refused : print text console = (.error cause, after)) (texts : List String) :
    printAll (text :: texts) console = (.error cause, after) := by
  rw [printAll, Action.bind_apply, refused]

theorem printAll_tries (texts : List String) (console : Console) :
    Tries console texts (printAll texts console).2 := by
  induction texts generalizing console with
  | nil => exact .nothing console
  | cons text texts ih =>
    rcases print_cases text console with
      ⟨cause, refused, printed⟩ | ⟨cause, written, refused, printed⟩ | ⟨written, flushed, printed⟩
    · rw [printAll_of_error printed]
      exact .unwritten texts refused
    · rw [printAll_of_error printed]
      exact .unflushed texts written refused
    · rw [printAll_of_ok printed]
      exact .taken written flushed (ih _)

theorem writes_iff (texts : List String) (console : Console) :
    console.Writes texts ↔ (printAll texts console).2 = console.after (taking texts) := by
  induction texts generalizing console with
  | nil => simp [writes_nil, printAll, after, taking]
  | cons text texts ih =>
    have split : taking (text :: texts) = ⟨.write text, none⟩ :: ⟨.flush, none⟩ :: taking texts := rfl
    rcases print_cases text console with
      ⟨cause, -, printed⟩ | ⟨cause, -, -, printed⟩ | ⟨-, -, printed⟩
    · simp [Writes, printAll_of_error printed, split, after_inj]
    · simp [Writes, printAll_of_error printed, split, after_inj]
    · rw [Writes, printAll_of_ok printed, ← Writes, ih, after_after]
      rfl

end BuildGate.Console
