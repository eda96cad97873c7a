import BuildGate.Proofs.Host
import Mathlib.Data.List.Basic

set_option autoImplicit false

namespace BuildGate.Host

variable {ε α β : Type}

def logged (host : Host) (calls : List Call) : Host := { host with calls := host.calls ++ calls }

@[simp] theorem logged_nil (host : Host) : host.logged [] = host := by
  rw [logged, List.append_nil]

@[simp] theorem logged_logged (host : Host) (calls more : List Call) :
    (host.logged calls).logged more = host.logged (calls ++ more) := by
  simp only [logged, List.append_assoc]

def callOf (host : Host) (command arguments : List String) (directory : Path) : Call where
  directory := (host.disk.directoryAt directory).toOption.getD []
  program := command.headD ""
  arguments := command.tail ++ arguments

def Forgets (host : Host) (call : Call) : Prop := ∀ log, host.respond log call = host.respond [] call

structure Consults (host : Host) (command arguments : List String) (directory : Path)
    (check : Response → Except ε α) (value : α) : Prop where
  named : command ≠ []
  placed : host.place (host.callOf command arguments directory).program
    (host.callOf command arguments directory).arguments directory =
      .ok (host.callOf command arguments directory).directory
  checked : check (host.respond [] (host.callOf command arguments directory)) = .ok value

variable {host before after : Host} {command arguments others : List String} {directory : Path}

theorem consult_eq_ok {wrap : IoError → ε} {check : Response → Except ε α} {value : α}
    {program : String} {own : List String}
    (forgets : before.Forgets (before.callOf (program :: own) arguments directory)) :
    ((start program (own ++ arguments) directory).mapError wrap >>= fun response =>
        Action.ofExcept (check response)) before = (.ok value, after) ↔
      before.Consults (program :: own) arguments directory check value ∧
        after = before.logged [before.callOf (program :: own) arguments directory] := by
  have placed_at {place : Place}
      (placed : before.place program (own ++ arguments) directory = .ok place) :
      before.callOf (program :: own) arguments directory = ⟨place, program, own ++ arguments⟩ := by
    rw [callOf, directoryAt_of_place placed]
    rfl
  simp only [Action.bind_eq_ok, Action.mapError_eq_ok, start_eq_ok, Action.ofExcept_apply]
  constructor
  · rintro ⟨response, between, ⟨place, placed, answered, rfl⟩, done⟩
    obtain ⟨checked, rfl⟩ := Prod.mk.inj done
    have call := placed_at placed
    rw [call] at forgets
    refine ⟨⟨List.cons_ne_nil _ _, by rw [call]; exact placed, ?_⟩, by rw [call]; rfl⟩
    rw [call, ← forgets before.calls, answered, checked]
  · rintro ⟨⟨-, placed, checked⟩, rfl⟩
    refine ⟨_, _, ⟨_, placed, rfl, rfl⟩, ?_⟩
    rw [← forgets before.calls] at checked
    exact Prod.ext checked rfl

theorem consults_logged {calls : List Call} {check : Response → Except ε α} {value : α} :
    (host.logged calls).Consults command arguments directory check value ↔
      host.Consults command arguments directory check value :=
  ⟨fun consults => ⟨consults.named, consults.placed, consults.checked⟩,
    fun consults => ⟨consults.named, consults.placed, consults.checked⟩⟩

theorem Consults.transport {check : Response → Except ε α} {value : α}
    (consults : host.Consults command arguments directory check value)
    (nul : others.any holdsNul = arguments.any holdsNul) {recheck : Response → Except ε β}
    {other : β} (rechecked : recheck (host.respond [] (host.callOf command others directory)) =
      .ok other) :
    host.Consults command others directory recheck other := by
  refine ⟨consults.named, ?_, rechecked⟩
  have placed := consults.placed
  simp only [place, callOf, List.any_cons, List.any_append, nul] at placed ⊢
  exact placed

end BuildGate.Host
