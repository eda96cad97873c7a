import BuildGate.Host
import BuildGate.Proofs.Action

set_option autoImplicit false

namespace BuildGate

structure Host.Ran (before after : Host) (call : Call) (response : Response) : Prop where
  answered : before.respond before.calls call = response
  logged : { before with calls := before.calls ++ [call] } = after

theorem Host.directoryAt_of_place {host : Host} {program : String} {arguments : List String}
    {directory : Path} {place : Place}
    (placed : host.place program arguments directory = .ok place) :
    host.disk.directoryAt directory = .ok place := by
  unfold Host.place at placed
  split at placed
  next => cases placed
  next =>
    split at placed
    next => cases placed
    next there =>
      split at placed
      next => cases placed
      next =>
        cases placed
        exact there

theorem Host.start_eq_ok {program : String} {arguments : List String} {directory : Path}
    {before after : Host} {response : Response} :
    start program arguments directory before = (.ok response, after) ↔
      ∃ place, before.place program arguments directory = .ok place ∧
        before.Ran after ⟨place, program, arguments⟩ response := by
  unfold start
  cases placed : before.place program arguments directory with
  | error cause => simp
  | ok place =>
    constructor
    · intro started
      obtain ⟨answered, logged⟩ := Prod.mk.inj started
      exact ⟨place, rfl, Except.ok.inj answered, logged⟩
    · rintro ⟨_, same, answered, logged⟩
      cases same
      exact Prod.ext (congrArg Except.ok answered) logged

theorem Host.start_eq_error {program : String} {arguments : List String} {directory : Path}
    {before after : Host} {cause : IoError}
    (refused : start program arguments directory before = (.error cause, after)) :
    after = before := by
  unfold start at refused
  split at refused
  next => exact (Prod.mk.inj refused).2.symm
  next => cases refused

theorem Host.not_ran_self {host : Host} {call : Call} {response : Response} :
    ¬ host.Ran host call response := by
  intro ran
  have more := congrArg (·.calls.length) ran.logged
  simp at more

theorem Host.Ran.response_eq {before after : Host} {call other : Call} {response answer : Response}
    (ran : before.Ran after call response) (again : before.Ran after other answer) :
    response = answer := by
  have logged := congrArg Host.calls (ran.logged.trans again.logged.symm)
  obtain rfl : call = other := by simpa using logged
  exact ran.answered.symm.trans again.answered

theorem Host.read_of_ran {ε α : Type} {program : String} {arguments : List String}
    {directory : Path} {wrap : IoError → ε} {check : Response → Except ε α} {before : Host}
    {call : Call} {response : Response} :
    let consult : Action Host ε α :=
      (start program arguments directory).mapError wrap >>= fun response =>
        .ofExcept (check response)
    before.Ran (consult before).2 call response → (consult before).1 = check response := by
  intro consult ran
  simp only [consult, Action.bind_apply, Action.mapError] at ran ⊢
  cases started : start program arguments directory before with
  | mk result after =>
    rw [started] at ran
    cases result with
    | error cause => exact absurd (start_eq_error started ▸ ran) not_ran_self
    | ok answer =>
      obtain ⟨place, -, process⟩ := start_eq_ok.1 started
      rw [ran.response_eq process]
      rfl

def Host.Started (each : Disk → Call → Prop) (before after : Host) : Prop :=
  ∃ calls, { before with calls := before.calls ++ calls } = after ∧
    ∀ call ∈ calls, each before.disk call

namespace Host.Started

variable {each : Disk → Call → Prop}

theorem of_ran {before after : Host} {call : Call} {response : Response}
    (ran : before.Ran after call response) (kept : each before.disk call) :
    before.Started each after :=
  ⟨[call], ran.logged, by simpa using kept⟩

instance : IsPreorder Host (Started each) where
  refl host := ⟨[], by rw [List.append_nil], by simp⟩
  trans := by
    rintro before _ _ ⟨early, rfl, former⟩ ⟨late, rfl, latter⟩
    refine ⟨early ++ late, by rw [List.append_assoc], ?_⟩
    intro call started
    rcases List.mem_append.1 started with sooner | later
    · exact former call sooner
    · exact latter call later

theorem disk_eq {before after : Host} (started : before.Started each after) :
    Same Host.disk before after := by
  obtain ⟨calls, rfl, -⟩ := started
  rfl

end Host.Started

theorem Host.start_starts {each : Disk → Call → Prop} {program : String} {arguments : List String}
    {directory : Path} (kept : ∀ disk place, disk.directoryAt directory = .ok place →
      each disk ⟨place, program, arguments⟩) :
    (start program arguments directory).Leads (Started each) := by
  intro host
  cases started : start program arguments directory host with
  | mk result after =>
    cases result with
    | error cause =>
      rw [start_eq_error started]
      exact refl_of _ host
    | ok response =>
      obtain ⟨place, placed, ran⟩ := start_eq_ok.1 started
      exact .of_ran ran (kept host.disk place (directoryAt_of_place placed))

end BuildGate
