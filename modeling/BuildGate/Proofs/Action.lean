import BuildGate.Action
import Mathlib.Order.Defs.Unbundled

set_option autoImplicit false

namespace BuildGate

namespace Action

variable {σ τ ε δ α β : Type}

@[simp] theorem step_apply (next : σ → α × σ) (state : σ) :
    (step next : Action σ ε α) state = (.ok (next state).1, (next state).2) := rfl

theorem bind_of_ok {first : Action σ ε α} {next : α → Action σ ε β} {state between : σ} {middle : α}
    (begun : first state = (.ok middle, between)) :
    (first >>= next) state = next middle between := by
  rw [bind_apply, begun]

theorem bind_of_error {first : Action σ ε α} {next : α → Action σ ε β} {state after : σ} {error : ε}
    (failed : first state = (.error error, after)) :
    (first >>= next) state = (.error error, after) := by
  rw [bind_apply, failed]

theorem bind_eq_ok {first : Action σ ε α} {next : α → Action σ ε β} {state after : σ} {value : β} :
    (first >>= next) state = (.ok value, after) ↔
      ∃ middle between, first state = (.ok middle, between) ∧
        next middle between = (.ok value, after) := by
  rw [bind_apply]
  rcases first state with ⟨result, between⟩
  cases result with
  | error error => simp
  | ok middle =>
    constructor
    · intro ended
      exact ⟨middle, between, rfl, ended⟩
    · rintro ⟨_, _, same, ended⟩
      cases same
      exact ended

theorem bind_eq_error {first : Action σ ε α} {next : α → Action σ ε β} {state after : σ}
    {error : ε} :
    (first >>= next) state = (.error error, after) ↔
      first state = (.error error, after) ∨
        ∃ middle between, first state = (.ok middle, between) ∧
          next middle between = (.error error, after) := by
  rw [bind_apply]
  rcases first state with ⟨result, between⟩
  cases result with
  | error other => simp
  | ok middle =>
    constructor
    · intro ended
      exact .inr ⟨middle, between, rfl, ended⟩
    · rintro (failed | ⟨_, _, same, ended⟩)
      · cases failed
      · cases same
        exact ended

theorem mapError_eq_ok {wrap : ε → δ} {action : Action σ ε α} {state after : σ} {value : α} :
    action.mapError wrap state = (.ok value, after) ↔ action state = (.ok value, after) := by
  unfold mapError
  rcases action state with ⟨_ | _, _⟩ <;> simp

theorem mapError_eq_error {wrap : ε → δ} {action : Action σ ε α} {state after : σ} {error : δ} :
    action.mapError wrap state = (.error error, after) ↔
      ∃ cause, action state = (.error cause, after) ∧ wrap cause = error := by
  unfold mapError
  rcases action state with ⟨cause | value, between⟩
  · constructor
    · rintro ⟨⟩
      exact ⟨cause, rfl, rfl⟩
    · rintro ⟨_, ⟨⟩, rfl⟩
      rfl
  · simp

theorem bind_pure_state (action : Action σ ε α) (value : α → β) (state : σ) :
    ((action >>= fun result => pure (value result)) state).2 = (action state).2 := by
  rw [bind_apply]
  rcases action state with ⟨_ | _, _⟩ <;> rfl

theorem bind_pure_apply (action : Action σ ε α) (value : α → β) (state : σ) :
    (action >>= fun result => pure (value result)) state =
      ((action state).1.map value, (action state).2) := by
  rw [bind_apply]
  rcases action state with ⟨_ | _, _⟩ <;> rfl

/-- However an action ends, the state it began with is related to the one it leaves behind. -/
def Leads (related : σ → σ → Prop) (action : Action σ ε α) : Prop :=
  ∀ state, related state (action state).2

namespace Leads

variable {related : σ → σ → Prop} [IsPreorder σ related]

theorem same {action : Action σ ε α} (idle : ∀ state, (action state).2 = state) :
    Leads related action := by
  intro state
  rw [idle]
  exact refl_of related state

theorem pure (value : α) : Leads related (pure value : Action σ ε α) := same fun _ => rfl

theorem fail (error : ε) : Leads related (fail error : Action σ ε α) := same fun _ => rfl

theorem ofExcept (result : Except ε α) : Leads related (ofExcept result : Action σ ε α) :=
  same fun _ => rfl

omit [IsPreorder σ related] in
theorem step {next : σ → α × σ} (leads : ∀ state, related state (next state).2) :
    Leads related (step next : Action σ ε α) := leads

theorem bind_next (first : Action σ ε α) {next : α → Action σ ε β}
    (after : ∀ value, Leads related (next value)) (state : σ) :
    related (first state).2 ((first >>= next) state).2 := by
  rw [bind_apply]
  cases first state with
  | mk result between =>
    cases result with
    | error error => exact refl_of related between
    | ok value => exact after value between

theorem bind {first : Action σ ε α} {next : α → Action σ ε β} (before : Leads related first)
    (after : ∀ value, Leads related (next value)) : Leads related (first >>= next) :=
  fun state => trans_of related (before state) (bind_next first after state)

omit [IsPreorder σ related] in
theorem mapError (wrap : ε → δ) {action : Action σ ε α} (leads : Leads related action) :
    Leads related (action.mapError wrap) := by
  intro state
  have kept := leads state
  unfold Action.mapError
  rcases ended : action state with ⟨_ | _, after⟩ <;> rwa [ended] at kept

end Leads

end Action

def Same {σ β : Type} (view : σ → β) (before after : σ) : Prop := view after = view before

instance {σ β : Type} (view : σ → β) : IsPreorder σ (Same view) where
  refl _ := rfl
  trans _ _ _ first second := second.trans first

end BuildGate
