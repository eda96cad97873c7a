import BuildGate.Action

set_option autoImplicit false

namespace BuildGate

variable {σ τ ε δ α β : Type}

/-- From related states both answer the same, and the states they leave behind are related. -/
def InStep (related : σ → τ → Prop) (one : σ → α × σ) (other : τ → α × τ) : Prop :=
  ∀ state mate, related state mate →
    (one state).1 = (other mate).1 ∧ related (one state).2 (other mate).2

namespace InStep

variable {related : σ → τ → Prop}

theorem refl (next : σ → α × σ) : InStep Eq next next := by
  rintro state _ rfl
  exact ⟨rfl, rfl⟩

theorem pure (value : α) :
    InStep related (pure value : Action σ ε α) (pure value : Action τ ε α) :=
  fun _ _ alike => ⟨rfl, alike⟩

theorem fail (error : ε) :
    InStep related (.fail error : Action σ ε α) (.fail error : Action τ ε α) :=
  fun _ _ alike => ⟨rfl, alike⟩

theorem step {one : σ → α × σ} {other : τ → α × τ} (next : InStep related one other) :
    InStep related (.step one : Action σ ε α) (.step other : Action τ ε α) := by
  intro state mate alike
  obtain ⟨value, after⟩ := next state mate alike
  exact ⟨congrArg Except.ok value, after⟩

theorem bind {one : Action σ ε α} {other : Action τ ε α} {next : α → Action σ ε β}
    {later : α → Action τ ε β} (first : InStep related one other)
    (second : ∀ value, InStep related (next value) (later value)) :
    InStep related (one >>= next) (other >>= later) := by
  intro state mate alike
  obtain ⟨ends, after⟩ := first state mate alike
  rw [Action.bind_apply, Action.bind_apply]
  revert ends after
  rcases one state with ⟨result, between⟩
  rcases other mate with ⟨_, behind⟩
  rintro rfl after
  cases result with
  | error error => exact ⟨rfl, after⟩
  | ok value => exact second value between behind after

theorem mapError (wrap : ε → δ) {one : Action σ ε α} {other : Action τ ε α}
    (steps : InStep related one other) :
    InStep related (one.mapError wrap) (other.mapError wrap) := by
  intro state mate alike
  obtain ⟨ends, after⟩ := steps state mate alike
  unfold Action.mapError
  revert ends after
  rcases one state with ⟨result, between⟩
  rcases other mate with ⟨_, behind⟩
  rintro rfl after
  cases result <;> exact ⟨rfl, after⟩

theorem within {φ ψ : Type} {parts : φ → ψ → Prop} {view : σ → φ} {sight : τ → ψ}
    {update : φ → σ → σ} {renew : ψ → τ → τ}
    (seen : ∀ state mate, related state mate → parts (view state) (sight mate))
    (updated : ∀ state mate part piece, related state mate → parts part piece →
      related (update part state) (renew piece mate))
    {one : Action φ ε α} {other : Action ψ ε α} (steps : InStep parts one other) :
    InStep related (one.within view update) (other.within sight renew) := by
  intro state mate alike
  obtain ⟨ends, after⟩ := steps _ _ (seen state mate alike)
  exact ⟨ends, updated state mate _ _ alike after⟩

end InStep

end BuildGate
