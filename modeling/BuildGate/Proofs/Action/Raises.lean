import BuildGate.Proofs.Action

set_option autoImplicit false

namespace BuildGate.Action

variable {σ τ ε δ α β : Type}

/-- Whatever state an action begins in, its error is one of these. -/
def Raises (may : ε → Prop) (action : Action σ ε α) : Prop :=
  ∀ state error, (action state).1 = .error error → may error

namespace Raises

variable {may : ε → Prop}

theorem pure (value : α) : Raises may (pure value : Action σ ε α) := by
  rintro state error ⟨⟩

theorem step (next : σ → α × σ) : Raises may (step next : Action σ ε α) := by
  rintro state error ⟨⟩

theorem fail {error : ε} (allowed : may error) : Raises may (fail error : Action σ ε α) := by
  rintro state _ ⟨⟩
  exact allowed

theorem ofExcept {result : Except ε α} (allowed : ∀ error, result = .error error → may error) :
    Raises may (ofExcept result : Action σ ε α) :=
  fun _ => allowed

-- The second part only ever goes on from where the first one succeeded.
theorem bind {first : Action σ ε α} {next : α → Action σ ε β} (early : Raises may first)
    (late : ∀ value before after, first before = (.ok value, after) → Raises may (next value)) :
    Raises may (first >>= next) := by
  intro state error failed
  rcases bind_eq_error.1 (Prod.ext failed rfl) with refused | ⟨value, between, begun, ended⟩
  · exact early state error (congrArg Prod.fst refused)
  · exact late value state between begun between error (congrArg Prod.fst ended)

theorem mapError {wrap : ε → δ} {may : δ → Prop} {action : Action σ ε α}
    (raises : Raises (fun error => may (wrap error)) action) :
    Raises may (action.mapError wrap) := by
  intro state error failed
  obtain ⟨cause, refused, rfl⟩ := mapError_eq_error.1 (Prod.ext failed rfl)
  exact raises state cause (congrArg Prod.fst refused)

theorem within {view : τ → σ} {update : σ → τ → τ} {action : Action σ ε α}
    (raises : Raises may action) : Raises may (action.within view update) :=
  fun whole => raises (view whole)

end Raises

end BuildGate.Action
