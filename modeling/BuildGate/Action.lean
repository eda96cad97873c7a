
set_option autoImplicit false

namespace BuildGate

def Action (σ ε α : Type) : Type := σ → Except ε α × σ

namespace Action

variable {σ τ ε δ α β : Type}

def done (value : α) : Action σ ε α := fun state => (.ok value, state)

def fail (error : ε) : Action σ ε α := fun state => (.error error, state)

def andThen (first : Action σ ε α) (next : α → Action σ ε β) : Action σ ε β := fun state =>
  match first state with
  | (.ok value, state) => next value state
  | (.error error, state) => (.error error, state)

instance : Monad (Action σ ε) where
  pure := done
  bind := andThen

@[simp] theorem pure_apply (value : α) (state : σ) :
    (pure value : Action σ ε α) state = (.ok value, state) := rfl

@[simp] theorem done_apply (value : α) (state : σ) :
    (done value : Action σ ε α) state = (.ok value, state) := rfl

@[simp] theorem fail_apply (error : ε) (state : σ) :
    (fail error : Action σ ε α) state = (.error error, state) := rfl

theorem bind_apply (first : Action σ ε α) (next : α → Action σ ε β) (state : σ) :
    (first >>= next) state =
      match first state with
      | (.ok value, state) => next value state
      | (.error error, state) => (.error error, state) := rfl

def ofExcept (result : Except ε α) : Action σ ε α := fun state => (result, state)

def look (view : σ → α) : Action σ ε α := fun state => (.ok (view state), state)

def change (step : σ → σ) : Action σ ε Unit := fun state => (.ok (), step state)

def step (step : σ → α × σ) : Action σ ε α := fun state =>
  let (value, state) := step state
  (.ok value, state)

@[simp] theorem ofExcept_apply (result : Except ε α) (state : σ) :
    (ofExcept result : Action σ ε α) state = (result, state) := rfl

@[simp] theorem look_apply (view : σ → α) (state : σ) :
    (look view : Action σ ε α) state = (.ok (view state), state) := rfl

@[simp] theorem change_apply (step : σ → σ) (state : σ) :
    (change step : Action σ ε Unit) state = (.ok (), step state) := rfl

def mapError (wrap : ε → δ) (action : Action σ ε α) : Action σ δ α := fun state =>
  match action state with
  | (.ok value, state) => (.ok value, state)
  | (.error error, state) => (.error (wrap error), state)

def within (view : τ → σ) (update : σ → τ → τ) (action : Action σ ε α) : Action τ ε α :=
  fun state =>
    let (result, part) := action (view state)
    (result, update part state)

end Action

end BuildGate
