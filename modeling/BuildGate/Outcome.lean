import BuildGate.Error
import BuildGate.Finding.Kind

set_option autoImplicit false

namespace BuildGate

inductive Outcome
  | fatal (kind : Kind)
  | quit
  | finished
  | keepAlive
deriving DecidableEq, Repr

namespace Outcome

def fatalOrder : List Kind := [.global, .options, .semantic, .lint, .syntactic]

-- The first fatal kind decides, then `quit`, then `finished`.
def decide (throws : Flags) (quit finished : Bool) (totals : Totals) : Outcome :=
  match fatalOrder.find? fun kind => throws.get kind && 0 < totals.get kind with
  | some kind => fatal kind
  | none => if quit then .quit else if finished then .finished else keepAlive

def footer? : Outcome → Option String
  | fatal _ => none
  | quit | finished => some "Quitting typechecker"
  | keepAlive => some "Keeping typechecker alive"

end Outcome

structure Verdict where
  outcome : Outcome
  total : Nat
deriving DecidableEq, Repr

end BuildGate
