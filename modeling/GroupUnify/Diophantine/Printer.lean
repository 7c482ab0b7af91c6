import GroupUnify.Failure
import GroupUnify.Page

/-!
# Rounds as text

Each round of a run has a line with its number, action, pivot and equations.
-/

namespace GroupUnify.Diophantine

/-- The line of a round. -/
def Round.format (r : Round) : Except Decimal.Error String := do
  let pivot ← Decimal.format r.pivot.value
  let c ← Decimal.formatList r.coefficients
  let d ← Decimal.formatList r.constants
  return s!"  round {r.number}: [{r.action.name}] x{r.pivot.index} pivot={pivot} c={c} d={d}\n"

/-- The lines of rounds as a page. -/
def Round.page (rounds : List Round) : Page Failure :=
  rounds.map fun r => Failure.piece r.format

/-- The rounds up to the first one whose line cannot be written, that one included: those that were
begun when printing stops. -/
def Round.begun : List Round → List Round
  | [] => []
  | r :: rest =>
    match r.format with
    | .ok _ => r :: begun rest
    | .error _ => [r]

end GroupUnify.Diophantine
