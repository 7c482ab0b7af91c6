import GroupUnify.Equation
import GroupUnify.Failure
import GroupUnify.Term.Binding
import GroupUnify.Unification

/-!
# Instances of a unifier

Every unifier of an equation is an instance of the most general one. `Instance.ofTexts` reads an
equation and the terms for some parameters, and applies these to the unifier.
-/

namespace GroupUnify

/-- An instance of the most general unifier of an equation, with its texts. -/
structure Instance where
  substitution : Substitution
  /-- The text of the most general unifier. -/
  unifier : String
  /-- The text of the instance. -/
  text : String
  /-- The text of the left side under the instance. -/
  left : String
  /-- The text of the right side under the instance. -/
  right : String
  /-- Does the instance make both sides equal? -/
  unifies : Bool

namespace Instance

/-- Reads the term of a binding. -/
def binding [CallStack] (b : String × String) : Except Failure Binding := do
  return ⟨b.1, ← (Term.parse b.2).mapError .parse⟩

/-- The instance of the unifier of the equation `text`, or `none` if it has no unifier. -/
def ofTexts [CallStack] (text : String) (terms : List (String × String)) :
    Except Failure (Option Instance) := do
  let e ← (Equation.parse text).mapError .parse
  match ← (findUnifier e.left e.right).answer.mapError .solver with
  | none => return none
  | some unifier =>
    let parameters : Substitution ← terms.mapM binding
    let s := unifier.instantiate parameters
    let general ← unifier.format.mapError .decimal
    let written ← s.format.mapError .decimal
    let left ← (s.apply e.left).format.mapError .decimal
    let right ← (s.apply e.right).format.mapError .decimal
    return some ⟨s, general, written, left, right, decide (s.Unifies e.left e.right)⟩

end Instance

end GroupUnify
