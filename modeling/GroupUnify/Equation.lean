import GroupUnify.Expression.Reader
import GroupUnify.Term.Printer
import GroupUnify.Term.Substitution

/-!
# Equations

A problem is an equation between two terms. It is read from a text `left = right` and written with
both sides in canonical order.
-/

namespace GroupUnify

/-- A problem: two terms to be made equal. -/
structure Equation where
  left : Term
  right : Term
deriving DecidableEq, Repr

namespace Equation

/-- The equation that a text describes. -/
def parse [CallStack] (text : String) : Except ParseError Equation :=
  (Expression.pairOfTokens (Token.ofString text)).map fun (a, b) => ⟨a.toTerm, b.toTerm⟩

/-- Both sides in canonical order. -/
def canonical (e : Equation) : Equation := ⟨e.left.canonical, e.right.canonical⟩

/-- The text of an equation. -/
def format (e : Equation) : Except Decimal.Error String := do
  return (← e.left.format) ++ " = " ++ (← e.right.format)

/-- Equations with equal left and equal right sides are equal. -/
instance : Setoid Equation where
  r a b := a.left ≈ b.left ∧ a.right ≈ b.right
  iseqv := ⟨fun _ => ⟨Setoid.refl _, Setoid.refl _⟩, fun h => ⟨Setoid.symm h.1, Setoid.symm h.2⟩,
    fun h h' => ⟨Setoid.trans h.1 h'.1, Setoid.trans h.2 h'.2⟩⟩

instance (a b : Equation) : Decidable (a ≈ b) := inferInstanceAs (Decidable (_ ∧ _))

end Equation

end GroupUnify
