import GroupUnify.Term.Printer
import GroupUnify.Term.Substitution

/-!
# Bindings as text

A binding is written `x -> 2y`, a substitution `[x -> 2y, y -> 0]`, and the absence of one
`no solution`. Two substitutions are equal if they bind the same names in the same order to equal
terms.
-/

namespace GroupUnify

namespace Binding

/-- The text of a binding. -/
def format (b : Binding) : Except Decimal.Error String := do
  return b.name ++ " -> " ++ (← b.term.format)

/-- The binding with its term in canonical order. -/
def canonical (b : Binding) : Binding := ⟨b.name, b.term.canonical⟩

end Binding

namespace Substitution

/-- The text of a substitution. -/
def format (s : Substitution) : Except Decimal.Error String := do
  return "[" ++ ", ".intercalate (← s.mapM Binding.format) ++ "]"

/-- The text of a substitution, or of its absence. -/
def formatAnswer : Option Substitution → Except Decimal.Error String
  | none => .ok "no solution"
  | some s => s.format

/-- The substitution with all terms in canonical order. -/
def canonical (s : Substitution) : Substitution := s.map Binding.canonical

end Substitution

end GroupUnify
