import GroupUnify.Equation
import GroupUnify.Term.Binding

/-!
# Reports

A report holds what is known about one line of input: its text, the equation if it could be read, a
unifier and a matcher if there are any, and what went wrong.
-/

namespace GroupUnify

/-- The outcome of one line of input. -/
structure Report where
  source : String
  equation : Option Equation := none
  unifier : Option Substitution := none
  matcher : Option Substitution := none
  error : String := ""
deriving DecidableEq, Repr

namespace Report

/-- Was the line read, and solved without error? -/
def ok (r : Report) : Bool := r.equation.isSome && r.error.isEmpty

/-- The report with all terms in canonical order. -/
def canonical (r : Report) : Report :=
  { r with
    equation := r.equation.map Equation.canonical
    unifier := r.unifier.map Substitution.canonical
    matcher := r.matcher.map Substitution.canonical }

/-- Reports are equal if they say the same with equal terms. -/
instance : Setoid Report where
  r a b := a.canonical = b.canonical
  iseqv := ⟨fun _ => rfl, Eq.symm, Eq.trans⟩

instance (a b : Report) : Decidable (a ≈ b) := inferInstanceAs (Decidable (a.canonical = b.canonical))

/-- Are two lists of reports equal, one by one? -/
def same (as bs : List Report) : Bool := as.map canonical == bs.map canonical

end Report

end GroupUnify
