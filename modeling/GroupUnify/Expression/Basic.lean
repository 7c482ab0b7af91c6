import GroupUnify.Term.Basic

/-!
# Expressions

What a text says before it is summed up: an expression of names, the identity, sums, differences,
inverses and multiples. `Expression.toTerm` sums it up as a term; `Expression.coefficient` computes
the coefficient of one name over the integers, without terms.
-/

namespace GroupUnify

/-- An expression. -/
inductive Expression where
  | zero
  | name (x : String)
  | multiple (k : Nat) (e : Expression)
  | neg (e : Expression)
  | add (a b : Expression)
  | sub (a b : Expression)
deriving DecidableEq, Repr

namespace Expression

/-- The term that an expression stands for. -/
def toTerm : Expression → Term
  | .zero => 0
  | .name x => Term.var x
  | .multiple k e => Term.scale k e.toTerm
  | .neg e => -e.toTerm
  | .add a b => a.toTerm + b.toTerm
  | .sub a b => a.toTerm + -b.toTerm

/-- The coefficient of the name `y` in an expression. -/
def coefficient (y : String) : Expression → Int
  | .zero => 0
  | .name x => if x = y then 1 else 0
  | .multiple k e => k * e.coefficient y
  | .neg e => -e.coefficient y
  | .add a b => a.coefficient y + b.coefficient y
  | .sub a b => a.coefficient y - b.coefficient y

end Expression

end GroupUnify
