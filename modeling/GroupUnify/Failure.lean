import GroupUnify.Diophantine.Solver
import GroupUnify.Expression.Reader

/-!
# Failures

What can go wrong on the way from a text to its answer, by the part that gives up.
-/

namespace GroupUnify

/-- Why an answer fails. -/
inductive Failure where
  | parse (cause : ParseError)
  | decimal (cause : Decimal.Error)
  | solver (cause : Diophantine.Error)
  /-- There is no register with this number. -/
  | register (a : Int)
deriving DecidableEq, Repr

/-- The wording of a failure. -/
def Failure.message : Failure → String
  | .parse cause => cause.message
  | .decimal cause => cause.message
  | .solver cause => cause.message
  | .register a => "no register " ++ toString a

/-- A piece of output that fails only for want of a decimal form. -/
def Failure.piece (text : Except Decimal.Error String) : Except Failure String :=
  text.mapError .decimal

end GroupUnify
