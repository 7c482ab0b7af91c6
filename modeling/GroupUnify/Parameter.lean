import GroupUnify.Decimal

/-!
# Names of parameters

A general solution has parameters, named `g0, g1, …` by the index of the unknown they stand for.
The letter `g` is reserved: no name that is read from text starts with it.
-/

namespace GroupUnify.Parameter

/-- The letter that starts the name of every parameter. -/
def initial : Char := 'g'

/-- The name of the parameter with index `j`. -/
def name (j : Nat) : String := String.singleton initial ++ toString j

/-- The name with any number after the letter, if that has a decimal form. -/
def format (i : Int) : Except Decimal.Error String :=
  (Decimal.format i).map (String.singleton initial ++ ·)

/-- Does the name belong to the parameters? -/
def isReserved (x : String) : Bool := x.toList.head? == some initial

end GroupUnify.Parameter
