/-!
# Decimal numbers of bounded length

Numbers are written in base ten and read from digits. Neither direction goes beyond `digitLimit`
digits: a longer number is a cause of failure of its own (`Decimal.Error`), never a text cut short.
A minus sign does not count, leading zeros do.

* `format`: the decimal form of an integer, when it fits.
* `value`: the number that a list of digits stands for.
-/

namespace GroupUnify.Decimal

/-- The greatest number of digits that is read or written. -/
def digitLimit : Nat := 4300

/-- Why a number has no decimal form here. -/
inductive Error where
  /-- The number to be written has more than `digitLimit` digits. -/
  | unwritable
  /-- The number to be read has the given number of digits, more than `digitLimit`. -/
  | unreadable (digits : Nat)
deriving DecidableEq, Repr

/-- The wording of a cause. -/
def Error.message : Error → String
  | .unwritable =>
    s!"Exceeds the limit ({digitLimit} digits) for integer string conversion; " ++
      "use sys.set_int_max_str_digits() to increase the limit"
  | .unreadable digits =>
    s!"Exceeds the limit ({digitLimit} digits) for integer string conversion: " ++
      s!"value has {digits} digits; use sys.set_int_max_str_digits() to increase the limit"

/-- Does `n` have at most `digitLimit` digits? -/
def Fits (n : Int) : Prop := n.natAbs < Nat.pow 10 digitLimit

instance (n : Int) : Decidable (Fits n) := inferInstanceAs (Decidable (_ < _))

/-- The decimal form of `n`. -/
def format (n : Int) : Except Error String :=
  if Fits n then .ok (toString n) else .error .unwritable

/-- The numbers `ns` between brackets, with `", "` between them. -/
def formatList (ns : List Int) : Except Error String := do
  return "[" ++ ", ".intercalate (← ns.mapM format) ++ "]"

/-- Is `c` one of the ten ASCII digits? -/
def isDigit (c : Char) : Bool := decide ('0' ≤ c) && decide (c ≤ '9')

/-- The number that the digits `ds` stand for. -/
def value (ds : List Char) : Nat := Nat.ofDigitChars 10 ds 0

end GroupUnify.Decimal
