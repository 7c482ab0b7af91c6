import GroupUnify.Decimal
import GroupUnify.Text.Blank
import GroupUnify.Text.Letter
import GroupUnify.Text.Numeric

/-!
# Tokens

Text is split into identifiers, numbers and single characters; blanks only separate. An identifier
is a letter with all letters and numeric characters that follow it, a number is a run of ASCII
digits, and every other character is a token of its own.
-/

namespace GroupUnify

/-- A token. -/
inductive Token where
  | identifier (name : String)
  | number (digits : List Char)
  | symbol (c : Char)
deriving DecidableEq, Repr

namespace Token

/-- The characters of a token. -/
def text : Token → String
  | .identifier x => x
  | .number digits => String.ofList digits
  | .symbol c => String.singleton c

/-- May `c` follow the first letter of an identifier? -/
def isWordCharacter (c : Char) : Bool := Text.isLetter c || Text.isNumeric c

/-- The tokens of a text, each as long as possible. -/
def scan : List Char → List Token
  | [] => []
  | c :: cs =>
    if Text.isBlank c then scan cs
    else if Text.isLetter c then
      .identifier (String.ofList (c :: cs.takeWhile isWordCharacter)) ::
        scan (cs.dropWhile isWordCharacter)
    else if Decimal.isDigit c then
      .number (c :: cs.takeWhile Decimal.isDigit) :: scan (cs.dropWhile Decimal.isDigit)
    else .symbol c :: scan cs
termination_by cs => cs.length
decreasing_by
  · exact Nat.lt_succ_self _
  · exact Nat.lt_succ_of_le (List.dropWhile_suffix _).length_le
  · exact Nat.lt_succ_of_le (List.dropWhile_suffix _).length_le
  · exact Nat.lt_succ_self _

/-- The tokens of a string. -/
def ofString (s : String) : List Token := scan s.toList

end Token

end GroupUnify
