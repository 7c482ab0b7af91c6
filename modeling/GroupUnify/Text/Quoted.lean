import GroupUnify.Text.Hex
import GroupUnify.Text.Printable

/-!
# Quoted text

Messages show a piece of input between quotation marks. The mark is `'`, unless the text holds `'`
and no `"`. The mark and the backslash are escaped by a backslash; line feed, carriage return and
tab have letters; any other unprintable character is written by its code point in two, four or
eight hexadecimal digits, whichever is the first that fits.
-/

namespace GroupUnify.Text

/-- The quotation mark around `s`. -/
def quotationMark (s : List Char) : Char :=
  if s.contains '\'' && !s.contains '"' then '"' else '\''

/-- The characters that stand for `c` between two `mark`s. -/
def escape (mark c : Char) : List Char :=
  if c = '\\' ∨ c = mark then ['\\', c]
  else if c = '\n' then ['\\', 'n']
  else if c = '\r' then ['\\', 'r']
  else if c = '\t' then ['\\', 't']
  else if isPrintable c then [c]
  else if c.toNat < 0x100 then '\\' :: 'x' :: hexDigits 2 c.toNat
  else if c.toNat < 0x10000 then '\\' :: 'u' :: hexDigits 4 c.toNat
  else '\\' :: 'U' :: hexDigits 8 c.toNat

/-- The text `s` between quotation marks. -/
def quoted (s : String) : String :=
  let mark := quotationMark s.toList
  String.ofList (mark :: s.toList.flatMap (escape mark) ++ [mark])

end GroupUnify.Text
