import GroupUnify.Text.Ranges

/-!
# Blank characters

A blank separates tokens and is trimmed from the ends of a line: the white space of Unicode 14
and the four information separators U+001C to U+001F.
-/

namespace GroupUnify.Text

/-- The code points of blanks. -/
def blankRanges : Ranges where
  ranges :=
    [(0x9, 0xd), (0x1c, 0x20), (0x85, 0x85), (0xa0, 0xa0), (0x1680, 0x1680), (0x2000, 0x200a),
      (0x2028, 0x2029), (0x202f, 0x202f), (0x205f, 0x205f), (0x3000, 0x3000)]
  increasing := by decide +kernel

/-- Is `c` a blank? -/
def isBlank (c : Char) : Bool := blankRanges.contains c.toNat

/-- A line without the blanks at its two ends. -/
def trim (s : String) : String :=
  String.ofList ((s.toList.dropWhile isBlank).reverse.dropWhile isBlank).reverse

end GroupUnify.Text
