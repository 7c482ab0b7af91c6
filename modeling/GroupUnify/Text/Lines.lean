/-!
# Lines

A line ends with a line feed, a carriage return, or both in this order. What follows the last line end
is a line too, unless it is empty.
-/

namespace GroupUnify.Text

/-- The lines of a text, without their ends; `line` is the part of the first one read so far, from
its last character to its first. -/
def splitLines (line : List Char) : List Char → List String
  | [] => if line = [] then [] else [String.ofList line.reverse]
  | '\r' :: '\n' :: rest => String.ofList line.reverse :: splitLines [] rest
  | c :: rest =>
    if c = '\n' ∨ c = '\r' then String.ofList line.reverse :: splitLines [] rest
    else splitLines (c :: line) rest

/-- The lines of a text, without their ends. -/
def lines (s : String) : List String := splitLines [] s.toList

end GroupUnify.Text
