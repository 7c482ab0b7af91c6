import GroupUnify.Decimal
import GroupUnify.Json.Basic
import GroupUnify.Page
import GroupUnify.Text.Hex

/-!
# JSON as text

Each item of an array and each field of an object has a line of its own, indented by two spaces per
level; an empty array is `[]` and an empty object `{}`. Only ASCII characters are written: any other
character of a string is escaped by the code units of its UTF-16 form.

The text comes in pieces (`Json.pieces`), because an integer that has no decimal form ends the output
before the separator in front of it.
-/

namespace GroupUnify.Json

/-- The escape of one UTF-16 code unit. -/
def escapeUnit (u : Nat) : List Char := '\\' :: 'u' :: Text.hexDigits 4 u

/-- The characters that stand for `c` in a string. -/
def escape (c : Char) : List Char :=
  if c = '"' then ['\\', '"']
  else if c = '\\' then ['\\', '\\']
  else if c = '\n' then ['\\', 'n']
  else if c = '\r' then ['\\', 'r']
  else if c = '\t' then ['\\', 't']
  else if c = '\x08' then ['\\', 'b']
  else if c = '\x0c' then ['\\', 'f']
  else if ' ' ≤ c ∧ c ≤ '~' then [c]
  else if c.toNat < 0x10000 then escapeUnit c.toNat
  else
    escapeUnit (0xd800 + (c.toNat - 0x10000) / 0x400) ++
      escapeUnit (0xdc00 + (c.toNat - 0x10000) % 0x400)

/-- A string as JSON. -/
def quoted (s : String) : String := String.ofList ('"' :: s.toList.flatMap escape ++ ['"'])

/-- A line break, and the indentation of the line after it. -/
def lineBreak (level : Nat) : String := String.ofList ('\n' :: List.replicate (2 * level) ' ')

mutual

/-- The pieces of a value at an indentation level, after the text `lead`. -/
def pieces (level : Nat) (lead : String) : Json → Page Decimal.Error
  | .null => [.ok (lead ++ "null")]
  | .bool b => [.ok (lead ++ if b then "true" else "false")]
  | .integer n => [(Decimal.format n).map (lead ++ ·)]
  | .real literal => [.ok (lead ++ literal)]
  | .string s => [.ok (lead ++ quoted s)]
  | .array [] => [.ok (lead ++ "[]")]
  | .array (v :: vs) =>
    .ok lead :: pieces (level + 1) ("[" ++ lineBreak (level + 1)) v ++ itemPieces (level + 1) vs ++
      [.ok (lineBreak level ++ "]")]
  | .object [] => [.ok (lead ++ "\x7b\x7d")]
  | .object ((key, v) :: rest) =>
    .ok (lead ++ "\x7b" ++ lineBreak (level + 1) ++ quoted key ++ ": ") ::
      pieces (level + 1) "" v ++ fieldPieces (level + 1) rest ++ [.ok (lineBreak level ++ "\x7d")]

/-- The pieces of the items after the first one. -/
def itemPieces (level : Nat) : List Json → Page Decimal.Error
  | [] => []
  | v :: vs => pieces level ("," ++ lineBreak level) v ++ itemPieces level vs

/-- The pieces of the fields after the first one. -/
def fieldPieces (level : Nat) : List (String × Json) → Page Decimal.Error
  | [] => []
  | (key, v) :: rest =>
    .ok ("," ++ lineBreak level ++ quoted key ++ ": ") :: pieces level "" v ++
      fieldPieces level rest

end

/-- The text of a value as a page. -/
def page (v : Json) : Page Decimal.Error := pieces 0 "" v

end GroupUnify.Json
