import GroupUnify.Decimal
import GroupUnify.Json.Basic
import GroupUnify.Text.Hex

/-!
# Reading JSON

Blanks are space, tab, line feed and carriage return. Strings hold no raw control characters. Beyond
the standard, the words `NaN`, `Infinity` and `-Infinity` are numbers. Half of a surrogate pair stands
for the replacement character. Arrays and objects may stand in each other up to `nestingLimit` levels.
Readers take a value off the front of the text and return what is left.
-/

namespace GroupUnify.Json

/-- What has values in it. -/
inductive Container where
  | array
  | object
deriving DecidableEq, Repr

/-- The word for a kind of container. -/
def Container.name : Container → String
  | .array => "array"
  | .object => "object"

/-- Why a text is not read. -/
inductive ReadError where
  /-- The text is not JSON. -/
  | malformed
  /-- A container opens within too many others. -/
  | tooDeep (inner : Container)
  /-- An integer is beyond the limit on digits. -/
  | number (cause : Decimal.Error)
deriving DecidableEq, Repr

/-- The wording of a reason. -/
def ReadError.message : ReadError → String
  | .malformed => "the text is not JSON"
  | .tooDeep inner =>
    "maximum recursion depth exceeded while decoding a JSON " ++ inner.name ++
      " from a unicode string"
  | .number cause => cause.message

/-- The greatest number of containers that are open at once. -/
def nestingLimit : Nat := 990

/-- Is `c` a blank between tokens? -/
def isBlank (c : Char) : Bool := c == ' ' || c == '\t' || c == '\n' || c == '\r'

/-- The text from the first character on that is not a blank. -/
def skipBlanks (cs : List Char) : List Char := cs.dropWhile isBlank

/-! ### Numbers -/

/-- The fraction at the front of the text, and the rest. -/
def takeFraction : List Char → List Char × List Char
  | '.' :: cs =>
    match cs.takeWhile Decimal.isDigit with
    | [] => ([], '.' :: cs)
    | ds => ('.' :: ds, cs.dropWhile Decimal.isDigit)
  | cs => ([], cs)

/-- The sign at the front of the text, and the rest. -/
def takeSign : List Char → List Char × List Char
  | '+' :: cs => (['+'], cs)
  | '-' :: cs => (['-'], cs)
  | cs => ([], cs)

/-- The exponent at the front of the text, and the rest. -/
def takeExponent : List Char → List Char × List Char
  | [] => ([], [])
  | c :: cs =>
    if c = 'e' ∨ c = 'E' then
      let (sign, rest) := takeSign cs
      match rest.takeWhile Decimal.isDigit with
      | [] => ([], c :: cs)
      | ds => (c :: sign ++ ds, rest.dropWhile Decimal.isDigit)
    else ([], c :: cs)

/-- The digits of the whole part of a number, and the rest: a zero stands alone. -/
def takeWhole : List Char → List Char × List Char
  | '0' :: cs => (['0'], cs)
  | cs => (cs.takeWhile Decimal.isDigit, cs.dropWhile Decimal.isDigit)

/-- The integer with these digits. -/
def integerOf (negative : Bool) (digits : List Char) : Except ReadError Json :=
  if Decimal.digitLimit < digits.length then .error (.number (.unreadable digits.length))
  else
    let n : Int := Decimal.value digits
    .ok (.integer (if negative then -n else n))

/-- Reads a number whose sign has been read. -/
def readNumber (negative : Bool) (cs : List Char) : Except ReadError (Json × List Char) :=
  let (whole, rest) := takeWhole cs
  if whole = [] then .error .malformed
  else
    let (fraction, rest) := takeFraction rest
    let (exponent, rest) := takeExponent rest
    if fraction = [] ∧ exponent = [] then do
      return (← integerOf negative whole, rest)
    else
      let sign := if negative then ['-'] else []
      .ok (.real (String.ofList (sign ++ whole ++ fraction ++ exponent)), rest)

/-! ### Strings -/

/-- The character that a letter after a backslash stands for. -/
def escapedLetter? (c : Char) : Option Char :=
  match c with
  | '"' => some '"'
  | '\\' => some '\\'
  | '/' => some '/'
  | 'b' => some '\x08'
  | 'f' => some '\x0c'
  | 'n' => some '\n'
  | 'r' => some '\r'
  | 't' => some '\t'
  | _ => none

/-- Reads four hexadecimal digits. -/
def readUnit : List Char → Except ReadError (Nat × List Char)
  | a :: b :: c :: d :: cs =>
    match Text.hexValue? 0 [a, b, c, d] with
    | some u => .ok (u, cs)
    | none => .error .malformed
  | _ => .error .malformed

/-- Reads a second half of a surrogate pair, if one follows. -/
def readLowHalf? : List Char → Option (Nat × List Char)
  | '\\' :: 'u' :: cs =>
    match readUnit cs with
    | .ok (u, rest) => if 0xdc00 ≤ u ∧ u ≤ 0xdfff then some (u, rest) else none
    | .error _ => none
  | _ => none

/-- Reads the character of an escape after its backslash and `u`. -/
def readEscapedUnit (cs : List Char) : Except ReadError (Char × List Char) := do
  let (u, rest) ← readUnit cs
  if 0xd800 ≤ u ∧ u ≤ 0xdbff then
    match readLowHalf? rest with
    | some (v, rest) => return (Char.ofNat (0x10000 + (u - 0xd800) * 0x400 + (v - 0xdc00)), rest)
    | none => return ('\ufffd', rest)
  else if 0xdc00 ≤ u ∧ u ≤ 0xdfff then return ('\ufffd', rest)
  else return (Char.ofNat u, rest)

/-- The text up to the mark that closes a string, and the text after it. A character after a
backslash does not close the string. -/
def splitString : List Char → Except ReadError (List Char × List Char)
  | [] => .error .malformed
  | c :: cs =>
    if c = '"' then .ok ([], cs)
    else if c = '\\' then
      match cs with
      | [] => .error .malformed
      | d :: cs => do
        let (body, rest) ← splitString cs
        return (c :: d :: body, rest)
    else do
      let (body, rest) ← splitString cs
      return (c :: body, rest)

/-- The characters that the text between the marks stands for; there are no more of them than
characters in the text. -/
def unescape : Nat → List Char → Except ReadError (List Char)
  | _, [] => .ok []
  | 0, _ => .error .malformed
  | fuel + 1, c :: cs =>
    if c = '\\' then
      match cs with
      | 'u' :: cs => do
        let (d, cs) ← readEscapedUnit cs
        return d :: (← unescape fuel cs)
      | l :: cs =>
        match escapedLetter? l with
        | some d => do return d :: (← unescape fuel cs)
        | none => .error .malformed
      | [] => .error .malformed
    else if c < ' ' then .error .malformed
    else do return c :: (← unescape fuel cs)

/-- Reads a string after its opening mark. -/
def readString (cs : List Char) : Except ReadError (String × List Char) := do
  let (body, rest) ← splitString cs
  return (String.ofList (← unescape body.length body), rest)

/-! ### Values -/

/-- Reads the word `word` as the value `v`. -/
def readWord (word : String) (v : Json) (cs : List Char) : Except ReadError (Json × List Char) :=
  if word.toList.isPrefixOf cs then .ok (v, cs.drop word.length) else .error .malformed

mutual

/-- Reads a value that starts with the first character; `depth` more containers may open. -/
def readValue (depth : Nat) : Nat → List Char → Except ReadError (Json × List Char)
  | 0, _ => .error .malformed
  | _ + 1, [] => .error .malformed
  | fuel + 1, c :: cs =>
    if c = '"' then do
      let (s, rest) ← readString cs
      return (.string s, rest)
    else if c = '[' then
      if depth = 0 then .error (.tooDeep .array)
      else
        match skipBlanks cs with
        | ']' :: rest => .ok (.array [], rest)
        | cs => do
          let (items, rest) ← readItems (depth - 1) fuel cs
          return (.array items, rest)
    else if c = '\x7b' then
      if depth = 0 then .error (.tooDeep .object)
      else
        match skipBlanks cs with
        | '\x7d' :: rest => .ok (.object [], rest)
        | cs => do
          let (fields, rest) ← readFields (depth - 1) fuel cs
          return (.object fields, rest)
    else if c = 'n' then readWord "null" .null (c :: cs)
    else if c = 't' then readWord "true" (.bool true) (c :: cs)
    else if c = 'f' then readWord "false" (.bool false) (c :: cs)
    else if c = 'N' then readWord "NaN" (.real "NaN") (c :: cs)
    else if c = 'I' then readWord "Infinity" (.real "Infinity") (c :: cs)
    else if c = '-' then
      if "Infinity".toList.isPrefixOf cs then .ok (.real "-Infinity", cs.drop 8)
      else readNumber true cs
    else readNumber false (c :: cs)

/-- Reads the items of an array up to its closing bracket. -/
def readItems (depth : Nat) : Nat → List Char → Except ReadError (List Json × List Char)
  | 0, _ => .error .malformed
  | fuel + 1, cs => do
    let (v, rest) ← readValue depth fuel cs
    match skipBlanks rest with
    | ']' :: rest => return ([v], rest)
    | ',' :: rest =>
      let (vs, rest) ← readItems depth fuel (skipBlanks rest)
      return (v :: vs, rest)
    | _ => .error .malformed

/-- Reads the fields of an object up to its closing brace. -/
def readFields (depth : Nat) : Nat → List Char → Except ReadError (List (String × Json) × List Char)
  | 0, _ => .error .malformed
  | fuel + 1, cs =>
    match cs with
    | '"' :: cs => do
      let (key, rest) ← readString cs
      match skipBlanks rest with
      | ':' :: rest =>
        let (v, rest) ← readValue depth fuel (skipBlanks rest)
        match skipBlanks rest with
        | '\x7d' :: rest => return ([(key, v)], rest)
        | ',' :: rest =>
          let (fields, rest) ← readFields depth fuel (skipBlanks rest)
          return ((key, v) :: fields, rest)
        | _ => .error .malformed
      | _ => .error .malformed
    | _ => .error .malformed

end

/-- The value that a text holds, with nothing but blanks around it. -/
def ofString (text : String) : Except ReadError Json := do
  let cs := text.toList
  let (v, rest) ← readValue nestingLimit (cs.length + 1) (skipBlanks cs)
  if skipBlanks rest = [] then return v else .error .malformed

end GroupUnify.Json
