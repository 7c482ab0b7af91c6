import GroupUnify.Expression.Grammar
import GroupUnify.Text.Quoted

/-!
# Reading expressions

Phrases are read from the front of a token list; a reader returns the expression and the tokens
left over, or the reason why it stopped. Numbers have at most `Decimal.digitLimit` digits.

There is one reader for each kind of phrase, and a reader that calls another stays open until that one
returns. The call stack has frames for some readers only (`CallStack`), and a reader that finds no
frame for itself gives up. A level of parentheses takes four frames, for a sum, a summand, a factor and a
primary, or three if it stands behind a minus sign in a sum, where no summand is read.
-/

namespace GroupUnify

/-- Why a text cannot be read. -/
inductive ParseError where
  /-- The text ends where something has to follow. -/
  | endOfInput
  /-- No phrase starts or goes on with this token. -/
  | unexpected (found : Token)
  /-- Another token stands where the character has to follow. -/
  | expected (c : Char) (found : Token)
  /-- The identifier belongs to the parameters. -/
  | reserved (name : String)
  /-- The number has too many digits. -/
  | tooLong (digits : List Char)
  /-- Too many readers are open. -/
  | tooDeep
deriving DecidableEq, Repr

/-- The wording of a reason. -/
def ParseError.message : ParseError → String
  | .endOfInput => "unexpected end of input"
  | .unexpected found => "unexpected " ++ Text.quoted found.text
  | .expected c found =>
    "expected " ++ Text.quoted (String.singleton c) ++ ", found " ++ Text.quoted found.text
  | .reserved name =>
    "identifier " ++ Text.quoted name ++ " starts with reserved prefix " ++
      Text.quoted (String.singleton Parameter.initial)
  | .tooLong digits => "coefficient " ++ String.ofList (digits.take 20) ++ "... too long"
  | .tooDeep => "term nested too deeply"

/-- The call stack on which a text is read. -/
class CallStack where
  /-- How many readers may be open at once. -/
  frames : Nat
  /-- A text without parentheses is never too deep. -/
  enough : 4 ≤ frames

/-- The call stack of a program that solves one line after the other. It has a thousand frames; seven are
taken by the callers, and three are kept for what a reader calls besides other readers. -/
instance (priority := low) CallStack.standard : CallStack := ⟨990, by decide⟩

namespace Expression

open Grammar (Kind)

/-- A reader takes a phrase off the front of the tokens. -/
abbrev Reader := List Token → Except ParseError (Expression × List Token)

/-- Takes the character `c` off the front of the tokens. -/
def expect (c : Char) : List Token → Except ParseError (List Token)
  | [] => .error .endOfInput
  | t :: ts => if t = .symbol c then .ok ts else .error (.expected c t)

/-- Reads a primary; `sum` reads what stands in parentheses. -/
def readPrimary (sum : Reader) : Reader
  | [] => .error .endOfInput
  | .number digits :: ts =>
    if digits = ['0'] then .ok (.zero, ts) else .error (.unexpected (.number digits))
  | .identifier x :: ts =>
    if Parameter.isReserved x then .error (.reserved x) else .ok (.name x, ts)
  | .symbol c :: ts =>
    if c = '(' then do
      let (e, ts) ← sum ts
      return (e, ← expect ')' ts)
    else .error (.unexpected (.symbol c))

/-- Reads a factor. A number other than `0` multiplies the primary that has to follow. -/
def readFactor (primary : Reader) (ts : List Token) : Except ParseError (Expression × List Token) :=
  match ts with
  | .number digits :: rest =>
    if digits = ['0'] then primary ts
    else if Decimal.digitLimit < digits.length then .error (.tooLong digits)
    else do
      let (e, rest) ← primary rest
      return (.multiple (Decimal.value digits) e, rest)
  | _ => primary ts

/-- Reads a summand. -/
def readSummand (factor : Reader) (ts : List Token) : Except ParseError (Expression × List Token) :=
  match ts with
  | .symbol '-' :: rest => do
    let (e, rest) ← factor rest
    return (.neg e, rest)
  | _ => factor ts

/-- Reads what follows a sum that starts with `left`, at most `fuel` summands more. -/
def readMore (summand factor : Reader) (fuel : Nat) (left : Expression) (ts : List Token) :
    Except ParseError (Expression × List Token) :=
  match fuel, ts with
  | fuel + 1, .symbol '+' :: rest => do
    let (right, rest) ← summand rest
    readMore summand factor fuel (.add left right) rest
  | fuel + 1, .symbol '-' :: rest => do
    let (right, rest) ← factor rest
    readMore summand factor fuel (.sub left right) rest
  | _, _ => .ok (left, ts)

/-- Reads a sum. There are no more summands than tokens. -/
def readSum (summand factor : Reader) : Reader := fun ts => do
  let (left, rest) ← summand ts
  readMore summand factor rest.length left rest

/-- Reads a phrase of kind `k` if the call stack has `frames` frames left. The reader takes one, and leaves
the others to the readers that it calls. -/
def read : (frames : Nat) → (k : Kind) → Reader
  | 0, _ => fun _ => .error .tooDeep
  | frames + 1, .primary => readPrimary (read frames .sum)
  | frames + 1, .factor => readFactor (read frames .primary)
  | frames + 1, .summand => readSummand (read frames .factor)
  | frames + 1, .sum => readSum (read frames .summand) (read frames .factor)

/-- Nothing may be left over. -/
def finish : List Token → Except ParseError Unit
  | [] => .ok ()
  | t :: _ => .error (.unexpected t)

variable [CallStack]

/-- Reads a whole token list as a sum. -/
def ofTokens (ts : List Token) : Except ParseError Expression := do
  let (e, rest) ← read CallStack.frames .sum ts
  finish rest
  return e

/-- Reads a whole token list as two sums with `=` between them. -/
def pairOfTokens (ts : List Token) : Except ParseError (Expression × Expression) := do
  let (a, rest) ← read CallStack.frames .sum ts
  let (b, rest) ← read CallStack.frames .sum (← expect '=' rest)
  finish rest
  return (a, b)

end Expression

/-- The term that a text describes. -/
def Term.parse [CallStack] (text : String) : Except ParseError Term :=
  (Expression.ofTokens (Token.ofString text)).map Expression.toTerm

end GroupUnify
