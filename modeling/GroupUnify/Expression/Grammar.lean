import GroupUnify.Expression.Basic
import GroupUnify.Parameter
import GroupUnify.Token

/-!
# The grammar of terms and equations

`Grammar.Derives` says which token lists are a phrase of a given kind, and which expression the
phrase stands for:

* a primary is an identifier that is not reserved, the number `0`, or a sum in parentheses;
* a factor is a primary, or a number other than `0` before a primary;
* a summand is a factor, or `-` before a factor;
* a sum is a summand followed by any number of `+` summand and `-` factor, grouped to the left.

An equation is a sum, `=`, and a sum.
-/

namespace GroupUnify.Grammar

/-- The kinds of phrases. -/
inductive Kind where
  | primary
  | factor
  | summand
  | sum
deriving DecidableEq, Repr

/-- The tokens `ts` are a phrase of kind `k` that stands for the expression `e`. -/
inductive Derives : Kind → List Token → Expression → Prop
  | name {x : String} (free : Parameter.isReserved x = false) :
      Derives .primary [.identifier x] (.name x)
  | zero : Derives .primary [.number ['0']] .zero
  | group {ts : List Token} {e : Expression} (inner : Derives .sum ts e) :
      Derives .primary (.symbol '(' :: ts ++ [.symbol ')']) e
  | primary {ts : List Token} {e : Expression} (p : Derives .primary ts e) : Derives .factor ts e
  | multiple {digits : List Char} {ts : List Token} {e : Expression} (nonzero : digits ≠ ['0'])
      (p : Derives .primary ts e) :
      Derives .factor (.number digits :: ts) (.multiple (Decimal.value digits) e)
  | factor {ts : List Token} {e : Expression} (f : Derives .factor ts e) : Derives .summand ts e
  | neg {ts : List Token} {e : Expression} (f : Derives .factor ts e) :
      Derives .summand (.symbol '-' :: ts) (.neg e)
  | summand {ts : List Token} {e : Expression} (s : Derives .summand ts e) : Derives .sum ts e
  | add {ts us : List Token} {a b : Expression} (left : Derives .sum ts a)
      (right : Derives .summand us b) : Derives .sum (ts ++ .symbol '+' :: us) (.add a b)
  | sub {ts us : List Token} {a b : Expression} (left : Derives .sum ts a)
      (right : Derives .factor us b) : Derives .sum (ts ++ .symbol '-' :: us) (.sub a b)

/-- The tokens `ts` are an equation between two expressions. -/
def IsEquation (ts : List Token) (a b : Expression) : Prop :=
  ∃ left right, ts = left ++ .symbol '=' :: right ∧ Derives .sum left a ∧ Derives .sum right b

end GroupUnify.Grammar
