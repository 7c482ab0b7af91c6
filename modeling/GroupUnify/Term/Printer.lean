import GroupUnify.Decimal
import GroupUnify.Term.Basic

/-!
# Terms as text

A term is written in canonical order: `2x - y + z`. The coefficient one is left out, and after the
first factor a negative sign becomes the separator. The identity is `0`. A coefficient with too
many digits leaves the whole term without a text.
-/

namespace GroupUnify.Term

/-- The factor `c • x` at the start of a term. -/
def formatFactor (x : String) (c : Int) : Except Decimal.Error String :=
  if c = 1 then .ok x
  else if c = -1 then .ok ("-" ++ x)
  else do return (← Decimal.format c) ++ x

/-- A factor after the first one, with its separator. -/
def formatLater (f : Factor) : Except Decimal.Error String := do
  if f.2 < 0 then return " - " ++ (← formatFactor f.1 (-f.2))
  else return " + " ++ (← formatFactor f.1 f.2)

/-- The factors after the first one. -/
def formatRest : List Factor → Except Decimal.Error String
  | [] => .ok ""
  | f :: fs => do return (← formatLater f) ++ (← formatRest fs)

/-- The text of factors in the order given. -/
def formatFactors : List Factor → Except Decimal.Error String
  | [] => .ok "0"
  | f :: fs => do return (← formatFactor f.1 f.2) ++ (← formatRest fs)

/-- The text of a term. -/
def format (t : Term) : Except Decimal.Error String := formatFactors t.canonical.factors

end GroupUnify.Term
