/-!
# JSON values

Numbers are integers; a number with a fraction or an exponent is kept by its literal, as are the
words `NaN` and `Infinity`. The fields of an object are in order, and of a repeated key the last
field counts.
-/

namespace GroupUnify

/-- A JSON value. -/
inductive Json where
  | null
  | bool (b : Bool)
  | integer (n : Int)
  | real (literal : String)
  | string (s : String)
  | array (items : List Json)
  | object (fields : List (String × Json))
deriving Repr

namespace Json

/-- The value of the last field with key `key`. -/
def field? (key : String) : List (String × Json) → Option Json
  | [] => none
  | (k, v) :: rest => (field? key rest).or (if k = key then some v else none)

/-- The keys of an object, each once. -/
def keys (fields : List (String × Json)) : List String := (fields.map Prod.fst).eraseDups

end Json

end GroupUnify
