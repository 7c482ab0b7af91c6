import GroupUnify.Json.Printer
import GroupUnify.Json.Reader
import GroupUnify.Report.Basic
import GroupUnify.Text.Quoted

/-!
# Saved reports

A file of reports is a JSON array of objects. A term is an array of pairs of a name and a coefficient
in stored order, so that a report comes back exactly as it was. An object may leave out everything
but its source.

* `Report.file`: the text of a file, as a page.
* `Report.load`: the reports of a text, or the first thing that is wrong with it.
-/

namespace GroupUnify

/-- Why a text is not a file of reports. -/
inductive LoadError where
  /-- The text is not JSON. -/
  | json (cause : Json.ReadError)
  /-- An object lacks a field. -/
  | missingField (key : String)
  /-- A pair has fewer than two parts. -/
  | tooFew (parts : Nat)
  /-- A pair has more than two parts. -/
  | tooMany
  /-- A value has another type than it should. -/
  | wrongType
  /-- A report is not an object. -/
  | notObject
deriving DecidableEq, Repr

/-- The wording of a fault. -/
def LoadError.message : LoadError → String
  | .json cause => cause.message
  | .missingField key => Text.quoted key
  | .tooFew parts => s!"not enough values to unpack (expected 2, got {parts})"
  | .tooMany => "too many values to unpack (expected 2)"
  | .wrongType => "a value has the wrong type"
  | .notObject => "a report is not an object"

namespace Report

/-! ### Writing -/

/-- A term as JSON. -/
def termToJson (t : Term) : Json :=
  .array (t.factors.map fun f => .array [.string f.1, .integer f.2])

/-- An equation as JSON. -/
def equationToJson (e : Equation) : Json :=
  .object [("left", termToJson e.left), ("right", termToJson e.right)]

/-- A binding as JSON. -/
def bindingToJson (b : Binding) : Json :=
  .object [("variable", .string b.name), ("term", termToJson b.term)]

/-- An answer as JSON. -/
def answerToJson : Option Substitution → Json
  | none => .null
  | some s => .array (s.map bindingToJson)

/-- A report as JSON. -/
def toJson (r : Report) : Json :=
  .object
    [("source", .string r.source),
      ("equation", match r.equation with
        | none => .null
        | some e => equationToJson e),
      ("unifier", answerToJson r.unifier),
      ("matcher", answerToJson r.matcher),
      ("error", .string r.error)]

/-- The file of the reports `rs`. -/
def file (rs : List Report) : Page Decimal.Error := (Json.array (rs.map toJson)).page

/-! ### Reading -/

/-- The values that a value gives one by one: the items of an array, the characters of a string, the
keys of an object. -/
def elements : Json → Except LoadError (List Json)
  | .array items => .ok items
  | .string s => .ok (s.toList.map fun c => .string (String.singleton c))
  | .object fields => .ok ((Json.keys fields).map .string)
  | _ => .error .wrongType

/-- The field `key` of an object. -/
def field (key : String) : Json → Except LoadError Json
  | .object fields =>
    match Json.field? key fields with
    | some v => .ok v
    | none => .error (.missingField key)
  | _ => .error .wrongType

/-- The text of a string. -/
def stringOf : Json → Except LoadError String
  | .string s => .ok s
  | _ => .error .wrongType

/-- The factor that a pair stands for. -/
def factorOf (v : Json) : Except LoadError Factor := do
  match ← elements v with
  | [.string x, .integer c] => return (x, c)
  | [_, _] => .error .wrongType
  | parts => .error (if parts.length < 2 then .tooFew parts.length else .tooMany)

/-- The term that an array of pairs stands for. -/
def termOf (v : Json) : Except LoadError Term := do
  return ⟨← (← elements v).mapM factorOf⟩

/-- The equation that an object stands for. -/
def equationOf (v : Json) : Except LoadError Equation := do
  let left ← termOf (← field "left" v)
  let right ← termOf (← field "right" v)
  return ⟨left, right⟩

/-- The binding that an object stands for. -/
def bindingOf (v : Json) : Except LoadError Binding := do
  let name ← field "variable" v
  let term ← termOf (← field "term" v)
  return ⟨← stringOf name, term⟩

/-- The answer that an array of bindings stands for. -/
def answerOf : Json → Except LoadError (Option Substitution)
  | .null => .ok none
  | v => do return some (← (← elements v).mapM bindingOf)

/-- The report that an object stands for. -/
def ofJson : Json → Except LoadError Report
  | .object fields => do
    let optional (key : String) : Json := (Json.field? key fields).getD .null
    let equation ← match optional "equation" with
      | .null => pure none
      | v => some <$> equationOf v
    let source ← field "source" (.object fields)
    let unifier ← answerOf (optional "unifier")
    let matcher ← answerOf (optional "matcher")
    let error := (Json.field? "error" fields).getD (.string "")
    return ⟨← stringOf source, equation, unifier, matcher, ← stringOf error⟩
  | _ => .error .notObject

/-- The reports that a file holds. -/
def load (text : String) : Except LoadError (List Report) := do
  let v ← (Json.ofString text).mapError .json
  (← elements v).mapM ofJson

end Report

end GroupUnify
