import GroupUnify.Failure
import GroupUnify.Page
import GroupUnify.Report.Basic
import GroupUnify.Text.Quoted

/-!
# Reports as text

A report prints its problem, then its error or else its unifier and its matcher, then an empty line.
A line that could not be read prints its error alone. The summary counts reports by outcome.
-/

namespace GroupUnify.Report

/-- A line of output: a label and a text that may be missing. -/
def labelled (label : String) (text : Except Decimal.Error String) : Except Failure String :=
  Failure.piece (text.map fun t => label ++ t ++ "\n")

/-- What a report prints. -/
def page (r : Report) : Page Failure :=
  match r.equation with
  | none => [.ok ("Parse error: " ++ r.error ++ "  (in " ++ Text.quoted r.source ++ ")\n")]
  | some e =>
    labelled "Problem:   " e.canonical.format ::
      (if r.error.isEmpty then
        [labelled "Unifier:   " (Substitution.formatAnswer r.unifier),
          labelled "Matcher:   " (Substitution.formatAnswer r.matcher)]
      else [labelled "Error:     " (.ok r.error)]) ++
      [.ok "\n"]

/-- The words that start the error of a report whose answer failed its check. -/
def checkFailed : String := "check failed"

/-- Did the answer fail its check? -/
def isUnsound (r : Report) : Bool := checkFailed.toList.isPrefixOf r.error.toList

/-- The line above and below a summary. -/
def rule : String := String.ofList (List.replicate 60 '=') ++ "\n"

/-- The counts of reports by outcome. -/
def summary (rs : List Report) : String :=
  let parsed := rs.filter fun r => r.equation.isSome
  let unsound := parsed.filter isUnsound
  let failed := parsed.filter fun r => !r.error.isEmpty && !r.isUnsound
  let matched := parsed.filter fun r => r.error.isEmpty && r.matcher.isSome
  rule ++ s!"Problems: {rs.length} | parse errors: {rs.length - parsed.length}" ++
    s!" | internal errors: {failed.length} | failed checks: {unsound.length}" ++
    s!" | with matcher: {matched.length}\n" ++ rule

end GroupUnify.Report
