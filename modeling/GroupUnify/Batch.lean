import GroupUnify.Diophantine.Printer
import GroupUnify.Report.Printer
import GroupUnify.Report.Saved
import GroupUnify.Text.Blank
import GroupUnify.Unification

/-!
# Batches

A batch solves one equation per line. A line that cannot be read never stops it: the reason goes into
the line's report, and the batch moves on. Blank lines have no report.

* `Solved.ofText`: one line, with its report and what is printed while solving it.
* `Batch.ofLines`: the lines in order.
* `Batch.interrupted`: the batch if it is stopped when some line is asked for.
* `Batch.outcome`: what comes of a batch once it is printed and saved.
-/

namespace GroupUnify

/-- How a batch is run. -/
structure Settings where
  /-- Print the rounds of the solver. -/
  verbose : Bool := false
  /-- Do not print reports. -/
  quiet : Bool := false
  /-- Verify each answer by substitution. -/
  check : Bool := false
deriving DecidableEq, Repr

/-- A line's report, and what is printed on the way to it. -/
structure Solved where
  report : Report
  progress : Page Failure

namespace Solved

/-- The heading of a search, and its rounds. A division by zero ends the output. -/
def searchPage (verbose : Bool) (what : String) (e : Equation) (search : Search) : Page Failure :=
  (if verbose then
    Failure.piece (e.format.map fun name => "--- " ++ what ++ " " ++ name ++ " ---\n") ::
      Diophantine.Round.page search.rounds
  else []) ++
  match search.answer with
  | .error (.division cause) => [.error (.solver (.division cause))]
  | _ => []

/-- The error of an answer that fails its check: nothing if it passes. -/
def checkError (e : Equation) (unifier matcher : Option Substitution) : String :=
  let unsound := unifier.any fun s => !decide (s.Unifies e.left e.right)
  let unreached := matcher.any fun s => !decide (s.Matches e.left e.right)
  let failures :=
    (if unsound then ["unifier does not equate both sides"] else []) ++
      if unreached then ["matcher does not reach the right side"] else []
  if failures.isEmpty then "" else Report.checkFailed ++ ": " ++ "; ".intercalate failures

/-- The error of an equation that the solver refuses. -/
def badProblem (cause : Diophantine.Error) : String := "bad problem: " ++ cause.message

/-- Solves an equation. -/
def ofEquation (s : Settings) (source : String) (e : Equation) : Solved :=
  let unifying := findUnifier e.left e.right
  let first := searchPage s.verbose "Unify" e unifying
  match unifying.answer with
  | .error cause => ⟨⟨source, some e, none, none, badProblem cause⟩, first⟩
  | .ok unifier =>
    let matching := findMatcher e.left e.right
    let progress := first ++ searchPage s.verbose "Match" e matching
    match matching.answer with
    | .error cause => ⟨⟨source, some e, unifier, none, badProblem cause⟩, progress⟩
    | .ok matcher =>
      ⟨⟨source, some e, unifier, matcher,
        if s.check then checkError e unifier matcher else ""⟩, progress⟩

/-- Solves the equation that a text describes. -/
def ofText [CallStack] (s : Settings) (text : String) : Solved :=
  match Equation.parse text with
  | .error cause => ⟨⟨text, none, none, none, cause.message⟩, []⟩
  | .ok e => ofEquation s text e

end Solved

/-- The reports of a batch and what it prints. -/
structure Batch where
  reports : List Report
  page : Page Failure

namespace Batch

/-- The texts of the lines that are not blank. -/
def problems (lines : List String) : List String :=
  (lines.map Text.trim).filter fun text => !text.isEmpty

/-- The batch over `lines`. -/
def ofLines [CallStack] (s : Settings) (lines : List String) : Batch :=
  let solved := (problems lines).map (Solved.ofText s)
  ⟨solved.map Solved.report,
    solved.flatMap fun p => p.progress ++ if s.quiet then [] else p.report.page⟩

/-- The output of an interrupt. -/
def interruptNotice : Page Failure := [.ok "\nInterrupted.\n"]

/-- The batch over `lines` if an interrupt comes when line `k` is asked for. The lines before it are done
one by one. After the last line one more is asked for, and no other. -/
def interrupted [CallStack] (s : Settings) : List String → Nat → Batch
  | _, 0 => ⟨[], interruptNotice⟩
  | [], _ + 1 => ⟨[], []⟩
  | line :: rest, k + 1 =>
    let text := Text.trim line
    let later := interrupted s rest k
    if text.isEmpty then later
    else
      let solved := Solved.ofText s text
      ⟨solved.report :: later.reports,
        solved.progress ++ (if s.quiet then [] else solved.report.page) ++ later.page⟩

/-- What comes of a batch: its reports, its output, the text of the file it was saved to, and the
reason why it stopped early. -/
structure Outcome where
  reports : List Report
  printed : String
  saved : Option String
  failure : Option Failure

/-- Prints a batch, and saves it if `save` and if nothing has failed so far. A file that cannot be
written to its end keeps what came before. -/
def outcome (b : Batch) (save : Bool) : Outcome :=
  match b.page.failure? with
  | some cause => ⟨b.reports, b.page.written, none, some cause⟩
  | none =>
    if save then
      let file := Report.file b.reports
      ⟨b.reports, b.page.written, some file.written, file.failure?.map .decimal⟩
    else ⟨b.reports, b.page.written, none, none⟩

end Batch

end GroupUnify
