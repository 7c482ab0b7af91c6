import GroupUnify.Batch
import GroupUnify.CommandLine.FileStore
import GroupUnify.CommandLine.Options
import GroupUnify.Text.Lines

/-!
# Sessions of the command line

A session runs on files and the text of standard input, and leaves files, an output and possibly a failure.
It prints saved reports, or solves the problems of a set, a file or standard input and saves their reports.
An empty path counts as none.
-/

namespace GroupUnify.CommandLine

/-- Why a session fails, if the faults of files are `ε`. -/
inductive SessionFault (ε : Type) where
  /-- Nothing could be read or written at the path. -/
  | path (path : String) (cause : ε)
  | load (cause : LoadError)
  | answer (cause : Failure)
deriving DecidableEq, Repr

/-- Why a session on a store of files fails. -/
abbrev SessionFailure := SessionFault PathError

/-- The wording of a failure on a store of files. -/
def SessionFault.message : SessionFailure → String
  | .path given cause => cause.message given
  | .load cause => cause.message
  | .answer cause => cause.message

variable {σ ε : Type}

/-- What a session leaves. -/
structure Session (σ ε : Type) where
  printed : String
  store : σ
  failure : Option (SessionFault ε)

namespace Session

/-- A path that is not empty. -/
def path? (given : Option String) : Option String := given.filter fun path => !path.isEmpty

/-- Prints the reports saved at `path`. -/
def load [Files σ ε] (store : σ) (path : String) : Session σ ε :=
  match Files.read store path with
  | .error cause => ⟨"", store, some (.path path cause)⟩
  | .ok text =>
    match Report.load text with
    | .error cause => ⟨"", store, some (.load cause)⟩
    | .ok reports =>
      let page : Page Failure :=
        .ok s!"Loaded {reports.length} reports from {path}\n" :: reports.flatMap Report.page
      ⟨page.written, store, page.failure?.map .answer⟩

/-- What a batch leaves that is printed and then saved at a path: its output, the files, and its reports or
the reason why there are none. -/
structure Ending (σ ε : Type) where
  printed : String
  store : σ
  result : Except (SessionFault ε) (List Report)

/-- The reports of an outcome, if nothing failed. -/
def resultOf (outcome : Batch.Outcome) : Except (SessionFault ε) (List Report) :=
  match outcome.failure with
  | some cause => .error (.answer cause)
  | none => .ok outcome.reports

/-- Prints a batch, and saves its reports if there is a path and if nothing has failed so far. The path is
looked at only then, and there may be nothing to write at. -/
def ending [Files σ ε] (store : σ) (save : Option String) (b : Batch) : Ending σ ε :=
  match path? save with
  | none =>
    let outcome := b.outcome false
    ⟨outcome.printed, store, resultOf outcome⟩
  | some path =>
    match Files.create store path with
    | .error fault =>
      let outcome := b.outcome false
      ⟨outcome.printed, store, (resultOf outcome).bind fun _ => .error (.path path fault)⟩
    | .ok written =>
      let outcome := b.outcome true
      ⟨outcome.printed, (outcome.saved.map written).getD store, resultOf outcome⟩

section Ending

variable [Files σ ε] {store : σ} {save : Option String} {path : String} {fault : ε}
  {written : String → σ} {b : Batch}

theorem ending_unsaved (hsave : path? save = none) :
    ending store save b = ⟨(b.outcome false).printed, store, resultOf (b.outcome false)⟩ := by
  simp only [ending, hsave]

theorem ending_refused (hsave : path? save = some path)
    (hcreate : Files.create store path = .error fault) :
    ending store save b = ⟨(b.outcome false).printed, store,
      (resultOf (b.outcome false)).bind fun _ => .error (.path path fault)⟩ := by
  simp only [ending, hsave, hcreate]

theorem ending_saved (hsave : path? save = some path)
    (hcreate : Files.create store path = .ok written) :
    ending store save b = ⟨(b.outcome true).printed, ((b.outcome true).saved.map written).getD store,
      resultOf (b.outcome true)⟩ := by
  simp only [ending, hsave, hcreate]

end Ending

/-- What a batch prints after its reports. -/
def closing (o : Options) (b : Batch) : String :=
  (if o.quiet then Report.summary b.reports else "") ++
    match path? o.save with
    | some path => if b.reports.isEmpty then "" else "Reports saved to " ++ path ++ "\n"
    | none => ""

/-- Solves the problems of `lines` after printing `header`. -/
def solve [CallStack] [Files σ ε] (o : Options) (store : σ) (header : String) (lines : List String) :
    Session σ ε :=
  let batch := Batch.ofLines ⟨o.trace, o.quiet, o.check⟩ lines
  let left := ending store o.save batch
  match left.result with
  | .ok _ => ⟨header ++ left.printed ++ closing o batch, left.store, none⟩
  | .error cause => ⟨header ++ left.printed, left.store, some cause⟩

/-- The heading of a problem set. -/
def heading (s : ProblemSet) : String :=
  "Problem set: " ++ s.name ++ " -- " ++ s.description ++ "\n\n"

/-- What a session works on. -/
inductive Work where
  /-- The problems of standard input. -/
  | input
  /-- The problems of a file. -/
  | file (path : String)
  | problems (set : ProblemSet)
  /-- The reports saved in a file. -/
  | reports (path : String)
deriving DecidableEq, Repr

/-- The work of a session with options `o`: standard input unless a source names something. -/
def work (o : Options) : Work :=
  match o.source with
  | none => .input
  | some (.file given) => (path? given).elim .input .file
  | some (.problems given) => given.elim .input .problems
  | some (.load given) => (path? given).elim .input .reports

/-- Runs with options `o` on the files `store` and the text `input`. -/
def run [CallStack] [Files σ ε] (o : Options) (store : σ) (input : String) : Session σ ε :=
  match work o with
  | .reports path => load store path
  | .problems set => solve o store (heading set) set.problems
  | .input => solve o store "" (Text.lines input)
  | .file path =>
    match Files.read store path with
    | .error cause => ⟨"", store, some (.path path cause)⟩
    | .ok text => solve o store "" (Text.lines text)

end Session

end GroupUnify.CommandLine
