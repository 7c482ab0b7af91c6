import GroupUnify.ProblemSet
import GroupUnify.Text.Digit
import GroupUnify.Text.Quoted

/-!
# Options of the command line

An option is written `--name` or by any beginning of its name that fits no other option. A value
follows as the next argument or after `=`; two dashes after `=` give the option without a value. Of an
option given twice the last counts. The sources of problems (`--file`, `--problems`, `--load`) exclude
each other. Arguments that belong to no option are refused, after all options have been read.

* `Word.ofArgument`: what a single argument looks like.
* `Request.parse`: what the arguments ask for, or the first thing that is wrong with them.
-/

namespace GroupUnify.CommandLine

/-- The options. -/
inductive Switch where
  | help
  | file
  | problems
  | load
  | save
  | trace
  | check
  | quiet
deriving DecidableEq, Repr

namespace Switch

/-- All options, in the order in which they are listed. -/
def all : List Switch := [.help, .file, .problems, .load, .save, .trace, .check, .quiet]

/-- How an option is written. -/
def spellings : Switch → List String
  | .help => ["-h", "--help"]
  | .file => ["--file"]
  | .problems => ["--problems"]
  | .load => ["--load"]
  | .save => ["--save"]
  | .trace => ["--trace"]
  | .check => ["--check"]
  | .quiet => ["--quiet"]

/-- The option as messages name it. -/
def label (s : Switch) : String := "/".intercalate s.spellings

/-- Does a value belong to the option? -/
def takesValue : Switch → Bool
  | .file | .problems | .load | .save => true
  | .help | .trace | .check | .quiet => false

/-- What the option is for. -/
def description : Switch → String
  | .help => "show this help message and exit"
  | .file => "Read equations from a file instead of stdin"
  | .problems => "Run a built-in problem set"
  | .load => "Print reports saved with --save"
  | .save => "Save reports to a JSON file"
  | .trace => "Print solver rounds"
  | .check => "Verify results by substitution"
  | .quiet => "Only print the summary"

/-- All spellings, each with its option. -/
def table : List (String × Switch) := all.flatMap fun s => s.spellings.map fun name => (name, s)

end Switch

/-- Why arguments are refused. -/
inductive UsageError where
  /-- The argument is the beginning of several options. -/
  | ambiguous (argument : String) (candidates : List String)
  /-- The value of the option is missing. -/
  | missingValue (s : Switch)
  /-- The option has a value but takes none. -/
  | unwantedValue (s : Switch) (value : String)
  /-- There is no problem set of this name. -/
  | unknownProblems (name : String)
  /-- The option excludes one that came before. -/
  | conflict (s other : Switch)
  /-- These arguments belong to no option. -/
  | unrecognized (arguments : List String)
deriving DecidableEq, Repr

/-- The wording of a refusal. -/
def UsageError.message : UsageError → String
  | .ambiguous argument candidates =>
    "ambiguous option: " ++ argument ++ " could match " ++ ", ".intercalate candidates
  | .missingValue s => "argument " ++ s.label ++ ": expected one argument"
  | .unwantedValue s value =>
    "argument " ++ s.label ++ ": ignored explicit argument " ++ Text.quoted value
  | .unknownProblems name =>
    "argument " ++ Switch.problems.label ++ ": invalid choice: " ++ Text.quoted name ++
      " (choose from " ++
      ", ".intercalate (ProblemSet.all.map fun s => Text.quoted s.name) ++ ")"
  | .conflict s other =>
    "argument " ++ s.label ++ ": not allowed with argument " ++ other.label
  | .unrecognized arguments => "unrecognized arguments: " ++ " ".intercalate arguments

/-! ### Single arguments -/

/-- What an argument looks like. -/
inductive Word where
  /-- No option: a value, or an argument that belongs to nothing. -/
  | plain (text : String)
  /-- Like an option, but none that there is. -/
  | unknown (text : String)
  /-- An option, with the value after `=` if there is one. -/
  | option (s : Switch) (value : Option String)
  /-- The letter for help with the characters after it. -/
  | letters (rest : List Char)
deriving DecidableEq, Repr

namespace Word

/-- Is the text a negative number: a minus sign, then digits, or a fraction with a point? A line feed
may follow. -/
def isNegativeNumber (cs : List Char) : Bool :=
  match cs with
  | '-' :: ds =>
    let ds := if ds.getLast? = some '\n' then ds.dropLast else ds
    let whole := ds.takeWhile Text.isDecimalDigit
    match ds.dropWhile Text.isDecimalDigit with
    | [] => !whole.isEmpty
    | '.' :: fraction => !fraction.isEmpty && fraction.all Text.isDecimalDigit
    | _ => false
  | _ => false

/-- The text after the first `=`, if there is one. -/
def valueOf (cs : List Char) : Option String :=
  match cs.dropWhile (· != '=') with
  | [] => none
  | _ :: v => some (String.ofList v)

/-- What to make of an argument that starts with `-` and is no option as it stands. -/
def ofDashed (argument : String) : Except UsageError Word :=
  let cs := argument.toList
  let name := cs.takeWhile (· != '=')
  let value := valueOf cs
  match value, Switch.table.lookup (String.ofList name) with
  | some v, some s =>
    if name = ['-', 'h'] ∧ v ≠ "" then .ok (.letters v.toList) else .ok (.option s (some v))
  | _, _ =>
    match cs with
    | '-' :: 'h' :: rest => .ok (.letters rest)
    | _ =>
      let candidates :=
        if cs.take 2 = ['-', '-'] then
          Switch.table.filter fun entry => name.isPrefixOf entry.1.toList
        else []
      match candidates with
      | [(_, s)] => .ok (.option s value)
      | _ :: _ :: _ => .error (.ambiguous argument (candidates.map Prod.fst))
      | [] =>
        if isNegativeNumber cs || cs.contains ' ' then .ok (.plain argument)
        else .ok (.unknown argument)

/-- What an argument looks like. -/
def ofArgument (argument : String) : Except UsageError Word :=
  match Switch.table.lookup argument with
  | some s => .ok (.option s none)
  | none =>
    match argument.toList with
    | '-' :: _ :: _ => ofDashed argument
    | _ => .ok (.plain argument)

end Word

/-! ### All arguments -/

/-- Where problems or reports come from. The value is none where the option was given without one. -/
inductive Source where
  | file (path : Option String)
  | problems (set : Option ProblemSet)
  | load (path : Option String)
deriving DecidableEq, Repr

/-- The option that gives a source. -/
def Source.switch : Source → Switch
  | .file _ => .file
  | .problems _ => .problems
  | .load _ => .load

/-- What the options say. -/
structure Options where
  source : Option Source := none
  save : Option String := none
  trace : Bool := false
  check : Bool := false
  quiet : Bool := false
deriving DecidableEq, Repr

namespace Options

/-- The options with `source`, unless another option has given one. -/
def withSource (o : Options) (source : Source) : Except UsageError Options :=
  match o.source with
  | none => .ok { o with source := some source }
  | some other =>
    if other.switch = source.switch then .ok { o with source := some source }
    else .error (.conflict source.switch other.switch)

/-- The options with the value `v` for `s`, or with `s` given without a value. -/
def withValue (o : Options) (s : Switch) (v : Option String) : Except UsageError Options :=
  match s with
  | .file => o.withSource (.file v)
  | .problems =>
    match v with
    | none => o.withSource (.problems none)
    | some name =>
      match ProblemSet.find? name with
      | some set => o.withSource (.problems (some set))
      | none => .error (.unknownProblems name)
  | .load => o.withSource (.load v)
  | .save => .ok { o with save := v }
  | _ => .ok o

/-- The options with `s`, which has no value. -/
def withSwitch (o : Options) (s : Switch) : Options :=
  match s with
  | .trace => { o with trace := true }
  | .check => { o with check := true }
  | .quiet => { o with quiet := true }
  | _ => o

end Options

/-- What the arguments ask for. -/
inductive Request where
  /-- To be told about the options. -/
  | help
  /-- To run with these options. -/
  | run (o : Options)
deriving DecidableEq, Repr

namespace Request

/-- The letters after `-h` may say `h` again and nothing else. -/
def checkLetters (cs : List Char) : Except UsageError Unit :=
  match cs.dropWhile (· == 'h') with
  | [] => .ok ()
  | rest => .error (.unwantedValue .help (String.ofList rest))

/-- Goes through the arguments before `--`; `extras` are those that belonged to no option so far. -/
def ofWords (o : Options) (extras : List String) :
    List Word → Except UsageError (Option (Options × List String))
  | [] => .ok (some (o, extras))
  | .plain text :: rest | .unknown text :: rest => ofWords o (extras ++ [text]) rest
  | .letters cs :: _ => do
    checkLetters cs
    return none
  | .option s (some v) :: rest => do
    if s.takesValue then ofWords (← o.withValue s (if v = "--" then none else some v)) extras rest
    else throw (.unwantedValue s v)
  | .option s none :: rest =>
    if s.takesValue then
      match rest with
      | .plain v :: rest => do ofWords (← o.withValue s (some v)) extras rest
      | _ => .error (.missingValue s)
    else if s = .help then .ok none
    else ofWords (o.withSwitch s) extras rest

/-- What the arguments ask for. After `--` no argument is an option. -/
def parse (arguments : List String) : Except UsageError Request := do
  let words ← (arguments.takeWhile (· ≠ "--")).mapM Word.ofArgument
  match ← ofWords {} [] words with
  | none => return .help
  | some (o, extras) =>
    match extras ++ arguments.dropWhile (· ≠ "--") with
    | [] => return .run o
    | extras => .error (.unrecognized extras)

end Request

end GroupUnify.CommandLine
