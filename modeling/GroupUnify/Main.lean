import GroupUnify.CommandLine.Session

/-!
# The program

Reads the arguments, the files that they name and standard input, runs a session, writes the files that
it changed and prints its output.
-/

namespace GroupUnify.CommandLine

/-- The list of options. -/
def helpText : String :=
  let line (s : Switch) : String :=
    "  " ++ ", ".intercalate s.spellings ++ (if s.takesValue then " VALUE" else "") ++ "\n      " ++
      s.description ++ "\n"
  "usage: abelian [options]\n\nUnification and matching in Abelian groups\n\n" ++
    String.join (Switch.all.map line)

/-- The text of the file at `path`, if it can be read. -/
def fileText? (path : String) : IO (Option String) := do
  try return some (← IO.FS.readFile path) catch _ => return none

/-- Can something be opened at `path`, a file or a folder? -/
def opens (path : String) : IO Bool := do
  try
    let _ ← IO.FS.Handle.mk path .read
    return true
  catch _ => return false

/-- Adds what is found on the way along `path`. -/
def explore (store : FileStore) (path : String) : IO FileStore := do
  let mut store := store
  let mut place := Location.start path
  let mut soFar := if place.isEmpty then "." else "/"
  for name in Location.names path.toList do
    place := place.step name
    soFar := soFar ++ "/" ++ name
    if let some text ← fileText? soFar then
      store := ⟨(place, text) :: store.files, store.folders⟩
    else if ← opens soFar then
      store := ⟨store.files, place :: store.folders⟩
  return store

/-- The files and folders that the options name. -/
def storeFor (o : Options) : IO FileStore := do
  let source : List String :=
    match Session.work o with
    | .file path | .reports path => [path]
    | .input | .problems _ => []
  (source ++ (Session.path? o.save).toList).foldlM explore ⟨[], []⟩

/-- Writes the file at `path` if the session has left a text for it. -/
def writeSaved (before after : FileStore) (path : String) : IO Unit := do
  if let .ok place := before.create path then
    if let some text := after.files.lookup place then
      if before.files.lookup place != some text then
        IO.FS.writeFile path text

/-- All lines of standard input. -/
partial def standardInput (sofar : String) : IO String := do
  let line ← (← IO.getStdin).getLine
  if line.isEmpty then return sofar else standardInput (sofar ++ line)

end GroupUnify.CommandLine

open GroupUnify.CommandLine in
/-- The exit code is two for arguments that are refused and one for a session that fails. -/
def main (arguments : List String) : IO UInt32 := do
  match Request.parse arguments with
  | .error cause =>
    IO.eprintln ("abelian: error: " ++ cause.message)
    return 2
  | .ok .help =>
    IO.print helpText
    return 0
  | .ok (.run o) =>
    let before ← storeFor o
    let input ← if Session.work o = .input then standardInput "" else pure ""
    let session := Session.run o before input
    (Session.path? o.save).forM (writeSaved before session.store)
    IO.print session.printed
    match session.failure with
    | none => return 0
    | some cause =>
      IO.eprintln cause.message
      return 1
