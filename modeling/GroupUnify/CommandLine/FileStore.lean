import GroupUnify.Text.Quoted

/-!
# Files

A session reads and writes files by their paths (`Files`). What else there is behind a path is none of its
business: a device may lose what is written to it, and a file may be one that is written and not read.

`FileStore` is a tree of files. A path is a list of names between slashes. It leads from the working folder,
or from the root if it starts with a slash, through folders to a file. Empty names and `.` stay in a folder,
`..` goes to the folder above.

* `FileStore.read`: the text of the file at a path.
* `FileStore.create`: the place for a file that is written at a path.
* `PathError`: why a path leads to no file.
-/

namespace GroupUnify.CommandLine

/-- Files in a state `σ`, with faults `ε`. -/
class Files (σ : Type) (ε : outParam Type) where
  /-- The text at a path, or why none is read. -/
  read : σ → String → Except ε String
  /-- What becomes of the files once a text is written at a path, or why none can be. -/
  create : σ → String → Except ε (String → σ)

/-! ### Paths and places -/

/-- Why a path leads to no file. -/
inductive PathError where
  /-- There is no such name. -/
  | noSuchFile
  /-- A file stands where a folder has to be. -/
  | notFolder
  /-- A folder stands where a file has to be. -/
  | isFolder
  /-- A name, or the whole path, is too long. -/
  | nameTooLong
  /-- The path holds the character zero. -/
  | zeroCharacter
deriving DecidableEq, Repr

/-- The wording of a fault of a path. -/
def PathError.message (path : String) : PathError → String
  | .noSuchFile => "[Errno 2] No such file or directory: " ++ Text.quoted path
  | .notFolder => "[Errno 20] Not a directory: " ++ Text.quoted path
  | .isFolder => "[Errno 21] Is a directory: " ++ Text.quoted path
  | .nameTooLong => "[Errno 36] File name too long: " ++ Text.quoted path
  | .zeroCharacter => "embedded null byte"

/-- The number of bytes from which on a path is too long. -/
def pathLimit : Nat := 4096

/-- The greatest number of bytes of a name. -/
def nameLimit : Nat := 255

/-- A place in the tree of files: the names that lead to it from the working folder. Steps upward
(`..`) or the root (`/`) stand in front. -/
abbrev Location := List String

namespace Location

/-- The folder above a folder. -/
def above (folder : Location) : Location :=
  match folder.getLast? with
  | none => [".."]
  | some name =>
    if name = ".." then folder ++ [".."] else if name = "/" then folder else folder.dropLast

/-- The place of a name in a folder. -/
def step (folder : Location) (name : String) : Location :=
  if name = "" ∨ name = "." then folder
  else if name = ".." then above folder
  else folder ++ [name]

/-- Where a path starts. -/
def start (path : String) : Location := if path.toList.head? = some '/' then ["/"] else []

/-- The names of a path, also the empty ones. -/
def names : List Char → List String
  | [] => [""]
  | c :: cs =>
    if c = '/' then "" :: names cs
    else
      match names cs with
      | [] => [String.singleton c]
      | name :: rest => (String.singleton c ++ name) :: rest

/-- The places on the way to a place. -/
def onTheWay (place : Location) : List Location := (List.range place.length).map place.take

/-- The path to a place. -/
def path (place : Location) : String := "/".intercalate place

/-- Is the last name of a place too long? -/
def isTooLong (place : Location) : Bool :=
  place.getLast?.any fun name => decide (nameLimit < name.utf8ByteSize)

end Location

/-! ### Stores -/

/-- Files with their texts, and folders. The working folder, those above it and the root are always
there. -/
structure FileStore where
  files : List (Location × String)
  folders : List Location
deriving DecidableEq, Repr

namespace FileStore

/-- The place of the null device, which reads as an empty file. -/
def nullDevice : Location := ["/", "dev", "null"]

/-- The devices that take every text and lose it. Apart from the null device none can be read to its end, and
for those who read they are no files. -/
def devices : List Location :=
  nullDevice :: ["zero", "random", "urandom"].map fun name => ["/", "dev", name]

/-- What stands outside every working folder: some folders of the system and the null device. -/
def system : FileStore :=
  ⟨[(nullDevice, "")],
    ["bin", "dev", "etc", "home", "root", "tmp", "usr", "var"].map fun name => ["/", name]⟩

/-- The system with the given files under the working folder, and the folders that hold them. -/
def ofFiles (files : List (String × String)) : FileStore :=
  let placed : List (Location × String) := files.map fun file => (Location.names file.1.toList, file.2)
  ⟨placed ++ system.files, placed.flatMap (fun file => file.1.onTheWay) ++ system.folders⟩

/-- Is there a folder at this place? -/
def isFolder (store : FileStore) (place : Location) : Bool :=
  place.all (· == "..") || place == ["/"] || store.folders.contains place

/-- Goes from a folder through the names of folders. -/
def walk (store : FileStore) (folder : Location) : List String → Except PathError Location
  | [] => .ok folder
  | name :: rest =>
    let next := folder.step name
    if store.isFolder next then walk store next rest
    else if next.isTooLong then .error .nameTooLong
    else if (store.files.lookup next).isSome then .error .notFolder
    else .error .noSuchFile

/-- The place that a path leads to, and whether a slash follows its last name. All folders on the way
have to be there. -/
def locate (store : FileStore) (path : String) : Except PathError (Location × Bool) :=
  if path.toList.contains '\x00' then .error .zeroCharacter
  else if pathLimit ≤ path.utf8ByteSize then .error .nameTooLong
  else
    let names := Location.names path.toList
    match names.reverse.dropWhile (· == "") with
    | [] => .ok (Location.start path, true)
    | last :: before => do
      let folder ← store.walk (Location.start path) before.reverse
      return (folder.step last, names.getLast? == some "")

/-- The text of the file at a path. -/
def read (store : FileStore) (path : String) : Except PathError String := do
  let (place, slash) ← store.locate path
  if store.isFolder place then .error .isFolder
  else if place.isTooLong then .error .nameTooLong
  else
    match store.files.lookup place with
    | none => .error .noSuchFile
    | some text => if slash then .error .notFolder else return text

/-- The place for a file at a path, whether or not there is one already. -/
def create (store : FileStore) (path : String) : Except PathError Location := do
  let (place, slash) ← store.locate path
  if store.isFolder place || slash then .error .isFolder
  else if place.isTooLong then .error .nameTooLong
  else return place

/-- The store with `text` as the content of the file at `place`. What is written to a device is lost. -/
def write (store : FileStore) (place : Location) (text : String) : FileStore :=
  if place ∈ devices then store
  else { store with files := (place, text) :: store.files.filter fun file => file.1 != place }

instance : Files FileStore PathError where
  read := read
  create store path := (store.create path).map store.write

/-- Is the place in the working folder or below? -/
def isInside (place : Location) : Bool := place.head?.all fun name => name != ".." && name != "/"

/-- The files of the working folder that are not in the store `before` or differ there, by their
paths. -/
def changes (before after : FileStore) : List (String × String) :=
  (after.files.filter fun file =>
    isInside file.1 && before.files.lookup file.1 != some file.2).map fun file =>
      (file.1.path, file.2)

end FileStore

end GroupUnify.CommandLine
