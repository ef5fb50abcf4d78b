import Reckoner.Storage.Disk

/-!
# Files in memory

A tree of files and directories with a working directory, and the disk that it is. A path is walked
name by name: every name but the last must lead to a directory, a dot stays, and two dots go up. A
slash at the end asks for a directory.
-/

namespace Reckoner

/-- What a name leads to. -/
inductive Entry where
  | directory
  | file (octets : List UInt8)
  deriving DecidableEq, Repr

/-- The names that lead from the root to an entry. -/
abbrev Location := List String

/-- Files and directories. The root is always there. -/
structure Files where
  workingDirectory : Location
  entries : List (Location × Entry)
  deriving Inhabited

namespace Files

-- ---------------------------------------------------------------------------
-- Entries
-- ---------------------------------------------------------------------------

/-- The entry at a location. -/
def entry? (files : Files) (location : Location) : Option Entry :=
  if location = [] then some .directory else files.entries.lookup location

/-- The files with an entry at a location, in place of the one that is there. -/
def put (files : Files) (location : Location) (entry : Entry) : Files :=
  { files with entries := files.entries.filter (·.1 ≠ location) ++ [(location, entry)] }

/-- The files with a directory at a location, unless an entry is there. -/
def putDirectory (files : Files) (location : Location) : Files :=
  if (files.entry? location).isSome then files else files.put location .directory

/-- The files with directories along the given names. -/
def putDirectories (files : Files) (location : Location) : Files :=
  (List.range (location.length + 1)).foldl
    (fun files n => files.putDirectory (location.take n)) files

/-- No file, and only the working directory with those above it. -/
def empty (workingDirectory : Location) : Files :=
  putDirectories ⟨workingDirectory, []⟩ workingDirectory

/-- The files with one more file at a path from the working directory, and the directories that lead
to it. -/
def add (files : Files) (path : String) (octets : List UInt8) : Files :=
  let location := files.workingDirectory ++ (Path.ofText path).names
  (files.putDirectories location.dropLast).put location (.file octets)

/-- The files under the working directory, by their paths from there. -/
def listing (files : Files) : List (String × Entry) :=
  files.entries.filterMap fun (location, entry) =>
    if files.workingDirectory.isPrefixOf location && files.workingDirectory ≠ location then
      some ("/".intercalate (location.drop files.workingDirectory.length), entry)
    else none

-- ---------------------------------------------------------------------------
-- Walking
-- ---------------------------------------------------------------------------

/-- The most octets a name may have. -/
def maxNameLength : Nat := 255

/-- The most octets a path may have. -/
def maxPathLength : Nat := 4095

/-- Follows segments of a path from a location. -/
def walk (files : Files) : Location → List String → Except Refusal Location
  | here, [] => .ok here
  | here, name :: rest =>
    if name = "" ∨ name = "." then walk files here rest
    else if name = ".." then walk files here.dropLast rest
    else if maxNameLength < name.utf8ByteSize then .error .nameTooLong
    else
      match files.entry? (here ++ [name]) with
      | none => .error .missing
      | some .directory => walk files (here ++ [name]) rest
      | some (.file _) => if rest.isEmpty then .ok (here ++ [name]) else .error .notADirectory

/-- Where the walk along the segments of a path starts. -/
def origin (files : Files) (segments : List String) : Location :=
  if segments.length > 1 ∧ segments.head? = some "" then [] else files.workingDirectory

/-- The segments of a path that the system takes at all. -/
def segmentsOf (path : String) : Except FileError (List String) :=
  if path.toList.contains '\x00' then .error .nullInPath
  else if path = "" then .error (.refused .missing path)
  else if maxPathLength < path.utf8ByteSize then .error (.refused .nameTooLong path)
  else .ok (Path.segments path)

/-- The location that a path leads to. -/
def locate (files : Files) (path : String) : Except FileError Location := do
  let segments ← segmentsOf path
  (files.walk (files.origin segments) segments).mapError (.refused · path)

/-- The last name of a path, the location of the directory it is looked up in, and whether slashes
follow it. -/
structure Target where
  directory : Location
  name : String
  slashed : Bool

/-- The last name of a path whose other names lead to a directory. -/
def target (files : Files) (path : String) : Except FileError Target := do
  let segments ← segmentsOf path
  let names := (segments.reverse.dropWhile (· = "")).reverse
  let walked := files.walk (files.origin segments) (names.dropLast ++ [""])
  let directory ← walked.mapError (.refused · path)
  return ⟨directory, names.getLast?.getD ".", names.length < segments.length⟩

-- ---------------------------------------------------------------------------
-- Operations
-- ---------------------------------------------------------------------------

/-- The octets of the file that a path leads to. -/
def read (files : Files) (path : String) : Except FileError (List UInt8) := do
  match files.entry? (← files.locate path) with
  | some (.file octets) => return octets
  | some .directory => .error (.refused .isADirectory path)
  | none => .error (.refused .missing path)

/-- The files after octets were written to a path. -/
def write (files : Files) (path : String) (octets : List UInt8) : Except FileError Files := do
  let target ← files.target path
  let location := target.directory ++ [target.name]
  if target.slashed ∨ target.name = "." ∨ target.name = ".." then
    .error (.refused .isADirectory path)
  else if maxNameLength < target.name.utf8ByteSize then .error (.refused .nameTooLong path)
  else if files.entry? location = some .directory then .error (.refused .isADirectory path)
  else .ok (files.put location (.file octets))

/-- The files after a directory was made. -/
def makeDirectory (files : Files) (path : String) : Except FileError Files := do
  let target ← files.target path
  let location := target.directory ++ [target.name]
  if target.name = "." ∨ target.name = ".." then .error (.refused .taken path)
  else if maxNameLength < target.name.utf8ByteSize then .error (.refused .nameTooLong path)
  else if (files.entry? location).isSome then .error (.refused .taken path)
  else .ok (files.put location .directory)

/-- Whether a path leads to a file or a directory. -/
def isPresent (files : Files) (path : String) : Bool :=
  (files.locate path).toBool

/-- Whether a path leads to a directory. -/
def isDirectory (files : Files) (path : String) : Bool :=
  match files.locate path with
  | .ok location => files.entry? location = some .directory
  | .error _ => false

/-- Files as they are after an operation that may fail. -/
def updated (change : Files → Except FileError Files) : StateM Files (Except FileError Unit) :=
  fun files =>
    match change files with
    | .ok files => (.ok (), files)
    | .error e => (.error e, files)

/-- The disk of files in memory. -/
def disk : Disk (StateM Files) where
  read path := do return (← get).read path
  write path octets := updated (·.write path octets)
  makeDirectory path := updated (·.makeDirectory path)
  isPresent path := do return (← get).isPresent path
  isDirectory path := do return (← get).isDirectory path

end Files

end Reckoner
