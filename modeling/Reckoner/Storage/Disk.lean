import Reckoner.Storage.FileError
import Reckoner.Storage.Path
import Reckoner.Text.Lines

/-!
# Disks

The operations on files that a run uses, whatever carries them out, and what is built from them:
reading a text and making a directory with those above it.
-/

namespace Reckoner

/-- The operations on files. -/
structure Disk (m : Type → Type) where
  /-- The octets of a file. -/
  read : String → m (Except FileError (List UInt8))
  /-- Makes the octets the whole content of a file. -/
  write : String → List UInt8 → m (Except FileError Unit)
  /-- Makes a directory in one that is there. -/
  makeDirectory : String → m (Except FileError Unit)
  /-- Whether a path leads to a file or a directory. -/
  isPresent : String → m Bool
  /-- Whether a path leads to a directory. -/
  isDirectory : String → m Bool

namespace Disk

variable {m : Type → Type} [Monad m]

/-- The text of octets, in which every line ends with a newline. -/
def textOf (octets : List UInt8) : Except FileError String := do
  let chars ← (Utf8.decode octets).mapError .notText
  return String.ofList (Text.uniformLineEnds chars)

/-- The text of a file. -/
def readText (disk : Disk m) (path : String) : m (Except FileError String) := do
  return (← disk.read path).bind textOf

/-- Writes a text to a file. -/
def writeText (disk : Disk m) (path text : String) : m (Except FileError Unit) :=
  disk.write path (Utf8.encode text)

/-- Makes a directory in one that is there, unless it is there already. Says whether it is there
then. -/
def ensureDirectory (disk : Disk m) (path : Path) : m Bool := do
  match ← disk.makeDirectory path.text with
  | .ok () => return true
  | .error (.refused .missing _) => return false
  | .error _ => disk.isDirectory path.text

/-- Makes the directory of the given names, the last name first, after those above it when one of
them is missing. Says whether it is there then. -/
def ensureDirectoriesFrom (disk : Disk m) (slashes : Nat) : List String → m Bool
  | [] => disk.ensureDirectory ⟨slashes, []⟩
  | name :: above => do
    let path : Path := ⟨slashes, (name :: above).reverse⟩
    match ← disk.makeDirectory path.text with
    | .ok () => return true
    | .error (.refused .missing _) =>
      if ← disk.ensureDirectoriesFrom slashes above then disk.ensureDirectory path else return false
    | .error _ => disk.isDirectory path.text

/-- Makes a directory and those above it that are missing. Says whether it is there then. -/
def ensureDirectories (disk : Disk m) (path : Path) : m Bool :=
  disk.ensureDirectoriesFrom path.slashes path.names.reverse

end Disk

end Reckoner
