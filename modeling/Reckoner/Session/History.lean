import Reckoner.Storage.Disk
import Reckoner.Storage.Locations

/-!
# The history

The history is kept in a file, one entry on each line. The entries of earlier sessions are read when
a session starts, and the last of them are written back when it ends. A history that cannot be read
or written is left alone silently.
-/

namespace Reckoner

namespace History

/-- The most entries that are kept. -/
def maxEntries : Nat := 1000

/-- An entry: the octets of a line. -/
abbrev Entry := List UInt8

/-- The lines of octets that are ended by a newline, without their ends. -/
def linesOf : List UInt8 → List Entry
  | [] => []
  | b :: bs =>
    if b = 10 then [] :: linesOf bs
    else
      match linesOf bs with
      | [] => []
      | line :: lines => (b :: line) :: lines

/-- A line without the carriage return at its end, up to the first null octet. -/
def plain (line : Entry) : Entry :=
  let line := if line.getLast? = some 13 then line.dropLast else line
  line.takeWhile (· ≠ 0)

/-- Whether octets start with a number sign and a digit, as the time of an entry does. -/
def startsWithTime : List UInt8 → Bool
  | 35 :: b :: _ => 48 ≤ b && b ≤ 57
  | _ => false

/-- The entries of a history. When it starts with the time of an entry, the times are left out. -/
def entries (octets : List UInt8) : List Entry :=
  let timed := startsWithTime octets
  ((linesOf octets).map plain).filter fun line => !line.isEmpty && !(timed && startsWithTime line)

/-- The octets of a history: its last entries, each ended by a newline. -/
def octets (entries : List Entry) : List UInt8 :=
  (entries.drop (entries.length - maxEntries)).flatMap (· ++ [10])

variable {m : Type → Type} [Monad m]

/-- The file of the history, in a directory that is made when it is missing. -/
def file (disk : Disk m) (env : Surroundings) : m (Option Path) := do
  match env.historyDirectory with
  | none => return none
  | some directory =>
    if ← disk.ensureDirectories directory then return some (Surroundings.historyFileIn directory)
    else return none

/-- The entries of earlier sessions. -/
def load (disk : Disk m) (env : Surroundings) : m (List Entry) := do
  match ← file disk env with
  | none => return []
  | some path =>
    match ← disk.read path.text with
    | .ok octets => return entries octets
    | .error _ => return []

/-- Writes entries back. -/
def save (disk : Disk m) (env : Surroundings) (entries : List Entry) : m Unit := do
  match ← file disk env with
  | none => return ()
  | some path =>
    let _ ← disk.write path.text (octets entries)
    return ()

end History

end Reckoner
