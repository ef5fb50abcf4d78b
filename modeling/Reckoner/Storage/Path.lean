import Reckoner.Text.Lines

/-!
# Paths

A path is the names that lead to a file, from the working directory or from the root. Empty names
and single dots are dropped when a path is read; two dots are kept, because the name before them may
be a link. A path that starts with exactly two slashes keeps both of them.
-/

namespace Reckoner

/-- A path: the number of slashes it starts with, and its names. -/
structure Path where
  slashes : Nat
  names : List String
  deriving DecidableEq, Repr

namespace Path

/-- The pieces of a text between its slashes. -/
def segments (text : String) : List String :=
  (Text.splitAt '/' text.toList).map String.ofList

/-- The number of slashes that a path keeps of those it starts with. -/
def keptSlashes (written : Nat) : Nat :=
  if written ≤ 2 then written else 1

/-- The path that a text writes. -/
def ofText (text : String) : Path :=
  { slashes := keptSlashes (text.toList.takeWhile (· = '/')).length
    names := (segments text).filter fun name => name ≠ "" ∧ name ≠ "." }

/-- The text of a path. The path without names that starts nowhere is a dot. -/
def text (p : Path) : String :=
  if p.slashes = 0 ∧ p.names = [] then "."
  else String.ofList (List.replicate p.slashes '/') ++ "/".intercalate p.names

/-- The path of an entry in a directory. -/
def entry (p : Path) (name : String) : Path :=
  { p with names := p.names ++ [name] }

end Path

end Reckoner
