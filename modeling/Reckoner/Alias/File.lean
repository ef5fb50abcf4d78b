import Reckoner.Alias.Table
import Reckoner.Json.Reader
import Reckoner.Output
import Reckoner.Storage.Disk
import Reckoner.Text.Lines

/-!
# Alias files

An alias file is a JSON object. Each key lists words, divided by commas, and its value names the
symbol that they stand for; the key `prefix_units` is kept for a list of prefix units. Whatever is
wrong with a file, the failure is told as a failure to load it.
-/

namespace Reckoner

namespace Alias

/-- The key of the prefix units in a configuration. -/
def unitsKey : String := "prefix_units"

/-- The fields of a configuration that bind words. -/
def bindingFields (fields : List (String × Json)) : List (String × Json) :=
  fields.filter (·.1 ≠ unitsKey)

/-- The words that a key lists. -/
def wordsOfKey (key : String) : List String :=
  (Text.splitAt ',' key.toList).map fun piece => String.ofList (Text.trim piece)

/-- A group of words and the value it is bound to. -/
abbrev Group := List String × Json

/-- The groups with one more. A group of the same words keeps its place and takes the new value. -/
def putGroup (groups : List Group) (words : List String) (name : Json) : List Group :=
  if groups.any (·.1 = words) then
    groups.map fun group => if group.1 = words then (words, name) else group
  else groups ++ [(words, name)]

/-- The groups of words that the fields of an alias file bind. -/
def groupsOf (fields : List (String × Json)) : List Group :=
  (bindingFields fields).foldl (fun groups (key, name) => putGroup groups (wordsOfKey key) name) []

/-- The binding of a group of words. -/
def bindingOfGroup (group : Group) : Binding :=
  ⟨.array (group.1.map .string), group.2⟩

/-- Why a document that is not an object is no alias file. -/
def notAnObject : Json → String
  | .array _ => "pop expected at most 1 argument, got 2"
  | .string _ => "'str' object has no attribute 'pop'"
  | .int _ => "'int' object has no attribute 'pop'"
  | .float _ => "'float' object has no attribute 'pop'"
  | .bool _ => "'bool' object has no attribute 'pop'"
  | .null | .object _ => "'NoneType' object has no attribute 'pop'"

end Alias

namespace Change

variable {α : Type}

/-- A failure on the way is a failure to load, and is told as it is met. -/
def loading (change : Change α) : Change α :=
  change.adaptExcept fun e => .unloadable e.message

/-- Takes over the fields of an alias file, and counts its groups of words. -/
def loadFields (fields : List (String × Json)) : Change Nat := do
  let groups := Alias.groupsOf fields
  merge (.groups (groups.map Alias.bindingOfGroup)) (fields.lookup Alias.unitsKey)
  return groups.length

/-- Takes over the content of an alias file, or what came of reading it. -/
def load (content : Except FileError String) : Change Nat :=
  match content with
  | .error e => throw (.unloadable e.message)
  | .ok text =>
    match Json.ofText text with
    | .error message => throw (.unloadable message)
    | .ok (.object fields) => loading (loadFields fields)
    | .ok other => throw (.unloadable (Alias.notAnObject other))

/-- Remarks on a loaded file. -/
def loadRemark (groups : Nat) (path : String) : Remark :=
  ⟨.aliases, s!"loaded {groups} alias groups from {path}"⟩

/-- Takes over the content of the alias file at a path. -/
def loadFrom (path : String) (content : Except FileError String) : Change Remark := do
  let groups ← load content
  return loadRemark groups path

/-- Reads an alias file. -/
def ofFile {m : Type → Type} [Monad m] (disk : Disk m) (path : String) : m (Change Remark) := do
  return loadFrom path (← disk.readText path)

end Change

/-- Takes over an alias file. -/
def Aliases.loadFile {m : Type → Type} [Monad m] (disk : Disk m) (a : Aliases) (path : String) :
    m (Except AliasError (Aliases × Remark)) := do
  let change ← Change.ofFile disk path
  return (change.outcome a).map Prod.swap

end Reckoner
