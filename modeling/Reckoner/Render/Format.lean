import Reckoner.Render.Document
import Reckoner.Render.Parenthesised
import Reckoner.Render.Tagged
import Reckoner.Unicode.Casing

/-!
# Formats

Trees are written in one of three formats, one line for each tree. A format is chosen by its name in
any case.
-/

namespace Reckoner

/-- The greatest depth of a tree that is written when the program has just been entered. -/
def maxTreeDepth : Nat := 490

/-- A written form of trees. -/
inductive Format where
  | parenthesised
  | tagged
  | document
  deriving DecidableEq, Repr, Inhabited

namespace Format

/-- Every format. -/
def all : List Format := [parenthesised, tagged, document]

/-- The name of a format. -/
def name : Format → String
  | parenthesised => "infix"
  | tagged => "sexpr"
  | document => "json"

/-- The format of a name in lower case. -/
def ofExactName? (name : String) : Option Format :=
  all.find? (·.name = name)

/-- The format of a name in any case. -/
def ofName (name : String) : Except Render.Fault Format :=
  let name := Unicode.toLower name
  match ofExactName? name with
  | some format => .ok format
  | none => .error (.unknownFormat name)

/-- The format that a setting names, if it names one. -/
def ofSetting (setting : Option String) : Except Render.Fault Format :=
  match setting with
  | some name => ofName name
  | none => .error .noFormat

/-- The form in which a setting is shown. One that names no format is an empty list. -/
def shown (setting : Option String) : String :=
  setting.getD "[]"

/-- The text of one tree of at most the given height. -/
def writeWithin (height : Nat) (format : Format) (n : Node) : Render.Writing :=
  match format with
  | parenthesised => Render.parenthesised height n
  | tagged => Render.tagged height n
  | document => return (← Render.document height n).write

/-- The text of a list of trees of at most the given height, one line for each. -/
def renderWithin (height : Nat) (format : Format) (trees : List Node) : Render.Writing := do
  return "\n".intercalate (← trees.mapM (format.writeWithin height))

/-- The text of a list of trees, one line for each. -/
def render (format : Format) (trees : List Node) : Render.Writing :=
  format.renderWithin maxTreeDepth trees

/-- The text of a list of which every item must be a tree. -/
def renderItems (format : Format) (items : List (Option Node)) : Render.Writing :=
  match items.mapM id with
  | some trees => format.render trees
  | none => .error .notATree

theorem ofExactName?_name (format : Format) : ofExactName? format.name = some format := by
  cases format <;> decide

end Format

end Reckoner
