import Reckoner.Alias.File
import Reckoner.Alias.Report

/-!
# The alias command

A line that starts with the word `ALIAS` in any case shows the aliases or, when a JSON object
follows the word, configures them. A command that is rejected says why. Only a document that holds
too many arrays and objects inside one another is no answer.
-/

namespace Reckoner

namespace AliasCommand

/-- The letters of the command word, each with the characters whose upper case is or starts
with it. -/
def letters : List (List Char) :=
  [['A', 'a'], ['L', 'l'], ['I', 'i', 'ı'], ['A', 'a'], ['S', 's', 'ſ', 'ß', 'ﬅ', 'ﬆ']]

/-- What follows letters at the start of a text. -/
def afterLetters : List (List Char) → List Char → Option (List Char)
  | [], cs => some cs
  | _ :: _, [] => none
  | letter :: letters, c :: cs => if c ∈ letter then afterLetters letters cs else none

/-- What follows the command word on a line; none when the line is no alias command. -/
def argument? (line : String) : Option String :=
  (afterLetters letters (Text.trim line.toList)).map fun rest => String.ofList (Text.trim rest)

/-- The line that confirms one binding. -/
def confirmation (word : String) (name : Json) : String :=
  Text.alignRight 12 word ++ " → " ++ name.display

/-- The lines that confirm the bindings of a configuration, in the order of their words. -/
def confirmations (fields : List (String × Json)) : List String :=
  (Text.sortByKey (·.1) fields).map fun (word, name) => confirmation word name

/-- The lines that say why a command was rejected. -/
def rejection (message : String) (conflicts : List Conflict) : List String :=
  "[error] >>> Failed to configure aliases:" :: message ::
    conflicts.map fun conflict => " - " ++ conflict.describe

/-- Takes over a configuration. -/
def configure (a : Aliases) (document : Json) : Aliases × List String :=
  match document with
  | .object fields =>
    let bindings := Alias.bindingFields fields
    match Change.merge (.value (.object bindings)) (fields.lookup Alias.unitsKey) a with
    | .ok () a => (a, "[ok] >>> Aliases updated." :: confirmations bindings)
    | .error e a => (a, rejection e.message e.conflicts)
  | _ => (a, rejection "ALIAS expects a JSON object" [])

/-- Carries out a command with its argument. Gives the aliases afterwards and the lines to print, or
the container that stands inside too many others. -/
def run (a : Aliases) (argument : String) : Except Json.Container (Aliases × List String) :=
  if argument = "" then .ok (a, a.reportLines)
  else
    match Json.readDocument Json.maxDepth argument.toList with
    | .ok document => .ok (configure a document)
    | .error (.nesting container) => .error container
    | .error stop => .ok (a, rejection (stop.message argument.toList) [])

end AliasCommand

end Reckoner
