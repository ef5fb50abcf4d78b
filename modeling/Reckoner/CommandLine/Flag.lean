import Reckoner.Render.Format
import Reckoner.Text.Quoted
import Reckoner.Unicode.DecimalDigit

/-!
# Flags

The flags of the command line, how they are spelled, and what is wrong with a command line that
misuses them.
-/

namespace Reckoner

namespace CommandLine

/-- A flag. -/
inductive Flag where
  | help
  | text
  | format
  | out
  | pretty
  | config
  | session
  | verbose
  deriving DecidableEq, Repr

namespace Flag

/-- Every flag. -/
def all : List Flag := [help, text, format, out, pretty, config, session, verbose]

/-- The letter that a flag goes by after one dash. -/
def letter? : Flag → Option Char
  | help => some 'h'
  | text => some 's'
  | format => some 'f'
  | out => some 'o'
  | pretty => some 'p'
  | config => some 'c'
  | session | verbose => none

/-- The word that a flag goes by after two dashes. -/
def word : Flag → String
  | help => "help"
  | text => "string"
  | format => "format"
  | out => "out"
  | pretty => "pretty"
  | config => "config"
  | session => "repl"
  | verbose => "verbose"

/-- Whether a flag is given a value. -/
def takesValue : Flag → Bool
  | format | out | config => true
  | _ => false

/-- The spelling of a flag by its word. -/
def longSpelling (f : Flag) : String := "--" ++ f.word

/-- The spellings of a flag. -/
def spellings (f : Flag) : List String :=
  match f.letter? with
  | some letter => [String.ofList ['-', letter], f.longSpelling]
  | none => [f.longSpelling]

/-- The flag of a letter. -/
def ofLetter? (c : Char) : Option Flag :=
  all.find? (·.letter? = some c)

/-- The flag of a spelling. -/
def ofSpelling? (s : String) : Option Flag :=
  all.find? (·.spellings.contains s)

end Flag

-- ---------------------------------------------------------------------------
-- Errors
-- ---------------------------------------------------------------------------

/-- What is wrong with a command line. -/
inductive UsageError where
  | ambiguous (argument : String) (candidates : List String)
  | missingValue (flag : Flag)
  | idleValue (flag : Flag) (value : String)
  | unknownFormat (name : String)
  | unrecognized (arguments : List String)
  deriving DecidableEq, Repr

namespace UsageError

/-- A wording that is about a flag. -/
def about (f : Flag) (wording : String) : String :=
  "argument " ++ "/".intercalate f.spellings ++ ": " ++ wording

/-- The message of an error. -/
def message : UsageError → String
  | ambiguous argument candidates =>
    "ambiguous option: " ++ argument ++ " could match " ++ ", ".intercalate candidates
  | missingValue flag => about flag "expected one argument"
  | idleValue flag value => about flag ("ignored explicit argument " ++ Text.quoted value)
  | unknownFormat name =>
    let names := Format.all.map fun format => Text.quoted format.name
    about .format <|
      "invalid choice: " ++ Text.quoted name ++ " (choose from " ++ ", ".intercalate names ++ ")"
  | unrecognized arguments => "unrecognized arguments: " ++ " ".intercalate arguments

end UsageError

end CommandLine

end Reckoner
