import Reckoner.Storage.Path

/-!
# Locations

Where the alias file and the history are kept. Each of them has a directory of its own: the one that
is set for this program, else a subdirectory of the one that is set for all programs, else a
subdirectory of the home directory. A setting that is empty counts as missing.
-/

namespace Reckoner

/-- What the environment says about directories. -/
structure Surroundings where
  /-- The directory of the alias file. -/
  configDir : Option String
  /-- The directory of the history. -/
  stateDir : Option String
  /-- The directory under which programs keep their configuration. -/
  sharedConfigDir : Option String
  /-- The directory under which programs keep their state. -/
  sharedStateDir : Option String
  /-- The home directory. -/
  home : Option String

namespace Surroundings

/-- A setting that is not empty. -/
def given (setting : Option String) : Option Path :=
  match setting with
  | some text => if text = "" then none else some (.ofText text)
  | none => none

/-- The home directory without the slashes at its end. One that is named by a tilde is not known. -/
def homePath (env : Surroundings) : Option Path :=
  match env.home with
  | none => none
  | some home =>
    if home.toList.head? = some '~' then none
    else
      let trimmed := (home.toList.reverse.dropWhile (· = '/')).reverse
      some (.ofText (if trimmed.isEmpty then "/" else String.ofList trimmed))

/-- The directory that is set for this program, else one under the shared directory or the home
directory. -/
def choose (own shared : Option String) (home : Option Path) (underHome : List String) :
    Option Path :=
  given own
    <|> (given shared).map (·.entry "tally")
    <|> home.map fun path => underHome.foldl Path.entry path

/-- The directory of the alias file. -/
def configDirectory (env : Surroundings) : Option Path :=
  choose env.configDir env.sharedConfigDir env.homePath [".config", "tally"]

/-- The alias file. -/
def configFile (env : Surroundings) : Option Path :=
  env.configDirectory.map (·.entry "aliases.json")

/-- The directory of the history. -/
def historyDirectory (env : Surroundings) : Option Path :=
  choose env.stateDir env.sharedStateDir env.homePath [".local", "state", "tally"]

/-- The file of the history in its directory. -/
def historyFileIn (directory : Path) : Path :=
  directory.entry "history"

end Surroundings

end Reckoner
