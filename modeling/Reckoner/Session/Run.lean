import Reckoner.Session.Basic
import Reckoner.Session.History

/-!
# Running a session

A session greets, takes over the alias file when there is one, answers its lines, and keeps the
history.
-/

namespace Reckoner

namespace Session

variable {m : Type → Type} [Monad m]

/-- A session as it starts. -/
def canonical (format : Option String) (verbose : Bool) : Session :=
  { format, verbose, aliases := .canonical }

/-- The line on the alias file. -/
def configLine (text : String) : String :=
  "[config] >>> " ++ text

/-- Takes over the alias file when there is one. -/
def loadConfig (disk : Disk m) (env : Surroundings) (s : Session) : m (Session × Output) := do
  match env.configFile.map Path.text with
  | none => return (s, .nothing)
  | some path =>
    if ← disk.isPresent path then
      let change ← Change.ofFile disk path
      match change s.aliases with
      | .ok remark aliases =>
        let output : Output := ⟨[configLine ("Loaded aliases from " ++ path)], [remark]⟩
        return ({ s with aliases }, output)
      | .error e aliases => return ({ s with aliases }, .ofLine (configLine e.message))
    else return (s, .nothing)

/-- Greets and takes over the alias file. -/
def start (disk : Disk m) (env : Surroundings) (s : Session) : m (Session × Output) := do
  let (s, output) ← s.loadConfig disk env
  return (s, .ofLine s.greeting ++ output)

/-- Runs a session on lines, with a history or without. -/
def run (disk : Disk m) (env : Surroundings) (keepsHistory : Bool) (s : Session)
    (lines : List (Option String)) : m Step := do
  let (s, output) ← s.start disk env
  let entries ← if keepsHistory then History.load disk env else pure []
  let later := s.feed lines
  if keepsHistory then History.save disk env entries
  return { later with output := output ++ later.output }

end Session

end Reckoner
