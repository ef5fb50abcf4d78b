import Reckoner.CommandLine.Run

/-!
# The program

Carries out the command line on the disk of the system. A session reads its lines from the standard
input, one after another, behind a prompt.
-/

namespace Reckoner

namespace Program

-- ---------------------------------------------------------------------------
-- The disk of the system
-- ---------------------------------------------------------------------------

/-- Why the system refused an operation. -/
def refusalOf : IO.Error → Refusal
  | .noFileOrDirectory .. => .missing
  | .alreadyExists .. => .taken
  | .permissionDenied .. => .other 13 "Permission denied"
  | .inappropriateType _ code _ => if code = 20 then .notADirectory else .isADirectory
  | e => .other 5 (toString e)

/-- Carries out an operation on a path. -/
def attempt {α : Type} (path : String) (operation : IO α) : IO (Except FileError α) := do
  if path.toList.contains '\x00' then return .error .nullInPath
  else
    try
      return .ok (← operation)
    catch e =>
      return .error (.refused (refusalOf e) path)

/-- Whether an operation succeeds. -/
def holds (operation : IO Bool) : IO Bool := do
  try operation catch _ => return false

/-- The disk of the system. -/
def disk : Disk IO where
  read path := attempt path do return (← IO.FS.readBinFile path).toList
  write path octets := attempt path (IO.FS.writeBinFile path ⟨octets.toArray⟩)
  makeDirectory path := attempt path (IO.FS.createDir path)
  isPresent path := holds do
    let _ ← IO.FS.realPath path
    return true
  isDirectory path := holds do (← IO.FS.realPath path).isDir

/-- The surroundings of the program. -/
def surroundings : IO Surroundings := do
  return {
    configDir := ← IO.getEnv "TALLY_CONFIG_DIR"
    stateDir := ← IO.getEnv "TALLY_STATE_DIR"
    sharedConfigDir := ← IO.getEnv "XDG_CONFIG_HOME"
    sharedStateDir := ← IO.getEnv "XDG_STATE_HOME"
    home := ← IO.getEnv "HOME" }

-- ---------------------------------------------------------------------------
-- Runs
-- ---------------------------------------------------------------------------

/-- Prints lines. -/
def print (lines : List String) : IO Unit := do
  IO.print (Output.textOf lines)
  (← IO.getStdout).flush

/-- Complains in lines. -/
def complain (lines : List String) : IO Unit :=
  IO.eprint (Output.textOf lines)

/-- Shows output as it comes. -/
def say (showsRemarks : Bool) (o : Output) : IO Unit := do
  complain (CommandLine.shownRemarks showsRemarks o)
  print o.printed

/-- The next line of the standard input, without its end; none when there is none. -/
def nextLine : IO (Option String) := do
  IO.print ">>> "
  (← IO.getStdout).flush
  let line ← (← IO.getStdin).getLine
  if line.isEmpty then return none
  else return some (if line.endsWith "\n" then (line.dropEnd 1).toString else line)

/-- Answers lines until the session ends. Gives the status of the program. -/
partial def converse (showsRemarks : Bool) (s : Session) : IO UInt32 := do
  match ← nextLine with
  | none =>
    say showsRemarks Session.interrupted
    return 0
  | some line =>
    let step := s.step line
    say showsRemarks step.output
    match step.course with
    | .ongoing => converse showsRemarks step.session
    | .left => return 0
    | .broken failure =>
      complain ["error: " ++ failure.message]
      return 1

/-- Runs a session and keeps its history. -/
def runSession (showsRemarks : Bool) (s : Session) : IO UInt32 := do
  let env ← surroundings
  let (s, output) ← s.start disk env
  say showsRemarks output
  let entries ← History.load disk env
  let status ← converse showsRemarks s
  History.save disk env entries
  return status

/-- Reports on a run. -/
def deliver (r : CommandLine.Report) : IO UInt32 := do
  complain r.complaints
  print r.printed
  match r.ending with
  | .status code => return code.toUInt32
  | .broken _ => return 1

/-- Carries out a command line. -/
def run (arguments : List String) : IO UInt32 := do
  match CommandLine.Task.ofArguments arguments with
  | .session s showsRemarks => runSession showsRemarks s
  | _ => deliver (← CommandLine.run disk (← surroundings) true arguments [])

end Program

end Reckoner

def main (arguments : List String) : IO UInt32 :=
  Reckoner.Program.run arguments
