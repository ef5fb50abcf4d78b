import Reckoner.Batch
import Reckoner.CommandLine.Options
import Reckoner.Session.Run

/-!
# Running a command line

A command line without arguments, without a source, or with `--repl` opens a session; any other one
is a batch run. The report says how the program ends, what it prints, and what it complains about.
Remarks are among the complaints when `--verbose` asks for them.
-/

namespace Reckoner

namespace CommandLine

/-- How the program ends: with a status, or broken off by a failure. -/
inductive Ending where
  | status (code : Nat)
  | broken (failure : Session.Failure)

/-- What the program did. The lines are those of the standard output and of the error output. -/
structure Report where
  ending : Ending
  printed : List String
  complaints : List String

/-- What a command line asks the program to do. -/
inductive Task where
  | help
  | misuse (error : UsageError)
  | session (session : Session) (showsRemarks : Bool)
  | batch (request : Batch.Request) (showsRemarks : Bool)

/-- The batch run that options ask for on a source. -/
def Options.request (o : Options) (source : String) : Batch.Request :=
  { source, isText := o.isText, format := o.format, out := o.out, pretty := o.pretty,
    config := o.config }

/-- The task of options. -/
def Options.task (o : Options) : Task :=
  let session := Task.session (.canonical (o.format.map Format.name) o.verbose) o.verbose
  match o.source with
  | none => session
  | some source => if o.session then session else .batch (o.request source) o.verbose

/-- The task of a command line. -/
def Task.ofArguments (arguments : List String) : Task :=
  match Options.ofArguments arguments with
  | .ok options => options.task
  | .error .help => .help
  | .error (.misuse e) => .misuse e

/-- The lines that show how the program is used. -/
def usage : List String :=
  ["usage: tally [-h] [-s] [-f \x7binfix,sexpr,json\x7d] [-o OUTFILE] [-p]",
   "             [-c ALIASFILE] [--repl] [--verbose]",
   "             [source]"]

/-- The lines of the help. -/
def helpLines : List String :=
  usage ++
    ["",
     "positional arguments:",
     "  source                Filename or raw source (with -s)",
     "",
     "options:",
     "  -h, --help            show this help message and exit",
     "  -s, --string          Interpret source as literal string",
     "  -f \x7binfix,sexpr,json\x7d, --format \x7binfix,sexpr,json\x7d",
     "                        Output format (default: infix)",
     "  -o OUTFILE, --out OUTFILE",
     "                        Output to file",
     "  -p, --pretty          Show output with banners",
     "  -c ALIASFILE, --config ALIASFILE",
     "                        Load aliases from a JSON file",
     "  --repl                Launch interactive REPL instead of rendering",
     "  --verbose             Debug logging / verbose REPL mode"]

/-- The lines of remarks that are shown. -/
def shownRemarks (shows : Bool) (o : Output) : List String :=
  if shows then o.remarks.map Remark.line else []

/-- The report on a command line that is misused. -/
def misuseReport (e : UsageError) : Report :=
  ⟨.status 2, [], usage ++ ["tally: error: " ++ e.message]⟩

/-- The report on a batch run. A setting that names no format breaks the program off. -/
def batchReport (showsRemarks : Bool) (o : Output) (outcome : Except Batch.Failure Unit) : Report :=
  let remarks := shownRemarks showsRemarks o
  match outcome with
  | .ok () => ⟨.status 0, o.printed, remarks⟩
  | .error (.rendering .noFormat) => ⟨.broken (.rendering .noFormat), o.printed, remarks⟩
  | .error e => ⟨.status 1, o.printed, remarks ++ ["error: " ++ e.message]⟩

/-- The report on a session. -/
def sessionReport (showsRemarks : Bool) (step : Session.Step) : Report :=
  let ending :=
    match step.course with
    | .broken failure => .broken failure
    | _ => .status 0
  ⟨ending, step.output.printed, shownRemarks showsRemarks step.output⟩

/-- Carries out a command line. A session is fed with the given lines. -/
def run {m : Type → Type} [Monad m] (disk : Disk m) (env : Surroundings) (keepsHistory : Bool)
    (arguments : List String) (lines : List (Option String)) : m Report := do
  match Task.ofArguments arguments with
  | .help => return ⟨.status 0, helpLines, []⟩
  | .misuse e => return misuseReport e
  | .session s shows => return sessionReport shows (← s.run disk env keepsHistory lines)
  | .batch request shows =>
    let (output, outcome) ← Batch.run disk request
    return batchReport shows output outcome

/-- Whether a text stands somewhere in another one. -/
def occursIn (text : List Char) : List Char → Bool
  | [] => text.isEmpty
  | c :: cs => text.isPrefixOf (c :: cs) || occursIn text cs

/-- Whether arguments show that a test run started the program. -/
def isTestStart (arguments : List String) : Bool :=
  arguments.any fun argument => occursIn "pytest".toList argument.toList

/-- Carries out a command line when the program is started by itself and not as a command. Such a
start does nothing in a test run. -/
def runByItself {m : Type → Type} [Monad m] (disk : Disk m) (env : Surroundings)
    (keepsHistory : Bool) (arguments : List String) (lines : List (Option String)) : m Report := do
  if isTestStart arguments then return ⟨.status 0, [], []⟩
  else run disk env keepsHistory arguments lines

end CommandLine

end Reckoner
