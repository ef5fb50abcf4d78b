import Reckoner.Alias.File
import Reckoner.Bounds
import Reckoner.Grammar.Remarks

/-!
# Batch runs

A batch run reads the expressions of a file, one on each line, or one expression that is given as
text, and writes their trees in a format. It is all or nothing: when a line cannot be read or a tree
cannot be written, nothing is printed and no file is changed.
-/

namespace Reckoner

namespace Batch

/-- What a batch run is asked to do. -/
structure Request where
  /-- A file name or, when `isText` holds, the text of an expression. -/
  source : String
  isText : Bool
  /-- None when the setting names none. -/
  format : Option Format
  /-- The file to write to; none is asked for when it is empty. -/
  out : Option String
  /-- Whether a banner is printed around the trees. -/
  pretty : Bool
  /-- The alias file; none is asked for when it is empty. -/
  config : Option String
  bounds : Bounds := .outermost

/-- Why a batch run fails. -/
inductive Failure where
  | unsupportedFile
  | file (error : FileError)
  | aliases (error : AliasError)
  | reading (error : ReadError)
  | rendering (fault : Render.Fault)

/-- The message of a failure. -/
def Failure.message : Failure → String
  | unsupportedFile => "Only .tally files are supported."
  | file error => error.message
  | aliases error => error.message
  | reading error => error.message
  | rendering fault => fault.message

/-- A setting that is not empty. -/
def given (setting : Option String) : Option String :=
  setting.filter (· ≠ "")

-- ---------------------------------------------------------------------------
-- Expressions
-- ---------------------------------------------------------------------------

/-- Whether a line holds an expression: it is neither blank nor a comment. -/
def isExpression (line : String) : Bool :=
  match Text.trim line.toList with
  | [] => false
  | c :: _ => c ≠ '#'

/-- The lines that hold an expression, with their numbers from `number` on. -/
def expressions (number : Nat) : List String → List (Nat × String)
  | [] => []
  | line :: lines =>
    if isExpression line then (number, line) :: expressions (number + 1) lines
    else expressions (number + 1) lines

/-- The lines of a source. A text that is given directly is one line. -/
def linesOf (isText : Bool) (text : String) : List String :=
  if isText then [text] else Text.splitLines text

/-- The remark on the tokens of a line. -/
def lineRemark (number : Nat) (tokens : List Token) : Remark :=
  ⟨.batch, s!"line {number}: {tokens.length} tokens"⟩

/-- The remarks on the reading of one line, and its tree. -/
def readLine (b : Bounds) (a : Aliases) (number : Nat) (line : String) :
    List Remark × Except ReadError Node :=
  match a.tokens line with
  | .error e => ([], .error (.lexing e))
  | .ok tokens =>
    let parsing := b.parse a.prefixUnits tokens
    (lineRemark number tokens :: parsing.remarks tokens, parsing.result.mapError .parsing)

/-- The remarks on the reading of numbered lines, and their trees. Reading stops at the first line
that is no expression. -/
def readLines (b : Bounds) (a : Aliases) :
    List (Nat × String) → List Remark × Except ReadError (List Node)
  | [] => ([], .ok [])
  | (number, line) :: lines =>
    match readLine b a number line with
    | (remarks, .error e) => (remarks, .error e)
    | (remarks, .ok tree) =>
      let (more, trees) := readLines b a lines
      (remarks ++ more, trees.map (tree :: ·))

/-- The text of trees in a format, if there is one. -/
def writeTrees (b : Bounds) (format : Option Format) (trees : List Node) : Render.Writing :=
  match format with
  | some format => b.render format trees
  | none => .error .noFormat

/-- The remarks on a source text, and the text of its trees. -/
def writeLines (b : Bounds) (a : Aliases) (format : Option Format) (lines : List String) :
    List Remark × Except Failure String :=
  let (remarks, trees) := readLines b a (expressions 1 lines)
  (remarks, do (writeTrees b format (← trees.mapError .reading)).mapError .rendering)

-- ---------------------------------------------------------------------------
-- Runs
-- ---------------------------------------------------------------------------

/-- The end of the name of a source file. -/
def fileSuffix : String := ".tally"

/-- The line around a banner. -/
def rule : String := "===================="

/-- What is printed on the trees before a file is written. -/
def announce (request : Request) (text : String) : Output :=
  if request.pretty then
    let name := Format.shown (request.format.map Format.name)
    .ofLines [rule, "Parse trees (" ++ name ++ ")", rule, text, rule, ""]
  else if (given request.out).isSome then .nothing
  else .ofLine text

/-- What is printed after a file was written. -/
def confirm (request : Request) (path : String) : Output :=
  if request.pretty then .ofLine ("(wrote to " ++ path ++ ")") else .nothing

variable {m : Type → Type} [Monad m]

/-- The text of the source. Only files whose name ends as it should are read. -/
def readSource (disk : Disk m) (request : Request) : m (Except Failure String) := do
  if request.isText then return .ok request.source
  else if fileSuffix.toList.isSuffixOf request.source.toList then
    return (← disk.readText request.source).mapError .file
  else return .error .unsupportedFile

/-- The aliases that expressions are read with, and the remark on their file. -/
def readAliases (disk : Disk m) (request : Request) : m (Except Failure (Aliases × Output)) := do
  match given request.config with
  | none => return .ok (.canonical, .nothing)
  | some path =>
    let loaded ← Aliases.canonical.loadFile disk path
    return (loaded.map fun (a, remark) => (a, Output.ofRemarks [remark])).mapError .aliases

/-- Prints the text of the trees and writes it to the file that is asked for. -/
def deliver (disk : Disk m) (request : Request) (text : String) :
    m (Output × Except Failure Unit) := do
  let printed := announce request text
  match given request.out with
  | none => return (printed, .ok ())
  | some path =>
    match ← disk.writeText path (text ++ "\n") with
    | .ok () => return (printed ++ confirm request path, .ok ())
    | .error e => return (printed, .error (.file e))

/-- Carries out a request. Gives the output and whether the run failed. -/
def run (disk : Disk m) (request : Request) : m (Output × Except Failure Unit) := do
  match ← readSource disk request with
  | .error e => return (.nothing, .error e)
  | .ok source =>
    match ← readAliases disk request with
    | .error e => return (.nothing, .error e)
    | .ok (a, loaded) =>
      let lines := linesOf request.isText source
      let (remarks, text) := writeLines request.bounds a request.format lines
      let told := loaded ++ .ofRemarks remarks
      match text with
      | .error e => return (told, .error e)
      | .ok text =>
        let (output, outcome) ← deliver disk request text
        return (told ++ output, outcome)

end Batch

end Reckoner
