import Reckoner.CommandLine.Flag
import Reckoner.Text.Lines

/-!
# Options

The arguments of the command line are first sorted into flags and values, and then taken one after
another. A flag may be cut short as long as one flag only starts like that, letters of flags may be
joined after one dash, and a value may be attached to its flag. After two dashes every argument is a
value. The first value that no flag takes is the source. Two dashes that are attached to a flag
leave it without a value.
-/

namespace Reckoner

namespace CommandLine

-- ---------------------------------------------------------------------------
-- Arguments
-- ---------------------------------------------------------------------------

/-- What an argument is. -/
inductive Argument where
  | value (text : String)
  /-- Two dashes. -/
  | separator
  /-- A flag, with what stands behind an equals sign. -/
  | spelled (flag : Flag) (assigned : Option String)
  /-- A flag spelled by its letter, with what is joined to it. -/
  | joined (flag : Flag) (letters : List Char)
  | unknown (text : String)

namespace Argument

/-- An argument as it was written, where it is not a flag. -/
def raw : Argument → String
  | value text | unknown text => text
  | separator => "--"
  | spelled flag _ | joined flag _ => flag.longSpelling

/-- The parts of a text before and behind the first equals sign. -/
def splitEquals (cs : List Char) : Option (String × String) :=
  match cs.dropWhile (· ≠ '=') with
  | [] => none
  | _ :: behind => some (String.ofList (cs.takeWhile (· ≠ '=')), String.ofList behind)

/-- Whether a text is a number with a minus sign: digits, or digits with a point before the last of
them. A newline at the end does not count. -/
def isNegativeNumber (cs : List Char) : Bool :=
  match cs with
  | '-' :: rest =>
    let rest := if rest.getLast? = some '\n' then rest.dropLast else rest
    let isDigit := Unicode.isDecimalDigit
    match rest.dropWhile isDigit with
    | [] => !rest.isEmpty
    | '.' :: behind => !behind.isEmpty && behind.all isDigit
    | _ => false
  | _ => false

/-- The spellings by words that start with a text, each with its flag. -/
def completions (start : String) : List (Flag × String) :=
  let spelled := Flag.all.map fun flag => (flag, flag.longSpelling)
  spelled.filter fun (_, spelling) => start.toList.isPrefixOf spelling.toList

/-- An argument that starts with two dashes and is no spelling, by the one flag that it is cut short
from. -/
def completed (text : String) : Except UsageError (Option Argument) :=
  let (start, assigned) :=
    match splitEquals text.toList with
    | some (start, assigned) => (start, some assigned)
    | none => (text, none)
  match completions start with
  | [] => .ok none
  | [(flag, _)] => .ok (some (spelled flag assigned))
  | candidates => .error (.ambiguous text (candidates.map (·.2)))

/-- An argument that starts with a dash and is no spelling of a flag. -/
def abbreviated (text : String) : Except UsageError (Option Argument) :=
  match text.toList with
  | '-' :: '-' :: _ => completed text
  | '-' :: letter :: letters => .ok ((Flag.ofLetter? letter).map (joined · letters))
  | _ => .ok none

/-- A flag with something behind an equals sign. Behind a letter it is joined to the letter. -/
def assigned? (text : String) : Option Argument := do
  let (spelling, assigned) ← splitEquals text.toList
  let flag ← Flag.ofSpelling? spelling
  if spelling = flag.longSpelling ∨ assigned = "" then return spelled flag (some assigned)
  else return joined flag assigned.toList

/-- What an argument is. One that starts with a dash is a value after all when it is a single dash,
a negative number, or holds a space. -/
def classify (text : String) : Except UsageError Argument := do
  if text.toList.head? ≠ some '-' ∨ text = "-" then return value text
  if let some flag := Flag.ofSpelling? text then return spelled flag none
  if let some argument := assigned? text then return argument
  if let some argument ← abbreviated text then return argument
  if isNegativeNumber text.toList ∨ text.toList.contains ' ' then return value text
  return unknown text

/-- What each argument is. After two dashes every one is a value. -/
def classifyAll : List String → Except UsageError (List Argument)
  | [] => .ok []
  | text :: texts =>
    if text = "--" then .ok (separator :: texts.map value)
    else do
      let argument ← classify text
      return argument :: (← classifyAll texts)

end Argument

-- ---------------------------------------------------------------------------
-- Settings
-- ---------------------------------------------------------------------------

/-- A flag with the value it is given. -/
structure Setting where
  flag : Flag
  value : Option String

/-- A flag with the text that is attached to it. Two dashes are no value. -/
def Setting.attached (flag : Flag) (text : String) : Setting :=
  ⟨flag, if text = "--" then none else some text⟩

/-- What was taken at a flag: settings, and the arguments that are left. -/
structure Taken where
  settings : List Setting
  rest : List Argument

/-- What was taken, after the setting of a flag without a value. -/
def Taken.after (flag : Flag) (t : Taken) : Taken :=
  { t with settings := ⟨flag, none⟩ :: t.settings }

/-- Takes a flag that nothing is attached to. -/
def takeFlag (flag : Flag) (rest : List Argument) : Except UsageError Taken :=
  if flag.takesValue then
    match rest with
    | .value text :: rest => .ok ⟨[⟨flag, some text⟩], rest⟩
    | _ => .error (.missingValue flag)
  else .ok ⟨[⟨flag, none⟩], rest⟩

/-- Takes a flag with what stands behind an equals sign. -/
def takeAssigned (flag : Flag) (assigned : String) (rest : List Argument) :
    Except UsageError Taken :=
  if flag.takesValue then .ok ⟨[.attached flag assigned], rest⟩
  else .error (.idleValue flag assigned)

/-- Takes a flag with what is joined to its letter. A flag that takes a value takes all of it;
behind any other flag it must go on with the letter of a flag. -/
def takeJoined (flag : Flag) : List Char → List Argument → Except UsageError Taken
  | [], rest => takeFlag flag rest
  | letter :: letters, rest =>
    let text := String.ofList (letter :: letters)
    if flag.takesValue then .ok ⟨[.attached flag text], rest⟩
    else
      match Flag.ofLetter? letter with
      | none => .error (.idleValue flag text)
      | some next => (takeJoined next letters rest).map (.after flag)

-- ---------------------------------------------------------------------------
-- Options
-- ---------------------------------------------------------------------------

/-- What a command line asks for. -/
structure Options where
  source : Option String
  isText : Bool
  /-- None when the flag is left without a value. -/
  format : Option Format
  out : Option String
  pretty : Bool
  config : Option String
  session : Bool
  verbose : Bool

/-- The options of a command line without arguments. -/
def Options.default : Options :=
  { source := none, isText := false, format := some .parenthesised, out := none, pretty := false,
    config := none, session := false, verbose := false }

/-- Why a command line leads to no run. -/
inductive Halt where
  /-- The help is asked for. -/
  | help
  | misuse (error : UsageError)
  deriving DecidableEq, Repr

/-- The options with one more setting. -/
def Options.set (o : Options) (setting : Setting) : Except Halt Options :=
  match setting.flag with
  | .help => .error .help
  | .text => .ok { o with isText := true }
  | .format =>
    match setting.value with
    | none => .ok { o with format := none }
    | some name =>
      match Format.ofExactName? name with
      | some format => .ok { o with format := some format }
      | none => .error (.misuse (.unknownFormat name))
  | .out => .ok { o with out := setting.value }
  | .pretty => .ok { o with pretty := true }
  | .config => .ok { o with config := setting.value }
  | .session => .ok { o with session := true }
  | .verbose => .ok { o with verbose := true }

/-- What has been taken of a command line: the options, whether the source is still to come, and the
arguments that have no meaning. -/
structure Progress where
  options : Options
  awaitsSource : Bool
  extras : List String

/-- The source is no longer to come. -/
def Progress.settle (p : Progress) (source : Option String) (extras : List Argument) : Progress :=
  { options := { p.options with source }, awaitsSource := false,
    extras := p.extras ++ extras.map Argument.raw }

/-- Arguments that have no meaning. -/
def Progress.discard (p : Progress) (extras : List Argument) : Progress :=
  { p with extras := p.extras ++ extras.map Argument.raw }

/-- Takes two dashes and the values after them. The first of them is the source when it is still to
come. -/
def Progress.finish (p : Progress) (rest : List Argument) : Progress :=
  if p.awaitsSource then
    match rest with
    | .value text :: rest => p.settle (some text) rest
    | rest => p.settle none rest
  else p.discard (.separator :: rest)

/-- Takes arguments one after another, at most `fuel` of them. Two dashes right behind the source
are dropped. -/
def Progress.take : Nat → Progress → List Argument → Except Halt Progress
  | 0, p, _ => .ok p
  | _, p, [] => .ok p
  | fuel + 1, p, argument :: rest =>
    let goOn (taken : Except UsageError Taken) : Except Halt Progress := do
      let taken ← taken.mapError .misuse
      let options ← taken.settings.foldlM Options.set p.options
      take fuel { p with options } taken.rest
    match argument with
    | .spelled flag none => goOn (takeFlag flag rest)
    | .spelled flag (some assigned) => goOn (takeAssigned flag assigned rest)
    | .joined flag letters => goOn (takeJoined flag letters rest)
    | .separator => .ok (p.finish rest)
    | .unknown _ => take fuel (p.discard [argument]) rest
    | .value text =>
      if p.awaitsSource then
        match rest with
        | .separator :: rest => .ok (p.settle (some text) rest)
        | rest => take fuel (p.settle (some text) []) rest
      else take fuel (p.discard [argument]) rest

/-- The options of a command line. -/
def Options.ofArguments (texts : List String) : Except Halt Options := do
  let arguments ← (Argument.classifyAll texts).mapError .misuse
  let p ← Progress.take arguments.length ⟨.default, true, []⟩ arguments
  if p.extras.isEmpty then return p.options
  else .error (.misuse (.unrecognized p.extras))

end CommandLine

end Reckoner
