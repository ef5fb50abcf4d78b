import Reckoner.Alias.Command
import Reckoner.Bounds
import Reckoner.Grammar.Remarks

/-!
# Sessions

A session answers lines one by one. It knows the format of its answers, whether it shows its work,
and the aliases. A line is a command or an expression; an expression that cannot be read or written
is answered with an error message, and the session goes on. Only a number that is too long, a
configuration that is nested too deeply, or a format that does not exist breaks a session off.

A line is answered one call further down than where the session was opened, so there is less room for
its expression.
-/

namespace Reckoner

/-- The state of a session. -/
structure Session where
  /-- The name of the format, which need not exist; none when the setting names none. -/
  format : Option String
  verbose : Bool
  aliases : Aliases
  bounds : Bounds := Bounds.outermost.below
  deriving Inhabited

namespace Session

-- ---------------------------------------------------------------------------
-- Expressions
-- ---------------------------------------------------------------------------

/-- What breaks a session off. -/
inductive Failure where
  | digits (limit : DigitLimit)
  | nesting (container : Json.Container)
  | parsing (stop : Stop)
  | rendering (fault : Render.Fault)

/-- The message of a failure. -/
def Failure.message : Failure → String
  | digits limit => limit.message
  | nesting container => container.tooDeep
  | parsing stop => stop.message
  | rendering fault => fault.message

/-- What an expression comes to: its written form, an error that is reported, or a failure. -/
inductive Verdict where
  | answer (text : String)
  | error (message : String)
  | failure (failure : Failure)

namespace Verdict

/-- The verdict on a text that is not made of tokens. -/
def ofLexError (e : LexError) : Verdict :=
  match e.fault with
  | .digits limit => failure (.digits limit)
  | _ => error e.message

/-- The verdict on tokens that are no expression. -/
def ofStop : Stop → Verdict
  | .error e => error e.message
  | stop => failure (.parsing stop)

/-- The verdict on a tree that cannot be written. -/
def ofFault : Render.Fault → Verdict
  | .tooDeep => error Render.Fault.tooDeep.message
  | fault => failure (.rendering fault)

/-- The verdict on a tree that is written. -/
def ofWriting : Render.Writing → Verdict
  | .ok text => answer text
  | .error fault => ofFault fault

end Verdict

/-- Shows tokens when the session shows its work. -/
def showTokens (s : Session) (tokens : List Token) : Except DigitLimit Output :=
  if s.verbose then return .ofLine ("[tokens] >>> " ++ (← Token.tracedList tokens))
  else return .nothing

/-- Shows a tree when the session shows its work. -/
def showTree (s : Session) (tree : Node) : Except Render.Fault Output :=
  if s.verbose then return .ofLine ("[tree] >>> " ++ (← s.bounds.render .tagged [tree]))
  else return .nothing

/-- The written form of a tree in the format of the session. -/
def write (s : Session) (tree : Node) : Render.Writing := do
  s.bounds.render (← Format.ofSetting s.format) [tree]

/-- The output on the way to the written form of a tree, and the verdict. -/
def present (s : Session) (tree : Node) : Output × Verdict :=
  match s.showTree tree with
  | .ok shown => (shown, .ofWriting (s.write tree))
  | .error fault => (.nothing, .ofFault fault)

/-- The output on the way to the tree of tokens and its written form, and the verdict. -/
def parse (s : Session) (tokens : List Token) : Output × Verdict :=
  let parsing := s.bounds.parse s.aliases.prefixUnits tokens
  let remarks := Output.ofRemarks (parsing.remarks tokens)
  match parsing.result with
  | .ok tree =>
    let (output, verdict) := s.present tree
    (remarks ++ output, verdict)
  | .error stop => (remarks, .ofStop stop)

/-- The output on the way to the verdict on an expression, and the verdict. -/
def evaluate (s : Session) (source : String) : Output × Verdict :=
  match s.aliases.tokens source with
  | .error e => (.nothing, .ofLexError e)
  | .ok tokens =>
    match s.showTokens tokens with
    | .error limit => (.nothing, .failure (.digits limit))
    | .ok shown =>
      let (output, verdict) := s.parse tokens
      (shown ++ output, verdict)

-- ---------------------------------------------------------------------------
-- Lines
-- ---------------------------------------------------------------------------

/-- How a session stands after a line. -/
inductive Course where
  | ongoing
  | left
  | broken (failure : Failure)

/-- What a line does: the session afterwards, the output, and how the session stands. -/
structure Step where
  session : Session
  output : Output
  course : Course

/-- The line that takes leave. -/
def farewell : String := "Exiting Tally REPL."

/-- Answers an expression. -/
def answer (s : Session) (source : String) : Step :=
  let (output, verdict) := s.evaluate source
  match verdict with
  | .answer text => ⟨s, output ++ .ofLine text, .ongoing⟩
  | .error message => ⟨s, output ++ .ofLine ("[error] >>> " ++ message), .ongoing⟩
  | .failure failure => ⟨s, output, .broken failure⟩

/-- Starts or stops showing the work. -/
def toggle (s : Session) : Step :=
  let verbose := !s.verbose
  let word := if verbose then "ON" else "OFF"
  ⟨{ s with verbose }, .ofLine ("[mode] >>> Verbose mode " ++ word), .ongoing⟩

/-- Carries out an alias command with its argument. -/
def runAliasCommand (s : Session) (argument : String) : Step :=
  match AliasCommand.run s.aliases argument with
  | .ok (aliases, lines) => ⟨{ s with aliases }, .ofLines lines, .ongoing⟩
  | .error container => ⟨s, .nothing, .broken (.nesting container)⟩

/-- Whether a line, stripped of blanks, asks to leave. -/
def isFarewell (line : String) : Bool :=
  line = "exit" || line = "quit"

/-- Whether a line, stripped of blanks, asks for nothing: it is empty or a comment. -/
def isSilent (line : String) : Bool :=
  match line.toList with
  | [] => true
  | c :: _ => c = '#'

/-- Whether a line, stripped of blanks, asks to show the work or to stop showing it. -/
def isToggle (line : String) : Bool :=
  Unicode.toLower line = "verbose-mode"

/-- Answers one line. -/
def step (s : Session) (line : String) : Step :=
  let line := Text.strip line
  if isFarewell line then ⟨s, .ofLine farewell, .left⟩
  else if isSilent line then ⟨s, .nothing, .ongoing⟩
  else if isToggle line then s.toggle
  else
    match AliasCommand.argument? line with
    | some argument => s.runAliasCommand argument
    | none => s.answer line

-- ---------------------------------------------------------------------------
-- Whole sessions
-- ---------------------------------------------------------------------------

/-- The first line of a session. -/
def greeting (s : Session) : String :=
  "Tally REPL [format=" ++ Format.shown s.format ++ "]. Type 'exit' or 'quit' to leave."

/-- The output when no line comes any more. -/
def interrupted : Output :=
  .ofLines ["", farewell]

/-- Answers lines until one of them asks to leave or breaks the session off, or no line comes any
more. A line that is missing is an interruption. -/
def feed (s : Session) : List (Option String) → Step
  | [] => ⟨s, interrupted, .left⟩
  | none :: _ => ⟨s, interrupted, .left⟩
  | some line :: lines =>
    let now := s.step line
    match now.course with
    | .ongoing =>
      let later := now.session.feed lines
      { later with output := now.output ++ later.output }
    | _ => now

end Session

end Reckoner
