import Reckoner.Number.Numeral
import Reckoner.Token
import Reckoner.Unicode.Numeric

/-!
# Reading one token

What stands at the start of a text, as a function of the text alone. Blanks and comments form one
run; a word is a letter or an underscore with the word characters after it; a numeral starts with a
decimal digit; a prefix unit that does not look like a word is matched longest first; a string
stands between two equal quotes; and an operator is spelled by one or two characters, the longer
spelling first.

Every reading says which characters it went over, so that the place of the next token, or of the
reader after an error, is known.
-/

namespace Reckoner

namespace Lexer

open Unicode (isLetter isAlphanumeric isDecimalDigit)

-- ---------------------------------------------------------------------------
-- Character classes
-- ---------------------------------------------------------------------------

/-- A character that spells an operator on its own. -/
def spellsOperator (c : Char) : Bool :=
  (Symbol.ofOperator? [c]).isSome

/-- A character that starts a word. -/
def isWordStart (c : Char) : Bool :=
  (isLetter c || c = '_') && !spellsOperator c

/-- A character that continues a word. -/
def isWordChar (c : Char) : Bool :=
  (isAlphanumeric c || c = '_') && !spellsOperator c

/-- A quote that opens a string. -/
def isQuote (c : Char) : Bool :=
  c = '"' || c = '\''

-- ---------------------------------------------------------------------------
-- Blanks and words
-- ---------------------------------------------------------------------------

/-- Whether a character continues a run of blanks and comments, and if so whether the run is then
inside a comment. A comment starts with `#` and ends before the newline. -/
def blankStep (comment : Bool) (c : Char) : Option Bool :=
  if c = '\n' then some false
  else if comment || c = '#' then some true
  else if c = ' ' ∨ c = '\t' ∨ c = '\r' then some false
  else none

/-- The run of blanks and comments at the start of a text, and what follows it. -/
def spanBlank : Bool → List Char → List Char × List Char
  | _, [] => ([], [])
  | comment, c :: cs =>
    match blankStep comment c with
    | some comment =>
      let (run, rest) := spanBlank comment cs
      (c :: run, rest)
    | none => ([], c :: cs)

/-- The content that a word stands for: a keyword is a symbol, any other word an identifier. -/
def wordContent (word : String) : Content :=
  match Symbol.ofWord? word with
  | some s => .symbol s
  | none => .ident word

-- ---------------------------------------------------------------------------
-- Prefix units and operators
-- ---------------------------------------------------------------------------

/-- A list of units, longest first, with one more; of equally long ones the new one comes first. -/
def insertUnit (unit : String) : List String → List String
  | [] => [unit]
  | u :: us => if u.length ≤ unit.length then unit :: u :: us else u :: insertUnit unit us

/-- Whether a unit is not empty and does not start like a word. Units that do are read as words. -/
def isSymbolUnit (unit : String) : Bool :=
  match unit.toList with
  | [] => false
  | c :: _ => !isWordStart c

/-- The units that are matched character by character, longest first. -/
def symbolUnits (units : List String) : List String :=
  (units.filter isSymbolUnit).foldr insertUnit []

/-- The first of the listed units with which a text starts, and what follows it. -/
def matchUnit? (units : List String) (cs : List Char) : Option (String × List Char) :=
  (units.find? fun unit => unit.toList.isPrefixOf cs).map fun unit =>
    (unit, cs.drop unit.toList.length)

/-- The symbol whose spelling has `size` characters and starts a text, and what follows it. -/
def operatorOfSize? (size : Nat) (cs : List Char) : Option (Symbol × List Char) :=
  (Symbol.ofOperator? (cs.take size)).map fun s => (s, cs.drop size)

/-- The operator at the start of a text, two characters before one, and what follows it. -/
def matchOperator? (cs : List Char) : Option (Symbol × List Char) :=
  operatorOfSize? 2 cs <|> operatorOfSize? 1 cs

-- ---------------------------------------------------------------------------
-- Strings
-- ---------------------------------------------------------------------------

/-- The characters that a backslash and `c` stand for in a string. -/
def unescape (c : Char) : List Char :=
  match c with
  | 'n' => ['\n']
  | 't' => ['\t']
  | '\\' | '"' | '\'' => [c]
  | _ => ['\\', c]

/-- The contents of a string up to the quote that closes it, and what follows. -/
def readString (quote : Char) : List Char → Option (List Char × List Char)
  | [] => none
  | [c] => if c = quote then some ([], []) else none
  | c :: e :: rest =>
    if c = quote then some ([], e :: rest)
    else if c = '\\' then (readString quote rest).map fun (s, rest) => (unescape e ++ s, rest)
    else (readString quote (e :: rest)).map fun (s, rest) => (c :: s, rest)

-- ---------------------------------------------------------------------------
-- One token
-- ---------------------------------------------------------------------------

/-- Why no token can be read. -/
inductive Fault where
  | pastEnd
  | invalidNumber
  | unterminatedString
  | unexpected (text : String)
  | digits (limit : DigitLimit)
  deriving DecidableEq, Repr

/-- The result of reading at the start of a text. -/
inductive Reading where
  /-- The text is empty. -/
  | finish
  /-- A token over the characters `taken`, followed by `rest`. -/
  | token (content : Content) (taken rest : List Char)
  /-- A fault that was found when the characters `taken` had been gone over. -/
  | fault (fault : Fault) (taken : List Char)

/-- The part of `cs` that comes before its suffix `rest`. -/
def before (cs rest : List Char) : List Char :=
  cs.take (cs.length - rest.length)

/-- The numeral at the start of a text as a token. -/
def readNumber (cs : List Char) : Reading :=
  match Numeral.read cs with
  | .error taken => .fault .invalidNumber taken
  | .ok (numeral, rest) =>
    match numeral.value with
    | .ok q => .token (.number (.fraction q)) numeral.text rest
    | .error limit => .fault (.digits limit) numeral.text

/-- The token at the start of a text. The units are those of `symbolUnits`. -/
def read (units : List String) : List Char → Reading
  | [] => .finish
  | c :: cs =>
    if (blankStep false c).isSome then
      let (run, rest) := spanBlank false (c :: cs)
      .token (.blank (String.ofList run)) run rest
    else if isWordStart c then
      let word := (c :: cs).takeWhile isWordChar
      .token (wordContent (String.ofList word)) word ((c :: cs).dropWhile isWordChar)
    else if isDecimalDigit c then readNumber (c :: cs)
    else
      match matchUnit? units (c :: cs) with
      | some (unit, rest) => .token (.ident unit) (before (c :: cs) rest) rest
      | none =>
        if isQuote c then
          match readString c cs with
          | some (s, rest) => .token (.string (String.ofList s)) (before (c :: cs) rest) rest
          | none => .fault .unterminatedString (c :: cs)
        else
          match matchOperator? (c :: cs) with
          | some (s, rest) => .token (.symbol s) (before (c :: cs) rest) rest
          | none => .token (.stray (String.ofList [c])) [c] cs

end Lexer

end Reckoner
