import Reckoner.Lexer.Tokenize

/-!
# Character streams

A stream is a source text with a position in it, counted in characters, and the place of the next
character. The position may be any integer. Looking ahead sees nothing outside the text. Taking a
character at a negative position counts from the end of the text and goes on at its start.

Each step of a stream answers with a result and the stream after it, also when the result is an
error.
-/

namespace Reckoner

/-- A cursor over a source text. -/
structure Stream where
  source : List Char
  position : Int
  place : Place

/-- Why a step on a stream failed. -/
inductive Stream.Failure where
  | lexing (error : LexError)
  /-- A negative position before the start of the text. -/
  | outside
  deriving DecidableEq, Repr

namespace Stream

/-- The message of a failed step. -/
def Failure.message : Failure → String
  | lexing error => error.message
  | outside => "string index out of range"

/-- What a step answers: a result, and the stream after it. -/
abbrev Step (α : Type) := Except Failure α × Stream

/-- Whether no character is left. -/
def atEnd (s : Stream) : Bool :=
  s.source.length ≤ s.position

/-- The text ahead as far as looking ahead sees it. -/
def ahead (s : Stream) : List Char :=
  if s.position < 0 then [] else s.source.drop s.position.toNat

/-- The text ahead as it is taken, unless the position lies before the text. -/
def reachable? (s : Stream) : Option (List Char) :=
  if 0 ≤ s.position then some s.ahead
  else if -s.position ≤ s.source.length then
    some (s.source.drop (s.source.length + s.position).toNat ++ s.source)
  else none

/-- The stream after the characters `taken`. -/
def advance (s : Stream) (taken : List Char) : Stream :=
  ⟨s.source, s.position + taken.length, s.place.advance taken⟩

/-- A failed step of lexing, after which the stream stands behind `taken`. -/
def fail {α : Type} (s : Stream) (fault : Lexer.Fault) (taken : List Char) : Step α :=
  (.error (.lexing ⟨fault, s.place⟩), s.advance taken)

/-- The character `offset` places ahead; empty outside the text. -/
def peek (s : Stream) (offset : Int) : String :=
  let index := s.position + offset
  if index < 0 then "" else String.ofList (s.source[index.toNat]?.toList)

/-- Takes one character. -/
def next (s : Stream) : Step Char :=
  match s.reachable? with
  | none => (.error .outside, s)
  | some [] => s.fail .pastEnd []
  | some (c :: _) => (.ok c, s.advance [c])

/-- Takes the run of blanks and comments ahead. -/
def readBlank (s : Stream) : Step String :=
  let run := (Lexer.spanBlank false s.ahead).1
  (.ok (String.ofList run), s.advance run)

/-- Takes the numeral ahead, of which any part may be missing. -/
def readNumber (s : Stream) : Step String :=
  match Numeral.read s.ahead with
  | .ok (numeral, _) => (.ok (String.ofList numeral.text), s.advance numeral.text)
  | .error taken => s.fail .invalidNumber taken

/-- Takes a character and the string that it quotes. -/
def readString (s : Stream) : Step String :=
  match s.reachable? with
  | none => (.error .outside, s)
  | some [] => s.fail .pastEnd []
  | some (quote :: cs) =>
    match Lexer.readString quote cs with
    | some (text, rest) => (.ok (String.ofList text), s.advance (Lexer.before (quote :: cs) rest))
    | none => s.fail .unterminatedString (quote :: cs)

/-- Takes the operator ahead, if there is one. -/
def matchOperator (s : Stream) : Step (Option Token) :=
  match Lexer.matchOperator? s.ahead with
  | some (symbol, rest) =>
    (.ok (some ⟨.symbol symbol, s.place⟩), s.advance (Lexer.before s.ahead rest))
  | none => (.ok none, s)

/-- Takes the longest of the given units that is ahead, if there is one. -/
def matchUnit (units : List String) (s : Stream) : Step (Option Token) :=
  match Lexer.matchUnit? units s.ahead with
  | some (unit, rest) => (.ok (some ⟨.ident unit, s.place⟩), s.advance (Lexer.before s.ahead rest))
  | none => (.ok none, s)

/-- Takes the next token. -/
def nextToken (units : List String) (s : Stream) : Step Token :=
  match Lexer.read units s.ahead with
  | .finish => (.ok ⟨.finish "EOF", s.place⟩, s)
  | .token content taken _ => (.ok ⟨content, s.place⟩, s.advance taken)
  | .fault fault taken => s.fail fault taken

end Stream

end Reckoner
