import Reckoner.Grammar.Layers
import Reckoner.Lexer.Tokenize

/-!
# Parsing

A whole sequence of tokens is parsed as one expression: what is left after it is an error. Marks of
the end of the text are dropped first, wherever they stand. The nesting of the rules is bounded, and
an expression that exhausts the bound is reported as nested too deeply, whichever candidate
exhausted it.
-/

namespace Reckoner

/-- The bound on the nesting of rules when the program has just been entered. -/
def maxNesting : Nat := 970

namespace Grammar

/-- The tokens that are parsed: all but the marks of the end. -/
def significant (tokens : List Token) : List Token :=
  tokens.filter fun t => !t.isFinish

/-- A nesting that is too deep becomes a parse error. -/
def reportDepth {α : Type} (x : Attempt α) : Attempt α :=
  match x.result with
  | .error .tooDeep => ⟨x.trail, .error (.error .tooDeep)⟩
  | _ => x

/-- Parses a whole sequence of tokens under a bound on the nesting of rules. -/
def parseWithin (depth : Nat) (units : List String) (tokens : List Token) : Attempt Node := do
  let (n, rest) ← reportDepth ((Layers.within units depth).expression (significant tokens))
  match Cursor.peek? rest with
  | some t => .reject (.unexpectedInput t)
  | none => pure n

/-- Parses a whole sequence of tokens. -/
def parse (units : List String) (tokens : List Token) : Attempt Node :=
  parseWithin maxNesting units tokens

end Grammar

/-- What stops the reading of a source text. -/
inductive ReadError where
  | lexing (error : LexError)
  | parsing (stop : Stop)

namespace Stop

/-- The message of what stopped an attempt. -/
def message : Stop → String
  | error e => e.message
  | tooDeep => ""
  | misshapen fault => fault.message

end Stop

namespace ReadError

/-- The message of an error. -/
def message : ReadError → String
  | lexing e => e.message
  | parsing stop => stop.message

end ReadError

/-- The tree of a sequence of tokens. -/
def parseTokens (units : List String) (tokens : List Token) : Except ReadError Node :=
  (Grammar.parse units tokens).result.mapError .parsing

/-- The tree of a source text under a bound on the nesting of rules. -/
def parseSourceWithin (depth : Nat) (units : List String) (source : String) :
    Except ReadError Node := do
  let tokens ← (tokenize units source).mapError .lexing
  (Grammar.parseWithin depth units tokens).result.mapError .parsing

/-- The tree of a source text. -/
def parseSource (units : List String) (source : String) : Except ReadError Node :=
  parseSourceWithin maxNesting units source

end Reckoner
