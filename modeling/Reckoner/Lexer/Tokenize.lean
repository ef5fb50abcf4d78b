import Reckoner.Lexer.Reading

/-!
# Tokenizing

The tokens of a whole text, each with its place. The text of a token, its blanks and the rest are
consecutive, so the places follow from the characters gone over. A stray character is an error here.
-/

namespace Reckoner

/-- A fault in a text and the place where the faulty token starts. -/
structure LexError where
  fault : Lexer.Fault
  place : Place
  deriving DecidableEq, Repr

namespace LexError

/-- The message of an error. A number that is too long is reported without its place. -/
def message (e : LexError) : String :=
  match e.fault with
  | .pastEnd => e.place.locate "Attempted to read past end of source"
  | .invalidNumber => e.place.locate "Invalid number format"
  | .unterminatedString => e.place.locate "Unterminated string"
  | .unexpected text => e.place.locate ("Unexpected character " ++ Text.quoted text)
  | .digits limit => limit.message

end LexError

namespace Lexer

/-- The tokens of a text that starts at a place, at most `fuel` of them. -/
def tokensFrom (units : List String) : Nat → Place → List Char → Except LexError (List Token)
  | 0, _, _ => .ok []
  | fuel + 1, place, cs =>
    match read units cs with
    | .finish => .ok []
    | .fault fault _ => .error ⟨fault, place⟩
    | .token (.stray text) _ _ => .error ⟨.unexpected text, place⟩
    | .token content taken rest => do
      let tokens ← tokensFrom units fuel (place.advance taken) rest
      return ⟨content, place⟩ :: tokens

end Lexer

/-- The prefix units that are known when none are configured. -/
def defaultPrefixUnits : List String :=
  ["$", "£", "€", "¥", "₹", "₩", "₽"]

/-- The tokens of a source text. A text has at most as many tokens as characters. -/
def tokenize (prefixUnits : List String) (source : String) : Except LexError (List Token) :=
  let cs := source.toList
  Lexer.tokensFrom (Lexer.symbolUnits prefixUnits) cs.length .start cs

end Reckoner
