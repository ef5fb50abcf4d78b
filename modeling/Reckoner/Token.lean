import Reckoner.Payload
import Reckoner.Place
import Reckoner.Symbol

/-!
# Tokens

A token is a content at a place. Lexing produces numbers, identifiers, strings, symbols and runs of
blanks, a stray character where no token starts, and a mark at the end of the text. Tokens of any
other type may be handed to the grammar, which rejects them wherever they stand.
-/

namespace Reckoner

/-- What a token is. -/
inductive Content where
  | number (value : Payload)
  | ident (name : String)
  | string (text : String)
  | symbol (symbol : Symbol)
  /-- A run of blanks and comments. -/
  | blank (text : String)
  /-- A character that starts no token. -/
  | stray (text : String)
  /-- The end of the text. -/
  | finish (text : String)
  /-- A token of a type that lexing does not produce. -/
  | other (type text : String)

/-- A token: its content and the place where it starts. -/
structure Token where
  content : Content
  place : Place

namespace Content

/-- The name of the type of a token. -/
def typeName : Content → String
  | number _ => "NUMBER"
  | ident _ => "IDENT"
  | string _ => "STRING"
  | symbol _ => "SYMBOL"
  | blank _ => "WHITESPACE"
  | stray _ => "ERROR"
  | finish _ => "EOF"
  | other type _ => type

/-- A content of a type with a name, which carries a text. -/
def ofText (type text : String) : Content :=
  match type with
  | "IDENT" => ident text
  | "STRING" => string text
  | "WHITESPACE" => blank text
  | "ERROR" => stray text
  | "EOF" => finish text
  | _ => other type text

/-- The value of a token in which texts are quoted. -/
def quoted : Content → Except DigitLimit String
  | number value => value.quoted
  | symbol s => .ok ("<Symbol." ++ s.name ++ ": " ++ Text.quoted s.display ++ ">")
  | ident text | string text | blank text | stray text | finish text | other _ text =>
    .ok (Text.quoted text)

end Content

namespace Token

/-- Whether a token is a run of blanks. -/
def isBlank (t : Token) : Bool :=
  match t.content with
  | .blank _ => true
  | _ => false

/-- Whether a token is a number. -/
def isNumber (t : Token) : Bool :=
  match t.content with
  | .number _ => true
  | _ => false

/-- Whether a token marks the end of the text. -/
def isFinish (t : Token) : Bool :=
  match t.content with
  | .finish _ => true
  | _ => false

/-- Whether a token is the given symbol. -/
def isSymbol (t : Token) (s : Symbol) : Bool :=
  match t.content with
  | .symbol found => found = s
  | _ => false

/-- The form in which a token is traced. -/
def traced (t : Token) : Except DigitLimit String := do
  let value ← t.content.quoted
  return "Token(" ++ t.content.typeName ++ ", " ++ value ++ ")"

/-- The form in which a list of tokens is traced. -/
def tracedList (ts : List Token) : Except DigitLimit String := do
  return "[" ++ ", ".intercalate (← ts.mapM traced) ++ "]"

end Token

end Reckoner
