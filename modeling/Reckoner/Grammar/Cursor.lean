import Reckoner.Grammar.Attempt

/-!
# Looking at the tokens that are left

The cursor of the grammar is the list of tokens that are left. Blanks are skipped before a token is
looked at, except where a rule asks for the very next token.
-/

namespace Reckoner

namespace Cursor

/-- The next token that is not blank, and the tokens after it. -/
def next? : List Token → Option (Token × List Token)
  | [] => none
  | t :: ts => if t.isBlank then next? ts else some (t, ts)

/-- The next token that is not blank. -/
def peek? (ts : List Token) : Option Token :=
  (next? ts).map (·.1)

/-- Whether only blanks are left. -/
def atEnd (ts : List Token) : Bool :=
  (peek? ts).isNone

/-- Takes the next token; it is an error if there is none. -/
def next (ts : List Token) : Attempt (Token × List Token) :=
  match next? ts with
  | some (t, rest) => pure (t, rest)
  | none => .reject .expectedToken

/-- Takes the very next token, blank or not. -/
def nextRaw : List Token → Attempt (Token × List Token)
  | t :: ts => pure (t, ts)
  | [] => .reject .expectedToken

/-- The tokens after the given symbol, if it comes next. -/
def after? (symbol : Symbol) (ts : List Token) : Option (List Token) :=
  match next? ts with
  | some (t, rest) => if t.isSymbol symbol then some rest else none
  | none => none

/-- Takes the given symbol. -/
def take (symbol : Symbol) (ts : List Token) : Attempt (List Token) := do
  let (t, rest) ← next ts
  match t.content with
  | .symbol found => if found = symbol then pure rest else .reject (.expectedSymbol found symbol t)
  | _ => .reject (.invalidToken symbol t)

/-- The entry of a table whose symbol comes next, that symbol's token, and the tokens after it. -/
def select? {α : Type} (table : List (Symbol × α)) (ts : List Token) :
    Option ((Symbol × α) × Token × List Token) :=
  match next? ts with
  | some (t, rest) =>
    (table.find? fun entry => t.isSymbol entry.1).map fun entry => (entry, t, rest)
  | none => none

/-- The tokens after the separators and blanks at the start. -/
def skipSeparators (ts : List Token) : List Token :=
  ts.dropWhile fun t => t.isBlank || t.isSymbol .semicolon

end Cursor

end Reckoner
