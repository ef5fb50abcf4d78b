/-!
# Symbols

The closed set of operators and keywords of the notation. Each has a name, which configurations use,
a display form, which diagnostics use, and one or more spellings in source text: operators are
spelled by one or two characters, keywords by a word.
-/

namespace Reckoner

/-- An operator or a keyword of the notation. -/
inductive Symbol where
  | openParens | closeParens
  | add | sub | mul | div | mod | pow | factorial
  | backslash | dot | arrow
  | equals | semicolon | conversion | of
  deriving DecidableEq, Repr, Inhabited

namespace Symbol

/-- Every symbol, in the order in which a positional configuration lists them. -/
def all : List Symbol :=
  [openParens, closeParens, add, sub, mul, div, mod, pow, factorial, backslash, dot, arrow,
   equals, semicolon, conversion, of]

/-- The name of a symbol in configurations. -/
def name : Symbol → String
  | openParens => "OPEN_PARENS"
  | closeParens => "CLOSE_PARENS"
  | add => "ADD"
  | sub => "SUB"
  | mul => "MUL"
  | div => "DIV"
  | mod => "MOD"
  | pow => "POW"
  | factorial => "FACTORIAL"
  | backslash => "BACKSLASH"
  | dot => "DOT"
  | arrow => "FN"
  | equals => "EQUALS"
  | semicolon => "SEMICOLON"
  | conversion => "UNIT_CONVERSION"
  | of => "OF"

/-- The form of a symbol in diagnostics. It is one of its spellings. -/
def display : Symbol → String
  | openParens => "("
  | closeParens => ")"
  | add => "+"
  | sub => "-"
  | mul => "*"
  | div => "/"
  | mod => "%"
  | pow => "^"
  | factorial => "!"
  | backslash => "\\"
  | dot => "."
  | arrow => "=>"
  | equals => "="
  | semicolon => ";"
  | conversion => "to"
  | of => "of"

/-- The symbol of a name. -/
def ofName? (name : String) : Option Symbol :=
  all.find? (·.name = name)

/-- The spellings of the operators. -/
def operatorSpellings : List (List Char × Symbol) :=
  [(['('], openParens), ([')'], closeParens), (['+'], add), (['-'], sub), (['−'], sub),
   (['*'], mul), (['×'], mul), (['/'], div), (['÷'], div), (['%'], mod), (['^'], pow),
   (['*', '*'], pow), (['!'], factorial), (['\\'], backslash), (['λ'], backslash), (['.'], dot),
   (['=', '>'], arrow), ([':'], arrow), (['='], equals), ([';'], semicolon)]

/-- The words that spell a symbol. -/
def wordSpellings : List (String × Symbol) :=
  [("to", conversion), ("as", conversion), ("of", of), ("per", div), ("mod", mod)]

/-- The symbol that an operator spelling stands for. -/
def ofOperator? (spelling : List Char) : Option Symbol :=
  operatorSpellings.lookup spelling

/-- The symbol that a word stands for. -/
def ofWord? (word : String) : Option Symbol :=
  wordSpellings.lookup word

theorem mem_all (s : Symbol) : s ∈ all := by
  cases s <;> decide

theorem ofName?_name (s : Symbol) : ofName? s.name = some s := by
  cases s <;> decide

end Symbol

end Reckoner
