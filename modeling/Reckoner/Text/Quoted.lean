import Reckoner.Unicode.Printable

/-!
# Quoted text

The quoted form in which diagnostics show a text. It stands between single quotes, or between double
quotes when it holds a single quote and no double one. A backslash, the quote in use and the
characters that are not printable are escaped: newline, carriage return and tab by a letter, the
others by their code point in lower-case hexadecimal, in the shortest of the forms of two, four and
eight digits that holds it.
-/

namespace Reckoner.Text

/-- A hexadecimal digit in lower case. -/
def hexDigit (n : Nat) : Char :=
  if n < 10 then Char.ofNat ('0'.toNat + n) else Char.ofNat ('a'.toNat + (n - 10))

/-- The last `width` hexadecimal digits of a number. -/
def hexDigits : Nat → Nat → List Char
  | 0, _ => []
  | width + 1, n => hexDigits width (n / 16) ++ [hexDigit (n % 16)]

/-- The escape of a character by its code point. -/
def codeEscape (c : Char) : List Char :=
  if c.toNat < 0x100 then '\\' :: 'x' :: hexDigits 2 c.toNat
  else if c.toNat < 0x10000 then '\\' :: 'u' :: hexDigits 4 c.toNat
  else '\\' :: 'U' :: hexDigits 8 c.toNat

/-- How one character is written between quotes `q`. -/
def quotedChar (q c : Char) : List Char :=
  if c = q ∨ c = '\\' then ['\\', c]
  else if c = '\n' then ['\\', 'n']
  else if c = '\r' then ['\\', 'r']
  else if c = '\t' then ['\\', 't']
  else if Unicode.isPrintable c then [c]
  else codeEscape c

/-- The quote that a text is written with. -/
def quoteFor (cs : List Char) : Char :=
  if '\'' ∈ cs ∧ '"' ∉ cs then '"' else '\''

/-- The quoted form of a text. -/
def quoted (s : String) : String :=
  let q := quoteFor s.toList
  String.ofList (q :: s.toList.flatMap (quotedChar q) ++ [q])

end Reckoner.Text
