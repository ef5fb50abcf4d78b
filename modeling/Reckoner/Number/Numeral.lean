import Reckoner.Number.DigitLimit
import Reckoner.Unicode.DecimalDigit

/-!
# Numerals

A numeral is a run of decimal digits, then possibly a point and digits, then possibly an exponent:
the letter `e` or `E`, a sign or none, and digits. The digits may be of any script. Its value is the
exact rational that it writes in base ten.
-/

namespace Reckoner

open Unicode (isDecimalDigit digitValue)

/-- The exponent part of a numeral: its letter, its sign and its digits. -/
structure Exponent where
  mark : Char
  sign : Option Char
  digits : List Char
  deriving DecidableEq, Repr

/-- The parts of a numeral. -/
structure Numeral where
  whole : List Char
  fraction : Option (List Char)
  exponent : Option Exponent
  deriving DecidableEq, Repr

/-- The text of an exponent part. -/
def Exponent.text (e : Exponent) : List Char :=
  e.mark :: (e.sign.toList ++ e.digits)

/-- The number that a run of decimal digits writes in base ten. -/
def digitsValue (digits : List Char) : Nat :=
  digits.foldl (fun n d => 10 * n + digitValue d) 0

/-- The number that a run of digits writes, unless it is too long to be read. -/
def readDigits (digits : List Char) : Except DigitLimit Nat :=
  if maxDigits < digits.length then .error (.reading digits.length) else .ok (digitsValue digits)

/-- The signed value of an exponent part. -/
def Exponent.value (e : Exponent) : Except DigitLimit Int := do
  let n ← readDigits e.digits
  return if e.sign = some '-' then -(n : Int) else n

namespace Numeral

/-- The text of a numeral. -/
def text (n : Numeral) : List Char :=
  n.whole ++ (n.fraction.elim [] ('.' :: ·)) ++ (n.exponent.elim [] Exponent.text)

/-- The rational `digits · 10 ^ exponent`. -/
def scaled (digits : Nat) (exponent : Int) : Rat :=
  mkRat (digits * tenTo exponent.toNat) (tenTo (-exponent).toNat)

/-- The exact value of a numeral. The whole part is read first, then the fraction, then the
exponent. -/
def value (n : Numeral) : Except DigitLimit Rat := do
  let whole ← readDigits n.whole
  let fraction := n.fraction.getD []
  let digits := whole * tenTo fraction.length + (← readDigits fraction)
  let exponent ← n.exponent.elim (.ok 0) Exponent.value
  return scaled digits (exponent - fraction.length)

/-- A point and at least one digit: the digits and what follows them. -/
def readFraction : List Char → Option (List Char × List Char)
  | '.' :: d :: rest =>
    if isDecimalDigit d then
      some ((d :: rest).takeWhile isDecimalDigit, (d :: rest).dropWhile isDecimalDigit)
    else none
  | _ => none

/-- A leading sign, if there is one, and the rest. -/
def splitSign : List Char → Option Char × List Char
  | '+' :: rest => (some '+', rest)
  | '-' :: rest => (some '-', rest)
  | rest => (none, rest)

/-- An exponent part with at least one digit, and what follows it. -/
def readExponent : List Char → Option (Exponent × List Char)
  | [] => none
  | mark :: rest =>
    let (sign, digits) := splitSign rest
    if (mark = 'e' ∨ mark = 'E') ∧ (digits.head?.any isDecimalDigit) then
      some (⟨mark, sign, digits.takeWhile isDecimalDigit⟩, digits.dropWhile isDecimalDigit)
    else none

/-- The longest numeral at the start of a text, and what follows it. Any part may be missing. A
second point with a digit after it makes the number invalid; the answer is then the text up to that
point. -/
def read (cs : List Char) : Except (List Char) (Numeral × List Char) :=
  let whole := cs.takeWhile isDecimalDigit
  let rest := cs.dropWhile isDecimalDigit
  let close (fraction : Option (List Char)) (rest : List Char) :=
    match readExponent rest with
    | some (exponent, rest) => (⟨whole, fraction, some exponent⟩, rest)
    | none => (⟨whole, fraction, none⟩, rest)
  match readFraction rest with
  | none => .ok (close none rest)
  | some (fraction, rest) =>
    if (readFraction rest).isSome then .error (whole ++ '.' :: fraction)
    else .ok (close (some fraction) rest)

end Numeral

end Reckoner
