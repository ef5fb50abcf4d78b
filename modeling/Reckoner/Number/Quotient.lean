import Reckoner.Number.Rounding

/-!
# Decimal quotients

A fraction that is not an integer is written as a decimal of at most 64 significant digits. When the
quotient has a finite expansion of at most so many digits, exactly these are written; otherwise it
is rounded to 64 digits, a tie going to the even neighbour. The decimal is written with a point
where the exponent is not positive and the leading digit is at most six places behind the point, and
in scientific notation elsewhere.
-/

namespace Reckoner

/-- A signed decimal `± digits · 10 ^ exponent`. -/
structure Decimal where
  negative : Bool
  digits : Nat
  exponent : Int
  deriving DecidableEq, Repr

namespace Decimal

/-- The number of significant digits of a quotient. -/
def precision : Nat := 64

/-- The least exponent of a decimal: below it digits are lost. -/
def leastExponent : Int := -1000062

/-- The quotient of a positive `num` by a positive `den`: rounded to the precision, and shortened to
the digits it needs when it is exact. -/
def quotient (negative : Bool) (num den : Nat) : Decimal :=
  let e := max (leadingPosition num den - precision) leastExponent
  let (n, d) := (num * tenTo (-e).toNat, den * tenTo e.toNat)
  if n % d = 0 then
    let (digits, dropped) := dropZeros (min precision (-e).toNat) (n / d)
    ⟨negative, digits, e + dropped⟩
  else
    let digits := roundHalfEven n d
    if digits = tenTo precision then ⟨negative, digits / 10, e + 1⟩ else ⟨negative, digits, e⟩

/-- The quotient that a rational number is. -/
def ofRat (q : Rat) : Decimal :=
  quotient (q.num < 0) q.num.natAbs q.den

/-- The exponent part of the scientific notation. -/
def exponentText (e : Int) : String :=
  (if e < 0 then "E-" else "E+") ++ toString e.natAbs

/-- A run of zeros. -/
def zeros (n : Nat) : String :=
  String.ofList (List.replicate n '0')

/-- The text of a decimal. -/
def text (d : Decimal) : String :=
  let digits := (toString d.digits).toList
  let position : Int := d.exponent + digits.length
  let unsigned :=
    if d.exponent ≤ 0 ∧ -6 < position then
      if d.exponent = 0 then String.ofList digits
      else if position ≤ 0 then "0." ++ zeros (-position).toNat ++ String.ofList digits
      else
        String.ofList (digits.take position.toNat) ++ "." ++
          String.ofList (digits.drop position.toNat)
    else
      let tail := digits.drop 1
      String.ofList (digits.take 1) ++ (if tail.isEmpty then "" else "." ++ String.ofList tail) ++
        exponentText (position - 1)
  if d.negative then "-" ++ unsigned else unsigned

end Decimal

end Reckoner
