import Reckoner.Number.Rounding

/-!
# Binary floating-point numbers

The numbers of the binary interchange format of 64 bits, each given exactly by a significand and a
power of two, and the one nearest to a decimal. Every operation is exact arithmetic on natural
numbers.
-/

namespace Reckoner

/-- A floating-point number of 64 bits. A finite one is `± significand · 2 ^ exponent`. -/
inductive Binary64 where
  | finite (negative : Bool) (significand : Nat) (exponent : Int)
  | infinite (negative : Bool)
  | nan
  deriving DecidableEq, Repr

namespace Binary64

/-- The significand has at most so many bits. -/
def significandBits : Nat := 53

/-- The exponent of the numbers next to zero. -/
def leastExponent : Int := -1074

/-- The exponent of the greatest finite numbers. -/
def greatestExponent : Int := 971

/-- Zero. -/
def zero (negative : Bool) : Binary64 :=
  finite negative 0 leastExponent

/-- The greatest `e` with `2 ^ e ≤ num / den`, both positive. -/
def binaryExponent (num den : Nat) : Int :=
  let e : Int := (num.log2 : Int) - den.log2
  if den * twoTo e.toNat ≤ num * twoTo (-e).toNat then e else e - 1

/-- The number nearest to `num / den`, both positive; a tie goes to the even significand. -/
def nearest (negative : Bool) (num den : Nat) : Binary64 :=
  let e := max (binaryExponent num den - (significandBits - 1 : Nat)) leastExponent
  let significand := roundHalfEven (num * twoTo (-e).toNat) (den * twoTo e.toNat)
  let (significand, e) :=
    if significand = twoTo significandBits then (significand / 2, e + 1) else (significand, e)
  if greatestExponent < e then infinite negative else finite negative significand e

/-- The number nearest to `± digits · 10 ^ exponent`. Decimals far outside the range of the format
are not computed. -/
def ofDecimal (negative : Bool) (digits : Nat) (exponent : Int) : Binary64 :=
  let position := exponent + decimalLength digits
  if digits = 0 ∨ position < -330 then zero negative
  else if 330 < position then infinite negative
  else
    let (num, den) := decimalFraction digits exponent
    nearest negative num den

/-- The exact value of a finite number. -/
def toRat? : Binary64 → Option Rat
  | finite negative m e =>
    let q := mkRat (m * twoTo e.toNat) (twoTo (-e).toNat)
    some (if negative then -q else q)
  | _ => none

end Binary64

end Reckoner
