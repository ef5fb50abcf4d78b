import Reckoner.Number.Powers

/-!
# Rounding quotients

Division of natural numbers rounded to the nearest integer, a tie going to the even neighbour, and
the number of decimal digits of a natural number.
-/

namespace Reckoner

/-- The quotient `num / den` rounded to the nearest integer; a tie goes to the even one. -/
def roundHalfEven (num den : Nat) : Nat :=
  let q := num / den
  let r := num % den
  if den < 2 * r ∨ (den = 2 * r ∧ q % 2 = 1) then q + 1 else q

/-- The number of decimal digits of `n`, counted by dividing by ten. -/
def countDigits (n : Nat) : Nat :=
  if n < 10 then 1 else countDigits (n / 10) + 1

/-- Whether `n` has exactly `length` decimal digits. -/
def hasLength (n length : Nat) : Bool :=
  (length = 1 || tenTo (length - 1) ≤ n) && n < tenTo length

/-- The number of decimal digits of `n`. Two lengths are guessed from the binary logarithm; counting
decides when neither is right. -/
def decimalLength (n : Nat) : Nat :=
  let guess := n.log2 * 30103 / 100000 + 1
  if hasLength n guess then guess
  else if hasLength n (guess + 1) then guess + 1
  else countDigits n

/-- `digits · 10 ^ exponent` as a fraction of two natural numbers. -/
def decimalFraction (digits : Nat) (exponent : Int) : Nat × Nat :=
  (digits * tenTo exponent.toNat, tenTo (-exponent).toNat)

/-- The position of the leading digit of `num / den`, both positive: the `p` with
`10 ^ (p - 1) ≤ num / den < 10 ^ p`. -/
def leadingPosition (num den : Nat) : Int :=
  let p : Int := (decimalLength num : Int) - decimalLength den
  if den * tenTo p.toNat ≤ num * tenTo (-p).toNat then p + 1 else p

/-- `digits` without its last `n` zeros, as far as there are so many, and how many were dropped. -/
def dropZeros : Nat → Nat → Nat × Nat
  | 0, digits => (digits, 0)
  | n + 1, digits =>
    if digits % 10 = 0 then
      let (rest, dropped) := dropZeros n (digits / 10)
      (rest, dropped + 1)
    else (digits, 0)

end Reckoner
