import Reckoner.Number.Binary64

/-!
# Shortest decimal text

A finite floating-point number is written with the fewest digits that read back as the same number,
and of these with the digits nearest to it. The text is positional from `0.0001` up to
`9999999999999998.0` and in scientific notation elsewhere.
-/

namespace Reckoner

namespace Binary64

/-- The reals that round to `significand · 2 ^ exponent`, as the two ends in units of
`2 ^ (exponent - 2)`. Below a power of two the neighbour is only half as far away. -/
def roundingEnds (significand : Nat) (exponent : Int) : Nat × Nat :=
  let below := if significand = twoTo (significandBits - 1) ∧ leastExponent < exponent then 1 else 2
  (4 * significand - below, 4 * significand + 2)

/-- Whether `digits · 10 ^ unit` rounds to `significand · 2 ^ exponent`. The ends of the interval
belong to it when the significand is even. -/
def roundsTo (significand : Nat) (exponent : Int) (digits : Nat) (unit : Int) : Bool :=
  let (low, high) := roundingEnds significand exponent
  let e := exponent - 2
  let (num, den) := decimalFraction digits unit
  let value := num * twoTo (-e).toNat
  let low := low * den * twoTo e.toNat
  let high := high * den * twoTo e.toNat
  if significand % 2 = 0 then low ≤ value && value ≤ high else low < value && value < high

/-- The digits nearest to `num / den` on the decimal grid `10 ^ unit`, if a neighbour of the value
on that grid rounds to `significand · 2 ^ exponent`. -/
def onGrid? (significand : Nat) (exponent : Int) (num den : Nat) (unit : Int) : Option Nat :=
  let n := num * tenTo (-unit).toNat
  let d := den * tenTo unit.toNat
  let down := n / d
  let up := down + 1
  match roundsTo significand exponent down unit, roundsTo significand exponent up unit with
  | true, true => some (roundHalfEven n d)
  | true, false => some down
  | false, true => some up
  | false, false => none

/-- The shortest digits and their exponent among the grids with `count`, `count + 1`, … up to
seventeen digits. -/
def shortestFrom (significand : Nat) (exponent : Int) (num den : Nat) (position : Int) :
    Nat → Nat → Nat × Int
  | 0, count => (num * tenTo (count - position).toNat / (den * tenTo (position - count).toNat),
      position - count)
  | left + 1, count =>
    match onGrid? significand exponent num den (position - count) with
    | some digits => (digits, position - count)
    | none => shortestFrom significand exponent num den position left (count + 1)

/-- The fewest decimal digits that read back as `significand · 2 ^ exponent`, which is positive, and
their exponent. -/
def shortest (significand : Nat) (exponent : Int) : Nat × Int :=
  let num := significand * twoTo exponent.toNat
  let den := twoTo (-exponent).toNat
  let (digits, unit) := shortestFrom significand exponent num den (leadingPosition num den) 17 1
  let (digits, dropped) := dropZeros 17 digits
  (digits, unit + dropped)

/-- The exponent part: a sign and at least two digits. -/
def exponentText (e : Int) : String :=
  (if e < 0 then "e-" else "e+") ++ (if e.natAbs < 10 then "0" else "") ++ toString e.natAbs

/-- The text of `digits · 10 ^ exponent`. -/
def layout (digits : Nat) (exponent : Int) : String :=
  let ds := (toString digits).toList
  let position : Int := exponent + ds.length
  let zeros (n : Nat) := String.ofList (List.replicate n '0')
  if -4 < position ∧ position ≤ 16 then
    if position ≤ 0 then "0." ++ zeros (-position).toNat ++ String.ofList ds
    else if ds.length ≤ position.toNat then
      String.ofList ds ++ zeros (position.toNat - ds.length) ++ ".0"
    else String.ofList (ds.take position.toNat) ++ "." ++ String.ofList (ds.drop position.toNat)
  else
    let tail := ds.drop 1
    String.ofList (ds.take 1) ++ (if tail.isEmpty then "" else "." ++ String.ofList tail) ++
      exponentText (position - 1)

/-- The spellings of the numbers that are not finite. -/
structure SpecialNames where
  infinity : String
  nan : String

/-- The text of a floating-point number, with the given spellings of the numbers that are not
finite. -/
def text (names : SpecialNames) : Binary64 → String
  | finite negative m e =>
    let unsigned := if m = 0 then "0.0" else let (digits, unit) := shortest m e; layout digits unit
    if negative then "-" ++ unsigned else unsigned
  | infinite negative => if negative then "-" ++ names.infinity else names.infinity
  | nan => names.nan

end Binary64

end Reckoner
