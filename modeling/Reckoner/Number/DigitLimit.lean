import Reckoner.Number.Powers

/-!
# The limit on digits

Converting between an integer and its decimal text is refused beyond 4300 digits, in both
directions. When reading, every digit of the text counts, leading zeros too.
-/

namespace Reckoner

/-- The greatest number of digits in a conversion. -/
def maxDigits : Nat := 4300

/-- A refused conversion. -/
inductive DigitLimit where
  /-- A text of that many digits was to be read. -/
  | reading (digits : Nat)
  /-- An integer of too many digits was to be written. -/
  | writing
  deriving DecidableEq, Repr

namespace DigitLimit

/-- The message of a refused conversion. -/
def message : DigitLimit → String
  | reading digits =>
    s!"Exceeds the limit ({maxDigits} digits) for integer string conversion: " ++
      s!"value has {digits} digits; use sys.set_int_max_str_digits() to increase the limit"
  | writing =>
    s!"Exceeds the limit ({maxDigits} digits) for integer string conversion; " ++
      "use sys.set_int_max_str_digits() to increase the limit"

end DigitLimit

/-- Whether an integer has more digits than can be written. -/
def tooManyDigits (n : Int) : Bool :=
  tenTo maxDigits ≤ n.natAbs

/-- The decimal text of an integer. -/
def writeInt (n : Int) : Except DigitLimit String :=
  if tooManyDigits n then .error .writing else .ok (toString n)

end Reckoner
