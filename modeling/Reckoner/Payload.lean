import Reckoner.Json.Value
import Reckoner.Number.DigitLimit

/-!
# Payloads

What a number token and a tree node carry: an exact fraction, or any other datum. Trees read from
source text carry fractions and texts only; trees that are built by hand may carry any JSON value.
-/

namespace Reckoner

/-- The value carried by a number token or by a node. -/
inductive Payload where
  | fraction (value : Rat)
  | datum (value : Json)
  deriving Inhabited

namespace Payload

/-- Nothing is carried. -/
def absent : Payload := datum .null

/-- A text. -/
def text (s : String) : Payload := datum (.string s)

/-- Whether nothing is carried. -/
def isAbsent : Payload → Bool
  | datum .null => true
  | _ => false

/-- The text that is carried, if it is one. -/
def text? : Payload → Option String
  | datum (.string s) => some s
  | _ => none

/-- The number that is carried, if it is one. -/
def quantity? : Payload → Option Json.Quantity
  | fraction q => some (.finite q)
  | datum v => v.quantity?

/-- Whether two payloads are equal; numbers are compared by their value. -/
def alike : Payload → Payload → Bool
  | datum v, datum w => v.alike w
  | p, q =>
    match p.quantity?, q.quantity? with
    | some a, some b => a = b
    | _, _ => false

/-- The text `n` or `n/d` of a fraction. -/
def fractionText (q : Rat) : Except DigitLimit String :=
  if q.den = 1 then writeInt q.num
  else do
    let num ← writeInt q.num
    let den ← writeInt q.den
    return num ++ "/" ++ den

/-- The plain text of a payload. -/
def display : Payload → Except DigitLimit String
  | fraction q => fractionText q
  | datum v => .ok v.display

/-- The text of a payload in which texts are quoted and fractions are named as such. -/
def quoted : Payload → Except DigitLimit String
  | fraction q => do
    let num ← writeInt q.num
    let den ← writeInt q.den
    return "Fraction(" ++ num ++ ", " ++ den ++ ")"
  | datum v => .ok v.quoted

end Payload

end Reckoner
