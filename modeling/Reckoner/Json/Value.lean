import Reckoner.Number.Binary64
import Reckoner.Text.Quoted
import Reckoner.Number.Shortest

/-!
# JSON values

A JSON document as a value. The fields of an object keep the order in which they were written. A
number that is written without a point and an exponent is an integer, any other number is a
floating-point number, and the truth values count as the numbers one and zero when values are
compared.

Diagnostics show a value in two ways: `quoted` puts every text between quotes, `display` shows a
value that is itself a text as it stands.
-/

namespace Reckoner

/-- A JSON value. -/
inductive Json where
  | null
  | bool (value : Bool)
  | int (value : Int)
  | float (value : Binary64)
  | string (text : String)
  | array (items : List Json)
  | object (fields : List (String × Json))
  deriving Inhabited

namespace Json

-- ---------------------------------------------------------------------------
-- Comparison
-- ---------------------------------------------------------------------------

/-- What a value is as a number: a rational number or an infinity. -/
inductive Quantity where
  | finite (value : Rat)
  | infinite (negative : Bool)
  deriving DecidableEq

/-- The number that a value is. A floating-point value that is not a number is none. -/
def quantity? : Json → Option Quantity
  | bool value => some (.finite (if value then 1 else 0))
  | int value => some (.finite value)
  | float (.infinite negative) => some (.infinite negative)
  | float value => value.toRat?.map .finite
  | _ => none

mutual

/-- Whether two values are equal: numbers by their value, arrays item by item, objects field by
field in any order. -/
def alike : Json → Json → Bool
  | null, null => true
  | string s, string t => s = t
  | array xs, array ys => alikeItems xs ys
  | object xs, object ys => xs.length = ys.length && alikeFields xs ys
  | a, b =>
    match quantity? a, quantity? b with
    | some p, some q => p = q
    | _, _ => false

/-- Whether two lists of values are equal item by item. -/
def alikeItems : List Json → List Json → Bool
  | [], [] => true
  | x :: xs, y :: ys => alike x y && alikeItems xs ys
  | _, _ => false

/-- Whether each field on the left is found, with an equal value, on the right. -/
def alikeFields : List (String × Json) → List (String × Json) → Bool
  | [], _ => true
  | (key, x) :: xs, ys =>
    (match ys.lookup key with
      | some y => alike x y
      | none => false) && alikeFields xs ys

end

/-- The word for a value that is a list or a mapping, which cannot serve as a key. -/
def containerName? : Json → Option String
  | array _ => some "list"
  | object _ => some "dict"
  | _ => none

-- ---------------------------------------------------------------------------
-- Display
-- ---------------------------------------------------------------------------

/-- How diagnostics spell the floating-point numbers that are not finite. -/
def shownNames : Binary64.SpecialNames := ⟨"inf", "nan"⟩

mutual

/-- The form of a value in which every text is quoted. -/
def quoted : Json → String
  | null => "None"
  | bool value => if value then "True" else "False"
  | int value => toString value
  | float value => value.text shownNames
  | string s => Text.quoted s
  | array items => "[" ++ ", ".intercalate (quotedItems items) ++ "]"
  | object fields => "\x7b" ++ ", ".intercalate (quotedFields fields) ++ "\x7d"

/-- The quoted forms of the items of an array. -/
def quotedItems : List Json → List String
  | [] => []
  | item :: items => quoted item :: quotedItems items

/-- The quoted forms of the fields of an object. -/
def quotedFields : List (String × Json) → List String
  | [] => []
  | (key, value) :: fields => (Text.quoted key ++ ": " ++ quoted value) :: quotedFields fields

end

/-- The form of a value that shows a text as it stands. -/
def display : Json → String
  | string s => s
  | value => quoted value

end Json

end Reckoner
